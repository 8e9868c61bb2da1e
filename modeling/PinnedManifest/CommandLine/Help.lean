import PinnedManifest.CommandLine.Settings
import PinnedManifest.Files.Path
import PinnedManifest.Text.Terminal

/-!
# CommandLine/Help — what a command prints instead of running

The summary puts each option on one line, its description in a second column; the full help puts the
description below the option.  Both note the variable that stands for an option, with the value it
has, and the default.  All texts are put together with their styles and shown without them.
-/

namespace PinnedManifest.CommandLine

open Text.Terminal (styled plain)

/-- The name of the package that the commands belong to. -/
def packageName : String := "module-manifest"

/-- The version of the package. -/
def packageVersion : String := "0.1.0"

/-- The name under which a command was called: the last part of its path. -/
def commandName (path : String) : String := ((Files.Path.ofText path).fileName?).getD packageName

namespace Parameter

/-- What a parameter is for. -/
def about : Parameter → String
  | .template => "Path to the Handlebars template file"
  | .output => "Path to the output YAML file"
  | .commit => "Commit of the upstream repository to fetch artefacts from"
  | .baseUrl => "Raw-content root of the upstream repository"
  | .timeout => "Network timeout per artefact, in seconds"

/-- The value of a parameter that is not given, as text. -/
def default? : Parameter → Option String
  | .template => some defaultTemplate
  | .output => some defaultOutput
  | .commit => none
  | .baseUrl => some defaultBaseUrl
  | .timeout => some (toString defaultTimeout)

/-- The variable that stands for a parameter, and its value. -/
def backing? (env : Environment) : Parameter → Option (String × Option String)
  | .baseUrl => some (Environment.baseUrlName, env.baseUrl)
  | .timeout => some (Environment.timeoutName, env.timeout)
  | _ => none

/-- The notes behind a description. -/
def notes (env : Environment) (p : Parameter) : List String :=
  ((p.backing? env).map fun (name, value) => "[env: " ++ name ++ "=" ++ value.getD "" ++ "]").toList
    ++ (p.default?.map fun value => "[default: " ++ value ++ "]").toList

end Parameter

namespace Switch

/-- What a switch is for; help points to its other form. -/
def about (form : Spelling) : Switch → String
  | .debug => "Enable debug logging"
  | .help =>
    match form with
    | .letter => "Print help (see more with '--help')"
    | .full => "Print help (see a summary with '-h')"
  | .version => "Print version"

end Switch

namespace Opt

/-- What an option is for. -/
def about (form : Spelling) : Opt → String
  | .parameter p => p.about
  | .switch s => s.about form

/-- The notes behind a description. -/
def notes (env : Environment) : Opt → List String
  | .parameter p => p.notes env
  | .switch _ => []

/-- The width of an option as it is written after the margin: a letter, a comma and a blank, or as
many blanks, and the usage. -/
def headingWidth (o : Opt) : Nat := 4 + o.usage.length

/-- How an option is written after the margin, its names set off. -/
def heading (o : Opt) : String :=
  (match o.letter? with
    | some c => styled (String.ofList ['-', c]) ++ ", "
    | none => "    ")
    ++ styled ("--" ++ o.long) ++ o.placeholder

end Opt

/-- Blanks for an indentation. -/
def blanks (n : Nat) : String := String.ofList (List.replicate n ' ')

/-- A text whose further lines are indented. -/
def indentRest (n : Nat) (text : String) : String :=
  String.ofList
    (text.toList.flatMap fun c => if c = '\n' then c :: List.replicate n ' ' else [c])

/-- The width of the widest heading. -/
def headingWidth : Nat := ((Opt.all.map Opt.headingWidth).max?).getD 0

/-- Blanks before a description below its option. -/
def bodyIndent : Nat := 10

/-- One option of the summary. -/
def summaryEntry (env : Environment) (o : Opt) : String :=
  "  " ++ o.heading ++ blanks (headingWidth - o.headingWidth + 2)
    ++ indentRest (headingWidth + 4) (" ".intercalate (o.about .letter :: o.notes env))

/-- One option of the full help. -/
def fullEntry (env : Environment) (o : Opt) : String :=
  let notes := o.notes env
  let body := o.about .full ++ (if notes.isEmpty then "" else "\n\n" ++ "\n".intercalate notes)
  "  " ++ o.heading ++ "\n" ++ blanks bodyIndent ++ indentRest bodyIndent body

/-- What the commands do, in one line. -/
def summaryAbout : String :=
  "Generates Zephyr module manifests for firmware blobs pinned to a source revision"

/-- What the commands do, in full. -/
def fullAbout : String :=
  "Generate a module.yml file for the Zephyr project.\n\n"
    ++ "Each artefact of the catalog is downloaded at the given commit, its SHA-256 digest is computed, "
    ++ "and the records are rendered through a Handlebars template. "
    ++ "The output file is replaced only when every artefact was retrieved successfully."

/-- The help text of a command. -/
def helpText (form : Spelling) (name : String) (env : Environment) : String :=
  let about := match form with
    | .letter => summaryAbout
    | .full => fullAbout
  let entries := match form with
    | .letter => "\n".intercalate (Opt.all.map (summaryEntry env))
    | .full => "\n\n".intercalate (Opt.all.map (fullEntry env))
  about ++ "\n\n" ++ styled "Usage:" ++ " " ++ styled name ++ " [OPTIONS] "
    ++ styled ("--" ++ Parameter.commit.long) ++ Parameter.commit.placeholder ++ "\n\n"
    ++ styled "Options:" ++ "\n" ++ entries ++ "\n"

/-- The version of a command. -/
def versionText : String := packageName ++ " " ++ packageVersion ++ "\n"

/-! ## Faults in words -/

/-- The wording of a fault, what is at fault set off. -/
def Fault.wording : Fault → String
  | .misfit (.unexpected arg) => "unexpected argument '" ++ styled arg ++ "' found"
  | .misfit (.surplus s value) =>
    "unexpected value '" ++ styled value ++ "' for '" ++ styled s.usage
      ++ "' found; no more were expected"
  | .valueMissing p => "a value is required for '" ++ styled p.usage ++ "' but none was supplied"
  | .repeated o => "the argument '" ++ styled o.usage ++ "' cannot be used multiple times"
  | .badTimeout text fault =>
    "invalid value '" ++ styled text ++ "' for '" ++ styled Parameter.timeout.usage ++ "': "
      ++ fault.message
  | .commitMissing => "the following required arguments were not provided:\n  "
    ++ styled Parameter.commit.usage

/-- A fault as it is told. -/
def Fault.message (f : Fault) : String := styled "error:" ++ " " ++ f.wording

namespace Stop

/-- What is printed when a command ends before it starts. -/
def text (name : String) (env : Environment) : Stop → String
  | .help form => plain (helpText form name env)
  | .version => versionText
  | .fault f => plain f.message

/-- The exit code of a command that ends before it starts. -/
def exitCode : Stop → Nat
  | .help _ => 0
  | .version => 0
  | .fault _ => 2

end Stop

end PinnedManifest.CommandLine
