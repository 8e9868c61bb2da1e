import PinnedManifest.CommandLine.Reading
import PinnedManifest.CommandLine.Timeout
import PinnedManifest.Generation

/-!
# CommandLine/Settings — from arguments and environment to the settings of a run

Uses of options are taken up in their order, each option at most once; what the arguments leave open
comes from the environment, and what that leaves open from the defaults.  Only the revision has no
default.
-/

namespace PinnedManifest.CommandLine

/-- Why arguments are refused. -/
inductive Fault
  | misfit (m : Misfit)
  | valueMissing (p : Parameter)
  | repeated (o : Opt)
  | badTimeout (text : String) (fault : Timeout.Fault)
  | commitMissing
  deriving DecidableEq, Repr

/-- Why a command ends before it starts. -/
inductive Stop
  /-- Help was asked for: all of it for the full name, a summary for the letter. -/
  | help (spelling : Spelling)
  | version
  | fault (f : Fault)
  deriving DecidableEq, Repr

/-- What the arguments have set so far. -/
structure Given where
  template : Option String := none
  output : Option String := none
  commit : Option String := none
  debug : Bool := false
  baseUrl : Option String := none
  timeout : Option Nat := none
  deriving DecidableEq, Repr

/-- A path, which may not be empty. -/
def pathValue (p : Parameter) (value : String) : Except Fault String :=
  if value.isEmpty then .error (.valueMissing p) else .ok value

/-- A number of seconds. -/
def timeoutValue (value : String) : Except Fault Nat :=
  match Timeout.ofText value with
  | .ok n => .ok n
  | .error fault => .error (.badTimeout value fault)

namespace Given

/-- Whether a parameter has been set. -/
def has (g : Given) : Parameter → Bool
  | .template => g.template.isSome
  | .output => g.output.isSome
  | .commit => g.commit.isSome
  | .baseUrl => g.baseUrl.isSome
  | .timeout => g.timeout.isSome

/-- A parameter set, whether or not it was set before. -/
def set (g : Given) (p : Parameter) (value : String) : Except Fault Given :=
  match p with
  | .template => (pathValue p value).map fun v => { g with template := some v }
  | .output => (pathValue p value).map fun v => { g with output := some v }
  | .commit => .ok { g with commit := some value }
  | .baseUrl => .ok { g with baseUrl := some value }
  | .timeout => (timeoutValue value).map fun v => { g with timeout := some v }

/-- A parameter taken up: there must be a value, it must be the only one, and it must be good. -/
def take (g : Given) (p : Parameter) : Option String → Except Fault Given
  | none => .error (.valueMissing p)
  | some value => if g.has p then .error (.repeated (.parameter p)) else g.set p value

/-- One use taken up. -/
def use (g : Given) : Use → Except Stop Given
  | .switch .help spelling => .error (.help spelling)
  | .switch .version _ => .error .version
  | .switch .debug _ =>
    if g.debug then .error (.fault (.repeated (.switch .debug))) else .ok { g with debug := true }
  | .attached p value => (g.take p (some value)).mapError .fault
  | .separate p value => (g.take p value).mapError .fault

/-- Uses taken up one after the other. -/
def useAll (g : Given) : List Use → Except Stop Given
  | [] => .ok g
  | u :: rest => (g.use u).bind (useAll · rest)

end Given

/-- What a reading sets, unless it ends at an argument that has no place. -/
def Reading.given (r : Reading) : Except Stop Given :=
  (Given.useAll {} r.counted).bind fun g =>
    match r.misfit? with
    | none => .ok g
    | some m => .error (.fault (.misfit m))

/-- The variables of the environment that stand for an option. -/
structure Environment where
  baseUrl : Option String := none
  timeout : Option String := none
  deriving DecidableEq, Repr

/-- The variable that stands for the base address. -/
def Environment.baseUrlName : String := "MODULE_MANIFEST_BASE_URL"

/-- The variable that stands for the timeout. -/
def Environment.timeoutName : String := "MODULE_MANIFEST_TIMEOUT"

/-- The settings of a run. -/
structure Settings where
  template : String
  output : String
  commit : String
  debug : Bool
  baseUrl : String
  timeout : Nat
  deriving DecidableEq, Repr

/-- Where the template is, unless another path is given. -/
def defaultTemplate : String := "utils/module.yml.j2"

/-- Where the output goes, unless another path is given. -/
def defaultOutput : String := "zephyr/module.yml"

/-- Seconds that one artefact may take, unless others are given. -/
def defaultTimeout : Nat := 30

namespace Settings

/-- The timeout given, else the environment's, else the default. -/
def timeoutOf (env : Environment) : Option Nat → Except Fault Nat
  | some n => .ok n
  | none =>
    match env.timeout with
    | some text => timeoutValue text
    | none => .ok defaultTimeout

/-- What is given, completed. -/
def complete (env : Environment) (g : Given) : Except Fault Settings := do
  let timeout ← timeoutOf env g.timeout
  match g.commit with
  | none => .error .commitMissing
  | some commit =>
    .ok
      { template := g.template.getD defaultTemplate
        output := g.output.getD defaultOutput
        commit := commit
        debug := g.debug
        baseUrl := (g.baseUrl.orElse fun _ => env.baseUrl).getD defaultBaseUrl
        timeout := timeout }

/-- The settings that arguments and environment make. -/
def ofArgs (env : Environment) (args : List String) : Except Stop Settings :=
  (read args).given.bind fun g => (complete env g).mapError .fault

/-- The run that is asked for, if the revision is one. -/
def config (s : Settings) : Except Revision.Rejection Config :=
  (Revision.ofText s.commit).map fun revision =>
    ⟨s.template, s.output, revision, s.baseUrl, s.timeout⟩

/-- The least level that is shown. -/
def leastShown (s : Settings) : Log.Level := if s.debug then .debug else .info

end Settings

end PinnedManifest.CommandLine
