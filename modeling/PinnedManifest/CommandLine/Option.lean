/-!
# CommandLine/Option — the options of a manifest command

A parameter takes a value and a switch takes none.  Each has one long name and at most one letter;
no two share either.
-/

namespace PinnedManifest.CommandLine

/-- An option that takes a value. -/
inductive Parameter
  | template
  | output
  | commit
  | baseUrl
  | timeout
  deriving DecidableEq, Repr

/-- An option that takes no value. -/
inductive Switch
  | debug
  | help
  | version
  deriving DecidableEq, Repr

namespace Parameter

/-- The name after two dashes. -/
def long : Parameter → String
  | .template => "template"
  | .output => "output"
  | .commit => "commit"
  | .baseUrl => "base-url"
  | .timeout => "timeout"

/-- The letter after one dash. -/
def letter? : Parameter → Option Char
  | .template => some 't'
  | .output => some 'o'
  | .commit => some 'c'
  | .baseUrl => none
  | .timeout => none

/-- What stands for the value in a usage. -/
def valueName : Parameter → String
  | .template => "PATH"
  | .output => "PATH"
  | .commit => "REV"
  | .baseUrl => "URL"
  | .timeout => "SECS"

/-- What stands behind the name in a usage. -/
def placeholder (p : Parameter) : String := " <" ++ p.valueName ++ ">"

/-- The option with its value, as a usage shows it. -/
def usage (p : Parameter) : String := "--" ++ p.long ++ p.placeholder

end Parameter

namespace Switch

/-- The name after two dashes. -/
def long : Switch → String
  | .debug => "debug"
  | .help => "help"
  | .version => "version"

/-- The letter after one dash. -/
def letter : Switch → Char
  | .debug => 'd'
  | .help => 'h'
  | .version => 'V'

/-- The option as a usage shows it. -/
def usage (s : Switch) : String := "--" ++ s.long

end Switch

/-- An option of either kind. -/
inductive Opt
  | parameter (p : Parameter)
  | switch (s : Switch)
  deriving DecidableEq, Repr

namespace Opt

/-- The name after two dashes. -/
def long : Opt → String
  | .parameter p => p.long
  | .switch s => s.long

/-- The letter after one dash. -/
def letter? : Opt → Option Char
  | .parameter p => p.letter?
  | .switch s => some s.letter

/-- What stands behind the name in a usage. -/
def placeholder : Opt → String
  | .parameter p => p.placeholder
  | .switch _ => ""

/-- The option as a usage shows it. -/
def usage : Opt → String
  | .parameter p => p.usage
  | .switch s => s.usage

/-- All options, in the order of the help text. -/
def all : List Opt :=
  [.parameter .template, .parameter .output, .parameter .commit, .switch .debug,
    .parameter .baseUrl, .parameter .timeout, .switch .help, .switch .version]

/-- The option of a long name. -/
def ofLong? (name : String) : Option Opt := all.find? (·.long == name)

/-- The option of a letter. -/
def ofLetter? (letter : Char) : Option Opt := all.find? (·.letter? == some letter)

/-- **Long names tell the options apart** — each leads back to its own option. -/
theorem ofLong?_long : ∀ o : Opt, ofLong? o.long = some o
  | .parameter p => by cases p <;> decide
  | .switch s => by cases s <;> decide

end Opt

end PinnedManifest.CommandLine
