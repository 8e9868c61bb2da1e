import PinnedManifest.Text.Quoted

/-!
# Log — what a run says while it goes on

An entry is one line of text.  Where it is shown, the characters that could steer a terminal are
written out.
-/

namespace PinnedManifest

/-- How much an entry matters. -/
inductive Log.Level
  | debug
  | info
  | error
  deriving DecidableEq, Repr

/-- One entry of the log. -/
structure Log.Entry where
  level : Log.Level
  text : String
  deriving DecidableEq, Repr

namespace Log

/-- How a level is shown in front of an entry. -/
def Level.label : Level → String
  | .debug => "DEBUG"
  | .info => "INFO"
  | .error => "ERROR"

/-- The place of a level between little and much. -/
def Level.weight : Level → Nat
  | .debug => 0
  | .info => 1
  | .error => 2

/-- An entry as one line. -/
def Entry.line (e : Entry) : String := e.level.label ++ " " ++ e.text

/-- How a character of an entry is shown: an escape, a bell, a backspace, a form feed and a delete by
two digits, a control of the second group by its code point, any other as itself. -/
def guarded (c : Char) : String :=
  if c = '\x1b' then "\\x1b"
  else if c = '\x07' then "\\x07"
  else if c = '\x08' then "\\x08"
  else if c = '\x0c' then "\\x0c"
  else if c = '\x7f' then "\\x7f"
  else if 0x80 ≤ c.toNat ∧ c.toNat ≤ 0x9F then Text.Quoted.codePoint c
  else String.singleton c

/-- An entry as it is shown. -/
def Entry.shown (e : Entry) : String :=
  e.level.label ++ " " ++ String.join (e.text.toList.map guarded)

/-- Whether an entry is shown when the least level shown is given. -/
def Entry.isShown (least : Level) (e : Entry) : Bool := least.weight ≤ e.level.weight

/-- The lines of a log of which only so much is shown. -/
def shown (least : Level) (entries : List Entry) : List String :=
  (entries.filter (·.isShown least)).map Entry.shown

/-- The wording of a log that cannot be set up. -/
def setupError (reason : String) : String := "failed to install log subscriber: " ++ reason

/-- Why a log cannot be set up twice. -/
def alreadySetUp : String := "a global default trace dispatcher has already been set"

end Log

end PinnedManifest
