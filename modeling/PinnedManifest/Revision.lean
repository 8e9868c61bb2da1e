import PinnedManifest.Text.Quoted

/-!
# Revision — a source revision that is safe inside a URL path

A revision is a commit, tag or branch name, opaque except that it must be safe to put between two
slashes of a URL.  `Revision.fault?` names the first rule a text breaks, in the order of
`Revision.Fault`; a `Revision` is a text together with the fact that it breaks none.
-/

namespace PinnedManifest

/-- A character that no revision may contain: white space or a control character. -/
def Revision.forbids (c : Char) : Bool := Text.isWhite c || Text.isControl c

/-- Whether two full stops stand side by side. -/
def Revision.hasDoubleDot : List Char → Bool
  | [] => false
  | c :: rest => (c == '.' && rest.head? == some '.') || hasDoubleDot rest

/-- Why a text is no revision. -/
inductive Revision.Fault
  | empty
  | forbidden (c : Char)
  | slashAtEdge
  | doubleDot
  deriving DecidableEq, Repr

/-- The first rule the characters break: not empty, no forbidden character (the leftmost one is
blamed), no slash at either end, no two full stops in a row. -/
def Revision.faultOf? (cs : List Char) : Option Revision.Fault :=
  if cs.isEmpty then some .empty
  else
    match cs.find? Revision.forbids with
    | some c => some (.forbidden c)
    | none =>
      if cs.head? == some '/' || cs.getLast? == some '/' then some .slashAtEdge
      else if Revision.hasDoubleDot cs then some .doubleDot
      else none

/-- The first rule a text breaks. -/
def Revision.fault? (text : String) : Option Revision.Fault := Revision.faultOf? text.toList

/-- A text that breaks no rule. -/
structure Revision where
  text : String
  sound : Revision.fault? text = none
  deriving DecidableEq

/-- A refused text and the rule it breaks. -/
structure Revision.Rejection where
  value : String
  fault : Revision.Fault
  deriving DecidableEq, Repr

namespace Revision

/-- The revision that a text is, or the reason it is none. -/
def ofText (text : String) : Except Rejection Revision :=
  match h : fault? text with
  | none => .ok ⟨text, h⟩
  | some fault => .error ⟨text, fault⟩

instance : ToString Revision := ⟨Revision.text⟩

/-- How a forbidden character is shown: a blank as itself, the common controls by their short
escapes, any other by its code point. -/
def quoted (c : Char) : String :=
  if c = ' ' then "' '"
  else if c = '\t' then "'\\t'"
  else if c = '\n' then "'\\n'"
  else if c = '\r' then "'\\r'"
  else if c = '\x00' then "'\\0'"
  else "'" ++ Text.Quoted.codePoint c ++ "'"

/-- The wording of a broken rule. -/
def Fault.reason : Fault → String
  | .empty => "revision must not be empty"
  | .forbidden c => "whitespace or control character " ++ quoted c
  | .slashAtEdge => "revision must not start or end with '/'"
  | .doubleDot => "revision must not contain '..'"

/-- How a rejection with the given reason reads. -/
def rejectionText (value reason : String) : String :=
  "invalid revision \"" ++ value ++ "\": " ++ reason

/-- The wording of a rejection. -/
def Rejection.message (r : Rejection) : String := rejectionText r.value r.fault.reason

/-- **A text is accepted exactly when it breaks no rule**, and is then kept unchanged. -/
theorem ofText_eq_ok_iff {text : String} {r : Revision} :
    ofText text = .ok r ↔ fault? text = none ∧ r.text = text := by
  unfold ofText
  split
  next h =>
    constructor
    · intro hr
      cases hr
      exact ⟨h, rfl⟩
    · rintro ⟨_, rfl⟩
      rfl
  next fault h => simp [h]

/-- An accepted revision is what its own text gives. -/
theorem ofText_text (r : Revision) : ofText r.text = .ok r :=
  ofText_eq_ok_iff.mpr ⟨r.sound, rfl⟩

end Revision

end PinnedManifest
