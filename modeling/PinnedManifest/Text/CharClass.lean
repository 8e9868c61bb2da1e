/-!
# Text/CharClass — the two classes of characters a revision may not hold

`isWhite` is the Unicode property White_Space and `isControl` the general category Cc, each given as
a table of code-point ranges.  Both classes reach beyond ASCII: `U+0085` is in both, and the
ideographic space `U+3000` is white.
-/

namespace PinnedManifest.Text

/-- An inclusive range of code points. -/
structure CodeRange where
  first : Nat
  last : Nat

/-- Whether a character lies in the range. -/
def CodeRange.holds (r : CodeRange) (c : Char) : Bool :=
  r.first ≤ c.toNat && c.toNat ≤ r.last

/-- The Unicode property White_Space. -/
def whiteSpace : List CodeRange :=
  [⟨0x09, 0x0D⟩, ⟨0x20, 0x20⟩, ⟨0x85, 0x85⟩, ⟨0xA0, 0xA0⟩, ⟨0x1680, 0x1680⟩, ⟨0x2000, 0x200A⟩,
    ⟨0x2028, 0x2029⟩, ⟨0x202F, 0x202F⟩, ⟨0x205F, 0x205F⟩, ⟨0x3000, 0x3000⟩]

/-- The general category Cc: the C0 controls, delete, and the C1 controls. -/
def controls : List CodeRange := [⟨0x00, 0x1F⟩, ⟨0x7F, 0x9F⟩]

/-- Whether a character has the property White_Space. -/
def isWhite (c : Char) : Bool := whiteSpace.any (·.holds c)

/-- Whether a character is a control character. -/
def isControl (c : Char) : Bool := controls.any (·.holds c)

/-- The White_Space table names twenty-five characters. -/
example : (whiteSpace.map fun r => r.last + 1 - r.first).sum = 25 := by decide

end PinnedManifest.Text
