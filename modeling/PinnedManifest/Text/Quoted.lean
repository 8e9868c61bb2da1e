import PinnedManifest.Text.Unprintable

/-!
# Text/Quoted — a text between double quotes

Quotes and backslashes inside the text get a backslash, the common controls their short escapes, and
every other character that is not shown as itself its code point.
-/

namespace PinnedManifest.Text.Quoted

/-- Lowercase hexadecimal digits without leading zeros. -/
def hexDigits (n : Nat) : String := String.ofList (Nat.toDigits 16 n)

/-- A character by its code point. -/
def codePoint (c : Char) : String := "\\u\x7b" ++ hexDigits c.toNat ++ "\x7d"

/-- How a character stands in a quoted text. -/
def escaped (c : Char) : String :=
  if c = '\x00' then "\\0"
  else if c = '\t' then "\\t"
  else if c = '\n' then "\\n"
  else if c = '\r' then "\\r"
  else if c = '"' then "\\\""
  else if c = '\\' then "\\\\"
  else if isUnprintable c then codePoint c
  else String.singleton c

/-- A text between quotes. -/
def quote (text : String) : String := "\"" ++ String.join (text.toList.map escaped) ++ "\""

end PinnedManifest.Text.Quoted
