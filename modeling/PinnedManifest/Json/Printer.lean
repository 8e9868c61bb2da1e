import PinnedManifest.Json.Value

/-!
# Json/Printer — compact JSON text

Members and items are written in their order with no blanks.  In a string only the quote, the
backslash and the control characters below a blank are escaped, five of them by a letter.
-/

namespace PinnedManifest.Json

/-- The lowercase hexadecimal digit of a value below sixteen. -/
def hexDigit (n : Nat) : Char := if n < 10 then Char.ofNat (48 + n) else Char.ofNat (87 + n)

/-- How one character of a string is written. -/
def escape (c : Char) : List Char :=
  if c = '"' then ['\\', '"']
  else if c = '\\' then ['\\', '\\']
  else if c = '\x08' then ['\\', 'b']
  else if c = '\x0c' then ['\\', 'f']
  else if c = '\n' then ['\\', 'n']
  else if c = '\r' then ['\\', 'r']
  else if c = '\t' then ['\\', 't']
  else if c.toNat < 32 then
    ['\\', 'u', '0', '0', hexDigit (c.toNat / 16), hexDigit (c.toNat % 16)]
  else [c]

/-- A string between quotes. -/
def quote (s : String) : List Char := '"' :: s.toList.flatMap escape ++ ['"']

mutual

/-- A value in compact form. -/
def Value.chars : Value → List Char
  | .null => "null".toList
  | .bool true => "true".toList
  | .bool false => "false".toList
  | .number n => n.text.toList
  | .string s => quote s
  | .array [] => ['[', ']']
  | .array (item :: items) => '[' :: item.chars ++ Value.itemChars items
  | .object [] => ['\x7b', '\x7d']
  | .object ((key, value) :: members) =>
    '\x7b' :: quote key ++ ':' :: value.chars ++ Value.memberChars members

/-- The items after the first, and the end of the array. -/
def Value.itemChars : List Value → List Char
  | [] => [']']
  | item :: items => ',' :: item.chars ++ Value.itemChars items

/-- The members after the first, and the end of the object. -/
def Value.memberChars : List (String × Value) → List Char
  | [] => ['\x7d']
  | (key, value) :: members => ',' :: quote key ++ ':' :: value.chars ++ Value.memberChars members

end

/-- A value as compact text. -/
def Value.text (v : Value) : String := String.ofList v.chars

end PinnedManifest.Json
