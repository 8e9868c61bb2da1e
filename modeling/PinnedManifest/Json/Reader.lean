import PinnedManifest.Json.Value
import PinnedManifest.Number.Decimal
import PinnedManifest.Text.Hex

/-!
# Json/Reader — reading JSON text

`read?` takes one value with blanks around it and keeps members in their order, repetitions and all;
`Value.merged` then gives each object the members it has as a mapping.  Containers may be nested a
hundred and twenty-seven deep.  Strings hold no raw control characters, numbers no leading zeros, and
a surrogate escape counts only as half of a pair.
-/

namespace PinnedManifest.Json

open PinnedManifest.Number

/-- The four characters between tokens. -/
def isBlank (c : Char) : Bool := c == ' ' || c == '\t' || c == '\n' || c == '\r'

/-- A text without the blanks at its start. -/
def skipBlanks (cs : List Char) : List Char := cs.dropWhile isBlank

/-- The text after a given beginning. -/
def after? : List Char → List Char → Option (List Char)
  | [], cs => some cs
  | p :: ps, c :: cs => if p = c then after? ps cs else none
  | _ :: _, [] => none

/-- A piece of a string: a character, or a code unit of sixteen bits. -/
inductive Piece
  | char (c : Char)
  | unit (n : Nat)
  deriving DecidableEq, Repr

/-- The character that a letter after a backslash stands for. -/
def unescape : Char → Option Char
  | '"' => some '"'
  | '\\' => some '\\'
  | '/' => some '/'
  | 'b' => some '\x08'
  | 'f' => some '\x0c'
  | 'n' => some '\n'
  | 'r' => some '\r'
  | 't' => some '\t'
  | _ => none

/-- The value of four hexadecimal digits. -/
def hexUnit (a b c d : Char) : Option Nat := do
  let a ← Text.Hex.value? a
  let b ← Text.Hex.value? b
  let c ← Text.Hex.value? c
  let d ← Text.Hex.value? d
  return 4096 * a + 256 * b + 16 * c + d

/-- The pieces up to the closing quote, and the text after it. -/
def readPieces : List Char → Option (List Piece × List Char)
  | [] => none
  | '"' :: rest => some ([], rest)
  | '\\' :: 'u' :: a :: b :: c :: d :: rest =>
    (hexUnit a b c d).bind fun n => (readPieces rest).map fun r => (.unit n :: r.1, r.2)
  | '\\' :: e :: rest =>
    (unescape e).bind fun c => (readPieces rest).map fun r => (.char c :: r.1, r.2)
  | c :: rest =>
    if c.toNat < 32 ∨ c = '\\' then none
    else (readPieces rest).map fun r => (.char c :: r.1, r.2)

/-- The characters of the pieces: two surrogates in a row make one, a lone one none. -/
def joinPieces : List Piece → Option (List Char)
  | [] => some []
  | .char c :: rest => (joinPieces rest).map (c :: ·)
  | .unit m :: .unit n :: rest =>
    if 0xD800 ≤ m ∧ m < 0xDC00 ∧ 0xDC00 ≤ n ∧ n < 0xE000 then
      (joinPieces rest).map (Char.ofNat (0x10000 + 0x400 * (m - 0xD800) + (n - 0xDC00)) :: ·)
    else if 0xD800 ≤ m ∧ m < 0xE000 then none
    else (joinPieces (.unit n :: rest)).map (Char.ofNat m :: ·)
  | .unit m :: rest =>
    if 0xD800 ≤ m ∧ m < 0xE000 then none else (joinPieces rest).map (Char.ofNat m :: ·)

/-- A string, from after its opening quote, and the text after it. -/
def readString (cs : List Char) : Option (String × List Char) :=
  (readPieces cs).bind fun r => (joinPieces r.1).map fun s => (String.ofList s, r.2)

/-- An integer that a word of sixty-four bits holds, signed or not; else, as for minus zero, a
floating-point number. -/
def integer (negative : Bool) (digits : List Char) : Option Json.Number :=
  let n := natOfDigits digits
  if !negative ∧ n < Nat.pow 2 64 then some (.int n)
  else if negative ∧ 0 < n ∧ n ≤ Nat.pow 2 63 then some (.int (-n))
  else ((Numeral.mk negative digits [] 0).stepwise).map .real

/-- An optional point and the digits after it, at least one; `none` for a point without digits. -/
def takeFraction : List Char → Option (List Char × List Char)
  | '.' :: rest =>
    let (ds, rest) := takeDigits rest
    if ds.isEmpty then none else some (ds, rest)
  | cs => some ([], cs)

/-- Whether a text goes on with an exponent. -/
def startsExponent : List Char → Bool
  | c :: _ => c == 'e' || c == 'E'
  | [] => false

/-- A number and the text after it. -/
def readNumber (cs : List Char) : Option (Json.Number × List Char) :=
  let (negative, cs) := match cs with
    | '-' :: rest => (true, rest)
    | cs => (false, cs)
  let (whole, rest) := takeDigits cs
  if whole.isEmpty || (whole.head? == some '0' && whole.length != 1) then none
  else
    (takeFraction rest).bind fun (fraction, rest) =>
      if fraction.isEmpty && !startsExponent rest then
        (integer negative whole).map fun n => (n, rest)
      else
        (takeExponent rest).bind fun (exponent, rest) =>
          ((Numeral.mk negative whole fraction exponent).stepwise).map fun x => (.real x, rest)

/-- What reads a value from the start of a text. -/
abbrev ValueReader := List Char → Option (Value × List Char)

/-- The items up to the closing bracket; one character at least goes with each. -/
def readItems (inner : ValueReader) : Nat → List Char → Option (List Value × List Char)
  | 0, _ => none
  | fuel + 1, cs =>
    (inner cs).bind fun (v, rest) =>
      match skipBlanks rest with
      | ',' :: rest => (readItems inner fuel rest).map fun r => (v :: r.1, r.2)
      | ']' :: rest => some ([v], rest)
      | _ => none

/-- The members up to the closing brace; one character at least goes with each. -/
def readMembers (inner : ValueReader) : Nat → List Char → Option (Members × List Char)
  | 0, _ => none
  | fuel + 1, cs =>
    match skipBlanks cs with
    | '"' :: rest =>
      (readString rest).bind fun (key, rest) =>
        match skipBlanks rest with
        | ':' :: rest =>
          (inner rest).bind fun (v, rest) =>
            match skipBlanks rest with
            | ',' :: rest => (readMembers inner fuel rest).map fun r => ((key, v) :: r.1, r.2)
            | '\x7d' :: rest => some ([(key, v)], rest)
            | _ => none
        | _ => none
    | _ => none

/-- A value, given what reads the values inside a container, if one may be opened. -/
def readWith (inner? : Option ValueReader) : ValueReader := fun cs =>
  match skipBlanks cs with
  | '"' :: rest => (readString rest).map fun (s, rest) => (.string s, rest)
  | '[' :: rest =>
    inner?.bind fun inner =>
      match skipBlanks rest with
      | ']' :: rest => some (.array [], rest)
      | _ => (readItems inner rest.length rest).map fun (items, rest) => (.array items, rest)
  | '\x7b' :: rest =>
    inner?.bind fun inner =>
      match skipBlanks rest with
      | '\x7d' :: rest => some (.object [], rest)
      | _ => (readMembers inner rest.length rest).map fun (members, rest) => (.object members, rest)
  | 'n' :: rest => (after? "ull".toList rest).map fun rest => (.null, rest)
  | 't' :: rest => (after? "rue".toList rest).map fun rest => (.bool true, rest)
  | 'f' :: rest => (after? "alse".toList rest).map fun rest => (.bool false, rest)
  | cs => (readNumber cs).map fun (n, rest) => (.number n, rest)

/-- A value in which containers are nested at most so deep. -/
def readNested : Nat → ValueReader
  | 0 => readWith none
  | depth + 1 => readWith (some (readNested depth))

/-- How deep containers may be nested. -/
def greatestDepth : Nat := 127

/-- The value that a text holds, if it holds one and blanks around it. -/
def read? (text : String) : Option Value :=
  match readNested greatestDepth text.toList with
  | some (v, rest) => if (skipBlanks rest).isEmpty then some v else none
  | none => none

mutual

/-- The value with each object as a mapping: a repeated name keeps its first place and last value. -/
def Value.merged : Value → Value
  | .array items => .array (Value.mergedItems items)
  | .object members => .object (Members.ofList (Value.mergedMembers members))
  | v => v

/-- Each item merged. -/
def Value.mergedItems : List Value → List Value
  | [] => []
  | v :: vs => v.merged :: Value.mergedItems vs

/-- Each member's value merged. -/
def Value.mergedMembers : List (String × Value) → List (String × Value)
  | [] => []
  | (key, v) :: rest => (key, v.merged) :: Value.mergedMembers rest

end

end PinnedManifest.Json
