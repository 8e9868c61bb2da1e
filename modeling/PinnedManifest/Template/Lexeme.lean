import PinnedManifest.Json.Reader

/-!
# Template/Lexeme — the smallest parts of a tag

Names, separators and literals, each read from the start of a text with what is left over.  A literal
is recognised by its shape and then read as JSON; one between single quotes is first put between
double quotes.
-/

namespace PinnedManifest.Template

open Json (isBlank skipBlanks)

/-- What takes a value off the start of a text and leaves the rest. -/
abbrev Reader (α : Type) := List Char → Option (α × List Char)

/-- A character of a name. -/
def isSymbol (c : Char) : Bool :=
  c.isAlphanum || ['_', '-', '$', ':'].contains c || decide (0x80 ≤ c.toNat)

/-- The character between the names of a path. -/
def isSeparator (c : Char) : Bool := c == '/' || c == '.'

/-- The text in front of a rest of it. -/
def consumed (cs rest : List Char) : List Char := cs.take (cs.length - rest.length)

/-- A given character. -/
def char? (c : Char) : List Char → Option (List Char)
  | d :: rest => if c = d then some rest else none
  | [] => none

/-- A given character after blanks. -/
def mark? (c : Char) (cs : List Char) : Option (List Char) := char? c (skipBlanks cs)

/-- Whether a text starts with a character of a name. -/
def startsWithSymbol : List Char → Bool
  | c :: _ => isSymbol c
  | [] => false

/-- A name: symbols, at least one. -/
def readIdentifier : Reader String := fun cs =>
  let (name, rest) := cs.span isSymbol
  if name.isEmpty then none else some (String.ofList name, rest)

/-- Whether a text starts with one of the two words that end a list of arguments: `as` or `else`,
when, blanks apart, no symbol follows. -/
def startsWithKeyword (cs : List Char) : Bool :=
  match (Json.after? "as".toList cs).orElse fun _ => Json.after? "else".toList cs with
  | some rest => !startsWithSymbol (skipBlanks rest)
  | none => false

/-! ## Literals -/

/-- The letters that may follow a backslash in a string between the given quotes. -/
def isEscapeLetter (quote c : Char) : Bool := c == quote || "\\/bfnrt".toList.contains c

/-- The rest after a string's closing quote. -/
def skipString (quote : Char) : List Char → Option (List Char)
  | [] => none
  | '\\' :: 'u' :: a :: b :: c :: d :: rest =>
    if (Json.hexUnit a b c d).isSome then skipString quote rest else none
  | '\\' :: e :: rest => if isEscapeLetter quote e then skipString quote rest else none
  | c :: rest =>
    if c = quote then some rest else if c = '\\' then none else skipString quote rest

/-- The rest after a string in either quotes. -/
def skipQuoted : List Char → Option (List Char)
  | '"' :: rest => skipString '"' rest
  | '\'' :: rest => skipString '\'' rest
  | _ => none

/-- The rest after a number: digits, an optional point with or without digits, an optional capital
exponent, and no symbol after them. -/
def skipNumber (cs : List Char) : Option (List Char) :=
  let cs := match cs with
    | '-' :: rest => rest
    | cs => cs
  let (whole, rest) := Number.takeDigits cs
  if whole.isEmpty then none
  else
    let rest := match rest with
      | '.' :: after => (Number.takeDigits after).2
      | rest => rest
    let rest := match rest with
      | 'E' :: after =>
        let (ds, left) := Number.takeDigits (match after with
          | '-' :: after => after
          | after => after)
        if ds.isEmpty then 'E' :: after else left
      | rest => rest
    if startsWithSymbol rest then none else some rest

/-- The rest after a word that no symbol follows. -/
def skipWord (word : String) (cs : List Char) : Option (List Char) :=
  match Json.after? word.toList cs with
  | some rest => if startsWithSymbol rest then none else some rest
  | none => none

/-- The rest after as many commas, each followed by an item, as there are. -/
def skipMore (item : List Char → Option (List Char)) : Nat → List Char → List Char
  | 0, cs => cs
  | fuel + 1, cs =>
    match (mark? ',' cs).bind fun rest => item (skipBlanks rest) with
    | some rest => skipMore item fuel rest
    | none => cs

/-- The rest after a list of items, each optional first, up to a closing character. -/
def skipItems (item : List Char → Option (List Char)) (closing : Char) (cs : List Char) :
    Option (List Char) :=
  let first := (item (skipBlanks cs)).getD cs
  mark? closing (skipMore item first.length first)

/-- The rest after a literal, given what skips the literals inside a container. -/
def skipLiteralWith (inner : List Char → Option (List Char)) (cs : List Char) :
    Option (List Char) :=
  match cs with
  | '"' :: _ => skipQuoted cs
  | '\'' :: _ => skipQuoted cs
  | '[' :: rest => skipItems inner ']' rest
  | '{' :: rest =>
    let member (cs : List Char) : Option (List Char) :=
      ((skipQuoted cs).bind (mark? ':')).bind fun rest => inner (skipBlanks rest)
    skipItems member '}' rest
  | _ =>
    (skipNumber cs).orElse fun _ => (skipWord "null" cs).orElse fun _ =>
      (skipWord "true" cs).orElse fun _ => skipWord "false" cs

/-- The rest after a literal in which containers are nested less deep than given. -/
def skipLiteral : Nat → List Char → Option (List Char)
  | 0 => fun _ => none
  | depth + 1 => skipLiteralWith (skipLiteral depth)

/-- The inside of a string between single quotes as it reads between double quotes. -/
def requote : List Char → List Char
  | '\\' :: '\'' :: rest => '\'' :: requote rest
  | '"' :: rest => '\\' :: '"' :: requote rest
  | c :: rest => c :: requote rest
  | [] => []

/-- The JSON text of a literal. -/
def literalText : List Char → String
  | '\'' :: rest => String.ofList ('"' :: requote rest.dropLast ++ ['"'])
  | cs => String.ofList cs

/-- A literal: the value it is in JSON, or else how it is written. -/
def readLiteral : Reader (Except String Json.Value) := fun cs =>
  (skipLiteral cs.length cs).map fun rest =>
    let source := consumed cs rest
    match Json.read? (literalText source) with
    | some v => (.ok v.merged, rest)
    | none => (.error (String.ofList source), rest)

end PinnedManifest.Template
