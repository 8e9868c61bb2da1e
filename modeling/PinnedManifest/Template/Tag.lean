import PinnedManifest.Template.Expression

/-!
# Template/Tag — one tag between braces

`readTag` takes a tag off the start of a text.  The character after the opening braces, and after a
mark that trims, tells the forms apart; a tag that fits no form is no tag at all.
-/

namespace PinnedManifest.Template

open Json (skipBlanks)

/-- What a tag does. -/
inductive Form
  | value (shown : Shown)
  | open (call : Call) (aliases : List String)
  | otherwise
  | chain (call : Call) (aliases : List String)
  /-- The end of a block, read as a helper's or a decorator's name and as a partial's name, either of
  which may be empty. -/
  | close (block partialName : Option String)
  | openRaw (call : Call) (aliases : List String)
  | closeRaw (name : String)
  | comment
  | decorate (call : Call)
  | openDecorated (call : Call)
  | insert (target : Target) (args : List Argument)
  | openInsert (target : Target) (args : List Argument)

/-- A form with the marks that trim the text on either side of the tag. -/
structure Tag where
  form : Form
  trimBefore : Bool
  trimAfter : Bool

/-- A mark that trims, if there is one, and the rest without blanks. -/
def takeTrim (cs : List Char) : Bool × List Char :=
  match mark? '~' cs with
  | some rest => (true, skipBlanks rest)
  | none => (false, skipBlanks cs)

/-- The rest after opening braces, with the mark that trims before the tag. -/
def readOpening (cs : List Char) : Option (Bool × List Char) :=
  (Json.after? ['{', '{'] cs).map takeTrim

/-- The rest after given closing braces, with the mark that trims after the tag. -/
def readClosing (braces : List Char) (cs : List Char) : Option (Bool × List Char) :=
  match mark? '~' cs with
  | some rest => (Json.after? braces (skipBlanks rest)).map fun rest => (true, rest)
  | none => (Json.after? braces (skipBlanks cs)).map fun rest => (false, rest)

/-- A tag whose form starts at a given text and ends in two braces. -/
def finish (trimBefore : Bool) (form : Option (Form × List Char)) : Option (Tag × List Char) :=
  form.bind fun (form, rest) =>
    (readClosing ['}', '}'] rest).map fun (trimAfter, rest) => (⟨form, trimBefore, trimAfter⟩, rest)

/-- Three braces on either side, the marks inside them. -/
def readTriple (cs : List Char) : Option (Tag × List Char) := do
  let rest ← Json.after? ['{', '{', '{'] cs
  let (trimBefore, rest) := takeTrim rest
  let (shown, rest) ← readShown rest
  let (trimAfter, rest) ← readClosing ['}', '}', '}'] rest
  return (⟨.value shown, trimBefore, trimAfter⟩, rest)

/-- The rest after the word or the mark for the other case. -/
def skipOtherwise (cs : List Char) : Option (List Char) :=
  (Json.after? "else".toList cs).orElse fun _ => char? '^' cs

/-- The end of a block. -/
def readClose (cs : List Char) : Option (Form × List Char) :=
  let ends (rest : List Char) : Bool := (readClosing ['}', '}'] rest).isSome
  let (name, left) := (readIdentifier cs).getD ("", cs)
  let block := if ends left then some name else none
  let (partialName, rest) := (readPartialName cs).getD ("", cs)
  if ends rest then some (.close block (some partialName), rest)
  else block.map fun name => (.close (some name) none, left)

/-- The form of a tag from after its opening braces, and the rest in front of its closing ones. -/
def readForm (cs : List Char) : Option (Form × List Char) :=
  match cs with
  | '#' :: rest =>
    match skipBlanks rest with
    | '*' :: rest =>
      (readLine (skipBlanks rest)).map fun ((call, _), rest) => (.openDecorated call, rest)
    | '>' :: rest =>
      (readInsertion (skipBlanks rest)).map fun ((t, args), rest) => (.openInsert t args, rest)
    | rest => (readLine rest).map fun ((call, aliases), rest) => (.open call aliases, rest)
  | '/' :: rest => readClose (skipBlanks rest)
  | '*' :: rest => (readLine (skipBlanks rest)).map fun ((call, _), rest) => (.decorate call, rest)
  | '>' :: rest =>
    (readInsertion (skipBlanks rest)).map fun ((t, args), rest) => (.insert t args, rest)
  | '&' :: rest => (readReference (skipBlanks rest)).map fun (shown, rest) => (.value shown, rest)
  | '{' :: rest => do
    let (shown, rest) ← readShown (skipBlanks rest)
    let rest ← mark? '}' rest
    return (.value shown, rest)
  | _ => (readShown cs).map fun (shown, rest) => (.value shown, rest)

/-- The other case of a block, alone or with a block of its own. -/
def readAlternative (trimBefore : Bool) (cs : List Char) : Option (Tag × List Char) :=
  (skipOtherwise cs).bind fun rest =>
    (finish trimBefore (some (.otherwise, rest))).orElse fun _ =>
      finish trimBefore
        ((readLine (skipBlanks rest)).map fun ((call, aliases), rest) => (.chain call aliases, rest))

/-- The rest after the first place where a given text stands. -/
def skipPast (text : List Char) : List Char → Option (List Char)
  | [] => Json.after? text []
  | c :: rest =>
    match Json.after? text (c :: rest) with
    | some left => some left
    | none => skipPast text rest

/-- The rest after a comment: up to two dashes and braces when it starts, blanks apart, with two
dashes and such an end follows, else up to the next closing braces. -/
def skipComment (cs : List Char) : Option (List Char) :=
  (Json.after? ['{', '{', '!'] cs).bind fun rest =>
    ((Json.after? ['-', '-'] (skipBlanks rest)).bind (skipPast ['-', '-', '}', '}'])).orElse fun _ =>
      skipPast ['}', '}'] rest

/-- The tag at the start of a text, and the rest. -/
def readTag (cs : List Char) : Option (Tag × List Char) :=
  match skipComment cs with
  | some rest => some (⟨.comment, false, false⟩, rest)
  | none =>
    (readTriple cs).orElse fun _ =>
      (readOpening cs).bind fun (trimBefore, rest) =>
        (readAlternative trimBefore rest).orElse fun _ => finish trimBefore (readForm rest)

/-- The braces in front of a tag of a raw block. -/
def fourOpen : List Char := ['{', '{', '{', '{']

/-- The braces behind a tag of a raw block. -/
def fourClose : List Char := ['}', '}', '}', '}']

/-- The opening tag of a raw block, between four braces. -/
def readRawOpening (cs : List Char) : Option (Tag × List Char) := do
  let rest ← Json.after? fourOpen cs
  let (trimBefore, rest) := takeTrim rest
  let ((call, aliases), rest) ← readLine rest
  let (trimAfter, rest) ← readClosing fourClose rest
  return (⟨.openRaw call aliases, trimBefore, trimAfter⟩, rest)

/-- The closing tag of a raw block, its name perhaps empty. -/
def readRawClosing (cs : List Char) : Option (Tag × List Char) := do
  let rest ← Json.after? fourOpen cs
  let (trimBefore, rest) := takeTrim rest
  let rest ← mark? '/' rest
  let (name, rest) := (readIdentifier (skipBlanks rest)).getD ("", rest)
  let (trimAfter, rest) ← readClosing fourClose rest
  return (⟨.closeRaw name, trimBefore, trimAfter⟩, rest)

end PinnedManifest.Template
