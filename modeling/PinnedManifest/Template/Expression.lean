import PinnedManifest.Template.Lexeme
import PinnedManifest.Template.Tree

/-!
# Template/Expression — paths, arguments and calls

Readers for what stands inside a tag.  Blanks may stand between tokens but not inside a path.  A
choice, once it has matched, is not taken back.
-/

namespace PinnedManifest.Template

open Json (skipBlanks)

/-! ## Paths -/

/-- The rest after a leading step to the context itself, if there is one. -/
def skipCurrent (cs : List Char) : List Char :=
  match cs with
  | 't' :: 'h' :: 'i' :: 's' :: c :: rest => if isSeparator c then rest else cs
  | '.' :: '/' :: rest => rest
  | _ => cs

/-- The rest after the word for the root and a separator. -/
def skipRoot? (cs : List Char) : Option (List Char) :=
  match Json.after? "@root".toList cs with
  | some (c :: rest) => if isSeparator c then some rest else none
  | _ => none

/-- How many steps to an outer context there are, and the rest. -/
def countUps : List Char → Nat × List Char
  | '.' :: '.' :: c :: rest =>
    if isSeparator c then
      let (n, left) := countUps rest
      (n + 1, left)
    else (0, '.' :: '.' :: c :: rest)
  | cs => (0, cs)

/-- A name in a path: symbols, or anything between brackets. -/
def readName : Reader String
  | '[' :: rest =>
    let (name, left) := rest.span (· != ']')
    (char? ']' left).map fun left => (String.ofList name, left)
  | cs => readIdentifier cs

/-- As many names, each after a separator, as there are. -/
def readNames : Nat → List Char → List String × List Char
  | 0, cs => ([], cs)
  | fuel + 1, cs =>
    match cs with
    | c :: rest =>
      if isSeparator c then
        match readName rest with
        | some (name, left) =>
          let (names, left) := readNames fuel left
          (name :: names, left)
        | none => ([], cs)
      else ([], cs)
    | [] => ([], cs)

/-- A path; the name `this` leads nowhere and is left out. -/
def readPath : Reader Path := fun cs =>
  let start := skipCurrent cs
  let (fromRoot, start) := match skipRoot? start with
    | some rest => (true, rest)
    | none => (false, start)
  let (isVariable, start) := match char? '@' start with
    | some rest => (true, rest)
    | none => (false, start)
  let (ups, start) := countUps start
  (readName start).map fun (first, rest) =>
    let (more, rest) := readNames rest.length rest
    let names := (first :: more).filter (· != "this")
    (⟨String.ofList (consumed cs rest), fromRoot, isVariable, ups, names⟩, rest)

/-! ## Arguments -/

/-- An argument, given what reads an expression. -/
def readArgument (expr : Reader Expr) : Reader Argument := fun cs =>
  let named := do
    let (key, rest) ← readIdentifier cs
    let rest ← mark? '=' rest
    let (e, rest) ← expr (skipBlanks rest)
    return (Argument.named key e, rest)
  named.orElse fun _ => (expr cs).map fun (e, rest) => (.positional e, rest)

/-- As many arguments as there are. -/
def readArguments (expr : Reader Expr) : Nat → List Char → List Argument × List Char
  | 0, cs => ([], cs)
  | fuel + 1, cs =>
    match readArgument expr (skipBlanks cs) with
    | some (a, rest) =>
      let (more, rest) := readArguments expr fuel rest
      (a :: more, rest)
    | none => ([], cs)

/-- A helper's name and at least one argument. -/
def readCall (expr : Reader Expr) : Reader Call := fun cs => do
  let (name, rest) ← readIdentifier cs
  let (args, rest) := readArguments expr rest.length rest
  if args.isEmpty then none else some (⟨name, args⟩, rest)

/-- A call in parentheses, given what reads an expression inside it; a path alone is a call without
arguments. -/
def readParenthesis (expr : Reader Expr) : Reader Expr := fun cs => do
  let rest ← char? '(' cs
  let start := skipBlanks rest
  let call := (readCall expr start).map fun (c, rest) => (Expr.call c.helper c.args, rest)
  let (e, rest) ← call.orElse fun _ =>
    (readPath start).map fun (p, rest) => (.call p.source [], rest)
  let rest ← mark? ')' rest
  return (e, rest)

/-- An argument's expression: not a keyword but a literal, a path or a parenthesis. -/
def readExprWith (inner : Reader Expr) : Reader Expr := fun cs =>
  if startsWithKeyword cs then none
  else
    let literal := (readLiteral cs).map fun (result, rest) =>
      (match result with
        | .ok v => Expr.literal v
        | .error source => .unreadable source, rest)
    literal.orElse fun _ =>
      ((readPath cs).map fun (p, rest) => (.path p, rest)).orElse fun _ => readParenthesis inner cs

/-- An expression in which parentheses are nested less deep than given. -/
def readExprNested : Nat → Reader Expr
  | 0 => fun _ => none
  | depth + 1 => readExprWith (readExprNested depth)

/-- An expression; the text is longer than any nesting in it is deep. -/
def readExpr : Reader Expr := fun cs => readExprNested (cs.length + 1) cs

/-- What a tag names besides a helper with arguments: a parenthesis or a path. -/
def readReference : Reader Shown := fun cs =>
  ((readParenthesis readExpr cs).map fun (e, rest) => (.computed e, rest)).orElse fun _ =>
    (readPath cs).map fun (p, rest) => (.path p, rest)

/-- What a value tag shows. -/
def readShown : Reader Shown := fun cs =>
  ((readCall readExpr cs).map fun (c, rest) => (.call c, rest)).orElse fun _ => readReference cs

/-! ## Lines of a block tag -/

/-- The names between bars at the end of a block's tag: one, or two. -/
def readAliases (cs : List Char) : Option (List String × List Char) := do
  let rest ← Json.after? "as".toList (skipBlanks cs)
  let rest ← mark? '|' rest
  let (first, rest) ← readIdentifier (skipBlanks rest)
  match readIdentifier (skipBlanks rest) with
  | some (second, rest) => return ([first, second], ← mark? '|' rest)
  | none => return ([first], ← mark? '|' rest)

/-- A helper's name, any number of arguments, and the aliases of a block. -/
def readLine : Reader (Call × List String) := fun cs => do
  let (name, rest) ← readIdentifier cs
  let (args, rest) := readArguments readExpr rest.length rest
  match readAliases rest with
  | some (aliases, rest) => return ((⟨name, args⟩, aliases), rest)
  | none => return ((⟨name, args⟩, []), rest)

/-- A character of a partial's name. -/
def isPartialSymbol (c : Char) : Bool :=
  c.isAlphanum || ['_', '-', '@', '/', '.'].contains c || decide (0x80 ≤ c.toNat)

/-- The text in front of a single quote that no backslash precedes, and the rest. -/
def spanQuoted : List Char → List Char × List Char
  | '\\' :: '\'' :: rest =>
    let (text, left) := spanQuoted rest
    ('\\' :: '\'' :: text, left)
  | c :: rest =>
    if c = '\'' then ([], c :: rest)
    else
      let (text, left) := spanQuoted rest
      (c :: text, left)
  | [] => ([], [])

/-- A partial's name as it is written: letters and some marks, or a text in single quotes. -/
def readPartialName : Reader String
  | '\'' :: rest =>
    let (name, left) := spanQuoted rest
    if name.isEmpty then none
    else (char? '\'' left).map fun left => (String.ofList ('\'' :: name ++ ['\'']), left)
  | cs =>
    let (name, left) := cs.span isPartialSymbol
    if name.isEmpty then none else some (String.ofList name, left)

/-- A partial's name, a path taken as a name, or a parenthesis that computes one. -/
def readTarget : Reader Target := fun cs =>
  ((readPartialName cs).map fun (name, rest) => (.named name, rest)).orElse fun _ =>
    ((readParenthesis readExpr cs).map fun (e, rest) => (.computed e, rest)).orElse fun _ =>
      (readPath cs).map fun (p, rest) => (.named p.source, rest)

/-- A partial with its arguments. -/
def readInsertion : Reader (Target × List Argument) := fun cs =>
  (readTarget cs).map fun (target, rest) =>
    let (args, rest) := readArguments readExpr rest.length rest
    ((target, args), rest)

end PinnedManifest.Template
