import PinnedManifest.Json.Value

/-!
# Template/Tree — templates as trees

A template is a list of elements.  Text is copied; a value tag shows what a path or a helper yields;
a block gives its helper a body and an inverse; `define` names a body and `insert` renders one.
Blocks and insertions note whether they start a line (`opensLine`).  Every element that can fail
knows the place of its tag, except the inner blocks of an else chain, which have no tag of their own.
-/

namespace PinnedManifest.Template

/-- A place in a template: line and column from one, a column for each character. -/
structure Position where
  line : Nat
  column : Nat
  deriving DecidableEq, Repr

/-- A path to a value.  `names` leads from the root, or from the context so many levels up; an `@`
path names a variable of a block instead. -/
structure Path where
  /-- The path as it is written. -/
  source : String
  fromRoot : Bool
  isVariable : Bool
  levelsUp : Nat
  names : List String
  deriving DecidableEq, Repr

mutual

/-- What stands for a value. -/
inductive Expr
  | path (p : Path)
  | literal (v : Json.Value)
  /-- A literal that is no JSON value, as it is written. -/
  | unreadable (source : String)
  | call (helper : String) (args : List Argument)
  deriving Repr

/-- An argument, with a name or without. -/
inductive Argument
  | positional (e : Expr)
  | named (key : String) (e : Expr)
  deriving Repr

end

/-- A helper with its arguments, in their order. -/
structure Call where
  helper : String
  args : List Argument
  deriving Repr

/-- What a value tag shows. -/
inductive Shown
  /-- The value at a path, unless the path spells the name of a helper. -/
  | path (p : Path)
  /-- The value of an expression in parentheses. -/
  | computed (e : Expr)
  /-- What a helper writes. -/
  | call (c : Call)
  deriving Repr

/-- The name of a partial template. -/
inductive Target
  | named (name : String)
  | computed (e : Expr)
  deriving Repr

/-- A part of a template. -/
inductive Element
  | text (content : String)
  | value (place : Position) (shown : Shown)
  | block (place : Option Position) (opensLine : Bool) (call : Call) (aliases : List String)
      (body : List Element) (inverse : Option (List Element))
  | define (place : Position) (call : Call) (body : Option (List Element))
  | insert (place : Position) (opensLine : Bool) (target : Target) (args : List Argument)
      (indent : String) (body : Option (List Element))
  deriving Repr

/-- The elements of a template, or of a part of one. -/
abbrev Body := List Element

end PinnedManifest.Template
