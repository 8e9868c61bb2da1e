import PinnedManifest.Text.Split

/-!
# Files/Path — the text of a path

A path is read as the names between its slashes, with what a slash at either end adds.  The parent of
a path is a matter of its text alone: no link is followed to find it.
-/

namespace PinnedManifest.Files

/-- The parts of a path. -/
structure Path where
  /-- Whether it starts at the root. -/
  absolute : Bool
  names : List String
  /-- Whether a slash after the last name asks for a directory. -/
  asDirectory : Bool
  deriving DecidableEq, Repr

/-- Why a text cannot be passed to the system as a path at all. -/
inductive Path.Defect
  | nul
  | empty
  | tooLong
  deriving DecidableEq, Repr

namespace Path

/-- The number of bytes at which a path is too long. -/
def lengthLimit : Nat := 4096

/-- The first defect of a text. -/
def defect? (text : String) : Option Defect :=
  if text.toList.contains '\x00' then some .nul
  else if text.isEmpty then some .empty
  else if lengthLimit ≤ text.utf8ByteSize then some .tooLong
  else none

/-- The parts of a text. -/
def ofText (text : String) : Path where
  absolute := text.toList.head? == some '/'
  names := ((Text.split '/' text.toList).filter (!·.isEmpty)).map String.ofList
  asDirectory := text.toList.getLast? == some '/' && text.toList.any (· != '/')

/-- The steps that lead to where the path ends: its names, and a step to the directory itself where
one is asked for. -/
def steps (p : Path) : List String := p.names ++ if p.asDirectory then ["."] else []

/-- Names without those that lead nowhere, but for one at the start of a relative path. -/
def plainNames (p : Path) : List String :=
  match p.names with
  | [] => []
  | first :: rest =>
    (if first == "." && p.absolute then [] else [first]) ++ rest.filter (· != ".")

/-- The name at the end of a path, none when a dot stands there. -/
def fileName? (p : Path) : Option String :=
  p.plainNames.getLast?.filter fun name => name != "." && name != ".."

/-- Whether a piece between slashes leads nowhere. -/
def isIdle (piece : List Char) : Bool := piece.isEmpty || piece == ['.']

/-- The directory part of a path as it is written, without the last name and the idle pieces around
it; the current directory when there is none. -/
def parentText (text : String) : String :=
  match Text.split '/' text.toList with
  | [] => "."
  | first :: rest =>
    match rest.reverse.dropWhile isIdle with
    | [] => "."
    | _ :: before =>
      let kept := Text.join '/' (first :: (before.dropWhile isIdle).reverse)
      if kept.isEmpty then "/" else String.ofList kept

/-- The directory part of a path. -/
def parent (text : String) : Path := ofText (parentText text)

end Path

end PinnedManifest.Files
