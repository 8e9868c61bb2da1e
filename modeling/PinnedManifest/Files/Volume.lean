import PinnedManifest.Files.Fault
import PinnedManifest.Files.Node
import PinnedManifest.Files.Path

/-!
# Files/Volume — finding things in a tree by path

A volume is a tree and the current directory in it.  `Volume.resolve` follows a path name by name:
`..` leads to the directory that physically holds the present one, and a link puts the names of its
target in front of those that remain, at most forty times.
-/

namespace PinnedManifest.Files

/-- Who acts on the files: someone whom no permission stops, or the owner of them all. -/
inductive Caller
  | privileged
  | owner
  deriving DecidableEq, Repr

namespace Caller

/-- Whether the owner's bit of a permission is needed and missing. -/
def lacks (c : Caller) (bit mode : Mode) : Bool := c == .owner && mode &&& bit == 0

/-- Whether names in a directory of that mode may be looked up. -/
def maySearch (c : Caller) (mode : Mode) : Bool := !c.lacks 0o100 mode

/-- Whether a file of that mode may be read. -/
def mayRead (c : Caller) (mode : Mode) : Bool := !c.lacks 0o400 mode

/-- Whether something of that mode may be written. -/
def mayWrite (c : Caller) (mode : Mode) : Bool := !c.lacks 0o200 mode

/-- Whether entries of a directory of that mode may be changed. -/
def mayChange (c : Caller) (mode : Mode) : Bool := c.mayWrite mode && c.maySearch mode

end Caller

/-- Whether nobody may write. -/
def isReadOnly (mode : Mode) : Bool := mode &&& 0o222 == 0

/-- A tree and the current directory. -/
structure Volume where
  root : Node
  current : Location

namespace Volume

/-- The path of the current directory. -/
def currentText (v : Volume) : String := String.join (v.current.map ("/" ++ ·))

/-- The node at a place. -/
def node? (v : Volume) (place : Location) : Option Node := v.root.at? place

/-- The greatest number of bytes in a name. -/
def nameLimit : Nat := 255

/-- How many links one path may lead through. -/
def linkLimit : Nat := 40

/-- One step from a directory: the place it leads to and, when that is a link, its target. -/
def stepFrom (v : Volume) (c : Caller) (here : Location) (name : String) :
    Except Fault (Location × Option String) :=
  match v.node? here with
  | some (.directory mode entries) =>
    if !c.maySearch mode then .error .permissionDenied
    else if name = "." then .ok (here, none)
    else if name = ".." then .ok (here.dropLast, none)
    else if nameLimit < name.utf8ByteSize then .error .nameTooLong
    else
      match Entries.find? name entries with
      | none => .error .notFound
      | some (.link target) => .ok (here ++ [name], some target)
      | some _ => .ok (here ++ [name], none)
  | some _ => .error .notADirectory
  | none => .error .notFound

/-- What follows names from a place. -/
abbrev Follower := Location → List String → Except Fault Location

/-- Names followed one by one, given what goes on where a link leads. -/
def followWith (v : Volume) (c : Caller) (onLink : Follower) : Follower
  | here, [] => .ok here
  | here, name :: rest =>
    match v.stepFrom c here name with
    | .error e => .error e
    | .ok (place, none) => followWith v c onLink place rest
    | .ok (_, some target) =>
      let p := Path.ofText target
      onLink (if p.absolute then [] else here) (p.steps ++ rest)

/-- Names followed through at most so many links. -/
def follow (v : Volume) (c : Caller) : Nat → Follower
  | 0 => v.followWith c fun _ _ => .error .linkLoop
  | links + 1 => v.followWith c (v.follow c links)

/-- Where a path starts. -/
def start (v : Volume) (p : Path) : Location := if p.absolute then [] else v.current

/-- Where names lead from the start of a path. -/
def lookup (v : Volume) (c : Caller) (p : Path) (names : List String) : Except Fault Location :=
  v.follow c linkLimit (v.start p) names

/-- A fault for a text that is no path. -/
def checked (text : String) : Except Fault Path :=
  match Path.defect? text with
  | some .nul => .error .nulInPath
  | some .empty => .error .notFound
  | some .tooLong => .error .nameTooLong
  | none => .ok (Path.ofText text)

/-- The place that a path leads to, through every link. -/
def resolve (v : Volume) (c : Caller) (text : String) : Except Fault Location := do
  let p ← checked text
  v.lookup c p p.steps

/-- The mode of what a path leads to, none when nothing is there. -/
def modeAt? (v : Volume) (c : Caller) (text : String) : Except Fault (Option Mode) :=
  match v.resolve c text with
  | .ok place => .ok ((v.node? place).bind Node.mode?)
  | .error .notFound => .ok none
  | .error e => .error e

/-- The content of the file that a path leads to. -/
def read (v : Volume) (c : Caller) (text : String) : Except Fault (List UInt8) := do
  let place ← v.resolve c text
  match v.node? place with
  | some (.file mode content) => if c.mayRead mode then .ok content else .error .permissionDenied
  | some (.directory mode _) =>
    if c.mayRead mode then .error .isADirectory else .error .permissionDenied
  | _ => .error .notFound

/-- A directory that a path's names lead to, with its mode and entries. -/
def directory (v : Volume) (c : Caller) (p : Path) (names : List String) :
    Except Fault (Location × Mode × Entries) := do
  let place ← v.lookup c p names
  match v.node? place with
  | some (.directory mode entries) =>
    if c.maySearch mode then .ok (place, mode, entries) else .error .permissionDenied
  | some _ => .error .notADirectory
  | none => .error .notFound

/-- An entry as a path names it, its last link not followed: the directory that holds it, that
directory's mode and entries, and the name in it. -/
structure Entry where
  place : Location
  mode : Mode
  entries : Entries
  name : String

/-- The entry that a path names.  Its last name may not lead to a directory by way of a dot, and a
slash after it asks for one in vain. -/
def entry (v : Volume) (c : Caller) (text : String) : Except Fault Entry := do
  let p ← checked text
  let (place, mode, entries) ← v.directory c p p.names.dropLast
  match p.names.getLast? with
  | none => .error .busy
  | some name =>
    if name = "." ∨ name = ".." then .error .busy
    else if nameLimit < name.utf8ByteSize then .error .nameTooLong
    else if p.asDirectory then .error .notADirectory
    else .ok ⟨place, mode, entries, name⟩

/-- The volume with an entry put into a directory. -/
def put (v : Volume) (place : Location) (name : String) (node : Node) : Volume :=
  { v with root := v.root.putAt place name node }

/-- The volume without an entry of a directory. -/
def erase (v : Volume) (place : Location) (name : String) : Volume :=
  { v with root := v.root.eraseAt place name }

end Volume

end PinnedManifest.Files
