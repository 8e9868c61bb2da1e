import PinnedManifest.Files.Volume

/-!
# Files/Edit — plain changes to a tree

Writing a file in place, making and removing entries, and setting modes: what other programs do to the
files around an output.
-/

namespace PinnedManifest.Files.Volume

/-- The mode of a new directory. -/
def newDirectoryMode : Mode := 0o755

/-- The volume with the node at a place changed. -/
def modifyAt (v : Volume) (f : Node → Node) (place : Location) : Volume :=
  { v with root := v.root.modifyAt f place }

/-- The volume with a new entry where a path names none yet. -/
def create (v : Volume) (c : Caller) (path : String) (node : Node) : Except Fault Volume := do
  let e ← v.entry c path
  match Entries.find? e.name e.entries with
  | some _ => throw (.other "File exists (os error 17)")
  | none =>
    if c.mayChange e.mode then return v.put e.place e.name node else throw .permissionDenied

/-- The volume with a file written in place, or a new one of the given mode. -/
def write (v : Volume) (c : Caller) (path : String) (mode : Mode) (content : List UInt8) :
    Except Fault Volume :=
  match v.resolve c path with
  | .ok place =>
    match v.node? place with
    | some (.file old _) =>
      if c.mayWrite old then .ok (v.modifyAt (fun _ => .file old content) place)
      else .error .permissionDenied
    | _ => .error .isADirectory
  | .error .notFound => v.create c path (.file mode content)
  | .error e => .error e

/-- The volume with a new directory. -/
def makeDirectory (v : Volume) (c : Caller) (path : String) : Except Fault Volume :=
  v.create c path (.directory newDirectoryMode [])

/-- The volume with a new link. -/
def makeLink (v : Volume) (c : Caller) (path target : String) : Except Fault Volume :=
  v.create c path (.link target)

/-- The volume with the mode of what a path leads to set. -/
def setMode (v : Volume) (c : Caller) (path : String) (mode : Mode) : Except Fault Volume := do
  return v.modifyAt (Node.withMode mode) (← v.resolve c path)

/-- The volume without the entry that a path names. -/
def remove (v : Volume) (c : Caller) (path : String) : Except Fault Volume := do
  let e ← v.entry c path
  match Entries.find? e.name e.entries with
  | some _ => if c.mayChange e.mode then return v.erase e.place e.name else throw .permissionDenied
  | none => throw .notFound

end PinnedManifest.Files.Volume
