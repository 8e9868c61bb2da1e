import PinnedManifest.Files.Volume

/-!
# Files/Replacement — replacing a file at one stroke

New content is written to a file of its own beside the destination and moved over it when complete,
so that at no point the destination holds part of it.  `Disk.replace` is that sequence of steps over
whatever performs them; `Volume.disk` performs them on a tree.
-/

namespace PinnedManifest.Files

/-- What performs the steps of a replacement.  `Staged` stands for the file beside the destination. -/
structure Disk (m : Type → Type) (Staged : Type) where
  /-- The mode of what a path leads to, none when nothing is there. -/
  inspect : String → ExceptT Fault m (Option Mode)
  /-- A new empty file in the directory part of a path. -/
  stage : String → ExceptT Fault m Staged
  /-- Writes some of the bytes at the end of the file and says how many. -/
  append : Staged → List UInt8 → ExceptT Fault m Nat
  setMode : Staged → Mode → ExceptT Fault m Unit
  sync : Staged → ExceptT Fault m Unit
  /-- Moves the file to a path, over what is there. -/
  install : Staged → String → ExceptT Fault m Unit
  discard : Staged → m Unit

/-- The mode of an output that did not exist. -/
def newFileMode : Mode := 0o644

/-- The fault of a write that makes no progress. -/
def stalled : Fault := .other "failed to write whole buffer"

namespace Disk

variable {m : Type → Type} [Monad m] {Staged : Type}

/-- All bytes written, in as many steps as it takes; each step writes at least one. -/
def appendAll (disk : Disk m Staged) (s : Staged) : Nat → List UInt8 → ExceptT Fault m Unit
  | _, [] => pure ()
  | 0, _ :: _ => throw stalled
  | fuel + 1, b :: bytes => do
    let n ← disk.append s (b :: bytes)
    if n = 0 then throw stalled
    appendAll disk s fuel ((b :: bytes).drop n)

/-- The staged file filled, given its final mode, and moved into place. -/
def complete (disk : Disk m Staged) (s : Staged) (mode : Mode) (path : String)
    (content : List UInt8) : ExceptT Fault m Unit := do
  disk.appendAll s content.length content
  disk.setMode s mode
  disk.sync s
  disk.install s path

/-- A file replaced.  The mode found is kept, and one that nobody may write is left alone. -/
def replace (disk : Disk m Staged) (path : String) (content : List UInt8) :
    ExceptT Fault m Unit := do
  let found ← disk.inspect path
  if found.any isReadOnly then throw .readOnly
  let staged ← disk.stage path
  try
    disk.complete staged (found.getD newFileMode) path content
  catch e =>
    ExceptT.lift (disk.discard staged)
    throw e

end Disk

/-! ## Steps on a tree -/

/-- A staged file: the directory that holds it and its name there. -/
structure StagedFile where
  place : Location
  name : String
  deriving DecidableEq, Repr

/-- The mode of a staged file that has not been given another. -/
def stagedMode : Mode := 0o600

/-- A name made of a dot, a word and letters: six, and so many more. -/
def stagedName (i : Nat) : String := String.ofList (".tmp".toList ++ List.replicate (6 + i) 'x')

/-- The first such name that is not among the given ones. -/
def freshName (taken : List String) : String :=
  stagedName (((List.range (taken.length + 1)).find? fun i => !taken.contains (stagedName i)).getD 0)

namespace Volume

/-- The full path of a file beside a path. -/
def besidePath (v : Volume) (path name : String) : String :=
  let parent := Path.parentText path
  let directory :=
    if parent = "/" then ""
    else if (Path.ofText parent).absolute then parent
    else v.currentText ++ "/" ++ parent
  directory ++ "/" ++ name

/-- The volume with a new empty file beside a path.  The file is named by its full path, which can be
too long where the path is not. -/
def stageBeside (v : Volume) (c : Caller) (path : String) : Except Fault (StagedFile × Volume) := do
  if Path.lengthLimit ≤ (v.besidePath path (stagedName 0)).utf8ByteSize then throw .nameTooLong
  let parent := Path.parent path
  let (place, mode, entries) ← v.directory c parent parent.steps
  if !c.mayChange mode then throw .permissionDenied
  let name := freshName (entries.map (·.1) ++ (Path.ofText path).names)
  return (⟨place, name⟩, v.put place name (.file stagedMode []))

/-- The node of a staged file. -/
def staged? (v : Volume) (s : StagedFile) : Option Node := v.node? (s.place ++ [s.name])

/-- The volume with a staged file changed. -/
def mapStaged (v : Volume) (s : StagedFile) (f : Node → Node) : Volume :=
  { v with root := v.root.modifyAt f (s.place ++ [s.name]) }

/-- The volume with a staged file moved to a path. -/
def moveTo (v : Volume) (c : Caller) (s : StagedFile) (path : String) : Except Fault Volume := do
  let e ← v.entry c path
  if !c.mayChange e.mode then throw .permissionDenied
  match Entries.find? e.name e.entries, v.staged? s with
  | some (.directory _ _), _ => throw .isADirectory
  | _, some node => return (v.erase s.place s.name).put e.place e.name node
  | _, none => throw .notFound

end Volume

/-- The node with bytes added to its content. -/
def Node.append (bytes : List UInt8) : Node → Node
  | .file mode content => .file mode (content ++ bytes)
  | n => n

/-- Steps that change the state only when they succeed. -/
def onState {σ α : Type} (f : σ → Except Fault (α × σ)) : ExceptT Fault (StateM σ) α :=
  ExceptT.mk fun s =>
    match f s with
    | .ok (a, s') => (.ok a, s')
    | .error e => (.error e, s)

/-- The steps of a replacement on a tree.  Every write takes all bytes at once. -/
def Volume.disk (c : Caller) : Disk (StateM Volume) StagedFile where
  inspect path := onState fun v => (v.modeAt? c path).map (·, v)
  stage path := onState fun v => v.stageBeside c path
  append s bytes := onState fun v => .ok (bytes.length, v.mapStaged s (Node.append bytes))
  setMode s mode := onState fun v => .ok ((), v.mapStaged s (Node.withMode mode))
  sync _ := onState fun v => .ok ((), v)
  install s path := onState fun v => (v.moveTo c s path).map ((), ·)
  discard s := modify fun v => v.erase s.place s.name

end PinnedManifest.Files
