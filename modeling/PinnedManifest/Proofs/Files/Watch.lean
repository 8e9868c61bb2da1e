import PinnedManifest.Files.Replacement

/-!
# Proofs/Files/Watch — a replacement watched between its steps

`Disk.watched` performs the steps of a disk one by one and keeps every tree that there was between two
of them.  A plan says what befalls the steps: any of them may fail, and a write may take only some of
the bytes.  Without incidents a watched disk does what the disk does.
-/

namespace PinnedManifest.Files

/-- What befalls a step. -/
inductive Incident
  | calm
  /-- The step fails, and changes nothing. -/
  | fault (f : Fault)
  /-- A write takes only so many bytes. -/
  | short (count : Nat)
  deriving DecidableEq, Repr

/-- A tree under watch. -/
structure Watch where
  files : Volume
  /-- What befalls the steps to come; those behind the last incident are calm. -/
  plan : List Incident
  /-- The tree at first and after each step so far. -/
  seen : List Volume
  /-- The faults in which steps ended so far. -/
  faults : List Fault

namespace Watch

/-- A watch before the first step. -/
def start (v : Volume) (plan : List Incident) : Watch := ⟨v, plan, [v], []⟩

/-- The watch after one more step. -/
def after (w : Watch) (files : Volume) (fault? : Option Fault) : Watch :=
  ⟨files, w.plan.tail, w.seen ++ [files], w.faults ++ fault?.toList⟩

/-- The bytes that the next write takes. -/
def portion (w : Watch) (bytes : List UInt8) : List UInt8 :=
  match w.plan with
  | .short count :: _ => bytes.take count
  | _ => bytes

/-- What a step came to, and the watch after it. -/
def keep {α : Type} (w : Watch) : Except Fault α × Volume → Except Fault α × Watch
  | (.ok a, files) => (.ok a, w.after files none)
  | (.error f, files) => (.error f, w.after files (some f))

/-- A step under watch. -/
def step {α : Type} (x : ExceptT Fault (StateM Volume) α) : ExceptT Fault (StateM Watch) α :=
  ExceptT.mk fun w =>
    match w.plan with
    | .fault f :: _ => (.error f, w.after w.files (some f))
    | _ => w.keep (x.run w.files)

end Watch

/-- A disk whose steps are watched. -/
def Disk.watched {Staged : Type} (disk : Disk (StateM Volume) Staged) : Disk (StateM Watch) Staged where
  inspect path := Watch.step (disk.inspect path)
  stage path := Watch.step (disk.stage path)
  append s bytes := ExceptT.mk fun w => (Watch.step (disk.append s (w.portion bytes))).run w
  setMode s mode := Watch.step (disk.setMode s mode)
  sync s := Watch.step (disk.sync s)
  install s path := Watch.step (disk.install s path)
  discard s := fun w =>
    let ((), files) := disk.discard s w.files
    ((), w.after files none)

end PinnedManifest.Files
