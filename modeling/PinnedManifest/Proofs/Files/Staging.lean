import PinnedManifest.Proofs.Files.Writable

/-!
# Proofs/Files/Staging — a file is staged beside the output

The directory part of a path is a matter of its text, but a file is moved to where the names of the path
lead, through links and upwards.  `Volume.tracedDisk` performs the steps of a replacement and notes which
directories they change, each as the step itself finds it (`run_replace_tracedDisk`).  A replacement that
succeeds makes one file and moves it once, within the one directory that holds the entry
(`staged_beside_destination`).
-/

namespace PinnedManifest

namespace Files

/-- A change of the names in directories. -/
inductive Change
  | made (directory : Location) (name : String)
  | moved (source : Location) (name : String) (target : Location) (newName : String)
  | removed (directory : Location) (name : String)
  deriving DecidableEq, Repr

/-- A tree and the changes made to its directories so far. -/
structure Trace where
  files : Volume
  changes : List Change

namespace Trace

/-- A step on a tree, traced: its changes are told from the tree before it and its result, if it
succeeds. -/
def step {α : Type} (x : ExceptT Fault (StateM Volume) α) (told : Volume → α → List Change) :
    ExceptT Fault (StateM Trace) α :=
  ExceptT.mk fun t =>
    match x.run t.files with
    | (.ok a, files) => (.ok a, ⟨files, t.changes ++ told t.files a⟩)
    | (.error f, files) => (.error f, ⟨files, t.changes⟩)

/-- A step on a tree that changes no directory. -/
def plain {α : Type} (x : ExceptT Fault (StateM Volume) α) : ExceptT Fault (StateM Trace) α :=
  step x fun _ _ => []

end Trace

namespace Volume

/-- What a move of a staged file changes: it leaves its directory for the one where the entry that the
path names lies at that moment. -/
def moves (v : Volume) (c : Caller) (s : StagedFile) (path : String) : List Change :=
  (v.entry c path).toOption.toList.map fun e => .moved s.place s.name e.place e.name

/-- The steps of a replacement, traced. -/
def tracedDisk (c : Caller) : Disk (StateM Trace) StagedFile where
  inspect path := Trace.plain ((disk c).inspect path)
  stage path := Trace.step ((disk c).stage path) fun _ s => [.made s.place s.name]
  append s bytes := Trace.plain ((disk c).append s bytes)
  setMode s mode := Trace.plain ((disk c).setMode s mode)
  sync s := Trace.plain ((disk c).sync s)
  install s path := Trace.step ((disk c).install s path) fun v _ => v.moves c s path
  discard s := fun t =>
    let ((), files) := (disk c).discard s t.files
    ((), ⟨files, t.changes ++ [.removed s.place s.name]⟩)

variable {v u : Volume} {c : Caller} {s : StagedFile} {path : String} {e : Entry}
  {changes : List Change}

theorem run_step {α : Type} (x : ExceptT Fault (StateM Volume) α)
    (told : Volume → α → List Change) (t : Trace) :
    (Trace.step x told).run t =
      match x.run t.files with
      | (.ok a, files) => (.ok a, ⟨files, t.changes ++ told t.files a⟩)
      | (.error f, files) => (.error f, ⟨files, t.changes⟩) := rfl

/-- A step that changes no directory leaves the changes as they are. -/
theorem run_plain {α : Type} (x : ExceptT Fault (StateM Volume) α) (t : Trace) :
    (Trace.plain x).run t = ((x.run t.files).1, ⟨(x.run t.files).2, t.changes⟩) := by
  rw [Trace.plain, run_step]
  rcases x.run t.files with ⟨_ | _, _⟩
  · rfl
  · rw [List.append_nil]

/-- Writing changes no directory. -/
theorem run_appendAll_tracedDisk (s : StagedFile) : ∀ (fuel : Nat) (bytes : List UInt8) (t : Trace),
    ((tracedDisk c).appendAll s fuel bytes).run t =
      ((((disk c).appendAll s fuel bytes).run t.files).1,
        ⟨(((disk c).appendAll s fuel bytes).run t.files).2, t.changes⟩)
  | _, [], t => by rw [Disk.appendAll, Disk.appendAll]; rfl
  | 0, _ :: _, t => rfl
  | fuel + 1, b :: bytes, t => by
      have happend : (tracedDisk c).append s (b :: bytes)
        = Trace.plain ((disk c).append s (b :: bytes)) := rfl
      rw [Disk.appendAll, Disk.appendAll, run_bind, run_bind, happend, run_plain]
      rcases ((disk c).append s (b :: bytes)).run t.files with ⟨f | n, files⟩
      · rfl
      · by_cases hn : n = 0
        · simp only [if_pos hn]
          rfl
        · simp only [if_neg hn]
          exact run_appendAll_tracedDisk s fuel _ _

/-- A file is made where it is staged. -/
theorem run_stage_tracedDisk (c : Caller) (path : String) (t : Trace) :
    ((tracedDisk c).stage path).run t =
      match t.files.stageBeside c path with
      | .ok (s, u) => (.ok s, ⟨u, t.changes ++ [.made s.place s.name]⟩)
      | .error e => (.error e, t) := by
  simp only [tracedDisk, run_step, run_stage]
  cases t.files.stageBeside c path <;> rfl

/-- A file is moved where the path names an entry. -/
theorem run_install_tracedDisk (c : Caller) (s : StagedFile) (path : String) (t : Trace) :
    ((tracedDisk c).install s path).run t =
      match t.files.moveTo c s path with
      | .ok u => (.ok (), ⟨u, t.changes ++ t.files.moves c s path⟩)
      | .error e => (.error e, t) := by
  simp only [tracedDisk, run_step, disk, run_onState]
  cases t.files.moveTo c s path <;> rfl

theorem run_discard_tracedDisk (c : Caller) (s : StagedFile) (t : Trace) :
    (tracedDisk c).discard s t
      = ((), ⟨t.files.erase s.place s.name, t.changes ++ [.removed s.place s.name]⟩) := rfl

/-- **The staged file completed**: of its steps only the move changes directories. -/
theorem run_complete_tracedDisk (start mode : Mode) (content : List UInt8) :
    ((tracedDisk c).complete s mode path content).run
        ⟨v.put s.place s.name (.file start []), changes⟩
      = match (v.put s.place s.name (.file mode content)).moveTo c s path with
        | .ok u => (.ok (), ⟨u, changes ++ (v.put s.place s.name (.file mode content)).moves c s path⟩)
        | .error e => (.error e, ⟨v.put s.place s.name (.file mode content), changes⟩) := by
  have hsetMode : (tracedDisk c).setMode s mode = Trace.plain ((disk c).setMode s mode) := rfl
  have hsync : (tracedDisk c).sync s = Trace.plain ((disk c).sync s) := rfl
  rw [Disk.complete, run_bind, run_appendAll_tracedDisk, run_appendAll]
  simp only [run_bind, hsetMode, run_plain, run_setMode, hsync]
  exact run_install_tracedDisk c s path _

/-- **A replacement, traced**: it ends as it would without a trace, and what it changes is a file made
beside the path, and that file moved to the entry or removed again. -/
theorem run_replace_tracedDisk (c : Caller) (path : String) (content : List UInt8) (v : Volume) :
    ((tracedDisk c).replace path content).run ⟨v, []⟩ =
      match v.modeAt? c path with
      | .error e => (.error e, ⟨v, []⟩)
      | .ok found =>
        if found.any isReadOnly then (.error .readOnly, ⟨v, []⟩)
        else
          match v.stageBeside c path with
          | .error e => (.error e, ⟨v, []⟩)
          | .ok (s, _) =>
            let staged := v.put s.place s.name (.file (found.getD newFileMode) content)
            match staged.moveTo c s path with
            | .ok u => (.ok (), ⟨u, .made s.place s.name :: staged.moves c s path⟩)
            | .error e => (.error e, ⟨v, [.made s.place s.name, .removed s.place s.name]⟩) := by
  have hinspect : (tracedDisk c).inspect path = Trace.plain ((disk c).inspect path) := rfl
  rw [Disk.run_replace, hinspect, run_plain, run_inspect]
  cases v.modeAt? c path with
  | error e => rfl
  | ok found =>
    simp only [run_stage_tracedDisk]
    cases hs : v.stageBeside c path with
    | error e => rfl
    | ok d =>
      obtain ⟨s, u⟩ := d
      obtain ⟨mode, es, hdir, -, hnew, -, rfl⟩ := stageBeside_eq_ok hs
      have herase : (v.put s.place s.name (.file (found.getD newFileMode) content)).erase s.place
          s.name = v := erase_put_of_node? (directory_eq_ok_iff.mp hdir).2.1 hnew
      simp only [run_complete_tracedDisk]
      cases (v.put s.place s.name (.file (found.getD newFileMode) content)).moveTo c s path with
      | ok u => rfl
      | error e =>
        simp only [run_discard_tracedDisk, herase]
        rfl

/-- **A move stays in its directory** — where the path names an entry with the staged file in the tree,
it names one of the directory that holds that file. -/
theorem moves_of_stageBeside (node : Node) (hs : v.stageBeside c path = .ok (s, u))
    (he : v.entry c path = .ok e) :
    (v.put s.place s.name node).moves c s path = [.moved s.place s.name s.place e.name] := by
  obtain ⟨mode, es, hdir, -, hnew, -⟩ := stageBeside_eq_ok hs
  obtain ⟨hplace, -⟩ := place_of_stageBeside hs he
  have hnone : v.node? (s.place ++ [s.name]) = none := by
    rw [node?_child (directory_eq_ok_iff.mp hdir).2.1, hnew]
  obtain ⟨es', he'⟩ : ∃ es, (v.put s.place s.name node).entry c path = .ok { e with entries := es } :=
    entry_put hnone he
  rw [moves, he', hplace]
  rfl

end Volume

end Files

namespace Sample

/-! ## A path through a link and back up

The output is named by way of a link to a directory elsewhere; the directory above that one is not the
one in which the link lies. -/

/-- A tree whose current directory holds a link into another. -/
def linkedTree (entries : Files.Entries) : Files.Volume :=
  ⟨.directory 0o755 [("home", .directory 0o755 [("work", .link "/srv/.//now/")]),
    ("srv", .directory 0o755 [("now", .directory 0o755 []), ("site", .directory 0o755 entries)])],
    ["home"]⟩

/-- A path that leads through the link. -/
def linkedPath : String := ".//work/../site/./out"

/-- The path names an entry that is no directory, elsewhere than its text says. -/
theorem linkedPath_overwritable :
    (linkedTree [("out", .link "gone")]).Overwritable .owner linkedPath
      ⟨["srv", "site"], 0o755, [("out", .link "gone")], "out"⟩ where
  entry := by
    have hplace : (linkedTree [("out", .link "gone")]).lookup .owner (.ofText linkedPath)
        (Files.Path.ofText linkedPath).names.dropLast = .ok ["srv", "site"] := by decide +kernel
    have hdirectory : (linkedTree [("out", .link "gone")]).directory .owner (.ofText linkedPath)
        (Files.Path.ofText linkedPath).names.dropLast
          = .ok (["srv", "site"], 0o755, [("out", .link "gone")]) :=
      Files.Volume.directory_eq_ok_iff.mpr ⟨hplace, rfl, rfl⟩
    refine Files.Volume.entry_eq_ok_iff.mpr ⟨.ofText linkedPath, by decide +kernel, hdirectory, ?_⟩
    decide +kernel
  mayChange := rfl
  notDirectory := nofun

theorem linkedReplaced :
    ((Files.Volume.disk .owner).replace linkedPath [7]).run (linkedTree [("out", .link "gone")])
      = (.ok (), linkedTree [("out", .file 0o644 [7])]) := by
  have hnothing : (linkedTree [("out", .link "gone")]).modeAt? .owner linkedPath = .ok none := by
    decide +kernel
  have hshort : ((linkedTree [("out", .link "gone")]).besidePath linkedPath
      (Files.stagedName 0)).utf8ByteSize < Files.Path.lengthLimit := by decide +kernel
  exact Files.Volume.replace_run_eq_ok_iff.mpr
    ⟨none, _, ⟨hnothing, rfl, hshort, linkedPath_overwritable⟩, rfl⟩

end Sample

open Files Volume in
/-- **A file is staged beside the output** — a replacement that succeeds makes one file and moves it
once, both within one directory.  The text of the path's directory part leads to that directory, and the
entry that the path names lies in it.  There the file has a name that is free and of its own, before and
after; at the end the entry holds the content. -/
theorem staged_beside_destination {c : Caller} {path : String} {content : List UInt8} {v u : Volume}
    (h : ((disk c).replace path content).run v = (.ok (), u)) :
    ∃ (directory : Location) (temporary : String) (e : Entry),
      v.resolve c (Path.parentText path) = .ok directory ∧
      v.entry c path = .ok e ∧ e.place = directory ∧
      ((tracedDisk c).replace path content).run ⟨v, []⟩ = (.ok (), ⟨u,
        [.made directory temporary, .moved directory temporary directory e.name]⟩) ∧
      temporary ≠ e.name ∧
      v.node? (directory ++ [temporary]) = none ∧ u.node? (directory ++ [temporary]) = none ∧
      ∃ mode, u.node? (directory ++ [e.name]) = some (.file mode content) := by
  obtain ⟨found, e, hcan, rfl⟩ := replace_run_eq_ok_iff.mp h
  have he := hcan.overwritable.entry
  obtain ⟨hparent, hdirectory, -⟩ := hcan.placed
  obtain ⟨s, _, hs⟩ :=
    exists_stageBeside hcan.short (directory_parent_of_entry he) hcan.overwritable.mayChange
  obtain ⟨hplace, hname⟩ := place_of_stageBeside hs he
  obtain ⟨mode, es, hdir, -, hnew, -⟩ := stageBeside_eq_ok hs
  have hstaged := (directory_eq_ok_iff.mp hdir).2.1
  have hfree : Entries.find? s.name e.entries = none := by
    rw [hplace, hdirectory] at hstaged
    cases hstaged
    exact hnew
  refine ⟨e.place, s.name, e, hparent, he, rfl, ?trace, hname, ?before, ?after, ?done⟩
  case trace =>
    have hmove : (v.put s.place s.name (.file (found.getD newFileMode) content)).moveTo c s path
        = .ok (v.put e.place e.name (.file (found.getD newFileMode) content)) :=
      (moveTo_put_eq_ok_iff rfl hstaged hnew).mpr ⟨e, hcan.overwritable, rfl⟩
    rw [run_replace_tracedDisk, hcan.mode]
    simp only [hcan.writable, Bool.false_eq_true, if_false, hs, hmove, moves_of_stageBeside _ hs he]
    rw [hplace]
  case before => rw [node?_child hdirectory, hfree]
  case after =>
    rw [node?_child (node?_put_place hdirectory), Entries.find?_put_of_ne hname, hfree]
  case done => exact ⟨_, node?_put hdirectory⟩

/-- Upwards from where a link leads, a file is staged in the directory of the output. -/
theorem staged_beside_destination_sample :
    ((Files.Volume.disk .owner).replace Sample.linkedPath [7]).run
        (Sample.linkedTree [("out", .link "gone")])
      = (.ok (), Sample.linkedTree [("out", .file 0o644 [7])]) ∧
    ∃ temporary, ((Files.Volume.tracedDisk .owner).replace Sample.linkedPath [7]).run
        ⟨Sample.linkedTree [("out", .link "gone")], []⟩
      = (.ok (), ⟨Sample.linkedTree [("out", .file 0o644 [7])],
        [.made ["srv", "site"] temporary,
          .moved ["srv", "site"] temporary ["srv", "site"] "out"]⟩) := by
  obtain ⟨directory, temporary, e, -, he, hplace, htrace, -⟩ :=
    staged_beside_destination Sample.linkedReplaced
  rw [Sample.linkedPath_overwritable.entry] at he
  cases he
  subst hplace
  exact ⟨Sample.linkedReplaced, temporary, htrace⟩

end PinnedManifest
