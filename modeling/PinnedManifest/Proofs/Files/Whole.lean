import Mathlib.Data.List.Nodup
import PinnedManifest.Proofs.Files.Walk
import PinnedManifest.Proofs.Steps

/-!
# Proofs/Files/Whole — a file is replaced as a whole or not at all

`replace_run` says what a replacement does to a tree: it ends in a fault and the tree it began with, or
moves the staged file to the entry that the path names.  A move changes that entry and nothing else, and
the staged file is not in its way (`moveTo_put_eq_ok_iff`).
-/

namespace PinnedManifest.Files

/-! ## Names for staged files -/

theorem stagedName_injective : Function.Injective stagedName := by
  intro i j h
  have hletters := List.append_cancel_left (String.ofList_injective h)
  have hlen := congrArg List.length hletters
  rw [List.length_replicate, List.length_replicate] at hlen
  omega

/-- **A staged file takes a name that is free** — of more names than are taken, one is. -/
theorem freshName_not_mem (taken : List String) : freshName taken ∉ taken := by
  rw [freshName]
  cases h : (List.range (taken.length + 1)).find? fun i => !taken.contains (stagedName i) with
  | some i =>
    have hi := List.find?_some h
    simpa using hi
  | none =>
    have hall : (List.range (taken.length + 1)).map stagedName ⊆ taken := by
      intro name hname
      obtain ⟨i, hi, rfl⟩ := List.mem_map.mp hname
      simpa using List.find?_eq_none.mp h i hi
    have hnodup : ((List.range (taken.length + 1)).map stagedName).Nodup :=
      List.nodup_range.map stagedName_injective
    have hle := hnodup.length_le_of_subset hall
    simp only [List.length_map, List.length_range] at hle
    omega

namespace Volume

variable {v : Volume} {c : Caller} {s : StagedFile} {path : String}

/-- **Where a file is staged**: under a free name that the path does not hold, in the directory that the
parent's text leads to. -/
theorem stageBeside_eq_ok {u : Volume} (h : v.stageBeside c path = .ok (s, u)) :
    ∃ mode es, v.directory c (Path.parent path) (Path.parent path).steps = .ok (s.place, mode, es) ∧
      c.mayChange mode = true ∧ Entries.find? s.name es = none ∧
        s.name ∉ (Path.ofText path).names ∧ u = v.put s.place s.name (.file stagedMode []) := by
  rw [stageBeside] at h
  simp only [bind, Except.bind] at h
  split at h
  · cases h
  simp only [pure, Except.pure] at h
  split at h
  · cases h
  next d hdir =>
    obtain ⟨place, mode, es⟩ := d
    simp only at h
    split at h
    · cases h
    next hmay =>
      cases h
      refine ⟨mode, es, hdir, by simpa using hmay, Entries.find?_eq_none fun hmem => ?_,
        fun hmem => ?_, rfl⟩
      · exact freshName_not_mem _ (List.mem_append_left _ hmem)
      · exact freshName_not_mem _ (List.mem_append_right _ hmem)

/-- A path names something that a file can be moved over: an entry that is no directory, in a directory
whose entries may be changed. -/
structure Overwritable (v : Volume) (c : Caller) (path : String) (e : Entry) : Prop where
  entry : v.entry c path = .ok e
  mayChange : c.mayChange e.mode = true
  notDirectory : ∀ mode, (v.node? (e.place ++ [e.name])).map Node.kind ≠ some (.directory mode)

/-- A move over what can be moved over is one entry changed. -/
theorem moveTo_eq_ok_iff {u : Volume} {node : Node} (hstaged : v.staged? s = some node) :
    v.moveTo c s path = .ok u ↔
      ∃ e, v.Overwritable c path e ∧ u = (v.erase s.place s.name).put e.place e.name node := by
  constructor
  · intro h
    rw [moveTo] at h
    simp only [bind, Except.bind] at h
    split at h
    · cases h
    next e he =>
      simp only [hstaged, pure, Except.pure] at h
      split at h
      · cases h
      next hmay =>
        split at h
        · cases h
        next hnode hnot =>
          cases hnode
          cases h
          refine ⟨e, ⟨he, by simpa using hmay, fun mode hmode => ?_⟩, rfl⟩
          obtain ⟨n, hn, hkind⟩ := Option.map_eq_some_iff.mp hmode
          obtain ⟨es, rfl⟩ := Node.exists_directory_of_kind hkind
          rw [node?_child (node?_of_entry he)] at hn
          exact hnot _ _ hn
        next hnone _ => cases hnone
  · rintro ⟨e, ⟨he, hmay, hnot⟩, rfl⟩
    rw [node?_child (node?_of_entry he)] at hnot
    simp only [moveTo, he, hstaged, bind, Except.bind, hmay, pure, Except.pure, Bool.not_true,
      Bool.false_eq_true, if_false]
    split
    next hdir => exact absurd (by rw [hdir]; rfl) (hnot _)
    next hnode _ => cases hnode; rfl
    next hnone _ => cases hnone

section Staged

variable {mode : Mode} {es : Entries} {node : Node} {e : Entry}

/-- **A staged file is in nobody's way** — what can be moved over with it can be without it. -/
theorem Overwritable.of_put (hfile : node.kind = .file) (hnew : v.node? (s.place ++ [s.name]) = none)
    (h : (v.put s.place s.name node).Overwritable c path e) :
    ∃ es, v.Overwritable c path { e with entries := es } := by
  obtain ⟨es, he⟩ := entry_of_put hfile h.entry
  refine ⟨es, he, h.mayChange, fun mode hmode => h.notDirectory mode ?_⟩
  exact (kind_put_eq_directory_iff hfile (.inr hnew)).mpr hmode

/-- And the other way round. -/
theorem Overwritable.put (hfile : node.kind = .file) (hnew : v.node? (s.place ++ [s.name]) = none)
    (h : v.Overwritable c path e) :
    ∃ es, (v.put s.place s.name node).Overwritable c path { e with entries := es } := by
  obtain ⟨es, he⟩ := entry_put hnew h.entry
  refine ⟨es, he, h.mayChange, fun mode hmode => h.notDirectory mode ?_⟩
  exact (kind_put_eq_directory_iff hfile (.inr hnew)).mp hmode

/-- **Moving a staged file changes one entry**, the one that the path names in the tree without it. -/
theorem moveTo_put_eq_ok_iff {u : Volume} (hfile : node.kind = .file)
    (hplace : v.node? s.place = some (.directory mode es)) (hnew : Entries.find? s.name es = none) :
    (v.put s.place s.name node).moveTo c s path = .ok u ↔
      ∃ e, v.Overwritable c path e ∧ u = v.put e.place e.name node := by
  have hnone : v.node? (s.place ++ [s.name]) = none := by rw [node?_child hplace, hnew]
  rw [moveTo_eq_ok_iff (node?_put hplace), erase_put_of_node? hplace hnew]
  constructor
  · rintro ⟨e, h, rfl⟩
    obtain ⟨es, h'⟩ := h.of_put hfile hnone
    exact ⟨_, h', rfl⟩
  · rintro ⟨e, h, rfl⟩
    obtain ⟨es, h'⟩ := h.put hfile hnone
    exact ⟨_, h', rfl⟩

end Staged

end Volume

/-! ## The steps of a replacement -/

/-- **A replacement as its steps**, whatever performs them: the later start from what the earlier leave,
and a staged file that cannot be completed is discarded. -/
theorem Disk.run_replace {σ Staged : Type} (disk : Disk (StateM σ) Staged) (path : String)
    (content : List UInt8) (t : σ) :
    (disk.replace path content).run t =
      match (disk.inspect path).run t with
      | (.error f, t) => (.error f, t)
      | (.ok found, t) =>
        if found.any isReadOnly then (.error .readOnly, t)
        else
          match (disk.stage path).run t with
          | (.error f, t) => (.error f, t)
          | (.ok s, t) =>
            match (disk.complete s (found.getD newFileMode) path content).run t with
            | (.ok (), t) => (.ok (), t)
            | (.error f, t) => (.error f, (disk.discard s t).2) := by
  rw [replace, run_bind]
  rcases (disk.inspect path).run t with ⟨f | found, t⟩
  · rfl
  simp only
  by_cases hro : found.any isReadOnly = true
  · rw [if_pos hro, if_pos hro]
    rfl
  rw [if_neg hro, if_neg hro, run_bind]
  rcases (disk.stage path).run t with ⟨f | s, t⟩
  · rfl
  simp only [run_tryCatch]
  rcases (disk.complete s (found.getD newFileMode) path content).run t with ⟨f | _, t⟩
  · rfl
  · rfl

namespace Volume

variable {v : Volume} {c : Caller} {s : StagedFile} {path : String}

/-! Every step but the last works on the tree with one file staged in it,
`v.put s.place s.name node`. -/

theorem run_onState {σ α : Type} (f : σ → Except Fault (α × σ)) (t : σ) :
    (onState f).run t =
      match f t with
      | .ok (a, t') => (.ok a, t')
      | .error e => (.error e, t) := rfl

theorem run_inspect (c : Caller) (path : String) (v : Volume) :
    ((disk c).inspect path).run v =
      match v.modeAt? c path with
      | .ok found => (.ok found, v)
      | .error e => (.error e, v) := by
  simp only [disk, run_onState]
  cases v.modeAt? c path <;> rfl

theorem run_stage (c : Caller) (path : String) (v : Volume) :
    ((disk c).stage path).run v =
      match v.stageBeside c path with
      | .ok (s, u) => (.ok s, u)
      | .error e => (.error e, v) := by
  simp only [disk, run_onState]
  cases v.stageBeside c path <;> rfl

theorem run_discard (c : Caller) (s : StagedFile) (v : Volume) :
    (disk c).discard s v = ((), v.erase s.place s.name) := rfl

theorem run_append (bytes : List UInt8) (mode : Mode) (content : List UInt8) :
    ((disk c).append s bytes).run (v.put s.place s.name (.file mode content))
      = (.ok bytes.length, v.put s.place s.name (.file mode (content ++ bytes))) := by
  simp only [disk, run_onState, mapStaged_put, Node.append]

theorem run_setMode (mode old : Mode) (content : List UInt8) :
    ((disk c).setMode s mode).run (v.put s.place s.name (.file old content))
      = (.ok (), v.put s.place s.name (.file mode content)) := by
  simp only [disk, run_onState, mapStaged_put, Node.withMode]

/-- All bytes are written, one write taking them all. -/
theorem run_appendAll (mode : Mode) (content : List UInt8) :
    ((disk c).appendAll s content.length content).run (v.put s.place s.name (.file mode []))
      = (.ok (), v.put s.place s.name (.file mode content)) := by
  cases content with
  | nil => rfl
  | cons b bytes =>
    rw [List.length_cons, Disk.appendAll, run_bind, run_append]
    simp only [List.nil_append, List.length_cons, Nat.succ_ne_zero, if_false, List.drop_succ_cons,
      List.drop_length]
    cases bytes <;> rfl

/-- **The staged file completed** — filled, given its mode whatever it was at first, and moved, if it can
be. -/
theorem run_complete (start mode : Mode) (content : List UInt8) :
    ((disk c).complete s mode path content).run (v.put s.place s.name (.file start []))
      = match (v.put s.place s.name (.file mode content)).moveTo c s path with
        | .ok u => (.ok (), u)
        | .error e => (.error e, v.put s.place s.name (.file mode content)) := by
  rw [Disk.complete, run_bind, run_appendAll]
  simp only [run_bind, run_setMode]
  simp only [disk, run_onState]
  cases (v.put s.place s.name (.file mode content)).moveTo c s path <;> rfl

/-- **A replacement, step by step**: the mode that is there is looked up, a file is staged, and the
completed file is moved; whatever fails leaves the tree it began with. -/
theorem replace_run (c : Caller) (path : String) (content : List UInt8) (v : Volume) :
    ((disk c).replace path content).run v =
      match v.modeAt? c path with
      | .error e => (.error e, v)
      | .ok found =>
        if found.any isReadOnly then (.error .readOnly, v)
        else
          match v.stageBeside c path with
          | .error e => (.error e, v)
          | .ok (s, _) =>
            match (v.put s.place s.name (.file (found.getD newFileMode) content)).moveTo c s path with
            | .ok u => (.ok (), u)
            | .error e => (.error e, v) := by
  rw [Disk.run_replace, run_inspect]
  cases v.modeAt? c path with
  | error e => rfl
  | ok found =>
    simp only [run_stage]
    cases hs : v.stageBeside c path with
    | error e => rfl
    | ok d =>
      obtain ⟨s, u⟩ := d
      obtain ⟨mode, es, hdir, -, hnew, -, rfl⟩ := stageBeside_eq_ok hs
      have herase : (v.put s.place s.name (.file (found.getD newFileMode) content)).erase s.place
          s.name = v := erase_put_of_node? (directory_eq_ok_iff.mp hdir).2.1 hnew
      simp only [run_complete]
      cases (v.put s.place s.name (.file (found.getD newFileMode) content)).moveTo c s path with
      | ok u => rfl
      | error e => simp only [run_discard, herase]

/-- **A replacement that fails changes nothing.** -/
theorem replace_run_error {content : List UInt8} {e : Fault} {u : Volume}
    (h : ((disk c).replace path content).run v = (.error e, u)) : u = v := by
  rw [replace_run] at h
  repeat' split at h
  all_goals cases h
  all_goals rfl

end Volume

end PinnedManifest.Files
