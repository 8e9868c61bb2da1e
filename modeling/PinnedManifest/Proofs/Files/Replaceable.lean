import PinnedManifest.Proofs.Files.Parent
import PinnedManifest.Proofs.Files.Whole

/-!
# Proofs/Files/Replaceable — when a file can be replaced, and that it can be again

`Volume.Replaceable` lists what a replacement asks of the tree and of its path; it succeeds exactly
when all of that holds (`replace_run_eq_ok_iff`).  The file that it puts there, with the mode it found
or the one of new files, can be replaced in the same way (`Replaceable.again`), as long as the
directory part of the path does not lead through the entry that was replaced.
-/

namespace PinnedManifest.Files

/-- The mode of a new file lets its owner write. -/
theorem isReadOnly_newFileMode : isReadOnly newFileMode = false := by decide

/-- Where no slash comes behind the last name, that name is the last step. -/
theorem Path.steps_eq_concat {p : Path} {name : String} (hlast : p.names.getLast? = some name)
    (hplain : p.asDirectory = false) : p.steps = p.names.dropLast ++ [name] := by
  rw [steps, hplain, List.dropLast_append_getLast? name hlast]
  exact List.append_nil _

namespace Volume

variable {v u : Volume} {c : Caller} {path : String} {found : Option Mode} {e : Entry}

/-- What a replacement asks for: a mode that is not read-only or none at all, a path that is short
enough for a file beside it, and an entry that can be moved over. -/
structure Replaceable (v : Volume) (c : Caller) (path : String) (found : Option Mode) (e : Entry) :
    Prop where
  mode : v.modeAt? c path = .ok found
  writable : found.any isReadOnly = false
  short : (v.besidePath path (stagedName 0)).utf8ByteSize < Path.lengthLimit
  overwritable : v.Overwritable c path e

/-- A file can be staged beside a short path, where the directory part leads to a directory whose
entries may be changed. -/
theorem exists_stageBeside {place : Location} {mode : Mode} {es : Entries}
    (hshort : (v.besidePath path (stagedName 0)).utf8ByteSize < Path.lengthLimit)
    (hdir : v.directory c (Path.parent path) (Path.parent path).steps = .ok (place, mode, es))
    (hmay : c.mayChange mode = true) : ∃ s u, v.stageBeside c path = .ok (s, u) := by
  let name := freshName (es.map (·.1) ++ (Path.ofText path).names)
  refine ⟨⟨place, name⟩, v.put place name (.file stagedMode []), ?_⟩
  simp only [stageBeside, bind, Except.bind, Nat.not_le.mpr hshort, if_false, pure, Except.pure, hdir,
    hmay, Bool.not_true, Bool.false_eq_true, name]

/-- A path beside which a file was staged is short enough. -/
theorem short_of_stageBeside {s : StagedFile} (h : v.stageBeside c path = .ok (s, u)) :
    (v.besidePath path (stagedName 0)).utf8ByteSize < Path.lengthLimit := by
  rw [stageBeside] at h
  simp only [bind, Except.bind] at h
  split at h
  · cases h
  next hshort => exact Nat.not_le.mp hshort

/-- **A file is staged where the entry lies**, under another name. -/
theorem place_of_stageBeside {s : StagedFile} (hs : v.stageBeside c path = .ok (s, u))
    (he : v.entry c path = .ok e) : s.place = e.place ∧ s.name ≠ e.name := by
  obtain ⟨mode, es, hdir, -, -, hname, -⟩ := stageBeside_eq_ok hs
  obtain ⟨hplace, -⟩ : s.place = e.place ∧ _ := by
    simpa using hdir.symm.trans (directory_parent_of_entry he)
  refine ⟨hplace, ?_⟩
  rintro heq
  obtain ⟨p, hp, -, hlast, -⟩ := entry_eq_ok_iff.mp he
  rw [eq_ofText_of_checked hp] at hlast
  exact hname (heq ▸ List.mem_of_getLast? hlast)

/-- **A replacement succeeds exactly where it can**, and then changes the entry that its path names. -/
theorem replace_run_eq_ok_iff {content : List UInt8} :
    ((disk c).replace path content).run v = (.ok (), u) ↔
      ∃ found e, v.Replaceable c path found e ∧
        u = v.put e.place e.name (.file (found.getD newFileMode) content) := by
  rw [replace_run]
  constructor
  · intro h
    split at h
    · cases h
    next found hfound =>
      split at h
      · cases h
      next hwritable =>
      split at h
      · cases h
      next s u' hs =>
      split at h
      next u'' hmove =>
        obtain ⟨mode, es, hdir, -, hnew, -⟩ := stageBeside_eq_ok hs
        obtain ⟨e, he, hu⟩ :=
          (moveTo_put_eq_ok_iff rfl (directory_eq_ok_iff.mp hdir).2.1 hnew).mp hmove
        cases h
        exact ⟨found, e, ⟨hfound, by simpa using hwritable, short_of_stageBeside hs, he⟩, hu⟩
      · cases h
  · rintro ⟨found, e, ⟨hfound, hwritable, hshort, he⟩, rfl⟩
    obtain ⟨s, u', hs⟩ := exists_stageBeside hshort (directory_parent_of_entry he.entry) he.mayChange
    obtain ⟨mode, es, hdir, -, hnew, -⟩ := stageBeside_eq_ok hs
    have hmove : (v.put s.place s.name (.file (found.getD newFileMode) content)).moveTo c s path
        = .ok (v.put e.place e.name (.file (found.getD newFileMode) content)) :=
      (moveTo_put_eq_ok_iff rfl (directory_eq_ok_iff.mp hdir).2.1 hnew).mpr ⟨e, he, rfl⟩
    simp only [hfound, hwritable, Bool.false_eq_true, if_false, hs, hmove]

/-! ## A file that has been replaced -/

/-- One more step at the end of a walk. -/
theorem Walk.concat {P : Location → Prop} {links : Nat} {here p place : Location} {name : String}
    {names : List String} (h : v.Walk c P links here names p)
    (hstep : v.stepFrom c p name = .ok (place, none)) (hplace : P place) :
    v.Walk c P links here (names ++ [name]) place := by
  induction h with
  | done hhere => exact .step hhere hstep (.done hplace)
  | step hhere hfirst _ ih => exact .step hhere hfirst (ih hstep)
  | link hhere htarget hfirst _ ih =>
    have hrest := ih hstep
    rw [List.append_assoc] at hrest
    exact .link hhere htarget hfirst hrest

/-- A file is stepped to by its name. -/
theorem stepFrom_file {here : Location} {name : String} (hsearch : v.Searchable c here)
    (hdot : name ≠ ".") (hup : name ≠ "..") (hlen : name.utf8ByteSize ≤ nameLimit)
    (hfile : (v.node? (here ++ [name])).map Node.kind = some .file) :
    v.stepFrom c here name = .ok (here ++ [name], none) := by
  obtain ⟨mode, hmode, hmay⟩ := hsearch
  rw [stepFrom_eq, hmode]
  simp only [hmay, Bool.not_true, Bool.false_eq_true, if_false, if_neg hdot, if_neg hup,
    if_neg (Nat.not_lt.mpr hlen), hfile]
  rfl

/-- A path leads where its steps lead. -/
theorem resolve_eq_ok_iff {text : String} {place : Location} :
    v.resolve c text = .ok place ↔ ∃ p, checked text = .ok p ∧ v.lookup c p p.steps = .ok place := by
  rw [resolve]
  cases checked text with
  | error e => simp [bind, Except.bind]
  | ok p => simp [bind, Except.bind]

/-- A path whose entry is a file leads to it. -/
theorem resolve_of_entry (he : v.entry c path = .ok e)
    (hfile : (v.node? (e.place ++ [e.name])).map Node.kind = some .file) :
    v.resolve c path = .ok (e.place ++ [e.name]) := by
  have hsearch := searchable_of_entry he
  obtain ⟨p, hp, hdir, hlast, hdot, hup, hlen, hplain⟩ := entry_eq_ok_iff.mp he
  have hwalk := follow_eq_ok_iff.mp (directory_eq_ok_iff.mp hdir).1
  have hstep := stepFrom_file hsearch hdot hup hlen hfile
  refine resolve_eq_ok_iff.mpr ⟨p, hp, ?_⟩
  rw [Path.steps_eq_concat hlast hplain]
  exact (hwalk.concat hstep trivial).follow

/-! ## Away from an entry -/

/-- A path leads somewhere, and no place on the way is a given entry. -/
def Avoids (v : Volume) (c : Caller) (entry : Location) (p : Path) : Prop :=
  ∃ place, v.Walk c (· ≠ entry) linkLimit (v.start p) p.steps place

/-- Below what is no directory there is nothing. -/
theorem node?_below {p below : Location}
    (hp : ∀ mode, (v.node? p).map Node.kind ≠ some (.directory mode)) (hbelow : below ≠ []) :
    v.node? (p ++ below) = none := by
  rw [node?_append]
  cases below with
  | nil => exact absurd rfl hbelow
  | cons name rest =>
    cases hn : v.node? p with
    | none => rfl
    | some n =>
      cases n with
      | file | link => rfl
      | directory mode es => exact absurd (by rw [hn]; rfl) (hp mode)

/-- Where a file was put in there is no directory. -/
theorem kind_put_ne_directory {place : Location} {name : String} {node : Node}
    (hfile : node.kind = .file) (mode : Mode) :
    ((v.put place name node).node? (place ++ [name])).map Node.kind ≠ some (.directory mode) := by
  intro hdir
  have hput : ((v.put place name node).node? (place ++ [name])).map Node.kind = some .file ∨
      (v.put place name node).node? (place ++ [name]) = none := node?_put_of_kind hfile
  rcases hput with hput | hput
  · cases hput.symm.trans hdir
  · rw [hput] at hdir
    cases hdir

/-- **A file in place of what is no directory** changes no face but that of the entry: there is nothing
below it, before or after. -/
theorem face_put_of_ne {place q : Location} {name : String} {node : Node} (hfile : node.kind = .file)
    (hold : ∀ mode, (v.node? (place ++ [name])).map Node.kind ≠ some (.directory mode))
    (h : q ≠ place ++ [name]) :
    (v.node? q).map Node.face = ((v.put place name node).node? q).map Node.face := by
  by_cases hbelow : place ++ [name] <+: q
  · obtain ⟨below, rfl⟩ := hbelow
    have hne : below ≠ [] := by
      rintro rfl
      exact h (List.append_nil _)
    rw [node?_below hold hne, node?_below (kind_put_ne_directory hfile) hne]
  · exact (face_put hbelow).symm

theorem kind_put_of_ne {place q : Location} {name : String} {node : Node} (hfile : node.kind = .file)
    (hold : ∀ mode, (v.node? (place ++ [name])).map Node.kind ≠ some (.directory mode))
    (h : q ≠ place ++ [name]) :
    (v.node? q).map Node.kind = ((v.put place name node).node? q).map Node.kind :=
  Node.map_kind_of_map_face (face_put_of_ne hfile hold h)

/-- What is read is the content of the file that the path leads to. -/
theorem read_eq_ok_iff {text : String} {content : List UInt8} :
    v.read c text = .ok content ↔ ∃ place mode, v.resolve c text = .ok place ∧
      v.node? place = some (.file mode content) ∧ c.mayRead mode = true := by
  rw [read]
  cases v.resolve c text with
  | error e => simp [bind, Except.bind]
  | ok place =>
    simp only [bind, Except.bind, Except.ok.injEq, exists_and_left, exists_eq_left']
    rcases v.node? place with _ | ⟨mode, old⟩ | ⟨mode, es⟩ | target
    · simp
    · by_cases hmay : c.mayRead mode = true <;> simp [hmay]
    · by_cases hmay : c.mayRead mode = true <;> simp [hmay]
    · simp

/-- **A file read away from an entry** is there with the same content after the entry is replaced. -/
theorem read_put {text : String} {node : Node} {content : List UInt8}
    (he : v.Overwritable c path e) (hfile : node.kind = .file)
    (havoid : v.Avoids c (e.place ++ [e.name]) (Path.ofText text))
    (h : v.read c text = .ok content) : (v.put e.place e.name node).read c text = .ok content := by
  obtain ⟨q, mode, hresolve, hq, hmay⟩ := read_eq_ok_iff.mp h
  obtain ⟨p, hp, hlook⟩ := resolve_eq_ok_iff.mp hresolve
  obtain rfl := eq_ofText_of_checked hp
  obtain ⟨q', hwalk⟩ := havoid
  cases hlook.symm.trans hwalk.follow
  have hsame (r : Location) (hr : r ≠ e.place ++ [e.name]) := kind_put_of_ne hfile he.notDirectory hr
  have hbelow : ¬ e.place ++ [e.name] <+: q := by
    rintro ⟨below, rfl⟩
    have hne : below ≠ [] := fun hnil => hwalk.finish (by rw [hnil, List.append_nil])
    rw [node?_below he.notDirectory hne] at hq
    cases hq
  have habove : ¬ q <+: e.place := by
    have hplace : (v.node? e.place).map Node.kind = some (.directory e.mode) := by
      rw [node?_of_entry he.entry]
      rfl
    exact not_prefix_of_kind (.inl (by rw [hq]; rfl)) hplace (by simp)
  have hresolve' := resolve_eq_ok_iff.mpr ⟨_, hp, (hwalk.congr hsame).follow⟩
  refine read_eq_ok_iff.mpr ⟨q, mode, hresolve', ?_, hmay⟩
  rw [node?_put_apart hbelow habove, hq]

/-- **A file that was replaced can be replaced again**, with the mode that it has now. -/
theorem Replaceable.again {mode : Mode} {content : List UInt8} (h : v.Replaceable c path found e)
    (havoid : v.Avoids c (e.place ++ [e.name]) (Path.parent path))
    (hmode : isReadOnly mode = false) :
    ∃ es, (v.put e.place e.name (.file mode content)).Replaceable c path (some mode)
      { e with entries := es } := by
  obtain ⟨p, hp, hdir, hlast, hdot, hup, hlen, hplain⟩ := entry_eq_ok_iff.mp h.overwritable.entry
  obtain rfl := eq_ofText_of_checked hp
  obtain ⟨hlook, hplace, hmay⟩ := directory_eq_ok_iff.mp hdir
  have hnode : (v.put e.place e.name (.file mode content)).node? (e.place ++ [e.name])
      = some (.file mode content) := node?_put hplace
  -- the directory part leads to the same directory as before
  obtain ⟨es, hdir'⟩ : ∃ es, (v.put e.place e.name (.file mode content)).directory c
      (Path.ofText path) (Path.ofText path).names.dropLast = .ok (e.place, e.mode, es) := by
    obtain ⟨q, hwalk⟩ := havoid
    obtain ⟨hlookParent, -⟩ :=
      directory_eq_ok_iff.mp (directory_parent_of_entry h.overwritable.entry)
    cases hlookParent.symm.trans hwalk.follow
    rw [start_parent hlast hdot hplain] at hwalk
    obtain ⟨hsteps, -⟩ := Path.dotless_steps_parent hlast hdot hplain
    have hwalk' := hwalk.of_dotless_eq (searchable_of_entry h.overwritable.entry) hsteps
    exact directory_put_of_walk (fun r hr => kind_put_of_ne rfl h.overwritable.notDirectory hr) hwalk'
      (by rw [hplace]; rfl) hmay
  have hentry : (v.put e.place e.name (.file mode content)).entry c path
      = .ok { e with entries := es } :=
    entry_eq_ok_iff.mpr ⟨_, hp, hdir', hlast, hdot, hup, hlen, hplain⟩
  refine ⟨es, ?_, hmode, h.short, hentry, h.overwritable.mayChange, ?_⟩
  · have hresolve := resolve_of_entry hentry (by rw [hnode]; rfl)
    rw [modeAt?, hresolve]
    simp only [hnode]
    rfl
  · rw [hnode]
    simp [Node.kind]

end Volume

end PinnedManifest.Files
