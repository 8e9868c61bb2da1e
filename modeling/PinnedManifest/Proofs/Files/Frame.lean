import PinnedManifest.Proofs.Files.Replaceable
import PinnedManifest.Text.Utf8

/-!
# Proofs/Files/Frame — one entry changes, and nothing else

A replacement that succeeds changes the entry that its path names, the last link not followed, into a
file with the new content (`replacement_changes_one_entry`).  The mode of that file is the one of what
the path led to, links followed, so mode, entry and the target of a link may be three different things.
-/

namespace PinnedManifest

namespace Files

namespace Volume

variable {v u : Volume} {c : Caller} {path : String} {e : Entry} {mode : Mode}

/-! ## What a path leads to -/

/-- A path leads, through every link, to something of a mode. -/
def LeadsTo (v : Volume) (c : Caller) (path : String) (mode : Mode) : Prop :=
  ∃ q n, v.resolve c path = .ok q ∧ v.node? q = some n ∧ n.mode? = some mode

/-- The mode that is found is the one of what the path leads to. -/
theorem modeAt?_eq_some_iff : v.modeAt? c path = .ok (some mode) ↔ v.LeadsTo c path mode := by
  rw [modeAt?, LeadsTo]
  cases v.resolve c path with
  | error f => cases f <;> simp
  | ok q => simp [Option.bind_eq_some_iff]

/-- What lies above a directory is one. -/
theorem exists_directory_above {p q : Location} (hpq : p <+: q)
    (h : (v.node? q).map Node.kind = some (.directory mode)) :
    ∃ mode', (v.node? p).map Node.kind = some (.directory mode') := by
  by_contra hno
  obtain ⟨below, rfl⟩ := hpq
  cases below with
  | nil =>
    rw [List.append_nil] at h
    exact hno ⟨mode, h⟩
  | cons name rest =>
    rw [node?_below (fun mode' h' => hno ⟨mode', h'⟩) (List.cons_ne_nil name rest)] at h
    cases h

/-- A file or a directory has a mode. -/
theorem exists_mode_of_kind {q : Location} {k : Kind} (h : (v.node? q).map Node.kind = some k)
    (hk : k.target? = none) : ∃ mode, (v.node? q).bind Node.mode? = some mode := by
  obtain ⟨n, hn, rfl⟩ := Option.map_eq_some_iff.mp h
  rw [hn]
  cases n with
  | file mode content => exact ⟨mode, rfl⟩
  | directory mode es => exact ⟨mode, rfl⟩
  | link target => cases hk

/-- **A walk ends at something that has a mode**, if it starts there: links are walked through. -/
theorem Walk.exists_mode {P : Location → Prop} {links : Nat} {here p : Location}
    {names : List String} (h : v.Walk c P links here names p)
    (hhere : ∃ mode, (v.node? here).bind Node.mode? = some mode) :
    ∃ mode, (v.node? p).bind Node.mode? = some mode := by
  induction h with
  | done => exact hhere
  | step _ hstep _ ih =>
    obtain ⟨⟨mode, hmode⟩, ⟨-, rfl, -⟩ | ⟨-, rfl, -⟩ | ⟨-, -, -, k, hk, htarget⟩⟩ :=
      stepFrom_eq_ok hstep
    · exact ih hhere
    · obtain ⟨mode', hmode'⟩ := exists_directory_above (List.dropLast_prefix _) hmode
      exact ih (exists_mode_of_kind hmode' rfl)
    · exact ih (exists_mode_of_kind hk htarget.symm)
  | link _ _ hstep _ ih =>
    obtain ⟨⟨mode, hmode⟩, -⟩ := stepFrom_eq_ok hstep
    refine ih ?_
    split
    · obtain ⟨mode', hmode'⟩ := exists_directory_above List.nil_prefix hmode
      exact exists_mode_of_kind hmode' rfl
    · exact exists_mode_of_kind hmode rfl

/-- A walk to a directory starts at one. -/
theorem Walk.exists_directory_start {P : Location → Prop} {links : Nat} {here p : Location}
    {names : List String} (h : v.Walk c P links here names p)
    (hp : (v.node? p).map Node.kind = some (.directory mode)) :
    ∃ mode', (v.node? here).map Node.kind = some (.directory mode') := by
  cases h with
  | done => exact ⟨mode, hp⟩
  | step _ hstep => exact (stepFrom_eq_ok hstep).1
  | link _ _ hstep => exact (stepFrom_eq_ok hstep).1

/-- **A path that names an entry and leads somewhere** leads to something that has a mode. -/
theorem exists_leadsTo {q : Location} (he : v.entry c path = .ok e) (h : v.resolve c path = .ok q) :
    ∃ mode n, v.node? q = some n ∧ n.mode? = some mode := by
  obtain ⟨p, hp, hdir, -⟩ := entry_eq_ok_iff.mp he
  obtain ⟨p', hp', hlook⟩ := resolve_eq_ok_iff.mp h
  cases hp.symm.trans hp'
  obtain ⟨hlookDir, hplace, -⟩ := directory_eq_ok_iff.mp hdir
  have hkind : (v.node? e.place).map Node.kind = some (.directory e.mode) := by
    rw [hplace]
    rfl
  obtain ⟨mode, hmode⟩ := (follow_eq_ok_iff.mp hlookDir).exists_directory_start hkind
  obtain ⟨mode', hmode'⟩ := (follow_eq_ok_iff.mp hlook).exists_mode (exists_mode_of_kind hmode rfl)
  obtain ⟨n, hn, hmode'⟩ := Option.bind_eq_some_iff.mp hmode'
  exact ⟨mode', n, hn, hmode'⟩

/-- **The mode that a replacement finds**, where its path names an entry: that of what the path leads to,
or none, where nothing is there. -/
theorem modeAt?_eq_ok_iff {found : Option Mode} (he : v.entry c path = .ok e) :
    v.modeAt? c path = .ok found ↔
      (∃ mode, found = some mode ∧ v.LeadsTo c path mode) ∨
        (found = none ∧ v.resolve c path = .error .notFound) := by
  cases found with
  | some mode => simp [modeAt?_eq_some_iff]
  | none =>
    rw [modeAt?]
    cases h : v.resolve c path with
    | error f => cases f <;> simp
    | ok q =>
      obtain ⟨mode, n, hn, hmode⟩ := exists_leadsTo he h
      simp [hn, hmode]

/-! ## New files under a mask -/

/-- The steps of a replacement where new files lack the bits of a mask. -/
def maskedDisk (mask : Mode) (c : Caller) : Disk (StateM Volume) StagedFile :=
  { disk c with
    stage := fun path => onState fun v =>
      (v.stageBeside c path).map fun staged =>
        (staged.1, staged.2.mapStaged staged.1 (Node.withMode (stagedMode &&& ~~~mask))) }

end Volume

namespace Disk

variable {m : Type → Type} [Monad m] {Staged : Type} {disk disk' : Disk m Staged}

theorem appendAll_congr (h : disk.append = disk'.append) (s : Staged) :
    ∀ (fuel : Nat) (bytes : List UInt8), disk.appendAll s fuel bytes = disk'.appendAll s fuel bytes
  | _, [] => by rw [appendAll, appendAll]
  | 0, _ :: _ => rfl
  | fuel + 1, b :: bytes => by simp only [appendAll, h, appendAll_congr h s fuel]

end Disk

namespace Volume

variable {v u : Volume} {c : Caller} {path : String} {e : Entry} {mode mask : Mode}

theorem run_stage_maskedDisk_error (mask : Mode) {f : Fault} (h : v.stageBeside c path = .error f) :
    ((maskedDisk mask c).stage path).run v = (.error f, v) := by
  simp only [maskedDisk, run_onState, h]
  rfl

/-- A file is staged where it would be without a mask; its mode lacks the bits of the mask. -/
theorem run_stage_maskedDisk_ok (mask : Mode) {s : StagedFile} (h : v.stageBeside c path = .ok (s, u)) :
    ((maskedDisk mask c).stage path).run v
      = (.ok s, u.mapStaged s (Node.withMode (stagedMode &&& ~~~mask))) := by
  simp only [maskedDisk, run_onState, h]
  rfl

theorem complete_maskedDisk (s : StagedFile) (mode : Mode) (content : List UInt8) :
    (maskedDisk mask c).complete s mode path content = (disk c).complete s mode path content := by
  have happend : (maskedDisk mask c).append = (disk c).append := rfl
  rw [Disk.complete, Disk.complete, Disk.appendAll_congr happend]
  rfl

/-- **No mask has a say in the end**: the staged file is given its mode whatever it was at first. -/
theorem run_replace_maskedDisk (mask : Mode) (c : Caller) (path : String) (content : List UInt8)
    (v : Volume) : ((maskedDisk mask c).replace path content).run v
      = ((disk c).replace path content).run v := by
  have hinspect : (maskedDisk mask c).inspect path = (disk c).inspect path := rfl
  have hdiscard : (maskedDisk mask c).discard = (disk c).discard := rfl
  rw [Disk.run_replace, Disk.run_replace, hinspect, run_inspect]
  cases v.modeAt? c path with
  | error f => rfl
  | ok found =>
    simp only [run_stage]
    cases hs : v.stageBeside c path with
    | error f => simp only [run_stage_maskedDisk_error mask hs]
    | ok staged =>
      obtain ⟨s, u⟩ := staged
      obtain ⟨-, -, -, -, -, -, rfl⟩ := stageBeside_eq_ok hs
      simp only [run_stage_maskedDisk_ok mask hs, complete_maskedDisk, hdiscard, mapStaged_put,
        Node.withMode, run_complete]

/-- **The mode of the new file** is the one of what the path leads to, or the one of new files where
nothing is there. -/
theorem Replaceable.leadsTo_or {found : Option Mode} (h : v.Replaceable c path found e) :
    v.LeadsTo c path (found.getD newFileMode) ∨
      v.resolve c path = .error .notFound ∧ found.getD newFileMode = 0o644 := by
  obtain ⟨mode, rfl, hleads⟩ | ⟨rfl, hnone⟩ := (modeAt?_eq_ok_iff h.overwritable.entry).mp h.mode
  · exact .inl hleads
  · exact .inr ⟨hnone, rfl⟩

/-- **A link and what it leads to** are two things: the end of a path is no link. -/
theorem ne_of_resolve {q : Location} {target : String} (he : v.entry c path = .ok e)
    (hlink : v.node? (e.place ++ [e.name]) = some (.link target)) (h : v.resolve c path = .ok q) :
    q ≠ e.place ++ [e.name] := by
  rintro rfl
  obtain ⟨mode, n, hn, hmode⟩ := exists_leadsTo he h
  cases hn.symm.trans hlink
  cases hmode

end Volume

end Files

namespace Sample

/-! ## A replacement over a chain of links

The output is a link to a link to a directory; it is named by way of another directory. -/

/-- A tree whose output is something else. -/
def chainTree (out : Files.Node) : Files.Volume :=
  ⟨.directory 0o755 [("d", .directory 0o750 []), ("l", .link "d"), ("out", out),
    ("s", .directory 0o700 [("f", .file 0o604 [1])])], []⟩

theorem chainReplaced :
    ((Files.Volume.disk .owner).replace "s/../out" (Text.utf8 "hi")).run (chainTree (.link "l"))
      = (.ok (), chainTree (.file 0o750 (Text.utf8 "hi"))) := rfl

end Sample

open Files in
/-- **A replacement changes one entry** — the one that its path names, the last link not followed, is
then a file with the text.  Its mode is that of what the path led to, links followed, or `rw-r--r--`
where nothing was there; new files may lack the bits of any mask.  At every other place the tree is as
it was, and so is what a link in place of the output led to. -/
theorem replacement_changes_one_entry {c : Caller} {path text : String} {v u : Volume}
    (h : ((Volume.disk c).replace path (Text.utf8 text)).run v = (.ok (), u)) :
    ∃ (e : Volume.Entry) (mode : Mode),
      v.entry c path = .ok e ∧
      (Path.ofText path).names.getLast? = some e.name ∧
      v.lookup c (.ofText path) (Path.ofText path).names.dropLast = .ok e.place ∧
      -- the entry
      u = v.put e.place e.name (.file mode (Text.utf8 text)) ∧
      u.node? (e.place ++ [e.name]) = some (.file mode (Text.utf8 text)) ∧
      (v.LeadsTo c path mode ∨ v.resolve c path = .error .notFound ∧ mode = 0o644) ∧
      (∀ mask, ((Volume.maskedDisk mask c).replace path (Text.utf8 text)).run v = (.ok (), u)) ∧
      -- all else
      (∀ q, q ≠ e.place ++ [e.name] → (u.node? q).map Node.face = (v.node? q).map Node.face) ∧
      ∀ target q, v.node? (e.place ++ [e.name]) = some (.link target) → v.resolve c path = .ok q →
        (u.node? q).map Node.face = (v.node? q).map Node.face := by
  obtain ⟨found, e, hcan, rfl⟩ := Volume.replace_run_eq_ok_iff.mp h
  have he := hcan.overwritable.entry
  obtain ⟨p, hp, hdir, hlast, -⟩ := Volume.entry_eq_ok_iff.mp he
  obtain rfl := Volume.eq_ofText_of_checked hp
  obtain ⟨hlook, hplace, -⟩ := Volume.directory_eq_ok_iff.mp hdir
  have hframe (q : Location) (hq : q ≠ e.place ++ [e.name]) :
      ((v.put e.place e.name (.file (found.getD newFileMode) (Text.utf8 text))).node? q).map Node.face
        = (v.node? q).map Node.face :=
    (Volume.face_put_of_ne rfl hcan.overwritable.notDirectory hq).symm
  refine ⟨e, found.getD newFileMode, he, hlast, hlook, rfl, Volume.node?_put hplace, hcan.leadsTo_or,
    fun mask => ?_, hframe, fun target q hlink hq => hframe q (Volume.ne_of_resolve he hlink hq)⟩
  rw [Volume.run_replace_maskedDisk, h]

/-- A file with the mode of a directory, in place of a link to a link to it. -/
theorem replacement_changes_one_entry_sample :
    ((Files.Volume.disk .owner).replace "s/../out" (Text.utf8 "hi")).run
        (Sample.chainTree (.link "l"))
      = (.ok (), Sample.chainTree (.file 0o750 (Text.utf8 "hi"))) ∧
    (Sample.chainTree (.link "l")).LeadsTo .owner "s/../out" 0o750 ∧
    ∀ mask, ((Files.Volume.maskedDisk mask .owner).replace "s/../out" (Text.utf8 "hi")).run
        (Sample.chainTree (.link "l"))
      = (.ok (), Sample.chainTree (.file 0o750 (Text.utf8 "hi"))) := by
  obtain ⟨e, mode, he, -, -, -, hnode, hmode, hmask, -, -⟩ :=
    replacement_changes_one_entry Sample.chainReplaced
  have hplace : e.place ++ [e.name] = ["out"] := by
    cases he
    rfl
  rw [hplace] at hnode
  have hnew : (Sample.chainTree (.file 0o750 (Text.utf8 "hi"))).node? ["out"]
      = some (.file 0o750 (Text.utf8 "hi")) := rfl
  cases hnew.symm.trans hnode
  obtain hleads | ⟨hnone, -⟩ := hmode
  · exact ⟨Sample.chainReplaced, hleads, hmask⟩
  · cases hnone

end PinnedManifest
