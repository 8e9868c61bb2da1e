import PinnedManifest.Proofs.Files.Frame

/-!
# Proofs/Files/Writable — what three lookups decide

Whether a file can be replaced is a matter of three lookups: of the path through every link, of the text
of its directory part, and of the entry under its last name.  Where permissions stop nobody and a file
beside the path can be named, `exists_replaceable_iff` says what each of them has to find, and
`isDenial_iff` which fault stands for an output that nobody may write.
-/

namespace PinnedManifest.Files

namespace Path

/-! ## The last name of a path -/

/-- A path ends in an ordinary name: what stands behind its last slash is not empty and no dots. -/
def EndsIn (text name : String) : Prop :=
  (Text.split '/' text.toList).getLast? = some name.toList ∧ name ≠ "" ∧ name ≠ "." ∧ name ≠ ".."

instance (text name : String) : Decidable (EndsIn text name) :=
  inferInstanceAs (Decidable (_ ∧ _ ∧ _ ∧ _))

/-- The last of the names that a text is read as. -/
theorem getLast?_names {text : String} {pieces : List (List Char)} {last : List Char}
    (h : Text.split '/' text.toList = pieces ++ [last]) (hlast : last ≠ []) :
    (ofText text).names.getLast? = some (String.ofList last) := by
  have hkeep : [last].filter (!·.isEmpty) = [last] := by simp [hlast]
  rw [ofText, h, List.filter_append, hkeep, List.map_append]
  exact List.getLast?_concat

/-- A text whose last piece is not empty asks for no directory. -/
theorem asDirectory_eq_false {text : String} {pieces : List (List Char)} {last : List Char}
    (h : Text.split '/' text.toList = pieces ++ [last]) (hlast : last ≠ []) :
    (ofText text).asDirectory = false := by
  have hend : text.toList.getLast? = last.getLast? := by
    rw [← Text.join_split '/' text.toList, h, Text.getLast?_join hlast]
  have hslash : '/' ∉ last := Text.not_mem_of_mem_split (by rw [h]; simp)
  have hne : last.getLast? ≠ some '/' := fun heq => hslash (List.mem_of_getLast? heq)
  simp [ofText, hend, hne]

/-- **A path ends in an ordinary name** exactly when the last of its names is one and no slash comes
behind it. -/
theorem endsIn_iff {text name : String} :
    EndsIn text name ↔ (ofText text).names.getLast? = some name ∧ name ≠ "." ∧ name ≠ ".." ∧
      (ofText text).asDirectory = false := by
  obtain ⟨pieces, last, hsplit⟩ : ∃ pieces last, Text.split '/' text.toList = pieces ++ [last] :=
    ⟨_, _, (List.dropLast_concat_getLast (Text.split_ne_nil '/' text.toList)).symm⟩
  constructor
  · rintro ⟨hlast, hne, hdots⟩
    rw [hsplit, List.getLast?_concat, Option.some_inj] at hlast
    have hlastNe : last ≠ [] := fun hnil => hne (String.toList_eq_nil_iff.mp (by rw [← hlast, hnil]))
    refine ⟨?_, hdots.1, hdots.2, asDirectory_eq_false hsplit hlastNe⟩
    rw [getLast?_names hsplit hlastNe, hlast, String.ofList_toList]
  · rintro ⟨hlast, hdot, hup, hdir⟩
    have hlastNe : last ≠ [] := by
      rintro rfl
      cases pieces with
      | nil => simp [ofText, hsplit] at hlast
      | cons first middle => exact last_ne_nil hsplit (fun hnil => by simp [hnil] at hlast) hdir rfl
    rw [getLast?_names hsplit hlastNe, Option.some_inj] at hlast
    refine ⟨?_, ?_, hdot, hup⟩
    · rw [hsplit, List.getLast?_concat, ← hlast, String.toList_ofList]
    · rw [← hlast]
      exact fun hempty => hlastNe (String.ofList_injective hempty)

/-! ## The directory part as a path -/

/-- The directory part is a piece of the text, a dot or a slash. -/
theorem mem_parentText {text : String} {c : Char} (h : c ∈ (parentText text).toList) :
    c ∈ text.toList ∨ c = '.' ∨ c = '/' := by
  rw [parentText] at h
  split at h
  · exact .inr (.inl (List.mem_singleton.mp h))
  next first rest hsplit =>
  split at h
  · exact .inr (.inl (List.mem_singleton.mp h))
  next last before hrest =>
  simp only at h
  split at h
  · exact .inr (.inr (List.mem_singleton.mp h))
  rw [String.toList_ofList] at h
  obtain rfl | ⟨piece, hpiece, hc⟩ := Text.eq_or_mem_of_mem_join h
  · exact .inr (.inr rfl)
  have hbefore : before ⊆ rest := fun p hp => by
    have hmem : p ∈ rest.reverse.dropWhile isIdle := by
      rw [hrest]
      exact List.mem_cons_of_mem _ hp
    exact List.mem_reverse.mp ((List.dropWhile_sublist _).subset hmem)
  have hmem : piece ∈ Text.split '/' text.toList := by
    rw [hsplit]
    rcases List.mem_cons.mp hpiece with rfl | hpiece
    · exact List.mem_cons_self
    · refine List.mem_cons_of_mem _ (hbefore ?_)
      exact (List.dropWhile_sublist _).subset (List.mem_reverse.mp hpiece)
  exact .inl (Text.mem_of_mem_split hmem hc)

/-- The directory part is never empty. -/
theorem parentText_ne_empty (text : String) : parentText text ≠ "" := by
  rw [parentText]
  split
  · decide
  split
  · decide
  simp only
  split
  · decide
  next hkept => exact fun hempty => hkept (by rw [String.ofList_injective hempty]; rfl)

end Path

namespace Volume

variable {v : Volume} {c : Caller} {path : String}

/-- The directory part is no longer than the path of a file beside it. -/
theorem utf8ByteSize_parentText_le (v : Volume) (path name : String) :
    (Path.parentText path).utf8ByteSize ≤ (v.besidePath path name).utf8ByteSize := by
  rw [besidePath]
  split
  next hroot =>
    rw [hroot, String.utf8ByteSize_append, String.utf8ByteSize_append]
    have hslash : "/".utf8ByteSize = 1 := rfl
    omega
  · split <;> simp only [String.utf8ByteSize_append] <;> omega

/-- A text is a path exactly when it has no defect. -/
theorem checked_eq_ok_iff {text : String} {p : Path} :
    checked text = .ok p ↔ '\x00' ∉ text.toList ∧ text ≠ "" ∧ text.utf8ByteSize < Path.lengthLimit ∧
      p = Path.ofText text := by
  rw [checked, Path.defect?]
  by_cases hnul : '\x00' ∈ text.toList
  · simp [hnul]
  by_cases hempty : text = ""
  · simp [hempty]
  by_cases hlong : Path.lengthLimit ≤ text.utf8ByteSize
  · simp [hnul, hempty, hlong, Nat.not_lt.mpr hlong]
  · have heq : Path.ofText text = p ↔ p = Path.ofText text := eq_comm
    simp [hnul, hempty, hlong, Nat.not_le.mp hlong, heq]

/-- Only the empty text is not found as a path. -/
theorem checked_ne_notFound {text : String} (h : text ≠ "") : checked text ≠ .error .notFound := by
  rw [checked, Path.defect?]
  by_cases hnul : '\x00' ∈ text.toList
  · simp [hnul]
  by_cases hlong : Path.lengthLimit ≤ text.utf8ByteSize
  · simp [hnul, h, hlong]
  · simp [hnul, h, hlong]

/-- The directory part of a path is a path, where a file beside the path can be named. -/
theorem checked_parentText {p : Path} (hp : checked path = .ok p)
    (hshort : (v.besidePath path (stagedName 0)).utf8ByteSize < Path.lengthLimit) :
    checked (Path.parentText path) = .ok (Path.parent path) := by
  refine checked_eq_ok_iff.mpr ⟨fun hnul => ?_, Path.parentText_ne_empty path,
    Nat.lt_of_le_of_lt (v.utf8ByteSize_parentText_le path _) hshort, rfl⟩
  obtain h | h | h := Path.mem_parentText hnul
  · exact (checked_eq_ok_iff.mp hp).1 h
  · exact absurd h (by decide)
  · exact absurd h (by decide)

/-! ## Names that are too long -/

/-- A walk that cannot take its last step ends in the fault of that step. -/
theorem Walk.follow_concat_error {P : Location → Prop} {links : Nat} {here p : Location}
    {name : String} {names : List String} {f : Fault} (h : v.Walk c P links here names p)
    (hstep : v.stepFrom c p name = .error f) : v.follow c links here (names ++ [name]) = .error f := by
  induction h with
  | done => rw [List.nil_append, follow_cons, hstep]
  | step _ hfirst _ ih =>
    rw [List.cons_append, follow_cons, hfirst]
    exact ih hstep
  | link _ _ hfirst _ ih =>
    have hrest := ih hstep
    rw [List.append_assoc] at hrest
    rw [List.cons_append, follow_cons, hfirst]
    exact hrest

/-- No step is made to a name that is too long. -/
theorem stepFrom_tooLong {here : Location} {name : String} (hsearch : v.Searchable c here)
    (hdot : name ≠ ".") (hup : name ≠ "..") (hlen : nameLimit < name.utf8ByteSize) :
    v.stepFrom c here name = .error .nameTooLong := by
  obtain ⟨mode, hmode, hmay⟩ := hsearch
  rw [stepFrom_eq, hmode]
  simp [hmay, hdot, hup, hlen]

/-! ## The three lookups -/

variable {place : Location} {mode : Mode} {es : Entries} {name : String}

/-- A text without a defect is looked up as a path; the others have no ordinary name at their end, or a
fault of their own. -/
theorem checked_of_lookup (hname : Path.EndsIn path name)
    (h : (∃ q, v.resolve c path = .ok q) ∨ v.resolve c path = .error .notFound) :
    checked path = .ok (Path.ofText path) := by
  have hne : path ≠ "" := by
    rintro rfl
    exact hname.2.1 (String.toList_eq_nil_iff.mp (Option.some.inj hname.1).symm)
  cases hp : checked path with
  | ok p => rw [eq_ofText_of_checked hp]
  | error f =>
    have hresolve : v.resolve c path = .error f := by rw [resolve, hp]; rfl
    rw [hresolve] at h
    obtain ⟨q, hq⟩ | hnone := h
    · cases hq
    · exact absurd (hp.trans (congrArg _ (Except.error.inj hnone))) (checked_ne_notFound hne)

/-- A path whose last name is too long leads nowhere. -/
theorem resolve_tooLong (hp : checked path = .ok (Path.ofText path)) (hname : Path.EndsIn path name)
    (hwalk : v.Walk c (fun _ => True) linkLimit (v.start (.ofText path))
      (Path.ofText path).names.dropLast place)
    (hsearch : v.Searchable c place) (hlen : nameLimit < name.utf8ByteSize) :
    v.resolve c path = .error .nameTooLong := by
  obtain ⟨hlast, hdot, hup, hplain⟩ := Path.endsIn_iff.mp hname
  have hend := hwalk.follow_concat_error (stepFrom_tooLong hsearch hdot hup hlen)
  rw [← Path.steps_eq_concat hlast hplain] at hend
  rw [resolve, hp]
  exact hend

/-- **The entry that a path names** lies in the directory that the text of its directory part leads to,
under its last name. -/
theorem entry_of_parent (hp : checked path = .ok (Path.ofText path)) (hname : Path.EndsIn path name)
    (hlen : name.utf8ByteSize ≤ nameLimit)
    (hwalk : v.Walk c (fun _ => True) linkLimit (v.start (.ofText path))
      (Path.ofText path).names.dropLast place)
    (hplace : v.node? place = some (.directory mode es)) (hmay : c.maySearch mode = true) :
    v.entry c path = .ok ⟨place, mode, es, name⟩ := by
  obtain ⟨hlast, hdot, hup, hplain⟩ := Path.endsIn_iff.mp hname
  exact entry_eq_ok_iff.mpr ⟨_, hp, directory_eq_ok_iff.mpr ⟨hwalk.follow, hplace, hmay⟩, hlast, hdot,
    hup, hlen, hplain⟩

/-- The names of a path but the last lead where the text of its directory part does. -/
theorem walk_of_resolve_parentText (hname : Path.EndsIn path name) (hsearch : v.Searchable c place)
    (h : v.resolve c (Path.parentText path) = .ok place) :
    v.Walk c (fun _ => True) linkLimit (v.start (.ofText path)) (Path.ofText path).names.dropLast
      place := by
  obtain ⟨hlast, hdot, -, hplain⟩ := Path.endsIn_iff.mp hname
  obtain ⟨p, hp, hlook⟩ := resolve_eq_ok_iff.mp h
  obtain rfl := eq_ofText_of_checked hp
  obtain ⟨hsteps, -⟩ := Path.dotless_steps_parent hlast hdot hplain
  have hwalk := follow_eq_ok_iff.mp hlook
  rw [← Path.parent, start_parent hlast hdot hplain] at hwalk
  exact hwalk.of_dotless_eq hsearch hsteps

/-- A name at the end of a path that leads to something, or is not found, is not too long. -/
theorem utf8ByteSize_le_of_lookup (hname : Path.EndsIn path name)
    (hwalk : v.Walk c (fun _ => True) linkLimit (v.start (.ofText path))
      (Path.ofText path).names.dropLast place)
    (hsearch : v.Searchable c place)
    (h : (∃ q, v.resolve c path = .ok q) ∨ v.resolve c path = .error .notFound) :
    name.utf8ByteSize ≤ nameLimit := by
  by_contra hlong
  have htooLong :=
    resolve_tooLong (checked_of_lookup hname h) hname hwalk hsearch (Nat.not_le.mp hlong)
  obtain ⟨q, hq⟩ | hnone := h
  · cases hq.symm.trans htooLong
  · cases hnone.symm.trans htooLong

/-- A place is free of directories by the kind of what is there, or by what is there. -/
theorem kind_ne_directory_iff {q : Location} :
    (∀ mode, (v.node? q).map Node.kind ≠ some (.directory mode)) ↔
      ∀ mode es, v.node? q ≠ some (.directory mode es) := by
  constructor
  · intro h mode es hnode
    exact h mode (by rw [hnode]; rfl)
  · intro h mode hkind
    obtain ⟨n, hn, hn'⟩ := Option.map_eq_some_iff.mp hkind
    obtain ⟨es, rfl⟩ := Node.exists_directory_of_kind hn'
    exact h mode es hn

/-- **What can be replaced** leads to something that may be written, or to nothing. -/
theorem Replaceable.leads {found : Option Mode} {e : Entry} (h : v.Replaceable c path found e) :
    (∃ mode, v.LeadsTo c path mode ∧ isReadOnly mode = false) ∨
      v.resolve c path = .error .notFound := by
  have hwritable := h.writable
  obtain ⟨mode, rfl, hleads⟩ | ⟨-, hnone⟩ := (modeAt?_eq_ok_iff h.overwritable.entry).mp h.mode
  · exact .inl ⟨mode, hleads, by simpa using hwritable⟩
  · exact .inr hnone

/-- **What can be replaced** lies where the text of its path's directory part leads, under the ordinary
name at the end. -/
theorem Replaceable.placed {found : Option Mode} {e : Entry} (h : v.Replaceable c path found e) :
    v.resolve c (Path.parentText path) = .ok e.place ∧
      v.node? e.place = some (.directory e.mode e.entries) ∧ Path.EndsIn path e.name := by
  have he := h.overwritable.entry
  obtain ⟨p, hp, -, hlast, hdot, hup, -, hplain⟩ := entry_eq_ok_iff.mp he
  obtain rfl := eq_ofText_of_checked hp
  obtain ⟨hlook, hplace, -⟩ := directory_eq_ok_iff.mp (directory_parent_of_entry he)
  exact ⟨resolve_eq_ok_iff.mpr ⟨_, checked_parentText hp h.short, hlook⟩, hplace,
    Path.endsIn_iff.mpr ⟨hlast, hdot, hup, hplain⟩⟩

/-- **An entry that is named and no directory** can be overwritten. -/
theorem overwritable_of_parent (hname : Path.EndsIn path name)
    (h : (∃ q, v.resolve .privileged path = .ok q) ∨ v.resolve .privileged path = .error .notFound)
    (hparent : v.resolve .privileged (Path.parentText path) = .ok place)
    (hplace : v.node? place = some (.directory mode es))
    (hnot : ∀ mode es, v.node? (place ++ [name]) ≠ some (.directory mode es)) :
    v.Overwritable .privileged path ⟨place, mode, es, name⟩ := by
  have hsearch : v.Searchable .privileged place := ⟨mode, by rw [hplace]; rfl, rfl⟩
  have hwalk := walk_of_resolve_parentText hname hsearch hparent
  have hlen := utf8ByteSize_le_of_lookup hname hwalk hsearch h
  exact ⟨entry_of_parent (checked_of_lookup hname h) hname hlen hwalk hplace rfl, rfl,
    kind_ne_directory_iff.mpr hnot⟩

/-- **What a replacement asks for**, where no permission is missing: that the path leads to something
that may be written, or to nothing; that the text of its directory part leads to a directory; and that
it ends in an ordinary name, under which there is no directory. -/
theorem exists_replaceable_iff
    (hshort : (v.besidePath path (stagedName 0)).utf8ByteSize < Path.lengthLimit) :
    (∃ found e, v.Replaceable .privileged path found e) ↔
      ((∃ mode, v.LeadsTo .privileged path mode ∧ isReadOnly mode = false) ∨
        v.resolve .privileged path = .error .notFound) ∧
      ∃ place mode es, v.resolve .privileged (Path.parentText path) = .ok place ∧
        v.node? place = some (.directory mode es) ∧
        ∃ name, Path.EndsIn path name ∧
          ∀ mode es, v.node? (place ++ [name]) ≠ some (.directory mode es) := by
  constructor
  · rintro ⟨found, e, hcan⟩
    obtain ⟨hparent, hplace, hname⟩ := hcan.placed
    exact ⟨hcan.leads, e.place, e.mode, e.entries, hparent, hplace, e.name, hname,
      kind_ne_directory_iff.mp hcan.overwritable.notDirectory⟩
  · rintro ⟨hleads, place, mode, es, hparent, hplace, name, hname, hnot⟩
    have hlookup : (∃ q, v.resolve .privileged path = .ok q) ∨
        v.resolve .privileged path = .error .notFound :=
      hleads.imp_left fun ⟨_, ⟨q, _, hq, _⟩, _⟩ => ⟨q, hq⟩
    have hover := overwritable_of_parent hname hlookup hparent hplace hnot
    obtain ⟨mode', hleads, hwritable⟩ | hnone := hleads
    · exact ⟨_, _, modeAt?_eq_some_iff.mpr hleads, by simpa using hwritable, hshort, hover⟩
    · exact ⟨none, _, by rw [modeAt?, hnone], rfl, hshort, hover⟩

end Volume

/-! ## Faults of permission -/

/-- Whether a fault is one of permission: it is missing, or nobody may write. -/
def Fault.isDenial : Fault → Bool
  | .permissionDenied | .readOnly => true
  | _ => false

/-- What does not end in a fault of permission. -/
def Undenied {α : Type} (x : Except Fault α) : Prop := ∀ f, x = .error f → f.isDenial = false

namespace Undenied

variable {α β : Type}

theorem ok (a : α) : Undenied (.ok a) := nofun

theorem error {f : Fault} (h : f.isDenial = false) : Undenied (α := α) (.error f) := by
  rintro g hg
  cases hg
  exact h

/-- **One after the other**, what is undenied stays so. -/
theorem bind {x : Except Fault α} {g : α → Except Fault β} (hx : Undenied x)
    (hg : ∀ a, Undenied (g a)) : Undenied (x >>= g) := by
  cases x with
  | error f => exact error (hx f rfl)
  | ok a => exact hg a

end Undenied

namespace Volume

variable {v u : Volume} {path : String}

/-! Where no permission is missing, no lookup ends in a fault of permission, one definition after the
other. -/

theorem undenied_checked (text : String) : Undenied (checked text) := by
  rw [checked]
  split
  · exact .error rfl
  · exact .error rfl
  · exact .error rfl
  · exact .ok _

theorem undenied_stepFrom (v : Volume) (here : Location) (name : String) :
    Undenied (v.stepFrom .privileged here name) := by
  rw [stepFrom_eq]
  split
  · split
    next hno => cases hno
    split
    · exact .ok _
    split
    · exact .ok _
    split
    · exact .error rfl
    split
    · exact .error rfl
    · exact .ok _
  · exact .error rfl
  · exact .error rfl

theorem undenied_followWith (v : Volume) {onLink : Follower}
    (h : ∀ here names, Undenied (onLink here names)) : ∀ (here : Location) (names : List String),
      Undenied (v.followWith .privileged onLink here names)
  | _, [] => .ok _
  | here, name :: rest => by
      rw [followWith]
      split
      next f hstep => exact .error (v.undenied_stepFrom here name f hstep)
      next place hstep => exact v.undenied_followWith h place rest
      · exact h _ _

theorem undenied_follow (v : Volume) : ∀ (links : Nat) (here : Location) (names : List String),
    Undenied (v.follow .privileged links here names)
  | 0 => v.undenied_followWith fun _ _ => .error rfl
  | links + 1 => v.undenied_followWith (v.undenied_follow links)

theorem undenied_resolve (v : Volume) (text : String) : Undenied (v.resolve .privileged text) :=
  .bind (undenied_checked text) fun _ => v.undenied_follow _ _ _

theorem undenied_directory (v : Volume) (p : Path) (names : List String) :
    Undenied (v.directory .privileged p names) := by
  refine .bind (v.undenied_follow _ _ _) fun place => ?_
  split
  · exact .ok _
  · exact .error rfl
  · exact .error rfl

theorem undenied_entry (v : Volume) (text : String) : Undenied (v.entry .privileged text) := by
  refine .bind (undenied_checked text) fun p => .bind (v.undenied_directory _ _) fun found => ?_
  simp only
  split
  · exact .error rfl
  split
  · exact .error rfl
  split
  · exact .error rfl
  split
  · exact .error rfl
  · exact .ok _

theorem undenied_stageBeside (v : Volume) (path : String) :
    Undenied (v.stageBeside .privileged path) := by
  rw [stageBeside]
  split
  · exact .error rfl
  · exact .bind (v.undenied_directory _ _) fun _ => .ok _

theorem undenied_moveTo (v : Volume) (s : StagedFile) (path : String) :
    Undenied (v.moveTo .privileged s path) := by
  refine .bind (v.undenied_entry path) fun e => ?_
  split
  · exact .error rfl
  · exact .ok _
  · exact .error rfl

theorem undenied_modeAt? (v : Volume) (path : String) : Undenied (v.modeAt? .privileged path) := by
  rw [modeAt?]
  split
  · exact .ok _
  · exact .ok _
  next f _ hf => exact .error (v.undenied_resolve path f hf)

/-- **A fault of permission** stands for an output that nobody may write, and nothing else does. -/
theorem isDenial_iff {content : List UInt8} {f : Fault}
    (h : ((disk .privileged).replace path content).run v = (.error f, u)) :
    f.isDenial = true ↔ ∃ mode, v.LeadsTo .privileged path mode ∧ isReadOnly mode = true := by
  rw [replace_run] at h
  constructor
  · intro hdenial
    have hno {α : Type} {x : Except Fault α} (hx : Undenied x) (hf : x = .error f) : False :=
      Bool.false_ne_true ((hx f hf).symm.trans hdenial)
    split at h
    next g hg =>
      cases h
      exact (hno (v.undenied_modeAt? path) hg).elim
    next found hfound =>
    split at h
    next hro =>
      obtain ⟨mode, rfl, hmode⟩ := (Option.any_eq_true _ _).mp hro
      exact ⟨mode, modeAt?_eq_some_iff.mp hfound, hmode⟩
    split at h
    next g hg =>
      cases h
      exact (hno (v.undenied_stageBeside path) hg).elim
    split at h
    · cases h
    next g hg =>
      cases h
      exact (hno (undenied_moveTo _ _ path) hg).elim
  · rintro ⟨mode, hleads, hro⟩
    rw [modeAt?_eq_some_iff.mpr hleads] at h
    simp only [Option.any_some, hro, if_true] at h
    cases h
    rfl

end Volume

end PinnedManifest.Files
