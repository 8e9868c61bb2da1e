import PinnedManifest.Proofs.Files.Tree

/-!
# Proofs/Files/Walk — the places a path leads through

`Volume.Walk` is following names as a relation that also bounds the places looked at: with no bound it
is `Volume.follow` (`follow_eq_ok_iff`).  A walk depends on nothing but the kinds of nodes at its
places (`Walk.congr`), and one that reaches a directory never came by an entry that is a file or not
there at all (`Walk.avoid`).  So a file staged beside an output is in nobody's way (`directory_of_put`,
`entry_of_put`).
-/

namespace PinnedManifest.Files

/-- Where a node of a kind leads on to. -/
def Kind.target? : Kind → Option String
  | .link target => some target
  | _ => none

namespace Volume

variable {v v' : Volume} {c : Caller}

/-! ## Steps see kinds only -/

theorem stepFrom_eq (v : Volume) (c : Caller) (here : Location) (name : String) :
    v.stepFrom c here name =
      match (v.node? here).map Node.kind with
      | some (.directory mode) =>
        if !c.maySearch mode then .error .permissionDenied
        else if name = "." then .ok (here, none)
        else if name = ".." then .ok (here.dropLast, none)
        else if nameLimit < name.utf8ByteSize then .error .nameTooLong
        else
          match (v.node? (here ++ [name])).map Node.kind with
          | none => .error .notFound
          | some k => .ok (here ++ [name], k.target?)
      | some _ => .error .notADirectory
      | none => .error .notFound := by
  rw [stepFrom]
  cases h : v.node? here with
  | none => rfl
  | some n =>
    cases n with
    | file | link => rfl
    | directory mode es =>
      simp only [Option.map_some, Node.kind, node?_child h]
      cases Entries.find? name es with
      | none => rfl
      | some m => cases m <;> rfl

/-- **What a step that succeeds does**: it stays, goes up, or goes to what is there under the name. -/
theorem stepFrom_eq_ok {here place : Location} {name : String} {target : Option String}
    (h : v.stepFrom c here name = .ok (place, target)) :
    (∃ mode, (v.node? here).map Node.kind = some (.directory mode)) ∧
      ((name = "." ∧ place = here ∧ target = none) ∨
        (name = ".." ∧ place = here.dropLast ∧ target = none) ∨
        (name ≠ "." ∧ name ≠ ".." ∧ place = here ++ [name] ∧
          ∃ k, (v.node? place).map Node.kind = some k ∧ target = k.target?)) := by
  rw [stepFrom_eq] at h
  split at h
  case h_2 | h_3 => cases h
  next mode hmode =>
    refine ⟨⟨mode, hmode⟩, ?_⟩
    split at h
    · cases h
    split at h
    next hdot =>
      cases h
      exact .inl ⟨hdot, rfl, rfl⟩
    next hdot =>
    split at h
    next hup =>
      cases h
      exact .inr (.inl ⟨hup, rfl, rfl⟩)
    next hup =>
    split at h
    · cases h
    split at h
    · cases h
    next k hk =>
      cases h
      exact .inr (.inr ⟨hdot, hup, rfl, k, hk, rfl⟩)

/-- A step that succeeds depends on the kinds of nodes at its two ends. -/
theorem stepFrom_congr {here place : Location} {name : String} {target : Option String}
    (h : v.stepFrom c here name = .ok (place, target))
    (hhere : (v.node? here).map Node.kind = (v'.node? here).map Node.kind)
    (hplace : (v.node? place).map Node.kind = (v'.node? place).map Node.kind) :
    v'.stepFrom c here name = .ok (place, target) := by
  rw [← h, stepFrom_eq, stepFrom_eq, hhere]
  obtain ⟨hdot, -⟩ | ⟨hup, -⟩ | ⟨-, -, rfl, -⟩ := (stepFrom_eq_ok h).2
  · simp only [if_pos hdot]
  · simp only [if_pos hup]
  · rw [hplace]

/-- Nothing but the file itself lies at or below a file, and nothing at all below what is not there. -/
theorem not_prefix_of_kind {entry q : Location} {k : Kind}
    (hentry : (v.node? entry).map Node.kind = some .file ∨ v.node? entry = none)
    (hq : (v.node? q).map Node.kind = some k) (hk : k ≠ .file) : ¬ entry <+: q := by
  rintro ⟨below, rfl⟩
  rw [node?_append] at hq
  obtain hfile | hnone := hentry
  · obtain ⟨n, hn, hkind⟩ := Option.map_eq_some_iff.mp hfile
    cases n with
    | directory | link => cases hkind
    | file =>
      rw [hn, Option.bind_some] at hq
      cases below with
      | nil => exact hk (Option.some.inj hq).symm
      | cons => cases hq
  · rw [hnone] at hq
    cases hq

/-! ## Walks -/

/-- Names followed through at most so many links, every place looked at being one of the given. -/
inductive Walk (v : Volume) (c : Caller) (P : Location → Prop) :
    Nat → Location → List String → Location → Prop
  | done {links : Nat} {here : Location} : P here → Walk v c P links here [] here
  | step {links : Nat} {here place p : Location} {name : String} {rest : List String} :
      P here → v.stepFrom c here name = .ok (place, none) → Walk v c P links place rest p →
      Walk v c P links here (name :: rest) p
  | link {links : Nat} {here place p : Location} {name target : String} {rest : List String} :
      P here → P place → v.stepFrom c here name = .ok (place, some target) →
      Walk v c P links (if (Path.ofText target).absolute then [] else here)
        ((Path.ofText target).steps ++ rest) p →
      Walk v c P (links + 1) here (name :: rest) p

theorem follow_nil (v : Volume) (c : Caller) (links : Nat) (here : Location) :
    v.follow c links here [] = .ok here := by
  cases links <;> rfl

theorem follow_cons (v : Volume) (c : Caller) (links : Nat) (here : Location) (name : String)
    (rest : List String) :
    v.follow c links here (name :: rest) =
      match v.stepFrom c here name with
      | .error e => .error e
      | .ok (place, none) => v.follow c links place rest
      | .ok (_, some target) =>
        match links with
        | 0 => .error .linkLoop
        | left + 1 =>
          v.follow c left (if (Path.ofText target).absolute then [] else here)
            ((Path.ofText target).steps ++ rest) := by
  cases links <;> rfl

theorem Walk.of_follow {p : Location} : ∀ (links : Nat) (here : Location) (names : List String),
    v.follow c links here names = .ok p → v.Walk c (fun _ => True) links here names p := by
  intro links
  induction links with
  | zero =>
    intro here names
    induction names generalizing here with
    | nil =>
      intro h
      cases (follow_nil v c 0 here).symm.trans h
      exact .done trivial
    | cons name rest ih =>
      intro h
      rw [follow_cons] at h
      split at h
      · cases h
      next place hstep => exact .step trivial hstep (ih place h)
      · cases h
  | succ left ihLinks =>
    intro here names
    induction names generalizing here with
    | nil =>
      intro h
      cases (follow_nil v c (left + 1) here).symm.trans h
      exact .done trivial
    | cons name rest ih =>
      intro h
      rw [follow_cons] at h
      split at h
      · cases h
      next place hstep => exact .step trivial hstep (ih place h)
      next place target hstep => exact .link trivial trivial hstep (ihLinks _ _ h)

/-- A walk is a path followed, whatever bounds its places. -/
theorem Walk.follow {P : Location → Prop} {links : Nat} {here p : Location} {names : List String}
    (h : v.Walk c P links here names p) : v.follow c links here names = .ok p := by
  induction h with
  | done => exact follow_nil v c _ _
  | step _ hstep _ ih => rw [follow_cons, hstep]; exact ih
  | link _ _ hstep _ ih => rw [follow_cons, hstep]; exact ih

/-- **Walks without a bound are what following gives.** -/
theorem follow_eq_ok_iff {links : Nat} {here p : Location} {names : List String} :
    v.follow c links here names = .ok p ↔ v.Walk c (fun _ => True) links here names p :=
  ⟨Walk.of_follow links here names, Walk.follow⟩

namespace Walk

variable {P Q : Location → Prop} {links : Nat} {here p : Location} {names : List String}

theorem start (h : v.Walk c P links here names p) : P here := by
  cases h with
  | done h | step h | link h => exact h

theorem finish (h : v.Walk c P links here names p) : P p := by
  induction h with
  | done h => exact h
  | step _ _ _ ih => exact ih
  | link _ _ _ _ ih => exact ih

/-- **Walks depend on kinds alone** — volumes that agree in them at the places of a walk share it. -/
theorem congr (hkind : ∀ q, P q → (v.node? q).map Node.kind = (v'.node? q).map Node.kind)
    (h : v.Walk c P links here names p) : v'.Walk c P links here names p := by
  induction h with
  | done h => exact .done h
  | step hhere hstep hrest ih =>
    exact .step hhere (stepFrom_congr hstep (hkind _ hhere) (hkind _ hrest.start)) ih
  | link hhere hplace hstep _ ih =>
    exact .link hhere hplace (stepFrom_congr hstep (hkind _ hhere) (hkind _ hplace)) ih

/-- **A walk to a directory avoids what is none** — an entry that is a file, or not there, leads
nowhere. -/
theorem avoid {entry : Location} {mode : Mode}
    (hentry : (v.node? entry).map Node.kind = some .file ∨ v.node? entry = none)
    (hp : (v.node? p).map Node.kind = some (.directory mode))
    (h : v.Walk c P links here names p) :
    v.Walk c (fun q => P q ∧ ¬ entry <+: q) links here names p := by
  induction h with
  | done h => exact .done ⟨h, not_prefix_of_kind hentry hp (by simp)⟩
  | step hhere hstep _ ih =>
    obtain ⟨mode, hmode⟩ := (stepFrom_eq_ok hstep).1
    exact .step ⟨hhere, not_prefix_of_kind hentry hmode (by simp)⟩ hstep (ih hp)
  | link hhere hplace hstep _ ih =>
    obtain ⟨⟨mode, hmode⟩, hends⟩ := stepFrom_eq_ok hstep
    refine .link ⟨hhere, not_prefix_of_kind hentry hmode (by simp)⟩ ⟨hplace, ?_⟩ hstep (ih hp)
    obtain ⟨-, -, h⟩ | ⟨-, -, h⟩ | ⟨-, -, -, k, hk, ht⟩ := hends
    · cases h
    · cases h
    · exact not_prefix_of_kind hentry hk fun e => by rw [e] at ht; cases ht

end Walk

/-! ## A file put among the entries of a directory -/

theorem directory_eq_ok_iff {path : Path} {names : List String} {place : Location} {mode : Mode}
    {es : Entries} :
    v.directory c path names = .ok (place, mode, es) ↔
      v.lookup c path names = .ok place ∧ v.node? place = some (.directory mode es)
        ∧ c.maySearch mode = true := by
  constructor
  · intro h
    rw [directory] at h
    cases hlook : v.lookup c path names with
    | error e => rw [hlook] at h; cases h
    | ok q =>
      simp only [hlook, bind, Except.bind] at h
      split at h
      next mode' es' hq =>
        split at h
        next hmay =>
          cases h
          exact ⟨rfl, hq, hmay⟩
        · cases h
      · cases h
      · cases h
  · rintro ⟨hlook, hq, hmay⟩
    simp only [directory, hlook, bind, Except.bind, hq, hmay, if_true]

/-- **What an entry that is found says**: its directory, and that its name is an ordinary one. -/
theorem entry_eq_ok_iff {path : String} {e : Entry} :
    v.entry c path = .ok e ↔ ∃ p, checked path = .ok p ∧
      v.directory c p p.names.dropLast = .ok (e.place, e.mode, e.entries) ∧
        p.names.getLast? = some e.name ∧ e.name ≠ "." ∧ e.name ≠ ".." ∧
          e.name.utf8ByteSize ≤ nameLimit ∧ p.asDirectory = false := by
  obtain ⟨place, mode, es, name⟩ := e
  constructor
  · intro h
    rw [entry] at h
    cases hp : checked path with
    | error e => rw [hp] at h; cases h
    | ok p =>
      simp only [hp, bind, Except.bind] at h
      refine ⟨p, rfl, ?_⟩
      cases hdir : v.directory c p p.names.dropLast with
      | error e => rw [hdir] at h; cases h
      | ok d =>
        obtain ⟨place', mode', es'⟩ := d
        simp only [hdir] at h
        split at h
        · cases h
        next last hlast =>
          split at h
          · cases h
          next hdots =>
          split at h
          · cases h
          next hlen =>
          split at h
          · cases h
          next hasDir =>
            cases h
            obtain ⟨hdot, hup⟩ := not_or.mp hdots
            exact ⟨rfl, hlast, hdot, hup, Nat.le_of_not_lt hlen, Bool.eq_false_iff.mpr hasDir⟩
  · rintro ⟨p, hp, hdir, hlast, hdot, hup, hlen, hasDir⟩
    simp only [entry, hp, bind, Except.bind, hdir, hlast, hdot, hup, or_self, if_false,
      Nat.not_lt.mpr hlen, hasDir, Bool.false_eq_true]

/-- The directory that an entry lies in is where its place says. -/
theorem node?_of_entry {path : String} {e : Entry} (h : v.entry c path = .ok e) :
    v.node? e.place = some (.directory e.mode e.entries) := by
  obtain ⟨p, -, hdir, -⟩ := entry_eq_ok_iff.mp h
  exact (directory_eq_ok_iff.mp hdir).2.1

section Put

variable {place : Location} {name : String} {node : Node}

/-- A file put in is a file, or not there where no directory takes it. -/
theorem node?_put_of_kind (hfile : node.kind = .file) :
    ((v.put place name node).node? (place ++ [name])).map Node.kind = some .file ∨
      (v.put place name node).node? (place ++ [name]) = none := by
  by_cases hdir : ∃ mode es, v.node? place = some (.directory mode es)
  · obtain ⟨mode, es, h⟩ := hdir
    exact .inl (by rw [node?_put h, Option.map_some, hfile])
  · have hno : ∀ mode es, v.node? place ≠ some (.directory mode es) :=
      fun mode es h => hdir ⟨mode, es, h⟩
    refine .inr ?_
    rw [put_eq_self hno, node?_append]
    rcases h : v.node? place with _ | _ | ⟨mode, es⟩ | _
    case some.directory => exact absurd h (hno mode es)
    all_goals rfl

/-- A file put in where there was none, or a file, makes no directory and takes none away. -/
theorem kind_put_eq_directory_iff {q : Location} {mode : Mode} (hfile : node.kind = .file)
    (hold : (v.node? (place ++ [name])).map Node.kind = some .file ∨
      v.node? (place ++ [name]) = none) :
    ((v.put place name node).node? q).map Node.kind = some (.directory mode)
      ↔ (v.node? q).map Node.kind = some (.directory mode) := by
  by_cases hbelow : place ++ [name] <+: q
  · constructor
    · intro h
      exact absurd hbelow (not_prefix_of_kind (node?_put_of_kind hfile) h (by simp))
    · intro h
      exact absurd hbelow (not_prefix_of_kind hold h (by simp))
  · rw [kind_put hbelow]

/-- **Directories found by a walk that keeps away from an entry** are found with a file put in there,
too. -/
theorem directory_put_of_walk {path : Path} {names : List String} {q : Location} {mode : Mode}
    {P : Location → Prop} (hsame : ∀ q, P q → (v.node? q).map Node.kind
      = ((v.put place name node).node? q).map Node.kind)
    (hwalk : v.Walk c P linkLimit (v.start path) names q)
    (hq : (v.node? q).map Node.kind = some (.directory mode)) (hmay : c.maySearch mode = true) :
    ∃ es, (v.put place name node).directory c path names = .ok (q, mode, es) := by
  have hkind := hsame q hwalk.finish
  rw [hq] at hkind
  obtain ⟨n, hn, hdir⟩ := Option.map_eq_some_iff.mp hkind.symm
  obtain ⟨es, rfl⟩ := Node.exists_directory_of_kind hdir
  exact ⟨es, directory_eq_ok_iff.mpr ⟨(hwalk.congr hsame).follow, hn, hmay⟩⟩

/-- A new file hides no directory. -/
theorem directory_put {path : Path} {names : List String} {q : Location} {mode : Mode} {es : Entries}
    (hnew : v.node? (place ++ [name]) = none) (h : v.directory c path names = .ok (q, mode, es)) :
    ∃ es', (v.put place name node).directory c path names = .ok (q, mode, es') := by
  obtain ⟨hlook, hq, hmay⟩ := directory_eq_ok_iff.mp h
  have hkind : (v.node? q).map Node.kind = some (.directory mode) := by rw [hq]; rfl
  exact directory_put_of_walk (fun _ h => (kind_put h.2).symm)
    ((Walk.of_follow _ _ _ hlook).avoid (.inr hnew) hkind) hkind hmay

/-- **Directories found around a file were there before it.** -/
theorem directory_of_put {path : Path} {names : List String} {q : Location} {mode : Mode}
    {es : Entries} (hfile : node.kind = .file)
    (h : (v.put place name node).directory c path names = .ok (q, mode, es)) :
    ∃ es', v.directory c path names = .ok (q, mode, es') := by
  obtain ⟨hlook, hq, hmay⟩ := directory_eq_ok_iff.mp h
  have hkind : ((v.put place name node).node? q).map Node.kind = some (.directory mode) := by
    rw [hq]
    rfl
  have hwalk := (Walk.of_follow _ _ _ hlook).avoid (node?_put_of_kind hfile) hkind
  have hwalk' := hwalk.congr fun q hq => kind_put hq.2
  rw [kind_put hwalk.finish.2] at hkind
  obtain ⟨n, hn, hdir⟩ := Option.map_eq_some_iff.mp hkind
  obtain ⟨es', rfl⟩ := Node.exists_directory_of_kind hdir
  exact ⟨es', directory_eq_ok_iff.mpr ⟨hwalk'.follow, hn, hmay⟩⟩

/-- **So were the entries** — a path names the same entry with a file staged as without it. -/
theorem entry_of_put {path : String} {e : Entry} (hfile : node.kind = .file)
    (h : (v.put place name node).entry c path = .ok e) :
    ∃ es, v.entry c path = .ok { e with entries := es } := by
  obtain ⟨p, hp, hdir, hlast⟩ := entry_eq_ok_iff.mp h
  obtain ⟨es, hdir'⟩ := directory_of_put hfile hdir
  exact ⟨es, entry_eq_ok_iff.mpr ⟨p, hp, hdir', hlast⟩⟩

/-- A new file hides no entry. -/
theorem entry_put {path : String} {e : Entry} (hnew : v.node? (place ++ [name]) = none)
    (h : v.entry c path = .ok e) :
    ∃ es, (v.put place name node).entry c path = .ok { e with entries := es } := by
  obtain ⟨p, hp, hdir, hlast⟩ := entry_eq_ok_iff.mp h
  obtain ⟨es, hdir'⟩ := directory_put hnew hdir
  exact ⟨es, entry_eq_ok_iff.mpr ⟨p, hp, hdir', hlast⟩⟩

end Put

end Volume

end PinnedManifest.Files
