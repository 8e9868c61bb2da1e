import Mathlib.Data.List.TakeWhile
import PinnedManifest.Proofs.Files.Walk

/-!
# Proofs/Files/Parent — the directory part of a path

The directory that holds an entry is found in two ways: by the names of the path but the last, and by
the text of the path without its last piece.  The two differ in dots only (`dotless_steps_parent`), and
a walk may take or leave any dot (`Walk.of_dotless_eq`), so they lead to one directory by way of the
same places (`directory_parent_of_entry`).
-/

namespace PinnedManifest.Files

namespace Path

/-! ## The text without its last piece -/

/-- Names without dots. -/
def dotless (names : List String) : List String := names.filter (· ≠ ".")

/-- Pieces between slashes as names, without those that lead nowhere. -/
def solid (pieces : List (List Char)) : List String :=
  (pieces.filter (!isIdle ·)).map String.ofList

theorem dotless_append (names names' : List String) :
    dotless (names ++ names') = dotless names ++ dotless names' := List.filter_append ..

theorem solid_append (pieces pieces' : List (List Char)) :
    solid (pieces ++ pieces') = solid pieces ++ solid pieces' := by
  rw [solid, List.filter_append, List.map_append, solid, solid]

/-- Pieces that are read as names, without their dots. -/
theorem dotless_map_filter (pieces : List (List Char)) :
    dotless ((pieces.filter (!·.isEmpty)).map String.ofList) = solid pieces := by
  have hkeep (piece : List Char) :
      (decide (String.ofList piece ≠ ".") && !piece.isEmpty) = !isIdle piece := by
    have heq : String.ofList piece = "." ↔ piece = ['.'] :=
      ⟨fun h => String.ofList_injective h, fun h => by rw [h]⟩
    by_cases hdot : piece = ['.'] <;> simp [isIdle, heq, hdot]
  rw [dotless, List.filter_map, List.filter_filter, solid]
  exact congrArg _ (List.filter_congr fun piece _ => hkeep piece)

/-- A slash at the end adds but a dot. -/
theorem dotless_steps (text : String) :
    dotless (ofText text).steps = solid (Text.split '/' text.toList) := by
  rw [steps, dotless_append, ofText, dotless_map_filter]
  split <;> simp [dotless]

/-- A text with a slash starts at the root when nothing stands in front of the first one. -/
theorem absolute_ofText {text : String} {first next : List Char} {more : List (List Char)}
    (h : Text.split '/' text.toList = first :: next :: more) :
    (ofText text).absolute = first.isEmpty := by
  have hjoin := Text.join_split '/' text.toList
  have hfirst : '/' ∉ first := Text.not_mem_of_mem_split (h ▸ List.mem_cons_self)
  rw [h, Text.join] at hjoin
  cases first with
  | nil => simp [ofText, ← hjoin]
  | cons c cs =>
    have hc : c ≠ '/' := fun heq => hfirst (heq ▸ List.mem_cons_self)
    simp [ofText, ← hjoin, hc]

/-- Pieces that are all idle add no name. -/
theorem solid_eq_nil {pieces : List (List Char)} (h : ∀ piece ∈ pieces, isIdle piece = true) :
    solid pieces = [] := by
  rw [solid, List.filter_eq_nil_iff.mpr, List.map_nil]
  intro piece hpiece
  simp [h piece hpiece]

/-- **Dropping the last piece and the idle ones in front of it** leaves a text whose pieces are those
that are kept. -/
theorem parent_of_split {text : String} {first last : List Char} {middle : List (List Char)}
    (h : Text.split '/' text.toList = first :: (middle ++ [last])) (hlast : isIdle last = false) :
    dotless (parent text).steps = solid (first :: middle) ∧
      (parent text).absolute = first.isEmpty := by
  have hpieces : ∀ piece ∈ first :: middle, '/' ∉ piece := by
    intro piece hpiece
    have hmem : piece ∈ Text.split '/' text.toList := by
      rw [h, ← List.cons_append]
      exact List.mem_append_left _ hpiece
    exact Text.not_mem_of_mem_split hmem
  obtain ⟨kept, idle, hkept, hmiddle, hidle⟩ : ∃ kept idle,
      (middle.reverse.dropWhile isIdle).reverse = kept ∧ middle = kept ++ idle ∧ solid idle = [] := by
    refine ⟨_, (middle.reverse.takeWhile isIdle).reverse, rfl, ?_, ?_⟩
    · rw [← List.reverse_append, List.takeWhile_append_dropWhile, List.reverse_reverse]
    · exact solid_eq_nil fun piece hpiece => List.mem_takeWhile_imp (List.mem_reverse.mp hpiece)
  have hparent : parentText text =
      if (Text.join '/' (first :: kept)).isEmpty then "/"
      else String.ofList (Text.join '/' (first :: kept)) := by
    rw [parentText, h]
    simp only [List.reverse_append, List.reverse_singleton, List.singleton_append,
      List.dropWhile_cons, hlast, Bool.false_eq_true, if_false, hkept]
  have hsolid : solid (first :: middle) = solid (first :: kept) := by
    rw [hmiddle, ← List.cons_append, solid_append, hidle, List.append_nil]
  have hslash : ∀ piece ∈ first :: kept, '/' ∉ piece := fun piece hpiece =>
    hpieces piece (by rw [hmiddle, ← List.cons_append]; exact List.mem_append_left _ hpiece)
  rw [parent, dotless_steps, hparent, hsolid]
  cases kept with
  | nil =>
    cases first with
    | nil => exact ⟨rfl, rfl⟩
    | cons c cs =>
      have hc : c ≠ '/' := fun heq => hslash _ List.mem_cons_self (heq ▸ List.mem_cons_self)
      have hjoin : Text.join '/' [c :: cs] = c :: cs := rfl
      simp only [hjoin, List.isEmpty_cons, Bool.false_eq_true, if_false, String.toList_ofList,
        Text.split_of_not_mem (hslash _ List.mem_cons_self), true_and]
      simp [ofText, hc]
  | cons next more =>
    have hne : (Text.join '/' (first :: next :: more)).isEmpty = false := by
      rw [Text.join]
      cases first <;> rfl
    have hsplit : Text.split '/' (String.ofList (Text.join '/' (first :: next :: more))).toList
        = first :: next :: more := by
      rw [String.toList_ofList, Text.split_join (List.cons_ne_nil _ _) hslash]
    simp only [hne, Bool.false_eq_true, if_false, hsplit, absolute_ofText hsplit, true_and]

/-- Where names end in something, so does the text: the last piece is not empty unless a slash asks
for a directory. -/
theorem last_ne_nil {text : String} {first last : List Char} {middle : List (List Char)}
    (h : Text.split '/' text.toList = first :: (middle ++ [last]))
    (hnames : (ofText text).names ≠ []) (hdir : (ofText text).asDirectory = false) : last ≠ [] := by
  rintro rfl
  have hjoin : text.toList = Text.join '/' (first :: middle) ++ ['/'] := by
    rw [← Text.join_split '/' text.toList, h, ← List.cons_append,
      Text.join_append_singleton _ _ (List.cons_ne_nil _ _)]
  have hall : ∀ c ∈ text.toList, c = '/' := by
    have hend : text.toList.getLast? = some '/' := by rw [hjoin, List.getLast?_concat]
    simpa [ofText, hend] using hdir
  refine hnames (List.map_eq_nil_iff.mpr (List.filter_eq_nil_iff.mpr fun piece hpiece => ?_))
  have hempty : piece = [] := by
    refine List.eq_nil_iff_forall_not_mem.mpr fun c hc => ?_
    have hslash : c = '/' := hall c (Text.mem_of_mem_split hpiece hc)
    exact Text.not_mem_of_mem_split hpiece (hslash ▸ hc)
  simp [hempty]

/-- **The directory part of a text has the names but the last**, up to dots. -/
theorem dotless_steps_parent {text name : String}
    (hlast : (ofText text).names.getLast? = some name) (hdot : name ≠ ".")
    (hdir : (ofText text).asDirectory = false) :
    dotless (parent text).steps = dotless (ofText text).names.dropLast ∧
      (parent text).absolute = (ofText text).absolute := by
  cases hsplit : Text.split '/' text.toList with
  | nil => exact absurd hsplit (Text.split_ne_nil _ _)
  | cons first rest =>
    rcases List.eq_nil_or_concat rest with rfl | ⟨middle, last, rfl⟩
    · have hparent : parentText text = "." := by rw [parentText, hsplit]; rfl
      have hjoin := Text.join_split '/' text.toList
      have hslash : '/' ∉ first := Text.not_mem_of_mem_split (hsplit ▸ List.mem_cons_self)
      rw [hsplit, Text.join] at hjoin
      rw [parent, hparent]
      cases first with
      | nil => simp [ofText, hsplit] at hlast
      | cons c cs =>
        have hc : c ≠ '/' := fun heq => hslash (heq ▸ List.mem_cons_self)
        refine ⟨?_, ?_⟩
        · simp only [ofText, hsplit]
          rfl
        · simp only [ofText, ← hjoin]
          simp [hc]
    · rw [List.concat_eq_append] at hsplit
      have hlastNe := last_ne_nil hsplit (fun hnil => by simp [hnil] at hlast) hdir
      have hnames : (ofText text).names
          = ((first :: middle).filter (!·.isEmpty)).map String.ofList ++ [String.ofList last] := by
        rw [ofText, hsplit, ← List.cons_append, List.filter_append, List.map_append]
        simp [hlastNe]
      rw [hnames, List.getLast?_concat] at hlast
      have hidle : isIdle last = false := by
        have hne : last ≠ ['.'] := fun heq => hdot (by rw [← Option.some.inj hlast, heq])
        simp [isIdle, hlastNe, hne]
      obtain ⟨hsteps, habsolute⟩ := parent_of_split hsplit hidle
      rw [hsteps, habsolute, hnames, List.dropLast_concat, dotless_map_filter]
      refine ⟨rfl, ?_⟩
      cases middle with
      | nil => rw [absolute_ofText hsplit]
      | cons next more => rw [absolute_ofText hsplit]

end Path

namespace Volume

variable {v : Volume} {c : Caller}

/-! ## Dots on the way -/

/-- A place is a directory in which names may be looked up. -/
def Searchable (v : Volume) (c : Caller) (here : Location) : Prop :=
  ∃ mode, (v.node? here).map Node.kind = some (.directory mode) ∧ c.maySearch mode = true

/-- A step is made from a directory that may be searched. -/
theorem searchable_of_stepFrom {here place : Location} {name : String} {target : Option String}
    (h : v.stepFrom c here name = .ok (place, target)) : v.Searchable c here := by
  rw [stepFrom_eq] at h
  split at h
  case h_2 | h_3 => cases h
  next mode hmode =>
    split at h
    · cases h
    next hmay => exact ⟨mode, hmode, by simpa using hmay⟩

/-- A dot leads nowhere. -/
theorem stepFrom_dot {here : Location} (h : v.Searchable c here) :
    v.stepFrom c here "." = .ok (here, none) := by
  obtain ⟨mode, hmode, hmay⟩ := h
  rw [stepFrom_eq, hmode]
  simp [hmay]

namespace Walk

variable {P : Location → Prop} {links : Nat} {here p : Location} {names : List String}

/-- Dots in front of a name, or of nothing, are walked over. -/
theorem of_cons {name : String} {rest : List String} (hname : name ≠ ".") (hhere : P here)
    (hsearch : v.Searchable c here)
    (hwalk : ∀ rest', Path.dotless rest = Path.dotless rest' →
      v.Walk c P links here (name :: rest') p) :
    ∀ {names : List String}, Path.dotless (name :: rest) = Path.dotless names →
      v.Walk c P links here names p
  | [], h => by simp [Path.dotless, hname] at h
  | head :: names, h => by
      by_cases hhead : head = "."
      · have hdrop : Path.dotless (head :: names) = Path.dotless names := by
          simp [Path.dotless, hhead]
        rw [hhead]
        exact .step hhere (stepFrom_dot hsearch) (of_cons hname hhere hsearch hwalk (h.trans hdrop))
      · have heq : name :: Path.dotless rest = head :: Path.dotless names := by
          simpa [Path.dotless, hname, hhead] using h
        obtain ⟨rfl, hrest⟩ := List.cons.inj heq
        exact hwalk names hrest

/-- Nothing but dots leads nowhere. -/
theorem of_dots (hhere : P here) (hsearch : v.Searchable c here) :
    ∀ {names : List String}, Path.dotless names = [] → v.Walk c P links here names here
  | [], _ => .done hhere
  | head :: names, h => by
      have hhead : head = "." := by simpa using List.filter_eq_nil_iff.mp h head List.mem_cons_self
      subst hhead
      exact .step hhere (stepFrom_dot hsearch) (of_dots hhere hsearch h)

/-- **A walk may take or leave any dot** — names that differ in dots only lead to one directory, by way
of the same places. -/
theorem of_dotless_eq (hp : v.Searchable c p) (h : v.Walk c P links here names p) :
    ∀ {names' : List String}, Path.dotless names = Path.dotless names' →
      v.Walk c P links here names' p := by
  induction h with
  | done hhere => exact fun hnames => of_dots hhere hp hnames.symm
  | @step _ here _ _ name rest hhere hstep _ ih =>
    intro names' hnames
    by_cases hname : name = "."
    · obtain ⟨-, rfl, -⟩ | ⟨hup, -⟩ | ⟨hdot, -⟩ := (stepFrom_eq_ok hstep).2
      · exact ih hp (by simpa [Path.dotless, hname] using hnames)
      · exact absurd (hname.symm.trans hup) (by decide)
      · exact absurd hname hdot
    · exact of_cons hname hhere (searchable_of_stepFrom hstep)
        (fun rest' hrest => .step hhere hstep (ih hp hrest)) hnames
  | @link _ here _ _ name target rest hhere hplace hstep _ ih =>
    intro names' hnames
    obtain ⟨-, -, h⟩ | ⟨-, -, h⟩ | ⟨hname, -⟩ := (stepFrom_eq_ok hstep).2
    · cases h
    · cases h
    · refine of_cons hname hhere (searchable_of_stepFrom hstep) (fun rest' hrest => ?_) hnames
      refine .link hhere hplace hstep (ih hp ?_)
      rw [Path.dotless_append, Path.dotless_append, hrest]

end Walk

/-- A text that is a path is read as one. -/
theorem eq_ofText_of_checked {text : String} {p : Path} (h : checked text = .ok p) :
    p = Path.ofText text := by
  rw [checked] at h
  split at h
  all_goals cases h
  rfl

/-- Both ways to the directory part start at one place. -/
theorem start_parent {text name : String} (hlast : (Path.ofText text).names.getLast? = some name)
    (hdot : name ≠ ".") (hdir : (Path.ofText text).asDirectory = false) :
    v.start (Path.parent text) = v.start (Path.ofText text) := by
  rw [start, (Path.dotless_steps_parent hlast hdot hdir).2, start]

/-- The place that an entry lies in may be searched. -/
theorem searchable_of_entry {text : String} {e : Entry} (h : v.entry c text = .ok e) :
    v.Searchable c e.place := by
  obtain ⟨p, -, hdirectory, -⟩ := entry_eq_ok_iff.mp h
  obtain ⟨-, hnode, hmay⟩ := directory_eq_ok_iff.mp hdirectory
  exact ⟨e.mode, by rw [hnode]; rfl, hmay⟩

/-- **The directory part leads to the directory of the entry**, by its text as by its names: a file is
staged where the entry lies. -/
theorem directory_parent_of_entry {text : String} {e : Entry} (h : v.entry c text = .ok e) :
    v.directory c (Path.parent text) (Path.parent text).steps = .ok (e.place, e.mode, e.entries) := by
  have hsearch := searchable_of_entry h
  obtain ⟨p, hp, hdirectory, hlast, hdot, -, -, hdir⟩ := entry_eq_ok_iff.mp h
  obtain rfl := eq_ofText_of_checked hp
  obtain ⟨hlookup, hnode⟩ := directory_eq_ok_iff.mp hdirectory
  obtain ⟨hsteps, -⟩ := Path.dotless_steps_parent hlast hdot hdir
  refine directory_eq_ok_iff.mpr ⟨?_, hnode⟩
  rw [lookup, start_parent hlast hdot hdir]
  exact ((follow_eq_ok_iff.mp hlookup).of_dotless_eq hsearch hsteps.symm).follow

end Volume

end PinnedManifest.Files
