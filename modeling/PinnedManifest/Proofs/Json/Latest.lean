import Mathlib.Data.List.Induction
import Mathlib.Data.List.Nodup
import PinnedManifest.Json.Value

/-!
# Proofs/Json/Latest — an object built from entries keeps the last value of each name

`latest` says which members those are, without building anything: the names in the order in which they
first appear, each with the value that it was given last.  `Members.ofList_eq_latest` says that putting
entries in one after the other comes to the same.  Nothing is lost on the way exactly when no name is
repeated (`length_latest_eq_iff`).
-/

namespace PinnedManifest.Json

variable {α : Type}

/-- The value that entries give a name first. -/
def first? (name : String) (entries : List (String × α)) : Option α :=
  (entries.find? fun entry => entry.1 == name).map (·.2)

/-- The value that entries give a name last. -/
def last? (name : String) (entries : List (String × α)) : Option α :=
  (entries.reverse.find? fun entry => entry.1 == name).map (·.2)

/-- Distinct names with a value each, where there is one. -/
def valued (value? : String → Option α) (names : List String) : List (String × α) :=
  names.filterMap fun name => (value? name).map (name, ·)

/-- **The latest entries** — each name once, where it first appears, with its last value. -/
def latest (entries : List (String × α)) : List (String × α) :=
  valued (last? · entries) (entries.map (·.1)).eraseDups

/-! ## Entries one by one -/

theorem last?_append (name key : String) (value : α) (entries : List (String × α)) :
    last? name (entries ++ [(key, value)]) = if key = name then some value else last? name entries := by
  rw [last?, List.reverse_append, List.reverse_singleton, List.singleton_append, List.find?_cons]
  by_cases h : key = name
  · simp [h]
  · have hbeq : (key == name) = false := beq_false_of_ne h
    simp only [hbeq, if_neg h, last?]

theorem not_mem_names_iff {name : String} {entries : List (String × α)} :
    name ∉ entries.map (·.1) ↔ ∀ entry ∈ entries, (!entry.1 == name) = true := by
  simp only [List.mem_map, not_exists, not_and, Bool.not_eq_true', beq_eq_false_iff_ne, ne_eq]

/-- **The first value of a name** stands behind entries of other names. -/
theorem first?_eq_some_iff {name : String} {value : α} {entries : List (String × α)} :
    first? name entries = some value ↔
      ∃ before after, entries = before ++ (name, value) :: after ∧ name ∉ before.map (·.1) := by
  rw [first?, Option.map_eq_some_iff]
  constructor
  · rintro ⟨⟨key, _⟩, hfind, rfl⟩
    obtain ⟨hkey, before, after, rfl, hbefore⟩ := List.find?_eq_some_iff_append.mp hfind
    obtain rfl := eq_of_beq hkey
    exact ⟨before, after, rfl, not_mem_names_iff.mpr hbefore⟩
  · rintro ⟨before, after, rfl, hbefore⟩
    refine ⟨(name, value), List.find?_eq_some_iff_append.mpr ?_, rfl⟩
    exact ⟨beq_self_eq_true name, before, after, rfl, not_mem_names_iff.mp hbefore⟩

/-- **The last value of a name** stands in front of entries of other names. -/
theorem last?_eq_some_iff {name : String} {value : α} {entries : List (String × α)} :
    last? name entries = some value ↔
      ∃ before after, entries = before ++ (name, value) :: after ∧ name ∉ after.map (·.1) := by
  have hfirst : last? name entries = first? name entries.reverse := rfl
  rw [hfirst, first?_eq_some_iff]
  constructor
  · rintro ⟨before, after, hsplit, hbefore⟩
    refine ⟨after.reverse, before.reverse, ?_, by simpa using hbefore⟩
    rw [← entries.reverse_reverse, hsplit]
    simp
  · rintro ⟨before, after, rfl, hafter⟩
    exact ⟨after.reverse, before.reverse, by simp, by simpa using hafter⟩

/-- A name has a first value when it appears, and then it has a last one. -/
theorem isSome_first?_iff {name : String} {entries : List (String × α)} :
    (first? name entries).isSome ↔ name ∈ entries.map (·.1) := by
  simp [first?]

/-- **Among distinct names** the first value of each is its last. -/
theorem first?_eq_last?_of_nodup {entries : List (String × α)} (h : (entries.map (·.1)).Nodup)
    (name : String) : first? name entries = last? name entries := by
  refine Option.ext fun value => first?_eq_some_iff.trans (Iff.trans ?_ last?_eq_some_iff.symm)
  refine exists_congr fun before => exists_congr fun after => and_congr_right ?_
  rintro rfl
  rw [List.map_append, List.map_cons, List.nodup_append, List.nodup_cons] at h
  obtain ⟨-, ⟨hafter, -⟩, hdisjoint⟩ := h
  exact iff_of_true (fun hmem => hdisjoint name hmem name List.mem_cons_self rfl) hafter

/-- A name that appears has a last value. -/
theorem isSome_last? {name : String} {entries : List (String × α)} (h : name ∈ entries.map (·.1)) :
    (last? name entries).isSome := by
  obtain ⟨entry, hentry, rfl⟩ := List.mem_map.mp h
  rw [last?, Option.isSome_map, List.find?_isSome]
  exact ⟨entry, List.mem_reverse.mpr hentry, by simp⟩

theorem eraseDups_concat (names : List String) (name : String) :
    (names ++ [name]).eraseDups
      = if name ∈ names then names.eraseDups else names.eraseDups ++ [name] := by
  rw [List.eraseDups_append]
  by_cases h : name ∈ names
  · simp [List.removeAll, h]
  · simp [List.removeAll, h, List.eraseDups_cons]

theorem nodup_eraseDups (names : List String) : names.eraseDups.Nodup := by
  induction names using List.reverseRecOn with
  | nil => exact List.nodup_nil
  | append_singleton names name ih =>
    rw [eraseDups_concat]
    split
    · exact ih
    · next h =>
      refine List.nodup_append.mpr ⟨ih, List.nodup_singleton _, ?_⟩
      rintro a ha b hb rfl
      rw [List.mem_singleton.mp hb] at ha
      exact h (List.mem_eraseDups.mp ha)

/-- Names that are erased when they are repeated stay in their order. -/
theorem eraseDups_sublist (names : List String) : names.eraseDups.Sublist names := by
  induction names using List.reverseRecOn with
  | nil => exact .refl _
  | append_singleton names name ih =>
    rw [eraseDups_concat]
    split
    · exact ih.trans (List.sublist_append_left _ _)
    · exact ih.append (.refl _)

/-- A function of the values goes through. -/
theorem last?_map {β : Type} (f : α → β) (name : String) (entries : List (String × α)) :
    last? name (entries.map fun entry => (entry.1, f entry.2)) = (last? name entries).map f := by
  rw [last?, ← List.map_reverse, List.find?_map, Option.map_map, last?, Option.map_map]
  rfl

theorem latest_map {β : Type} (f : α → β) (entries : List (String × α)) :
    latest (entries.map fun entry => (entry.1, f entry.2))
      = (latest entries).map fun entry => (entry.1, f entry.2) := by
  rw [latest, List.map_map, latest, valued, valued, List.map_filterMap]
  refine List.filterMap_congr fun name _ => ?_
  rw [last?_map, Option.map_map, Option.map_map]
  rfl

/-- A value given to another name changes nothing. -/
theorem valued_update (value? : String → Option α) (value : α) {key : String}
    {names : List String} (h : key ∉ names) :
    valued (fun name => if key = name then some value else value? name) names
      = valued value? names := by
  refine List.filterMap_congr fun name hname => ?_
  have hne : key ≠ name := fun heq => h (heq ▸ hname)
  simp only [if_neg hne]

/-- **Entries of distinct names are their own latest.** -/
theorem latest_of_nodup {entries : List (String × α)} (h : (entries.map (·.1)).Nodup) :
    latest entries = entries := by
  induction entries using List.reverseRecOn with
  | nil => rfl
  | append_singleton entries entry ih =>
    obtain ⟨key, value⟩ := entry
    rw [List.map_append, List.nodup_append] at h
    obtain ⟨hnodup, -, hdisjoint⟩ := h
    have hnew : key ∉ entries.map (·.1) := fun hmem =>
      hdisjoint key hmem key (List.mem_singleton.mpr rfl) rfl
    have hvalued : valued (fun name => if key = name then some value else last? name entries)
        (entries.map (·.1)).eraseDups = entries :=
      (valued_update _ value fun hmem => hnew (List.mem_eraseDups.mp hmem)).trans (ih hnodup)
    rw [latest, List.map_append, List.map_singleton, eraseDups_concat, if_neg hnew]
    simp only [last?_append]
    rw [valued, List.filterMap_append]
    rw [valued] at hvalued
    rw [hvalued]
    simp

/-- Names that all have a value keep their order. -/
theorem map_fst_valued {value? : String → Option α} : ∀ {names : List String},
    (∀ name ∈ names, (value? name).isSome) → (valued value? names).map (·.1) = names
  | [], _ => rfl
  | name :: names, h => by
      obtain ⟨hname, hnames⟩ := List.forall_mem_cons.mp h
      obtain ⟨value, hvalue⟩ := Option.isSome_iff_exists.mp hname
      have ih := map_fst_valued hnames
      rw [valued] at ih ⊢
      simp [hvalue, ih]

/-- **The latest entries have each name once**, in the order of first appearances. -/
theorem names_latest (entries : List (String × α)) :
    (latest entries).map (·.1) = (entries.map (·.1)).eraseDups :=
  map_fst_valued fun _ hname => isSome_last? (List.mem_eraseDups.mp hname)

/-- **The latest entries have the last value of each name.** -/
theorem mem_latest_iff {name : String} {value : α} {entries : List (String × α)} :
    (name, value) ∈ latest entries ↔ last? name entries = some value := by
  have hmem (h : last? name entries = some value) : name ∈ entries.map (·.1) := by
    obtain ⟨before, after, rfl, -⟩ := last?_eq_some_iff.mp h
    simp
  simp only [latest, valued, List.mem_filterMap, List.mem_eraseDups]
  constructor
  · rintro ⟨key, -, hvalue⟩
    obtain ⟨_, hlast, heq⟩ := Option.map_eq_some_iff.mp hvalue
    cases heq
    exact hlast
  · exact fun h => ⟨name, hmem h, by rw [h]; rfl⟩

/-- **No entry is lost** exactly when no name is repeated. -/
theorem length_latest_eq_iff {entries : List (String × α)} :
    (latest entries).length = entries.length ↔ (entries.map (·.1)).Nodup := by
  constructor
  · intro h
    have hlength : (entries.map (·.1)).eraseDups.length = (entries.map (·.1)).length := by
      rw [← names_latest, List.length_map, List.length_map, h]
    rw [← (eraseDups_sublist _).eq_of_length hlength]
    exact nodup_eraseDups _
  · intro h
    rw [latest_of_nodup h]

/-! ## Members one by one -/

namespace Members

/-- A name that is not there goes to the end. -/
theorem insert_valued_of_not_mem (value? : String → Option Value) {key : String} (value : Value) :
    ∀ {names : List String}, key ∉ names →
      insert key value (valued value? names) = valued value? names ++ [(key, value)]
  | [], _ => rfl
  | name :: names, h => by
      have hne : name ≠ key := fun heq => h (heq ▸ List.mem_cons_self)
      have ih := insert_valued_of_not_mem value? value
        fun hmem => h (List.mem_cons_of_mem _ hmem)
      cases hv : value? name with
      | none => simpa [valued, hv] using ih
      | some v => simpa [valued, hv, insert, hne] using ih

/-- A name that is there keeps its place. -/
theorem insert_valued_of_mem {value? : String → Option Value} {key : String} (value : Value)
    (hsome : (value? key).isSome) :
    ∀ {names : List String}, names.Nodup → key ∈ names →
      insert key value (valued value? names)
        = valued (fun name => if key = name then some value else value? name) names
  | [], _, h => absurd h List.not_mem_nil
  | name :: names, hnodup, h => by
      obtain ⟨hname, hnames⟩ := List.nodup_cons.mp hnodup
      by_cases heq : name = key
      · subst heq
        obtain ⟨v, hv⟩ := Option.isSome_iff_exists.mp hsome
        have hrest := valued_update value? value hname
        simpa [valued, hv, insert] using hrest.symm
      · have hmem : key ∈ names := (List.mem_cons.mp h).resolve_left (Ne.symm heq)
        have ih := insert_valued_of_mem value hsome hnames hmem
        cases hv : value? name with
        | none => simpa [valued, hv, Ne.symm heq] using ih
        | some v => simpa [valued, hv, insert, heq, Ne.symm heq] using ih

/-- **Entries put in one after the other leave the latest.** -/
theorem ofList_eq_latest (entries : List (String × Value)) : ofList entries = latest entries := by
  induction entries using List.reverseRecOn with
  | nil => rfl
  | append_singleton entries entry ih =>
    obtain ⟨key, value⟩ := entry
    have hstep : ofList (entries ++ [(key, value)]) = insert key value (ofList entries) := by
      rw [ofList, List.foldl_append]
      rfl
    rw [hstep, ih, latest, latest, List.map_append, List.map_singleton, eraseDups_concat]
    simp only [last?_append]
    by_cases hmem : key ∈ entries.map (·.1)
    · rw [if_pos hmem]
      exact insert_valued_of_mem value (isSome_last? hmem) (nodup_eraseDups _)
        (List.mem_eraseDups.mpr hmem)
    · have hnew : key ∉ (entries.map (·.1)).eraseDups := fun h => hmem (List.mem_eraseDups.mp h)
      rw [if_neg hmem, insert_valued_of_not_mem _ value hnew, ← valued_update _ value hnew]
      simp [valued]

/-- **A name holds the value that was put in last.** -/
theorem find?_latest (name : String) (entries : List (String × Value)) :
    find? name (latest entries) = last? name entries := by
  rw [← ofList_eq_latest]
  induction entries using List.reverseRecOn with
  | nil => rfl
  | append_singleton entries entry ih =>
    rw [ofList, List.foldl_append, ← ofList, List.foldl_cons, List.foldl_nil, find?_insert, ih,
      last?_append]

end Members

end PinnedManifest.Json
