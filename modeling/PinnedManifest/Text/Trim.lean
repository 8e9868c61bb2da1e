/-!
# Text/Trim — dropping unwanted characters from the ends of a text

`dropEnd p` removes the longest run of `p`-characters at the end of a list and `dropEnds p` those at
both ends.  What is kept is a contiguous piece, and no end of it satisfies `p`.
-/

namespace PinnedManifest.Text

/-- The list without its longest final run of `p`-elements. -/
def dropEnd {α : Type} (p : α → Bool) : List α → List α
  | [] => []
  | a :: as =>
    match dropEnd p as with
    | [] => if p a then [] else [a]
    | b :: bs => a :: b :: bs

/-- The list without its longest initial and final runs of `p`-elements. -/
def dropEnds {α : Type} (p : α → Bool) (as : List α) : List α :=
  dropEnd p (as.dropWhile p)

/-- A list whose last element fails `p` is kept whole. -/
theorem dropEnd_append_singleton {α : Type} {p : α → Bool} {a : α} (h : p a = false) :
    ∀ as : List α, dropEnd p (as ++ [a]) = as ++ [a]
  | [] => by simp [dropEnd, h]
  | b :: bs => by
    rw [List.cons_append, dropEnd, dropEnd_append_singleton h bs]
    cases bs <;> rfl

/-- **Splitting off the end loses nothing** — what `dropEnd` removes is a run of `p`-elements. -/
theorem exists_dropEnd_append {α : Type} (p : α → Bool) :
    ∀ as : List α, ∃ run : List α, as = dropEnd p as ++ run ∧ ∀ a ∈ run, p a = true
  | [] => ⟨[], rfl, by simp⟩
  | a :: as => by
    obtain ⟨run, hrun, hp⟩ := exists_dropEnd_append p as
    rw [dropEnd]
    cases hd : dropEnd p as with
    | nil =>
      have hrun' : as = run := by rw [hrun, hd, List.nil_append]
      by_cases ha : p a = true
      · refine ⟨a :: run, by simp [ha, ← hrun'], fun b hb => ?_⟩
        rcases List.mem_cons.mp hb with rfl | hb
        · exact ha
        · exact hp b hb
      · exact ⟨run, by simp [ha, ← hrun'], hp⟩
    | cons b bs =>
      refine ⟨run, ?_, hp⟩
      rw [hd] at hrun
      exact congrArg (a :: ·) hrun

/-- What is kept was there. -/
theorem mem_of_mem_dropEnd {α : Type} {p : α → Bool} {a : α} {as : List α} (h : a ∈ dropEnd p as) :
    a ∈ as := by
  obtain ⟨run, hrun, -⟩ := exists_dropEnd_append p as
  rw [hrun]
  exact List.mem_append_left _ h

/-- A front whose last element fails `p` is kept whatever follows it. -/
theorem dropEnd_append {α : Type} {p : α → Bool} {a : α} (h : p a = false) (as bs : List α) :
    dropEnd p (as ++ a :: bs) = as ++ a :: dropEnd p bs := by
  induction as with
  | nil =>
    rw [List.nil_append, List.nil_append, dropEnd]
    cases dropEnd p bs with
    | nil => simp [h]
    | cons b bs => rfl
  | cons c as ih =>
    rw [List.cons_append, dropEnd, ih]
    cases as <;> rfl

/-- Of a run nothing is kept. -/
theorem dropEnd_eq_nil {α : Type} {p : α → Bool} :
    ∀ {run : List α}, (∀ a ∈ run, p a = true) → dropEnd p run = []
  | [], _ => rfl
  | a :: run, h => by
    rw [dropEnd, dropEnd_eq_nil fun b hb => h b (List.mem_cons_of_mem a hb)]
    exact if_pos (h a List.mem_cons_self)

/-- **A final run is dropped**, whatever stands in front of it. -/
theorem dropEnd_append_run {α : Type} {p : α → Bool} {run : List α} (h : ∀ a ∈ run, p a = true) :
    ∀ as : List α, dropEnd p (as ++ run) = dropEnd p as
  | [] => dropEnd_eq_nil h
  | a :: as => by rw [List.cons_append, dropEnd, dropEnd, dropEnd_append_run h as]

/-- **Runs at both ends are dropped**, whatever stands between them. -/
theorem dropEnds_append_runs {α : Type} {p : α → Bool} {run run' : List α}
    (h : ∀ a ∈ run, p a = true) (h' : ∀ a ∈ run', p a = true) (as : List α) :
    dropEnds p (run ++ as ++ run') = dropEnds p as := by
  rw [dropEnds, List.append_assoc, List.dropWhile_append_of_pos h, List.dropWhile_append, dropEnds]
  split
  next hempty =>
    rw [List.isEmpty_iff.mp hempty]
    exact dropEnd_eq_nil fun a ha => h' a ((List.dropWhile_sublist p).subset ha)
  next => rw [dropEnd_append_run h']

end PinnedManifest.Text
