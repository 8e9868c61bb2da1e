import PinnedManifest.Text.Split

/-!
# Proofs/Text/Pieces — what a text has in common with its pieces

A pattern without separators cannot reach across one, so it stands in a text exactly when it stands in
one of its pieces (`infix_join_iff`).  Pieces that hold separators themselves are split further, each
where it stands (`split_join_eq_flatMap`).
-/

namespace PinnedManifest.Text

variable {sep : Char} {cs pattern front back : List Char}

/-! ## Patterns -/

/-- Nothing that lacks the separator begins at one. -/
theorem eq_nil_of_prefix_sep (h : sep ∉ pattern) (hp : pattern <+: sep :: back) : pattern = [] := by
  rcases List.prefix_cons_iff.mp hp with hnil | ⟨rest, rfl, -⟩
  · exact hnil
  · exact absurd List.mem_cons_self h

/-- **A pattern without separators** stands on one side of a separator or on the other. -/
theorem infix_append_sep_iff (h : sep ∉ pattern) :
    pattern <:+: front ++ sep :: back ↔ pattern <:+: front ∨ pattern <:+: back := by
  constructor
  · intro hp
    rcases List.infix_append_iff.mp hp with hfront | hback | ⟨l, r, rfl, hl, hr⟩
    · exact .inl hfront
    · rcases List.infix_cons_iff.mp hback with hstart | hback
      · rw [eq_nil_of_prefix_sep h hstart]
        exact .inr List.nil_infix
      · exact .inr hback
    · -- what lies behind the boundary begins at the separator
      obtain rfl := eq_nil_of_prefix_sep (fun hmem => h (List.mem_append_right _ hmem)) hr
      rw [List.append_nil]
      exact .inl hl.isInfix
  · rintro (hfront | hback)
    · exact hfront.trans (List.prefix_append _ _).isInfix
    · exact hback.trans ((List.suffix_cons _ _).trans (List.suffix_append _ _)).isInfix

/-- **A pattern without separators** stands in a text exactly when it stands in a piece of it. -/
theorem infix_join_iff (h : sep ∉ pattern) : ∀ {pieces : List (List Char)}, pieces ≠ [] →
    (pattern <:+: join sep pieces ↔ ∃ piece ∈ pieces, pattern <:+: piece)
  | [], hne => absurd rfl hne
  | [piece], _ => by simp [join]
  | piece :: next :: more, _ => by
      rw [join, infix_append_sep_iff h, infix_join_iff h (List.cons_ne_nil next more)]
      simp only [List.mem_cons, exists_eq_or_imp]

/-! ## Pieces of pieces -/

/-- A text with a separator in it has the pieces in front of it and those behind it. -/
theorem split_append_sep (sep : Char) (back : List Char) : ∀ front : List Char,
    split sep (front ++ sep :: back) = split sep front ++ split sep back
  | [] => split_append_cons back List.not_mem_nil
  | c :: rest => by
      have ih := split_append_sep sep back rest
      rw [List.cons_append, split, split]
      by_cases hc : c = sep
      · rw [if_pos hc, if_pos hc, ih]
        rfl
      · rw [if_neg hc, if_neg hc, ih]
        cases hs : split sep rest with
        | nil => exact absurd hs (split_ne_nil sep rest)
        | cons piece more => rfl

/-- **Pieces that are joined** are split where they hold separators themselves. -/
theorem split_join_eq_flatMap (sep : Char) : ∀ {pieces : List (List Char)}, pieces ≠ [] →
    split sep (join sep pieces) = pieces.flatMap (split sep)
  | [], hne => absurd rfl hne
  | [piece], _ => by simp [join]
  | piece :: next :: more, _ => by
      rw [List.flatMap_cons, join, split_append_sep,
        split_join_eq_flatMap sep (List.cons_ne_nil next more)]

/-! ## The pieces at the ends -/

/-- A text that does not begin with a separator has a first piece that is not empty. -/
theorem exists_head?_split (hne : cs ≠ []) (h : cs.head? ≠ some sep) :
    ∃ first, (split sep cs).head? = some first ∧ first ≠ [] := by
  cases cs with
  | nil => exact absurd rfl hne
  | cons c rest =>
    have hc : c ≠ sep := fun heq => h (congrArg some heq)
    rw [split, if_neg hc]
    cases split sep rest with
    | nil => exact ⟨[c], rfl, List.cons_ne_nil _ _⟩
    | cons piece more => exact ⟨c :: piece, rfl, List.cons_ne_nil _ _⟩

/-- A text that does not end in a separator has a last piece that is not empty. -/
theorem exists_getLast?_split (hne : cs ≠ []) (h : cs.getLast? ≠ some sep) :
    ∃ last, (split sep cs).getLast? = some last ∧ last ≠ [] := by
  have hsplit := List.dropLast_concat_getLast (split_ne_nil sep cs)
  generalize (split sep cs).dropLast = front at hsplit
  generalize (split sep cs).getLast _ = last at hsplit
  refine ⟨last, by rw [← hsplit, List.getLast?_concat], ?_⟩
  -- behind an empty last piece the text would end in the separator, or be empty
  rintro rfl
  have htext := join_split sep cs
  rw [← hsplit] at htext
  cases front with
  | nil => exact hne htext.symm
  | cons first more =>
    rw [join_append_singleton sep [] (List.cons_ne_nil first more)] at htext
    exact h (by rw [← htext, List.getLast?_concat])

end PinnedManifest.Text
