/-!
# Text/Split — the pieces of a text between separators

`split` cuts a text at every separator.  There is always one piece more than there are separators,
joining the pieces gives the text back (`join_split`), and pieces without separators are recovered from
the text that joins them (`split_join`).
-/

namespace PinnedManifest.Text

/-- The pieces of a text between separators, empty ones included. -/
def split (sep : Char) : List Char → List (List Char)
  | [] => [[]]
  | c :: rest =>
    if c = sep then [] :: split sep rest
    else
      match split sep rest with
      | [] => [[c]]
      | piece :: more => (c :: piece) :: more

/-- Pieces with a separator between them. -/
def join (sep : Char) : List (List Char) → List Char
  | [] => []
  | [piece] => piece
  | piece :: next :: more => piece ++ sep :: join sep (next :: more)

/-- What is in a piece is in the text of the pieces. -/
theorem mem_join {sep c : Char} :
    ∀ {pieces : List (List Char)} {piece : List Char}, piece ∈ pieces → c ∈ piece →
      c ∈ join sep pieces
  | [only], piece, h, hc => by
      rw [List.mem_singleton.mp h] at hc
      exact hc
  | first :: next :: more, piece, h, hc => by
      rw [join]
      rcases List.mem_cons.mp h with rfl | h
      · exact List.mem_append_left _ hc
      · exact List.mem_append_right _ (List.mem_cons_of_mem _ (mem_join h hc))

/-- What is in the text of pieces is in one of them, or separates them. -/
theorem eq_or_mem_of_mem_join {sep c : Char} :
    ∀ {pieces : List (List Char)}, c ∈ join sep pieces → c = sep ∨ ∃ piece ∈ pieces, c ∈ piece
  | [only], h => .inr ⟨only, List.mem_singleton_self only, h⟩
  | first :: next :: more, h => by
      rw [join] at h
      rcases List.mem_append.mp h with h | h
      · exact .inr ⟨first, List.mem_cons_self, h⟩
      · rcases List.mem_cons.mp h with rfl | h
        · exact .inl rfl
        · exact (eq_or_mem_of_mem_join h).imp_right fun ⟨piece, hpiece, hc⟩ =>
            ⟨piece, List.mem_cons_of_mem _ hpiece, hc⟩

/-- One more piece comes behind one more separator. -/
theorem join_append_singleton (sep : Char) (last : List Char) :
    ∀ {pieces : List (List Char)}, pieces ≠ [] →
      join sep (pieces ++ [last]) = join sep pieces ++ sep :: last
  | [], h => absurd rfl h
  | [_], _ => rfl
  | piece :: next :: more, _ => by
      have ih := join_append_singleton sep last (List.cons_ne_nil next more)
      rw [List.cons_append] at ih
      rw [List.cons_append, List.cons_append, join, ih, join, List.append_assoc, List.cons_append]

/-- A text ends as its last piece, where that is not empty. -/
theorem getLast?_join {sep : Char} {last : List Char} (hlast : last ≠ []) :
    ∀ pieces : List (List Char), (join sep (pieces ++ [last])).getLast? = last.getLast?
  | [] => rfl
  | first :: more => by
      rw [join_append_singleton sep last (List.cons_ne_nil first more), List.append_cons,
        List.getLast?_append, List.getLast?_eq_some_getLast hlast, Option.some_or]

/-- A text has a piece. -/
theorem split_ne_nil (sep : Char) : ∀ cs : List Char, split sep cs ≠ []
  | [] => List.cons_ne_nil _ _
  | c :: rest => by
      rw [split]
      split
      · exact List.cons_ne_nil _ _
      · split <;> exact List.cons_ne_nil _ _

/-- **Nothing is lost** — the pieces with separators between them are the text. -/
theorem join_split (sep : Char) : ∀ cs : List Char, join sep (split sep cs) = cs
  | [] => rfl
  | c :: rest => by
      have ih := join_split sep rest
      cases hs : split sep rest with
      | nil => exact absurd hs (split_ne_nil sep rest)
      | cons piece more =>
        rw [hs] at ih
        rw [split]
        split
        next hc => rw [hs, join, ih, hc, List.nil_append]
        next =>
          rw [hs]
          cases more with
          | nil => rw [← ih]; rfl
          | cons next more => rw [← ih]; rfl

/-- No piece holds a separator. -/
theorem not_mem_of_mem_split {sep : Char} :
    ∀ {cs piece : List Char}, piece ∈ split sep cs → sep ∉ piece
  | [], piece, h => by
      rw [split, List.mem_singleton] at h
      rw [h]
      exact List.not_mem_nil
  | c :: rest, piece, h => by
      rw [split] at h
      split at h
      next =>
        rcases List.mem_cons.mp h with rfl | h
        · exact List.not_mem_nil
        · exact not_mem_of_mem_split h
      next hc =>
        split at h
        next hs => exact absurd hs (split_ne_nil sep rest)
        next first more hs =>
          have hmem (p : List Char) (hp : p ∈ first :: more) : sep ∉ p :=
            not_mem_of_mem_split (hs ▸ hp)
          rcases List.mem_cons.mp h with rfl | h
          · exact List.not_mem_cons_of_ne_of_not_mem (Ne.symm hc) (hmem first List.mem_cons_self)
          · exact hmem piece (List.mem_cons_of_mem _ h)

/-- A piece is a part of the text. -/
theorem mem_of_mem_split {sep c : Char} {cs piece : List Char} (h : piece ∈ split sep cs)
    (hc : c ∈ piece) : c ∈ cs := by
  rw [← join_split sep cs]
  exact mem_join h hc

/-- A text without separators is one piece. -/
theorem split_of_not_mem {sep : Char} : ∀ {cs : List Char}, sep ∉ cs → split sep cs = [cs]
  | [], _ => rfl
  | c :: rest, h => by
      have hc : c ≠ sep := fun heq => h (heq ▸ List.mem_cons_self)
      rw [split, if_neg hc, split_of_not_mem fun hmem => h (List.mem_cons_of_mem c hmem)]

/-- What stands in front of the first separator is the first piece. -/
theorem split_append_cons {sep : Char} (cs : List Char) :
    ∀ {piece : List Char}, sep ∉ piece → split sep (piece ++ sep :: cs) = piece :: split sep cs
  | [], _ => by rw [List.nil_append, split, if_pos rfl]
  | c :: rest, h => by
      have hc : c ≠ sep := fun heq => h (heq ▸ List.mem_cons_self)
      rw [List.cons_append, split, if_neg hc,
        split_append_cons cs fun hmem => h (List.mem_cons_of_mem c hmem)]

/-- **Pieces are recovered** from the text that joins them. -/
theorem split_join {sep : Char} :
    ∀ {pieces : List (List Char)}, pieces ≠ [] → (∀ piece ∈ pieces, sep ∉ piece) →
      split sep (join sep pieces) = pieces
  | [], h, _ => absurd rfl h
  | [piece], _, h => split_of_not_mem (h piece List.mem_cons_self)
  | piece :: next :: more, _, h => by
      rw [join, split_append_cons _ (h piece List.mem_cons_self),
        split_join (List.cons_ne_nil _ _) fun p hp => h p (List.mem_cons_of_mem _ hp)]

end PinnedManifest.Text
