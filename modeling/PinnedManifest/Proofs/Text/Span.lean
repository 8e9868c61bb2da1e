import Mathlib.Data.List.TakeDrop
import Mathlib.Data.List.TakeWhile

/-!
# Proofs/Text/Span — where the first part of a text ends

The longest front whose characters pass a test is the one that passes it and is followed by a character
that does not, or by nothing (`span_eq_iff`).  What follows decides by its first character alone.
-/

namespace PinnedManifest.Text

variable {α : Type} {p : α → Bool} {cs as bs : List α}

/-- **A front is the longest that passes a test** exactly when it passes and cannot go on. -/
theorem span_eq_iff : cs.span p = (as, bs) ↔
    cs = as ++ bs ∧ (∀ a ∈ as, p a = true) ∧ ∀ b ∈ bs.head?, p b = false := by
  rw [List.span_eq_takeWhile_dropWhile, Prod.mk.injEq]
  constructor
  · rintro ⟨rfl, rfl⟩
    refine ⟨List.takeWhile_append_dropWhile.symm, fun a ha => List.mem_takeWhile_imp ha,
      fun b hb => ?_⟩
    have hhead := List.head?_dropWhile_not p cs
    rw [Option.mem_def.mp hb] at hhead
    simpa using hhead
  · rintro ⟨rfl, has, hbs⟩
    rw [List.takeWhile_append_of_pos has, List.dropWhile_append_of_pos has]
    cases bs with
    | nil => simp
    | cons b bs =>
      have hb : p b = false := hbs b rfl
      simp [hb]

end PinnedManifest.Text
