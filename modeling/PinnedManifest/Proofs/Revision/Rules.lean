import PinnedManifest.Revision

/-!
# Proofs/Revision/Rules — what it means to break no rule

A text breaks no rule exactly when all four of them hold of it (`faultOf?_eq_none_iff`); an accepted
revision keeps them all (`Revision.rules`).
-/

namespace PinnedManifest.Revision

variable {cs : List Char}

/-- **Two full stops stand side by side** exactly when they are a part of the text. -/
theorem hasDoubleDot_iff : ∀ {cs : List Char}, hasDoubleDot cs = true ↔ ['.', '.'] <:+: cs
  | [] => by simp [hasDoubleDot]
  | c :: rest => by
      have hhere : (c == '.' && rest.head? == some '.') = true ↔ ['.', '.'] <+: c :: rest := by
        rw [List.cons_prefix_cons, Bool.and_eq_true, beq_iff_eq, beq_iff_eq, eq_comm (a := c)]
        cases rest with
        | nil => simp
        | cons d more => simp [List.cons_prefix_cons, eq_comm (a := d)]
      rw [hasDoubleDot, Bool.or_eq_true, hhere, hasDoubleDot_iff, List.infix_cons_iff]

/-- The rules of a revision: it has characters, none of them white space or a control character, no
slash at either end, and no two full stops side by side. -/
structure Rules (cs : List Char) : Prop where
  nonempty : cs ≠ []
  plain : ∀ c ∈ cs, forbids c = false
  start : cs.head? ≠ some '/'
  finish : cs.getLast? ≠ some '/'
  dots : ¬['.', '.'] <:+: cs

/-- **A text breaks no rule** exactly when it keeps all of them. -/
theorem faultOf?_eq_none_iff : faultOf? cs = none ↔ Rules cs := by
  rw [faultOf?]
  constructor
  · intro h
    split at h
    · cases h
    next hempty =>
    split at h
    · cases h
    next hplain =>
    split at h
    · cases h
    next hedge =>
    split at h
    · cases h
    next hdots =>
    simp only [Bool.or_eq_true, beq_iff_eq, not_or] at hedge
    exact ⟨by simpa using hempty, by simpa using hplain, hedge.1, hedge.2,
      fun hinfix => hdots (hasDoubleDot_iff.mpr hinfix)⟩
  · rintro ⟨hempty, hplain, hstart, hfinish, hdots⟩
    have hfind : cs.find? forbids = none := by simpa using hplain
    rw [hfind]
    simp [hempty, hstart, hfinish, mt hasDoubleDot_iff.mp hdots]

/-- An accepted revision keeps the rules. -/
theorem rules (r : Revision) : Rules r.text.toList := faultOf?_eq_none_iff.mp r.sound

end PinnedManifest.Revision
