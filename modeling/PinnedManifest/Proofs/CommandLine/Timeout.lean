import PinnedManifest.CommandLine.Timeout

/-!
# Proofs/CommandLine/Timeout — which texts are timeouts

Digits are read one by one and checked against the greatest timeout at each; as digits only make a
number greater, it is enough to look at the number they spell together.  So a text is a timeout exactly
when it spells one, after at most one plus sign (`ofText_eq_ok_iff`).
-/

namespace PinnedManifest.CommandLine.Timeout

variable {ds : List Char} {m n : Nat} {text : String}

/-- What digits continue is no greater than what they make of it. -/
theorem le_ofDigitChars : ∀ (ds : List Char) (n : Nat), n ≤ Nat.ofDigitChars 10 ds n
  | [], _ => Nat.le_refl _
  | c :: ds, n => by
      rw [Nat.ofDigitChars_cons]
      exact Nat.le_trans (by omega) (le_ofDigitChars ds _)

/-- **Digits continue a number** to the one they spell, if that is not too large. -/
theorem continued_eq_ok_iff : ∀ {ds : List Char} {n : Nat}, n ≤ greatest →
    (continued n ds = .ok m ↔
      (∀ c ∈ ds, c.isDigit = true) ∧ Nat.ofDigitChars 10 ds n = m ∧ m ≤ greatest)
  | [], n, hn => by
      simp only [continued, Except.ok.injEq, Nat.ofDigitChars_nil, List.not_mem_nil, false_implies,
        implies_true, true_and]
      exact ⟨fun h => ⟨h, h ▸ hn⟩, And.left⟩
  | c :: ds, n, _ => by
      rw [continued, Nat.ofDigitChars_cons, List.forall_mem_cons]
      cases hdigit : c.isDigit with
      | false => simp
      | true =>
      by_cases hlarge : greatest < 10 * n + (c.toNat - '0'.toNat)
      · have hle := le_ofDigitChars ds (10 * n + (c.toNat - '0'.toNat))
        simp only [hlarge, Bool.not_true, Bool.false_eq_true, if_false, if_true, reduceCtorEq, true_and,
          false_iff]
        rintro ⟨-, rfl, hm⟩
        omega
      · simp only [hlarge, Bool.not_true, Bool.false_eq_true, if_false, true_and]
        exact continued_eq_ok_iff (Nat.not_lt.mp hlarge)

/-- **A text spells a timeout**: ASCII digits, at least one, after at most one plus sign, and their
number from one to the greatest of sixty-four bits. -/
def Spelled (text : String) (n : Nat) : Prop :=
  ∃ ds : List Char, ds ≠ [] ∧ (∀ c ∈ ds, c.isDigit = true) ∧
    (text.toList = ds ∨ text.toList = '+' :: ds) ∧ Nat.ofDigitChars 10 ds 0 = n ∧
    1 ≤ n ∧ n ≤ 18446744073709551615

/-- The number that characters spell, a sign in front or not. -/
theorem number_eq_ok_iff {cs : List Char} : number cs = .ok m ↔
    ∃ ds, ds ≠ [] ∧ (cs = ds ∨ cs = '+' :: ds) ∧ continued 0 ds = .ok m := by
  have hplus (ds : List Char) : continued 0 ('+' :: ds) ≠ .ok m := by
    simp [continued, show ('+' : Char).isDigit = false from rfl]
  constructor
  · intro h
    rw [number.eq_def] at h
    split at h
    · cases h
    · cases h
    next ds hds => exact ⟨ds, fun hnil => hds (by rw [hnil]), .inr rfl, h⟩
    next hempty _ _ => exact ⟨cs, hempty, .inl rfl, h⟩
  · rintro ⟨ds, hds, rfl | rfl, h⟩
    · rw [number.eq_def]
      split
      · exact absurd rfl hds
      · exact absurd h (hplus _)
      · exact absurd h (hplus _)
      · exact h
    · rw [number.eq_def]
      split
      next heq => cases heq
      next heq => exact absurd (List.cons.inj heq).2 hds
      next heq => cases heq; exact h
      next hds' => exact absurd rfl (hds' ds)

/-- **A text is a timeout exactly when it spells one.** -/
theorem ofText_eq_ok_iff : ofText text = .ok n ↔ Spelled text n := by
  have hofText : ofText text = .ok n ↔ number text.toList = .ok n ∧ n ≠ 0 := by
    rw [ofText]
    split
    next h => rw [h]; grind
    next h => grind
  have hgreatest : greatest = 18446744073709551615 := by decide
  rw [hofText, number_eq_ok_iff, Spelled, ← hgreatest]
  constructor
  · rintro ⟨⟨ds, hds, htext, h⟩, hn⟩
    obtain ⟨hdigits, hvalue, hle⟩ := (continued_eq_ok_iff (Nat.zero_le _)).mp h
    exact ⟨ds, hds, hdigits, htext, hvalue, Nat.one_le_iff_ne_zero.mpr hn, hle⟩
  · rintro ⟨ds, hds, hdigits, htext, hvalue, hn, hle⟩
    exact ⟨⟨ds, hds, htext, (continued_eq_ok_iff (Nat.zero_le _)).mpr ⟨hdigits, hvalue, hle⟩⟩,
      Nat.one_le_iff_ne_zero.mp hn⟩

/-- A number in decimal spells itself. -/
theorem spelled_toString (h : 1 ≤ n) (h' : n ≤ 18446744073709551615) : Spelled (toString n) n := by
  refine ⟨Nat.toDigits 10 n, Nat.toDigits_ne_nil, fun c hc => ?_, .inl ?_, ?_, h, h'⟩
  · exact Nat.isDigit_of_mem_toDigits (by decide) (by decide) hc
  · rw [Nat.toString_eq_ofList_toDigits, String.toList_ofList]
  · exact Nat.ofDigitChars_toDigits (by decide) (by decide)

/-- Zeros and a sign in front change nothing. -/
example : (ofText "+007").toOption = some 7 := by decide

end PinnedManifest.CommandLine.Timeout
