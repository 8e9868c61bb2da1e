import PinnedManifest.Proofs.Digest.Standard

/-!
# Proofs/Digest/Constants — the constants of SHA-256 are roots of primes

The tables of `Sha256` list the first bits after the point of the cube roots of sixty-four primes
(`constant_eq`) and of the square roots of eight (`startWord_eq`).  An entry is the right one if, with a
whole part before it, it is the largest number whose power is no more than the prime (`rootBits_eq`).
That the primes are the first ones follows from a list of all numbers without a small divisor below a
bound (`nth_prime_eq`).
-/

namespace PinnedManifest.Sha256

/-- The registers in their order. -/
def Registers.toList (r : Registers) : List UInt32 := [r.a, r.b, r.c, r.d, r.e, r.f, r.g, r.h]

namespace Standard

/-! ## The first primes -/

/-- **Counted in order** — what satisfies `p` below a bound are the first that do. -/
theorem nth_eq_of_filter_range {p : Nat → Prop} [DecidablePred p] {t n : Nat} :
    ∀ {bound : Nat}, ((List.range bound).filter p)[t]? = some n → Nat.nth p t = n
  | 0, h => by simp at h
  | bound + 1, h => by
    rw [List.range_succ, List.filter_append, List.getElem?_append, ← List.countP_eq_length_filter,
      ← Nat.count] at h
    -- An index in the list for `bound`, or the one behind it.
    split at h
    case isTrue => exact nth_eq_of_filter_range h
    case isFalse hcount =>
      by_cases hp : p bound
      · have hlast : [bound].filter p = [bound] := by simp [hp]
        rw [hlast, List.getElem?_singleton] at h
        split at h
        case isTrue =>
          cases h
          rw [show t = Nat.count p n by omega, Nat.nth_count hp]
        case isFalse => cases h
      · simp [hp] at h

/-- No number from two to `17` whose square is at most `n` divides `n`. -/
def Undivided (n : Nat) : Prop := 2 ≤ n ∧ ∀ m : Nat, m < 18 → 2 ≤ m → m * m ≤ n → ¬ m ∣ n

instance (n : Nat) : Decidable (Undivided n) :=
  inferInstanceAs (Decidable (_ ∧ ∀ m : Nat, m < 18 → _))

theorem prime_iff_undivided {n : Nat} (hn : n < 18 * 18) : n.Prime ↔ Undivided n := by
  rw [Nat.prime_def_le_sqrt]
  refine and_congr_right fun _ => ⟨fun h m _ htwo hsq => h m htwo (Nat.le_sqrt.mpr hsq), ?_⟩
  intro h m htwo hroot
  exact h m (hroot.trans_lt (Nat.sqrt_lt.mpr hn)) htwo (Nat.le_sqrt.mp hroot)

/-- The first primes. -/
def primes : List Nat :=
  [2, 3, 5, 7, 11, 13, 17, 19, 23, 29, 31, 37, 41, 43, 47, 53, 59, 61, 67, 71, 73, 79, 83, 89, 97, 101,
    103, 107, 109, 113, 127, 131, 137, 139, 149, 151, 157, 163, 167, 173, 179, 181, 191, 193, 197, 199,
    211, 223, 227, 229, 233, 239, 241, 251, 257, 263, 269, 271, 277, 281, 283, 293, 307, 311]

theorem nth_prime_eq {t n : Nat} (h : primes[t]? = some n) : Nat.nth Nat.Prime t = n := by
  have hprimes : (List.range 312).filter Nat.Prime = primes := by
    have hundivided : (List.range 312).filter Undivided = primes := by decide +kernel
    rw [← hundivided]
    refine List.filter_congr fun n hn => ?_
    have hlt := List.mem_range.mp hn
    exact decide_eq_decide.mpr (prime_iff_undivided (by omega))
  exact nth_eq_of_filter_range (hprimes ▸ h)

/-! ## Their roots -/

/-- A word spells what comes after the point in the `k`-th root of `n`: with a whole part below eight before
it, it is the largest number whose power is no more. -/
def SpellsRoot (k n : Nat) (w : UInt32) : Prop :=
  ∃ whole < 8, (whole * 2 ^ 32 + w.toNat) ^ k ≤ n * 2 ^ (32 * k) ∧
    n * 2 ^ (32 * k) < (whole * 2 ^ 32 + w.toNat + 1) ^ k

instance (k n : Nat) (w : UInt32) : Decidable (SpellsRoot k n w) :=
  inferInstanceAs (Decidable (∃ whole < 8, _ ∧ _))

theorem rootBits_eq {k n : Nat} {w : UInt32} (hk : k ≠ 0) (h : SpellsRoot k n w) :
    rootBits k n = w.toBitVec := by
  obtain ⟨whole, -, hle, hlt⟩ := h
  have hroot : Nat.findGreatest (fun r => r ^ k ≤ n * 2 ^ (32 * k)) (n * 2 ^ (32 * k))
      = whole * 2 ^ 32 + w.toNat := by
    refine Nat.findGreatest_eq_iff.mpr ⟨(Nat.le_self_pow hk _).trans hle, fun _ => hle, ?_⟩
    intro r hr _
    exact not_le.mpr (hlt.trans_le (Nat.pow_le_pow_left hr k))
  apply BitVec.eq_of_toNat_eq
  have hword := w.toNat_lt
  rw [rootBits, hroot, BitVec.toNat_ofNat, UInt32.toNat_toBitVec]
  omega

/-! ## The tables -/

/-- **A table of roots** — an entry belongs to the prime with its index. -/
theorem rootBits_nth_prime {k t : Nat} {w : UInt32} (hk : k ≠ 0) (table : List UInt32)
    (htable : List.Forall₂ (SpellsRoot k) (primes.take table.length) table) (h : table[t]? = some w) :
    rootBits k (Nat.nth Nat.Prime t) = w.toBitVec := by
  obtain ⟨ht, rfl⟩ := List.getElem?_eq_some_iff.mp h
  have htake : t < (primes.take table.length).length := ht.trans_eq htable.length_eq.symm
  have hprime : primes[t]? = some (primes.take table.length)[t] := by
    rw [← List.getElem?_eq_getElem htake, List.getElem?_take, if_pos ht]
  rw [nth_prime_eq hprime]
  exact rootBits_eq hk (htable.get htake ht)

/-- **The round constants** — from the cube roots of the first primes. -/
theorem constant_eq {t : Nat} {w : UInt32} (h : roundConstants[t]? = some w) :
    constant t = w.toBitVec :=
  rootBits_nth_prime (by decide) roundConstants (by decide +kernel) h

/-- **The registers before the first block** — from the square roots of the first primes. -/
theorem startWord_eq {t : Nat} {w : UInt32} (h : initial.toList[t]? = some w) :
    startWord t = w.toBitVec :=
  rootBits_nth_prime (by decide) initial.toList (by decide +kernel) h

end Standard

end PinnedManifest.Sha256
