import PinnedManifest.Proofs.Digest.Constants

/-!
# Proofs/Digest/Conformance — the hash computed is SHA-256

The running definitions shift words of machine integers, lengthen one array and walk down the message;
the standard ones go by index.  Each is brought over by itself: words and bytes, a schedule as it grows
(`IsSchedule.extend`), the values after some rounds (`value_rounds`) and after some blocks
(`value_compressAll`), and the padding.  So the two hashes are one function (`hash_eq_standard`).
-/

namespace PinnedManifest.Sha256

/-- The registers as bit vectors. -/
def Registers.value (r : Registers) : Standard.Value :=
  ⟨r.a.toBitVec, r.b.toBitVec, r.c.toBitVec, r.d.toBitVec, r.e.toBitVec, r.f.toBitVec, r.g.toBitVec,
    r.h.toBitVec⟩

namespace Standard

/-! ## Words -/

/-- **A rotation** — two shifts that leave no bit out. -/
theorem toBitVec_rotate (x : UInt32) {n : UInt32} (hn : 0 < n.toNat ∧ n.toNat < 32) :
    (rotate x n).toBitVec = x.toBitVec.rotateRight n.toNat := by
  have hleft : ((32 : UInt32) - n).toNat = 32 - n.toNat :=
    UInt32.toNat_sub_of_le _ _ (UInt32.le_iff_toNat_le.mpr hn.2.le)
  rw [rotate, UInt32.toBitVec_or, UInt32.toBitVec_shiftRight, UInt32.toBitVec_shiftLeft,
    BitVec.rotateRight_def, BitVec.ushiftRight_eq', BitVec.shiftLeft_eq']
  congr 2
  -- Distances are taken modulo the width, which changes neither of the two.
  calc ((32 - n).toBitVec % 32).toNat
    _ = (32 - n).toNat % 32 := rfl
    _ = 32 - n.toNat % 32 := by omega

theorem toBitVec_turned (x : UInt32) {i j k : UInt32} (hi : 0 < i.toNat ∧ i.toNat < 32)
    (hj : 0 < j.toNat ∧ j.toNat < 32) (hk : 0 < k.toNat ∧ k.toNat < 32) :
    (rotate x i ^^^ rotate x j ^^^ rotate x k).toBitVec
      = turned i.toNat j.toNat k.toNat x.toBitVec := by
  rw [UInt32.toBitVec_xor, UInt32.toBitVec_xor, toBitVec_rotate x hi,
    toBitVec_rotate x hj, toBitVec_rotate x hk, turned]

theorem toBitVec_shifted (x : UInt32) {i j k : UInt32} (hi : 0 < i.toNat ∧ i.toNat < 32)
    (hj : 0 < j.toNat ∧ j.toNat < 32) (hk : k.toNat < 32) :
    (rotate x i ^^^ rotate x j ^^^ (x >>> k)).toBitVec
      = shifted i.toNat j.toNat k.toNat x.toBitVec := by
  have hshift : (x >>> k).toBitVec = x.toBitVec >>> k.toNat := by
    rw [UInt32.toBitVec_shiftRight, BitVec.ushiftRight_eq']
    exact congrArg (x.toBitVec >>> ·) (Nat.mod_eq_of_lt hk)
  rw [UInt32.toBitVec_xor, UInt32.toBitVec_xor, toBitVec_rotate x hi,
    toBitVec_rotate x hj, hshift, shifted]

/-! ## Blocks -/

theorem toBitVec_word (a b c d : UInt8) :
    (word a b c d).toBitVec = a.toBitVec ++ b.toBitVec ++ c.toBitVec ++ d.toBitVec := by
  have hleft (x : UInt8) {i : Nat} (hi : i ≤ 24) :
      (x.toUInt32 <<< .ofNat i).toNat = x.toNat <<< i := by
    have hsmall : x.toNat * 2 ^ i < 2 ^ (8 + 24) := by
      rw [pow_add]
      exact Nat.mul_lt_mul_of_lt_of_le x.toNat_lt (Nat.pow_le_pow_right (by decide) hi) (by decide)
    have hplaces : (UInt32.ofNat i).toNat % 32 = i := by
      rw [UInt32.toNat_ofNat']
      omega
    rw [UInt32.toNat_shiftLeft, UInt8.toNat_toUInt32, hplaces, Nat.shiftLeft_eq]
    exact Nat.mod_eq_of_lt hsmall
  apply BitVec.eq_of_toNat_eq
  calc (word a b c d).toNat
    _ = a.toNat <<< 24 ||| b.toNat <<< 16 ||| c.toNat <<< 8 ||| d.toNat := by
      rw [← hleft a (by decide), ← hleft b (by decide), ← hleft c (by decide),
        ← UInt8.toNat_toUInt32 d, ← UInt32.toNat_or, ← UInt32.toNat_or, ← UInt32.toNat_or]
      rfl
    _ = ((a.toNat <<< 8 ||| b.toNat) <<< 8 ||| c.toNat) <<< 8 ||| d.toNat := by
      simp only [Nat.shiftLeft_or_distrib, ← Nat.shiftLeft_add]
    _ = (a.toBitVec ++ b.toBitVec ++ c.toBitVec ++ d.toBitVec).toNat := by
      rw [BitVec.toNat_append, BitVec.toNat_append, BitVec.toNat_append]
      rfl

theorem getElem?_words : ∀ {bytes : List UInt8} {t : Nat}, 4 * t + 3 < bytes.length →
    ∃ w, (words bytes)[t]? = some w ∧ w.toBitVec = wordAt bytes t
  | a :: b :: c :: d :: _, 0, _ => ⟨_, rfl, toBitVec_word a b c d⟩
  | a :: b :: c :: d :: rest, t + 1, h => by
    have hbyte (j : Nat) : (a :: b :: c :: d :: rest).getD (4 * (t + 1) + j) 0
        = rest.getD (4 * t + j) 0 := by
      rw [Nat.mul_succ, Nat.add_right_comm]
      rfl
    have hrest : 4 * t + 3 < rest.length := by simp only [List.length_cons] at h; omega
    obtain ⟨w, hw, heq⟩ := getElem?_words hrest
    refine ⟨w, hw, ?_⟩
    rw [heq, wordAt, wordAt]
    simp only [hbyte]

theorem length_words : ∀ bytes : List UInt8, (words bytes).length = bytes.length / 4
  | a :: b :: c :: d :: rest => by
    simp only [words, List.length_cons, length_words rest]
    omega
  | [] | [_] | [_, _] | [_, _, _] => by simp [words]

/-- Words of a schedule, from the first on. -/
def IsSchedule (block : Nat → Word) (w : Array UInt32) : Prop :=
  ∀ t < w.size, ∃ x, w[t]? = some x ∧ x.toBitVec = schedule block t

namespace IsSchedule

variable {block : Nat → Word} {w : Array UInt32} {t : Nat}

theorem getD (h : IsSchedule block w) (ht : t < w.size) :
    (w.getD t 0).toBitVec = schedule block t := by
  obtain ⟨x, hx, heq⟩ := h t ht
  rw [Array.getD_eq_getD_getElem?, hx]
  exact heq

/-- **The next word** is the one of its index. -/
theorem nextWord (h : IsSchedule block w) (hsize : 16 ≤ w.size) :
    (Sha256.nextWord w).toBitVec = schedule block w.size := by
  have hnear := toBitVec_shifted (w.getD (w.size - 2) 0) (i := 17) (j := 19) (k := 10) (by decide)
    (by decide) (by decide)
  have hfar := toBitVec_shifted (w.getD (w.size - 15) 0) (i := 7) (j := 18) (k := 3) (by decide)
    (by decide) (by decide)
  rw [h.getD (by omega)] at hnear hfar
  rw [schedule, if_neg (by omega), ← h.getD (t := w.size - 7) (by omega),
    ← h.getD (t := w.size - 16) (by omega)]
  simp only [Sha256.nextWord, UInt32.toBitVec_add, hnear, hfar]
  rfl

theorem push (h : IsSchedule block w) (hsize : 16 ≤ w.size) :
    IsSchedule block (w.push (Sha256.nextWord w)) := by
  intro t ht
  rw [Array.size_push] at ht
  rw [Array.getElem?_push]
  split
  case isTrue hlast => exact ⟨_, rfl, hlast ▸ h.nextWord hsize⟩
  case isFalse => exact h t (by omega)

/-- **A schedule made longer.** -/
theorem extend : ∀ (n : Nat) {w : Array UInt32}, IsSchedule block w → 16 ≤ w.size →
    IsSchedule block (Sha256.extend n w) ∧ (Sha256.extend n w).size = w.size + n
  | 0, w, h, _ => ⟨h, rfl⟩
  | n + 1, w, h, hsize => by
    obtain ⟨hlonger, hlength⟩ := extend n (h.push hsize) (by rw [Array.size_push]; omega)
    rw [Array.size_push] at hlength
    exact ⟨hlonger, by rw [Sha256.extend, hlength]; omega⟩

end IsSchedule

/-! ## Rounds -/

/-- **The registers before the first block.** -/
theorem value_initial : initial.value = Value.start := by
  rw [Value.start, startWord_eq (t := 0) rfl, startWord_eq (t := 1) rfl, startWord_eq (t := 2) rfl,
    startWord_eq (t := 3) rfl, startWord_eq (t := 4) rfl, startWord_eq (t := 5) rfl,
    startWord_eq (t := 6) rfl, startWord_eq (t := 7) rfl]
  rfl

/-- **One round.** -/
theorem value_round (r : Registers) (k w : UInt32) :
    (round r k w).value = r.value.round k.toBitVec w.toBitVec := by
  have hfirst := toBitVec_turned r.e (i := 6) (j := 11) (k := 25) (by decide) (by decide) (by decide)
  have hsecond := toBitVec_turned r.a (i := 2) (j := 13) (k := 22) (by decide) (by decide) (by decide)
  simp only [Registers.value, round, Value.round, UInt32.toBitVec_add, hfirst, hsecond]
  rfl

/-- **The rounds**, by how many there have been. -/
theorem value_rounds {block : Nat → Word} {w : Array UInt32} (hw : IsSchedule block w)
    (hsize : w.size = 64) (r : Registers) : ∀ t ≤ 64,
    (((roundConstants.zip w.toList).take t).foldl (fun s kw => round s kw.1 kw.2) r).value
      = r.value.rounds block t
  | 0, _ => rfl
  | t + 1, ht => by
    obtain ⟨k, hk⟩ : ∃ k, roundConstants[t]? = some k := ⟨_, List.getElem?_eq_getElem ht⟩
    obtain ⟨x, hx, hschedule⟩ := hw t (by omega)
    have hpair : (roundConstants.zip w.toList)[t]? = some (k, x) :=
      List.getElem?_zip_eq_some.mpr ⟨hk, (Array.getElem?_toList ..).trans hx⟩
    rw [List.take_add_one, hpair, List.foldl_append, Value.rounds,
      ← value_rounds hw hsize r t (by omega), constant_eq hk, ← hschedule, ← value_round]
    rfl

theorem value_add (r s : Registers) :
    Registers.value ⟨r.a + s.a, r.b + s.b, r.c + s.c, r.d + s.d, r.e + s.e, r.f + s.f, r.g + s.g,
      r.h + s.h⟩ = r.value.add s.value := rfl

/-- **One block.** -/
theorem value_compress {m : Nat → Word} (r : Registers) {block : List UInt8}
    (hlength : block.length = 64) (hm : ∀ t < 16, wordAt block t = m t) :
    (compress r block).value = r.value.add (r.value.rounds m 64) := by
  have hwords : (words block).toArray.size = 16 := by
    rw [List.size_toArray, length_words, hlength]
  have hstart : IsSchedule m (words block).toArray := by
    intro t ht
    rw [hwords] at ht
    rw [schedule, if_pos ht, ← hm t ht, List.getElem?_toArray]
    exact getElem?_words (by omega)
  obtain ⟨hschedule, hsize⟩ := hstart.extend 48 (by omega)
  have hrounds := value_rounds hschedule (by omega) r 64 le_rfl
  -- There are sixty-four constants, so the first sixty-four pairs are all.
  rw [List.take_of_length_le (i := 64) ((List.length_zip).trans_le (Nat.min_le_left ..))] at hrounds
  rw [← hrounds, compress]
  exact value_add r _

/-! ## Messages -/

theorem wordAt_block (padded : List UInt8) (i : Nat) {t : Nat} (ht : t < 16) :
    wordAt ((padded.drop (64 * i)).take 64) t = wordAt padded (16 * i + t) := by
  have hbyte (j : Nat) (hj : j < 4) : ((padded.drop (64 * i)).take 64).getD (4 * t + j) 0
      = padded.getD (4 * (16 * i + t) + j) 0 := by
    have hindex : 64 * i + (4 * t + j) = 4 * (16 * i + t) + j := by omega
    rw [List.getD_eq_getElem?_getD, List.getD_eq_getElem?_getD, List.getElem?_take,
      if_pos (by omega), List.getElem?_drop, hindex]
  simp only [wordAt, hbyte, Nat.reduceLT]

/-- **The blocks that are left** — by induction on their number, with the registers at the value after
those before. -/
theorem value_compressAll (padded : List UInt8) : ∀ (k i : Nat) {r : Registers},
    padded.length = 64 * (i + k) → r.value = chain padded i →
    (compressAll r (padded.drop (64 * i))).value = chain padded (i + k)
  | 0, i, r, hlength, hr => by
    rw [List.drop_eq_nil_of_le (by omega), compressAll, hr]
    rfl
  | k + 1, i, r, hlength, hr => by
    obtain ⟨b, rest, hrest⟩ : ∃ b rest, padded.drop (64 * i) = b :: rest :=
      List.exists_cons_of_length_pos (by rw [List.length_drop]; omega)
    have hblock : b :: rest.take 63 = (padded.drop (64 * i)).take 64 := by rw [hrest]; rfl
    have hnext : rest.drop 63 = padded.drop (64 * (i + 1)) := by
      rw [Nat.mul_succ, ← List.drop_drop, hrest]
      rfl
    have hcompress : (compress r (b :: rest.take 63)).value = chain padded (i + 1) := by
      rw [hblock, value_compress r _ fun t => wordAt_block padded i, hr]
      · rfl
      · rw [List.length_take, List.length_drop]
        omega
    rw [hrest, compressAll, hnext, value_compressAll padded k (i + 1) (by omega) hcompress]
    congr 1
    omega

/-! ## Bytes -/

theorem wordBytes_eq (w : UInt32) : wordBytes w = bytesOf 4 w.toBitVec := by
  have hshift (i : Nat) (hi : i < 32) :
      (w >>> .ofNat i).toUInt8 = ⟨w.toBitVec.extractLsb' i 8⟩ := by
    apply UInt8.toBitVec_inj.mp
    apply BitVec.eq_of_toNat_eq
    simp [Nat.mod_eq_of_lt hi]
  have hlow : w.toUInt8 = ⟨w.toBitVec.extractLsb' 0 8⟩ := by simpa using hshift 0 (by decide)
  calc wordBytes w
    _ = [(w >>> .ofNat 24).toUInt8, (w >>> .ofNat 16).toUInt8, (w >>> .ofNat 8).toUInt8,
          w.toUInt8] := rfl
    _ = bytesOf 4 w.toBitVec := by
      rw [hshift 24 (by decide), hshift 16 (by decide), hshift 8 (by decide), hlow]
      rfl

theorem registers_bytes (r : Registers) : r.bytes = r.value.bytes := by
  simp only [Registers.bytes, Value.bytes, List.flatMap_cons, List.flatMap_nil, wordBytes_eq]
  rfl

/-- A byte of a number is cut out of its low bits, as far as these reach. -/
theorem bigEndian_eq (count n : Nat) : bigEndian count n = bytesOf count (.ofNat (8 * count) n) := by
  have hbyte (i : Nat) (hi : i < count) : UInt8.ofNat (n / Nat.pow 256 i)
      = ⟨(BitVec.ofNat (8 * count) n).extractLsb' (8 * i) 8⟩ := by
    have hpow : Nat.pow 256 i = 2 ^ (8 * i) := (pow_mul 2 8 i).symm
    apply UInt8.toBitVec_inj.mp
    apply BitVec.eq_of_getLsbD_eq
    intro j hj
    have hin : 8 * i + j < 8 * count := by omega
    rw [hpow, UInt8.toBitVec_ofNat']
    simp only [BitVec.getLsbD_extractLsb', BitVec.getLsbD_ofNat, Nat.testBit_div_two_pow, hj, hin,
      decide_true, Bool.true_and]
    rw [Nat.add_comm]
  rw [bigEndian, bytesOf, List.range_eq_range', List.reverse_range', List.map_map,
    List.range_eq_range']
  refine List.map_congr_left fun i hi => ?_
  have hlt := List.mem_range'_1.mp hi
  rw [Function.comp_apply, Nat.zero_add, hbyte _ (by omega)]

/-- **The padding** — the formula for the zeros gives the least number that fits. -/
theorem pad_eq (message : List UInt8) : Sha256.pad message = pad message := by
  have hzeros : Nat.find (exists_zeros message.length) = (119 - message.length % 64) % 64 := by
    rw [Nat.find_eq_iff]
    exact ⟨by omega, fun n hn => by omega⟩
  rw [pad, hzeros, ← bigEndian_eq]
  rfl

end Standard

/-- **The hash computed is SHA-256.** -/
theorem hash_eq_standard (message : List UInt8) : hash message = Standard.hash message := by
  have hblocks := length_pad message
  have hvalue := Standard.value_compressAll (pad message) ((pad message).length / 64) 0 (by omega)
    Standard.value_initial
  rw [Nat.mul_zero, List.drop_zero, Nat.zero_add] at hvalue
  rw [hash, Standard.registers_bytes, hvalue, Standard.pad_eq, Standard.hash]

end PinnedManifest.Sha256
