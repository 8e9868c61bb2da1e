/-!
# Text/Hex — bytes in lowercase hexadecimal

Each byte is written as exactly two digits, so leading zeros are kept and the text is twice as long
as the bytes.  `decode` reads digit pairs back (either case), and `decode_encode` says that reading
recovers what was written.
-/

namespace PinnedManifest.Text.Hex

/-- The lowercase digit for a value below sixteen. -/
def digit (n : Nat) : Char :=
  if n < 10 then Char.ofNat (48 + n) else Char.ofNat (87 + n)

/-- The value of a hexadecimal digit. -/
def value? (c : Char) : Option Nat :=
  if '0' ≤ c ∧ c ≤ '9' then some (c.toNat - 48)
  else if 'a' ≤ c ∧ c ≤ 'f' then some (c.toNat - 87)
  else if 'A' ≤ c ∧ c ≤ 'F' then some (c.toNat - 55)
  else none

/-- The two digits of a byte, high nibble first. -/
def byteDigits (b : UInt8) : List Char := [digit (b.toNat / 16), digit (b.toNat % 16)]

/-- All bytes, two digits each. -/
def encode (bytes : List UInt8) : List Char := bytes.flatMap byteDigits

/-- The bytes that pairs of digits spell; `none` on an odd count or a character that is no digit. -/
def decode : List Char → Option (List UInt8)
  | [] => some []
  | hi :: lo :: rest => do
    let h ← value? hi
    let l ← value? lo
    let bytes ← decode rest
    return UInt8.ofNat (16 * h + l) :: bytes
  | [_] => none

theorem value?_digit : ∀ n < 16, value? (digit n) = some n := by decide

/-- **Each byte takes exactly two characters.** -/
theorem length_encode (bytes : List UInt8) : (encode bytes).length = 2 * bytes.length := by
  induction bytes with
  | nil => rfl
  | cons b bs ih =>
    simp only [encode, List.flatMap_cons, List.length_append, byteDigits, List.length_cons,
      List.length_nil] at ih ⊢
    omega

/-- **Reading digit pairs recovers the bytes that were written.** -/
theorem decode_encode (bytes : List UInt8) : decode (encode bytes) = some bytes := by
  induction bytes with
  | nil => rfl
  | cons b bs ih =>
    have hb : b.toNat < 256 := b.toNat_lt
    have hval : UInt8.ofNat (16 * (b.toNat / 16) + b.toNat % 16) = b := by
      rw [Nat.div_add_mod]
      exact UInt8.ofNat_toNat
    have happ : encode (b :: bs) =
        digit (b.toNat / 16) :: digit (b.toNat % 16) :: encode bs := rfl
    rw [happ, decode, value?_digit _ (by omega), value?_digit _ (by omega)]
    simp only [Option.bind_eq_bind, Option.bind_some, ih, hval, Option.pure_def]

end PinnedManifest.Text.Hex
