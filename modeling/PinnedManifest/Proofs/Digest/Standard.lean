import Mathlib.Data.Nat.Find
import Mathlib.Data.Nat.Prime.Nth
import PinnedManifest.Digest.Sha256

/-!
# Proofs/Digest/Standard — what SHA-256 is

The hash function over bit vectors, written down as it is defined and not as it is run: the constants
come from the roots of the first primes, the words of a schedule and the values after each round from
recursion on their index, the padding from the least number of zeros that fills a block.  `hash` is the
function that the running one has to agree with.
-/

namespace PinnedManifest.Sha256.Standard

noncomputable section

abbrev Word := BitVec 32

/-! ## Constants -/

/-- The first thirty-two bits of the fractional part of the `k`-th root of `n`. -/
def rootBits (k n : Nat) : Word :=
  .ofNat 32 (Nat.findGreatest (fun r => r ^ k ≤ n * 2 ^ (32 * k)) (n * 2 ^ (32 * k)))

/-- The constant of a round — from the cube root of a prime. -/
def constant (t : Nat) : Word := rootBits 3 (Nat.nth Nat.Prime t)

/-- A word of the value before the first block — from the square root of a prime. -/
def startWord (j : Nat) : Word := rootBits 2 (Nat.nth Nat.Prime j)

/-! ## Functions of words -/

/-- The bits of `y` where `x` has ones, and those of `z` elsewhere. -/
def choice (x y z : Word) : Word := (x &&& y) ^^^ (~~~x &&& z)

/-- The bits that two of the three words have. -/
def majority (x y z : Word) : Word := (x &&& y) ^^^ (x &&& z) ^^^ (y &&& z)

/-- Three rotations to the right, added without carries. -/
def turned (i j k : Nat) (x : Word) : Word := x.rotateRight i ^^^ x.rotateRight j ^^^ x.rotateRight k

/-- Two rotations and a shift to the right, added without carries. -/
def shifted (i j k : Nat) (x : Word) : Word := x.rotateRight i ^^^ x.rotateRight j ^^^ (x >>> k)

/-- The word of a schedule at an index, for a block of sixteen words. -/
def schedule (block : Nat → Word) (t : Nat) : Word :=
  if t < 16 then block t
  else shifted 17 19 10 (schedule block (t - 2)) + schedule block (t - 7)
    + shifted 7 18 3 (schedule block (t - 15)) + schedule block (t - 16)

/-! ## Values of eight words -/

/-- Eight words: the working variables, and the hash value. -/
structure Value where
  a : Word
  b : Word
  c : Word
  d : Word
  e : Word
  f : Word
  g : Word
  h : Word

namespace Value

/-- The value before the first block. -/
def start : Value :=
  ⟨startWord 0, startWord 1, startWord 2, startWord 3, startWord 4, startWord 5, startWord 6,
    startWord 7⟩

/-- One round: `k` is its constant and `w` its word. -/
def round (v : Value) (k w : Word) : Value :=
  let t₁ := v.h + turned 6 11 25 v.e + choice v.e v.f v.g + k + w
  let t₂ := turned 2 13 22 v.a + majority v.a v.b v.c
  ⟨t₁ + t₂, v.a, v.b, v.c, v.d + t₁, v.e, v.f, v.g⟩

/-- The first `n` rounds over a block. -/
def rounds (block : Nat → Word) (v : Value) : Nat → Value
  | 0 => v
  | t + 1 => (rounds block v t).round (constant t) (schedule block t)

/-- Word by word. -/
def add (v u : Value) : Value :=
  ⟨v.a + u.a, v.b + u.b, v.c + u.c, v.d + u.d, v.e + u.e, v.f + u.f, v.g + u.g, v.h + u.h⟩

end Value

/-! ## Bytes -/

/-- The bytes of a bit vector, most significant first. -/
def bytesOf (count : Nat) (x : BitVec (8 * count)) : List UInt8 :=
  (List.range count).map fun i => ⟨x.extractLsb' (8 * (count - 1 - i)) 8⟩

/-- The word at an index: four bytes, most significant first. -/
def wordAt (bytes : List UInt8) (i : Nat) : Word :=
  let byte (j : Nat) : BitVec 8 := (bytes.getD (4 * i + j) 0).toBitVec
  byte 0 ++ byte 1 ++ byte 2 ++ byte 3

def Value.bytes (v : Value) : List UInt8 :=
  [v.a, v.b, v.c, v.d, v.e, v.f, v.g, v.h].flatMap (bytesOf 4)

/-! ## Messages -/

theorem exists_zeros (n : Nat) : ∃ zeros, (n + 1 + zeros) % 64 = 56 :=
  ⟨(119 - n % 64) % 64, by omega⟩

/-- The message, a one bit, the fewest zeros that leave room for a length at the end of a block, and its
length in bits as a number of sixty-four bits. -/
def pad (message : List UInt8) : List UInt8 :=
  message ++ 0x80 :: List.replicate (Nat.find (exists_zeros message.length)) 0
    ++ bytesOf 8 (.ofNat 64 (8 * message.length))

/-- The value after the first blocks of a padded message. -/
def chain (padded : List UInt8) : Nat → Value
  | 0 => Value.start
  | i + 1 =>
    let v := chain padded i
    v.add (v.rounds (fun t => wordAt padded (16 * i + t)) 64)

/-- **SHA-256 of a message.** -/
def hash (message : List UInt8) : List UInt8 :=
  (chain (pad message) ((pad message).length / 64)).bytes

end

end PinnedManifest.Sha256.Standard
