import PinnedManifest.Digest
import PinnedManifest.Json.Printer
import PinnedManifest.Proofs.Digest.Conformance

/-!
# Proofs/Digest/Text — the text of a digest says all of the hash

A digest is written with lowercase digits only, two for each byte, and none of them needs an escape: so
its JSON form is the same text between quotes.  The digit pairs read back as the bytes of SHA-256,
leading zeros included, and messages share a text exactly when they share a hash
(`digest_text_faithful`).
-/

namespace PinnedManifest

namespace Text.Hex

theorem digit_mem_lowercase : ∀ n < 16, digit n ∈ "0123456789abcdef".toList := by decide

theorem exists_digit_of_mem_encode {bytes : List UInt8} {c : Char} (h : c ∈ encode bytes) :
    ∃ n < 16, c = digit n := by
  obtain ⟨b, -, hc⟩ := List.mem_flatMap.mp h
  have hb : b.toNat < 256 := b.toNat_lt
  simp only [byteDigits, List.mem_cons, List.not_mem_nil, or_false] at hc
  obtain hhigh | hlow := hc
  · exact ⟨_, by omega, hhigh⟩
  · exact ⟨_, by omega, hlow⟩

end Text.Hex

namespace Json

theorem escape_digit : ∀ n < 16, escape (Text.Hex.digit n) = [Text.Hex.digit n] := by decide

/-- **A text that needs no escape** stands between quotes as it is. -/
theorem quote_eq_of_escape {s : String} (h : ∀ c ∈ s.toList, escape c = [c]) :
    quote s = '"' :: s.toList ++ ['"'] := by
  have hplain : s.toList.flatMap escape = s.toList := by
    rw [List.flatMap_congr h]
    exact List.flatMap_singleton' _
  rw [quote, hplain]

end Json

namespace Digest

theorem exists_digit_of_mem_text {d : Digest} {c : Char} (h : c ∈ d.text.toList) :
    ∃ n < 16, c = Text.Hex.digit n := by
  rw [text, String.toList_ofList] at h
  exact Text.Hex.exists_digit_of_mem_encode h

/-- The JSON form of a digest is its text in quotes. -/
theorem json_text (d : Digest) :
    (Json.Value.string d.text).text.toList = '"' :: d.text.toList ++ ['"'] := by
  have hchars : (Json.Value.string d.text).chars = Json.quote d.text := rfl
  rw [Json.Value.text, String.toList_ofList, hchars]
  refine Json.quote_eq_of_escape fun c hc => ?_
  obtain ⟨n, hn, rfl⟩ := exists_digit_of_mem_text hc
  exact Json.escape_digit n hn

theorem bytes_of (content : List UInt8) : (of content).bytes = Sha256.Standard.hash content :=
  Sha256.hash_eq_standard content

/-- **Equal texts, equal hashes.** -/
theorem text_eq_iff {d e : Digest} : d.text = e.text ↔ d.bytes = e.bytes := by
  refine ⟨fun h => congrArg bytes (text_injective h), fun h => ?_⟩
  rw [text, text, h]

end Digest

/-- **The text of a digest** — sixty-four lowercase digits, whose pairs spell the thirty-two bytes of the
message's SHA-256.  Two messages have the same text exactly when they have the same hash.  A digest is
shown as this text, and its JSON form is the text between quotes. -/
theorem digest_text_faithful (content : List UInt8) :
    (Digest.of content).text.toList.length = 64 ∧
    (∀ c ∈ (Digest.of content).text.toList, c ∈ "0123456789abcdef".toList) ∧
    (Sha256.Standard.hash content).length = 32 ∧
    Text.Hex.decode (Digest.of content).text.toList = some (Sha256.Standard.hash content) ∧
    (∀ other : List UInt8, (Digest.of content).text = (Digest.of other).text ↔
      Sha256.Standard.hash content = Sha256.Standard.hash other) ∧
    toString (Digest.of content) = (Digest.of content).text ∧
    (Json.Value.string (Digest.of content).text).text.toList
      = '"' :: (Digest.of content).text.toList ++ ['"'] := by
  have hbytes := Digest.bytes_of content
  refine ⟨Digest.length_text _, ?digits, ?size, ?pairs, ?texts, rfl, Digest.json_text _⟩
  case digits =>
    intro c hc
    obtain ⟨n, hn, rfl⟩ := Digest.exists_digit_of_mem_text hc
    exact Text.Hex.digit_mem_lowercase n hn
  case size => exact hbytes ▸ (Digest.of content).size
  case pairs => rw [Digest.decode_text, hbytes]
  case texts =>
    intro other
    rw [Digest.text_eq_iff, hbytes, Digest.bytes_of]

/-- A zero at the start of a digest is kept. -/
example : (Digest.of [0x33, 0x39]).text
    = "0b918943df0962bc7a1824c0555a389347b4febdc7cf9d1254406d80ce44e3f9" := by
  decide +kernel

end PinnedManifest
