import PinnedManifest.Digest.Sha256
import PinnedManifest.Text.Hex

/-!
# Digest — the SHA-256 of an artefact's bytes

A `Digest` holds the thirty-two bytes of a hash; its text is their lowercase hexadecimal form, which
always has sixty-four characters (`length_text`).
-/

namespace PinnedManifest

/-- A SHA-256 value. -/
structure Digest where
  bytes : List UInt8
  size : bytes.length = 32
  deriving DecidableEq

namespace Digest

/-- The digest of a byte sequence. -/
def of (content : List UInt8) : Digest := ⟨Sha256.hash content, Sha256.length_hash content⟩

/-- The digest in lowercase hexadecimal. -/
def text (d : Digest) : String := String.ofList (Text.Hex.encode d.bytes)

instance : ToString Digest := ⟨text⟩

/-- **A digest is written with sixty-four characters.** -/
theorem length_text (d : Digest) : d.text.toList.length = 64 := by
  rw [text, String.toList_ofList, Text.Hex.length_encode, d.size]

/-- The text of a digest gives back its bytes. -/
theorem decode_text (d : Digest) : Text.Hex.decode d.text.toList = some d.bytes := by
  rw [text, String.toList_ofList, Text.Hex.decode_encode]

/-- Two digests with the same text are the same digest. -/
theorem text_injective {d e : Digest} (h : d.text = e.text) : d = e := by
  have hbytes := d.decode_text
  rw [h, e.decode_text] at hbytes
  cases d
  cases e
  cases hbytes
  rfl

end Digest

end PinnedManifest
