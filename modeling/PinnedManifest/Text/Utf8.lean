/-!
# Text/Utf8 — texts as the bytes a file or a message body holds

`utf8` gives the bytes of a text and `ofUtf8?` the text of a byte sequence, where there is one.
`ofUtf8?_utf8` says that the bytes of a text always read back as that text.
-/

namespace PinnedManifest.Text

/-- The bytes of a text. -/
def utf8 (text : String) : List UInt8 := text.toUTF8.data.toList

/-- The text that the bytes encode; `none` if they are not valid UTF-8. -/
def ofUtf8? (bytes : List UInt8) : Option String := String.fromUTF8? ⟨bytes.toArray⟩

/-- **The bytes of a text read back as the text.** -/
theorem ofUtf8?_utf8 (text : String) : ofUtf8? (utf8 text) = some text := by
  have hbytes : (⟨(utf8 text).toArray⟩ : ByteArray) = text.toByteArray := rfl
  rw [ofUtf8?, hbytes, String.fromUTF8?, dif_pos text.isValidUTF8]
  rfl

/-- Two texts with the same bytes are the same text. -/
theorem utf8_injective {s t : String} (h : utf8 s = utf8 t) : s = t := by
  have := ofUtf8?_utf8 s
  rw [h, ofUtf8?_utf8] at this
  exact (Option.some.inj this).symm

end PinnedManifest.Text
