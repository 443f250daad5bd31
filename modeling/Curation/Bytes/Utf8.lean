/-
**The bytes of texts.** A text is kept as its UTF-8 encoding.

* `decode_encode`: the bytes of a text spell that text.
-/

namespace Curation.Bytes.Utf8

/-- The bytes of a text. -/
def encode (text : String) : List UInt8 := text.toByteArray.data.toList

/-- The text that some bytes spell, if they are the encoding of one. -/
def decode? (bytes : List UInt8) : Option String := String.fromUTF8? ⟨bytes.toArray⟩

theorem decode_encode (text : String) : decode? (encode text) = some text := by
  have valid := text.isValidUTF8
  simp [decode?, encode, String.fromUTF8?, String.fromUTF8, valid]

end Curation.Bytes.Utf8
