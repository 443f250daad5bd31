/-
**Words of four bytes, least significant byte first.**
-/

namespace Curation.Bytes.LittleEndian

/-- The four bytes of a word. -/
def encode (word : UInt32) : List UInt8 :=
  [word.toUInt8, (word >>> 8).toUInt8, (word >>> 16).toUInt8, (word >>> 24).toUInt8]

/-- The word of four bytes. -/
def word (first second third fourth : UInt8) : UInt32 :=
  first.toUInt32 ||| second.toUInt32 <<< 8 ||| third.toUInt32 <<< 16 ||| fourth.toUInt32 <<< 24

/-- The words of some bytes, four bytes each; a rest of fewer than four is dropped. -/
def decode : List UInt8 → List UInt32
  | first :: second :: third :: fourth :: rest => word first second third fourth :: decode rest
  | _ => []

end Curation.Bytes.LittleEndian
