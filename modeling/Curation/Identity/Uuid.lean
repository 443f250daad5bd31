/-
**128-bit identifiers.** An identifier is a word of 128 bits. It is written as 32 lower-case
hexadecimal digits in groups of 8, 4, 4, 4 and 12.

* `Uuid.ofBytes_bytes`: the sixteen bytes of an identifier name it;
* `Uuid.ofText?` also reads digits of either case, no hyphens at all, hyphens in braces, and hyphens
  after `urn:uuid:`.
-/

import Curation.Bytes.BigEndian
import Curation.Text.Hex

namespace Curation

/-- An identifier of 128 bits. -/
structure Uuid where
  bits : BitVec 128
deriving DecidableEq

namespace Uuid

open Curation.Bytes Curation.Text

/-- The identifier with no bit set. -/
def zero : Uuid := ⟨0⟩

instance : Inhabited Uuid := ⟨zero⟩

instance : LT Uuid := ⟨fun first last => first.bits < last.bits⟩

instance : LE Uuid := ⟨fun first last => first.bits ≤ last.bits⟩

instance (first last : Uuid) : Decidable (first < last) :=
  inferInstanceAs (Decidable (first.bits < last.bits))

instance (first last : Uuid) : Decidable (first ≤ last) :=
  inferInstanceAs (Decidable (first.bits ≤ last.bits))

theorem le_total (first second : Uuid) : first ≤ second ∨ second ≤ first :=
  BitVec.le_total first.bits second.bits

theorem le_trans {first second third : Uuid} (left : first ≤ second) (right : second ≤ third) :
    first ≤ third :=
  BitVec.le_trans left right

theorem lt_of_le_of_ne {first second : Uuid} (least : first ≤ second) (other : first ≠ second) :
    first < second :=
  BitVec.lt_of_le_ne least fun same => other (congrArg Uuid.mk same)

/-- The sixteen bytes of an identifier, most significant first. -/
def bytes (uuid : Uuid) : List UInt8 := BigEndian.encode 16 uuid.bits.toNat

/-- The identifier with the given sixteen bytes. -/
def ofBytes? (bytes : List UInt8) : Option Uuid :=
  if bytes.length = 16 then some ⟨BitVec.ofNat 128 (BigEndian.decode bytes)⟩ else none

/-- The written form of an identifier. -/
def toChars (uuid : Uuid) : List Char :=
  let digits := Hex.encode uuid.bytes
  digits.take 8 ++ '-' :: (digits.drop 8).take 4 ++ '-' :: (digits.drop 12).take 4 ++
    '-' :: (digits.drop 16).take 4 ++ '-' :: digits.drop 20

/-- The written form of an identifier, as a string. -/
def toText (uuid : Uuid) : String := String.ofList uuid.toChars

/-- Reads 32 digits. -/
def ofDigits? (characters : List Char) : Option Uuid :=
  Hex.decode? characters |>.bind ofBytes?

/-- Reads digits in five groups with hyphens between them. -/
def ofGroups? (characters : List Char) : Option Uuid :=
  if characters.length = 36 ∧ characters[8]? = some '-' ∧ characters[13]? = some '-' ∧
      characters[18]? = some '-' ∧ characters[23]? = some '-' then
    ofDigits? (characters.take 8 ++ (characters.drop 9).take 4 ++ (characters.drop 14).take 4 ++
      (characters.drop 19).take 4 ++ characters.drop 24)
  else none

/-- The characters between a pair of braces. -/
def inBraces? : List Char → Option (List Char)
  | '\x7b' :: rest => if rest.getLast? = some '\x7d' then some rest.dropLast else none
  | _ => none

/-- The characters after `urn:uuid:`, whose letters may be of either case. -/
def afterUrn? (characters : List Char) : Option (List Char) :=
  if (characters.take 9).map Char.toLower = "urn:uuid:".toList then some (characters.drop 9)
  else none

/-- Reads any of the four written forms. -/
def ofChars? (characters : List Char) : Option Uuid :=
  if characters.length = 32 then ofDigits? characters
  else if characters.length = 36 then ofGroups? characters
  else if characters.length = 38 then (inBraces? characters).bind ofGroups?
  else if characters.length = 45 then (afterUrn? characters).bind ofGroups?
  else none

/-- Reads any of the four written forms. -/
def ofText? (text : String) : Option Uuid := ofChars? text.toList

@[simp] theorem length_bytes (uuid : Uuid) : uuid.bytes.length = 16 := by simp [bytes]

theorem ofBytes_bytes (uuid : Uuid) : ofBytes? uuid.bytes = some uuid := by
  have fits : uuid.bits.toNat < BigEndian.capacity 16 := uuid.bits.isLt
  rw [ofBytes?, if_pos uuid.length_bytes, bytes, BigEndian.decode_encode fits]
  simp

example : (ofText? "67E55044-10B1-426F-9247-BB680E5FE0C8").map toText =
    some "67e55044-10b1-426f-9247-bb680e5fe0c8" := by decide

end Uuid

end Curation
