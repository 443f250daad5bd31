/-
**Portable numbers, texts, identifiers, instants, words, options and lists.** A number is read only
within the bounds of its type.
-/

import Curation.Datum
import Curation.Identity.Id
import Curation.Word

namespace Curation

instance : Portable Bool where
  shape := .bool
  toDatum := .bool
  ofDatum?
    | .bool value => some value
    | _ => none

instance : Portable String where
  shape := .text
  toDatum := .text
  ofDatum?
    | .text content => some content
    | _ => none

instance : Portable Int64 where
  shape := .integer (-9223372036854775808) 9223372036854775807
  toDatum value := .integer value.toInt
  ofDatum?
    | .integer value => some (Int64.ofInt value)
    | _ => none

instance : Portable Int32 where
  shape := .integer (-2147483648) 2147483647
  toDatum value := .integer value.toInt
  ofDatum?
    | .integer value => some (Int32.ofInt value)
    | _ => none

instance : Portable UInt32 where
  shape := .integer 0 4294967295
  toDatum value := .integer value.toNat
  ofDatum?
    | .integer value => some (UInt32.ofNat value.toNat)
    | _ => none

instance : Portable UInt64 where
  shape := .integer 0 18446744073709551615
  toDatum value := .integer value.toNat
  ofDatum?
    | .integer value => some (UInt64.ofNat value.toNat)
    | _ => none

instance {subject : Id.Subject} : Portable (Id subject) where
  shape := .id
  toDatum id := .id id.uuid
  ofDatum?
    | .id uuid => some ⟨uuid⟩
    | _ => none

instance : Portable Instant where
  shape := .instant
  toDatum := .instant
  ofDatum?
    | .instant moment => some moment
    | _ => none

/-- Words are alternatives with nothing attached. -/
@[reducible] def Word.portable (α : Type) [Word α] : Portable α where
  shape := .choice (.ofWords (Enumerated.all.map (Word.text (α := α))))
  toDatum word := .word (Word.text word)
  ofDatum?
    | .word name => Word.ofText? name
    | _ => none

instance {α : Type} [Portable α] : Portable (Option α) where
  shape := .optional (Portable.shape α)
  toDatum
    | some value => Portable.toDatum value
    | none => .null
  ofDatum?
    | .null => some none
    | datum => (Portable.ofDatum? datum).map some

instance {α : Type} [Portable α] : Portable (List α) where
  shape := .list (Portable.shape α)
  toDatum values := .list (values.map Portable.toDatum)
  ofDatum?
    | .list elements => elements.mapM Portable.ofDatum?
    | _ => none

/-- The member of a record with a name. -/
def Datum.member? {α : Type} [Portable α] (name : String) : Datum → Option α
  | .record members =>
    (members.find? fun member => member.1 = name).bind fun member => Portable.ofDatum? member.2
  | _ => none

/-- A member of a record whose value is of a portable type. -/
def Fields.of (name : String) (α : Type) [Portable α] (rest : Fields) : Fields :=
  .required name (Portable.shape α) rest

/-- A member of a record whose value may be absent. -/
def Fields.maybe (name : String) (α : Type) [Portable α] (rest : Fields) : Fields :=
  .possible name (Portable.shape α) rest

end Curation
