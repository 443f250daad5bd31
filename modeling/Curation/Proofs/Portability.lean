/-
**Portable values are read back.** What is written of a value, as JSON text, is read as that value. The
documents of data are plain, so that the text is read as the document; it remains that the shape of a
type reads the documents of its values, and that the values are found in the data.

* `Uuid.ofText?_toText`: identifiers are read back from their text;
* `Portable.Faithful`: the values of a type are read back, and `Portable.Present`: none is null;
* `Fields.Hold`, `Fields.ofMembers?_hold`: records are read member by member;
* `Portable.ofJsonText?_toJsonText`: from documents to texts.
-/

import Curation.Datum.Json
import Curation.Portable.Scalars
import Curation.Proofs.Documents
import Curation.Proofs.Timestamps
import Mathlib.Data.List.Nodup

namespace Curation

/-! ### The text of identifiers -/

namespace Uuid

open Curation.Bytes Curation.Text

/-- Digits in five groups with hyphens between them are read as the digits. -/
theorem ofGroups?_groups {first second third fourth fifth : List Char}
    (firstLength : first.length = 8) (secondLength : second.length = 4)
    (thirdLength : third.length = 4) (fourthLength : fourth.length = 4)
    (fifthLength : fifth.length = 12) :
    ofGroups? (first ++ '-' :: second ++ '-' :: third ++ '-' :: fourth ++ '-' :: fifth) =
      ofDigits? (first ++ second ++ third ++ fourth ++ fifth) := by
  unfold ofGroups?
  rw [if_pos]
  · simp [List.drop_append, firstLength, secondLength, thirdLength, fourthLength,
      List.drop_eq_nil_of_le]
  · simp [firstLength, secondLength, thirdLength, fourthLength, fifthLength]

theorem groups_digits (digits : List Char) :
    digits.take 8 ++ (digits.drop 8).take 4 ++ (digits.drop 12).take 4 ++ (digits.drop 16).take 4 ++
      digits.drop 20 = digits := by
  have parts : ∀ start count,
      (digits.drop start).take count ++ digits.drop (start + count) = digits.drop start :=
    fun start count => by rw [← List.drop_drop, List.take_append_drop]
  rw [List.append_assoc, parts 16 4, List.append_assoc, parts 12 4, List.append_assoc, parts 8 4,
    List.take_append_drop]

/-- **The text of an identifier is read as that identifier.** -/
theorem ofText?_toText (uuid : Uuid) : ofText? uuid.toText = some uuid := by
  have length : (Hex.encode uuid.bytes).length = 32 := by
    rw [Hex.length_encode, uuid.length_bytes]
  have digits : ofDigits? (Hex.encode uuid.bytes) = some uuid := by
    rw [ofDigits?, Hex.decode_encode, Option.bind_some, ofBytes_bytes]
  rw [ofText?, toText, String.toList_ofList, ofChars?, toChars]
  generalize Hex.encode uuid.bytes = numeral at length digits
  rw [if_neg (by simp [length]), if_pos (by simp [length]), ofGroups?_groups (by simp [length])
    (by simp [length]) (by simp [length]) (by simp [length]) (by simp [length]), groups_digits,
    digits]

end Uuid

/-! ### Documents of data -/

namespace Datum

mutual

/-- **The documents of data are plain.** -/
theorem toJson_plain : (datum : Datum) → datum.toJson.Plain
  | .null => trivial
  | .bool _ => trivial
  | .integer _ => trivial
  | .text _ => rfl
  | .id _ => rfl
  | .instant _ => rfl
  | .list elements => elementsToJson_plain elements
  | .record members => membersToJson_plain members
  | .word _ => rfl
  | .variant _ payload => ⟨rfl, toJson_plain payload, trivial⟩

theorem elementsToJson_plain : (elements : List Datum) →
    Json.PlainElements (elementsToJson elements)
  | [] => trivial
  | first :: rest => ⟨toJson_plain first, elementsToJson_plain rest⟩

theorem membersToJson_plain : (members : List (String × Datum)) →
    Json.PlainMembers (membersToJson members)
  | [] => trivial
  | (_, value) :: rest => ⟨rfl, toJson_plain value, membersToJson_plain rest⟩

end

theorem elementsToJson_eq (elements : List Datum) :
    elementsToJson elements = elements.map toJson := by
  induction elements with
  | nil => rfl
  | cons first rest hypothesis => rw [elementsToJson, hypothesis, List.map_cons]

theorem membersToJson_eq (members : List (String × Datum)) :
    membersToJson members = members.map fun member => (some member.1, member.2.toJson) := by
  induction members with
  | nil => rfl
  | cons first rest hypothesis => rw [membersToJson, hypothesis, List.map_cons]

/-- A shape reads the document of a datum as that datum. -/
def Fits (datum : Datum) (shape : Shape) : Prop := shape.ofJson? datum.toJson = some datum

end Datum

/-! ### Types -/

namespace Portable

/-- The values of a type are read back, from documents to data and from data to values. -/
class Faithful (α : Type) [Portable α] : Prop where
  fits : ∀ value : α, (toDatum value).Fits (shape α)
  returns : ∀ value : α, ofDatum? (toDatum value) = some value

/-- Besides, the document of no value is null. -/
class Present (α : Type) [Portable α] : Prop extends Faithful α where
  present : ∀ value : α, (toDatum value).toJson ≠ .null

/-- **The JSON text of a value is read as that value.** -/
theorem ofJsonText?_toJsonText {α : Type} [Portable α] [Faithful α] (value : α) :
    ofJsonText? (toJsonText value) = some value := by
  have read : Json.ofText? (toJsonText value) = some (toJson value) :=
    Json.ofText?_toText (Datum.toJson_plain _)
  rw [ofJsonText?, read, Option.bind_some, ofJson?, toJson, Faithful.fits value, Option.bind_some,
    Faithful.returns]

/-- Only one value is written as a given JSON text. -/
theorem toJsonText_inj {α : Type} [Portable α] [Faithful α] {first second : α} :
    toJsonText first = toJsonText second ↔ first = second := by
  refine ⟨fun same => Option.some.inj ?_, congrArg toJsonText⟩
  rw [← ofJsonText?_toJsonText first, same, ofJsonText?_toJsonText]

end Portable

/-! ### Scalars -/

section

open Portable

instance : Present Bool where
  fits _ := rfl
  returns _ := rfl
  present _ := nofun

instance : Present String where
  fits _ := rfl
  returns _ := rfl
  present _ := nofun

/-- An integer within the bounds of a shape is read back. -/
theorem Datum.fits_integer {least most value : Int} (within : least ≤ value ∧ value ≤ most) :
    (Datum.integer value).Fits (.integer least most) := if_pos within

instance : Present Int64 where
  fits value := Datum.fits_integer ⟨value.le_toInt, Int.le_of_lt_add_one value.toInt_lt⟩
  returns value := congrArg some (Int64.ofInt_toInt value)
  present _ := nofun

instance : Present Int32 where
  fits value := Datum.fits_integer ⟨value.le_toInt, Int.le_of_lt_add_one value.toInt_lt⟩
  returns value := congrArg some (Int32.ofInt_toInt value)
  present _ := nofun

instance : Present UInt32 where
  fits value := Datum.fits_integer ⟨Int.natCast_nonneg _, Int.le_of_lt_add_one
    (Int.ofNat_lt.mpr value.toNat_lt)⟩
  returns _ := congrArg some UInt32.ofNat_toNat
  present _ := nofun

instance {subject : Id.Subject} : Present (Id subject) where
  fits id := by
    show (Uuid.ofText? id.uuid.toText).map Datum.id = _
    rw [Uuid.ofText?_toText]
    rfl
  returns _ := rfl
  present _ := nofun

instance : Present Instant where
  fits moment := by
    show (Instant.ofText? moment.toText).map Datum.instant = _
    rw [Instant.ofText?_toText]
    rfl
  returns _ := rfl
  present _ := nofun

/-- An alternative with nothing attached is read by its name. -/
theorem Cases.ofName?_ofWords {names : List String} {name : String} (member : name ∈ names) :
    (Cases.ofWords names).ofName? name = some (.word name) := by
  induction names with
  | nil => cases member
  | cons first rest hypothesis =>
    rw [ofWords, ofName?]
    split
    next same => rw [same]
    next other => exact hypothesis ((List.mem_cons.mp member).resolve_left (Ne.symm other))

/-- Words are read back. -/
theorem Word.present (α : Type) [Word α] : @Present α (Word.portable α) :=
  letI := Word.portable α
  { fits := fun word =>
      Cases.ofName?_ofWords (List.mem_map_of_mem (Enumerated.mem_all word))
    returns := Word.ofText?_text
    present := nofun }

/-! ### Options and lists -/

variable {α : Type} [Portable α]

theorem Datum.fits_optional {datum : Datum} {inner : Shape} (fits : datum.Fits inner)
    (present : datum.toJson ≠ .null) : datum.Fits (.optional inner) := by
  unfold Datum.Fits
  rw [Shape.ofJson?]
  · exact fits
  · exact present

instance [Present α] : Faithful (Option α) where
  fits
    | some value => Datum.fits_optional (Faithful.fits value) (Present.present value)
    | none => rfl
  returns
    | some value => by
      have given : ∀ datum : Datum, datum ≠ .null →
          (ofDatum? datum : Option (Option α)) = (ofDatum? datum).map some := by
        intro datum other
        cases datum <;> first | rfl | exact absurd rfl other
      have other : (toDatum value) ≠ .null := fun same =>
        Present.present value (by rw [same]; rfl)
      show (ofDatum? (toDatum value) : Option (Option α)) = _
      rw [given _ other, Faithful.returns]
      rfl
    | none => rfl

/-- What is written one by one is read one by one. -/
theorem mapM_map_eq_some {β γ : Type} {read : γ → Option β} {write : β → γ} {values : List β}
    (reads : ∀ value ∈ values, read (write value) = some value) :
    (values.map write).mapM read = some values := by
  induction values with
  | nil => rfl
  | cons first rest hypothesis =>
    rw [List.map_cons, List.mapM_cons, reads first List.mem_cons_self,
      hypothesis fun value member => reads value (List.mem_cons_of_mem _ member)]
    rfl

theorem Datum.fits_list {elements : List Datum} {element : Shape}
    (fits : ∀ datum ∈ elements, datum.Fits element) :
    (Datum.list elements).Fits (.list element) := by
  show ((elementsToJson elements).mapM element.ofJson?).map Datum.list = _
  rw [elementsToJson_eq, mapM_map_eq_some fits]
  rfl

instance [Faithful α] : Present (List α) where
  fits values := Datum.fits_list fun datum member => by
    obtain ⟨value, -, rfl⟩ := List.mem_map.mp member
    exact Faithful.fits value
  returns _ := mapM_map_eq_some fun value _ => Faithful.returns value
  present _ := nofun

end

/-! ### Records -/

namespace Fields

/-- Data are given for the members of a record, in their order, and each fits. -/
inductive Hold : Fields → List (String × Datum) → Prop where
  | nil : Hold .nil []
  | cons {name : String} {shape : Shape} {absent : Option Datum} {rest : Fields} {datum : Datum}
      {others : List (String × Datum)} (fits : datum.Fits shape) (more : Hold rest others) :
      Hold (.cons name shape absent rest) ((name, datum) :: others)

variable {name : String} {rest fields : Fields} {others members : List (String × Datum)}
  {α : Type} [Portable α]

theorem Hold.of [Portable.Faithful α] (value : α) (more : rest.Hold others) :
    (Fields.of name α rest).Hold ((name, Portable.toDatum value) :: others) :=
  .cons (Portable.Faithful.fits value) more

theorem Hold.maybe [Portable.Present α] (value : Option α) (more : rest.Hold others) :
    (Fields.maybe name α rest).Hold ((name, Portable.toDatum value) :: others) :=
  .cons (Portable.Faithful.fits value) more

/-- A member is found under its name. -/
theorem find?_member {κ β : Type} [DecidableEq κ] {key : κ} {given : List (κ × β)} {value : β}
    (distinct : (given.map Prod.fst).Nodup) (member : (key, value) ∈ given) :
    (given.find? fun pair => pair.1 = key) = some (key, value) := by
  induction given with
  | nil => cases member
  | cons first rest hypothesis =>
    rw [List.map_cons, List.nodup_cons] at distinct
    rcases List.mem_cons.mp member with rfl | later
    · exact List.find?_cons_of_pos (decide_eq_true rfl)
    · have other : first.1 ≠ key := fun same =>
        distinct.1 (same ▸ List.mem_map_of_mem (f := Prod.fst) later)
      rw [List.find?_cons_of_neg (by simpa using other)]
      exact hypothesis distinct.2 later

/-- The names of the members of a document are as distinct as those of its datum. -/
theorem nodup_membersToJson {given : List (String × Datum)} (distinct : (given.map Prod.fst).Nodup) :
    ((Datum.membersToJson given).map Prod.fst).Nodup := by
  rw [Datum.membersToJson_eq, List.map_map, show (Prod.fst ∘ fun member : String × Datum =>
    (some member.1, member.2.toJson)) = some ∘ Prod.fst from rfl, ← List.map_map]
  exact distinct.map fun _ _ same => Option.some.inj same

/-- **The members of a record are read from its document**, wherever they stand in it. -/
theorem ofMembers?_hold {given : List (String × Datum)} (hold : fields.Hold members)
    (distinct : (given.map Prod.fst).Nodup) (part : members ⊆ given) :
    fields.ofMembers? (Datum.membersToJson given) = some members := by
  induction hold with
  | nil => rfl
  | @cons name shape absent rest datum others fits more hypothesis =>
    have listed : (some name, datum.toJson) ∈ Datum.membersToJson given := by
      rw [Datum.membersToJson_eq]
      exact List.mem_map.mpr ⟨_, part List.mem_cons_self, rfl⟩
    rw [ofMembers?, find?_member (nodup_membersToJson distinct) listed]
    dsimp only
    rw [show shape.ofJson? datum.toJson = some datum from fits,
      hypothesis fun pair member => part (List.mem_cons_of_mem _ member)]
    rfl

/-- The members of a document may be those of a record if they are distinct. -/
theorem allow_membersToJson (fields : Fields) (distinct : (members.map Prod.fst).Nodup) :
    fields.allow (Datum.membersToJson members) = true := by
  refine Bool.and_eq_true_iff.mpr ⟨List.all_eq_true.mpr fun member listed => ?_,
    List.all_eq_true.mpr fun name _ => decide_eq_true ?_⟩
  · rw [Datum.membersToJson_eq] at listed
    obtain ⟨pair, -, rfl⟩ := List.mem_map.mp listed
    rfl
  · have once := List.nodup_iff_count_le_one.mp (nodup_membersToJson distinct) (some name)
    rw [List.count, List.countP_map] at once
    refine Nat.le_trans (Nat.le_of_eq (List.countP_congr fun pair _ => ?_)) once
    simp

/-- A record is read back. -/
theorem Hold.fits {mayBeShort : Bool} (hold : fields.Hold members)
    (distinct : (members.map Prod.fst).Nodup) :
    (Datum.record members).Fits (.record mayBeShort fields) := by
  show (if fields.allow (Datum.membersToJson members) then
    (fields.ofMembers? (Datum.membersToJson members)).map Datum.record else none) = _
  rw [if_pos (allow_membersToJson fields distinct),
    ofMembers?_hold hold distinct fun _ member => member]
  rfl

end Fields

/-! ### Members of records -/

namespace Datum

variable {α : Type} [Portable α] [Portable.Faithful α] {name : String} (value : α)

/-- A member is found in a record and read. -/
theorem member?_record {members : List (String × Datum)} (distinct : (members.map Prod.fst).Nodup)
    (member : (name, Portable.toDatum value) ∈ members) :
    (Datum.record members).member? name = some value := by
  rw [member?, Fields.find?_member distinct member, Option.bind_some, Portable.Faithful.returns]

/-- A member that comes first is found there, -/
@[simp]
theorem member?_first (others : List (String × Datum)) :
    (Datum.record ((name, Portable.toDatum value) :: others)).member? name = some value := by
  rw [member?, List.find?_cons_of_pos (by simp), Option.bind_some, Portable.Faithful.returns]

omit [Portable.Faithful α] in
/-- and another is found among the others. -/
theorem member?_others {first : String} (other : first ≠ name) (datum : Datum)
    (others : List (String × Datum)) :
    (Datum.record ((first, datum) :: others)).member? (α := α) name =
      (Datum.record others).member? name := by
  rw [member?, List.find?_cons_of_neg (by simpa using other), member?]

end Datum

/-! ### Members that are listed -/

namespace Fields

variable {fields rest : Fields} {members others : List (String × Datum)}

theorem ofList_append (first second : List (String × Shape × Option Datum)) :
    ofList (first ++ second) = (ofList first).append (ofList second) := by
  induction first with
  | nil => rfl
  | cons head tail hypothesis =>
    obtain ⟨name, shape, absent⟩ := head
    rw [List.cons_append, ofList, hypothesis]
    rfl

theorem Hold.append (first : fields.Hold members) (second : rest.Hold others) :
    (fields.append rest).Hold (members ++ others) := by
  induction first with
  | nil => exact second
  | cons fits _ hypothesis => exact .cons fits hypothesis

/-- The members that are listed for some entries. -/
theorem hold_map {ι : Type} (entries : List ι) (key : ι → String) {shape : ι → Shape}
    (absent : Option Datum) {datum : ι → Datum} (fits : ∀ entry, (datum entry).Fits (shape entry)) :
    (ofList (entries.map fun entry => (key entry, shape entry, absent))).Hold
      (entries.map fun entry => (key entry, datum entry)) := by
  induction entries with
  | nil => exact .nil
  | cons first rest hypothesis => exact .cons (fits first) hypothesis

end Fields

end Curation
