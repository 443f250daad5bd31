/-
**Values and details survive storage.** Both are kept as bytes, values with the members of records by
position and details with their names. Whatever their texts and numbers are, they are read back, as long
as no text has 2^32 bytes and no list 2^32 members, so that different ones are kept as different bytes.

* `Value.Short`, `Value.ofMessagePack?_toMessagePack`: values;
* `Details.Short`, `Details.survive`: details.
-/

import Curation.Proofs.Packing
import Curation.Proofs.Snapshots

namespace Curation

open Curation.Bytes Curation.MessagePack Portable

/-! ### Texts, numbers, options and lists -/

instance : DecidablePred ShortText := fun content =>
  inferInstanceAs (Decidable ((Utf8.encode content).length < lengthLimit))

/-- The length of a list can be written, and so can its members. -/
def ShortList {α : Type} (short : α → Prop) (values : List α) : Prop :=
  values.length < lengthLimit ∧ ∀ value ∈ values, short value

instance {α : Type} {short : α → Prop} [DecidablePred short] : DecidablePred (ShortList short) :=
  fun values => inferInstanceAs
    (Decidable (values.length < lengthLimit ∧ ∀ value ∈ values, short value))

theorem Int64.packable (number : Int64) : (toDatum number).Packable :=
  ⟨number.le_toInt, Int.lt_trans number.toInt_lt (by decide)⟩

section

variable {α : Type} [Portable α]

theorem packable_option {value : Option α} (each : ∀ held ∈ value, (toDatum held).Packable) :
    (toDatum value).Packable := by
  cases value with
  | none => trivial
  | some held => exact each held rfl

theorem packable_list {values : List α} (short : ShortList (fun value => (toDatum value).Packable) values) :
    (toDatum values).Packable := by
  refine ⟨?_, Datum.packableElements_iff.mpr fun datum member => ?_⟩
  · rw [List.length_map]
    exact short.1
  · obtain ⟨value, listed, rfl⟩ := List.mem_map.mp member
    exact short.2 value listed

end

/-! ### Values -/

namespace Value

/-- No text in a value is too long. -/
def Short : Value → Prop
  | .text content => ShortText content
  | .integer _ => True
  | .reference _ => True
  | .url ⟨address, site⟩ => ShortText address ∧ ShortText site
  | .modification ⟨location, description⟩ =>
    ShortText location ∧ ∀ written ∈ description, ShortText written
  | .image _ => True

instance (value : Value) : Decidable value.Short := by
  cases value <;> unfold Short <;> infer_instance

end Value

theorem Url.packable {url : Url} (short : (Value.url url).Short) : (toDatum url).Packable :=
  ⟨(by decide : 2 < lengthLimit), by decide, short.1, by decide, short.2, trivial⟩

theorem BodyModification.packable {modification : BodyModification}
    (short : (Value.modification modification).Short) : (toDatum modification).Packable :=
  ⟨(by decide : 2 < lengthLimit), by decide, short.1, by decide, packable_option short.2, trivial⟩

theorem Scalar.packable : {sort : Scalar} → {held : sort.Carrier} → (sort.value held).Short →
    (toDatum held).Packable
  | .text, _, short => short
  | .integer, held, _ => Int64.packable held
  | .reference, _, _ => trivial

theorem Member.packable : {sort : Member} → {held : sort.Carrier} → (sort.value held).Short →
    (toDatum held).Packable
  | .alias, _, short => short
  | .url, _, short => Url.packable short
  | .image, _, _ => trivial
  | .modification, _, short => BodyModification.packable short

namespace Value

theorem packable {value : Value} (short : value.Short) : (toDatum value).Packable := by
  cases value with
  | text content => exact ⟨by decide, short⟩
  | integer number => exact ⟨by decide, Int64.packable number⟩
  | reference target => exact ⟨by decide, trivial⟩
  | url url => exact ⟨by decide, Url.packable short⟩
  | modification modification => exact ⟨by decide, BodyModification.packable short⟩
  | image image => exact ⟨by decide, trivial⟩

end Value

/-- What is attached to an alternative fits if the alternative is listed. -/
theorem Datum.fits_variant {cases : Cases} {name : String} {shape : Shape} {payload : Datum}
    (listed : ∀ json, cases.ofMember? name json = (shape.ofJson? json).map (.variant name))
    (fits : payload.Fits shape) : (Datum.variant name payload).Fits (.choice cases) := by
  show cases.ofMember? name payload.toJson = _
  rw [listed, show shape.ofJson? payload.toJson = some payload from fits]
  rfl

instance : Present Value where
  fits
    | .text content => Datum.fits_variant (fun _ => rfl) (Faithful.fits content)
    | .integer number => Datum.fits_variant (fun _ => rfl) (Faithful.fits number)
    | .reference target => Datum.fits_variant (fun _ => rfl) (Faithful.fits target)
    | .url url => Datum.fits_variant (fun _ => rfl) (Faithful.fits url)
    | .modification modification => Datum.fits_variant (fun _ => rfl) (Faithful.fits modification)
    | .image image => Datum.fits_variant (fun _ => rfl) (Faithful.fits image)
  returns
    | .text content => rfl
    | .integer number => congrArg (Option.map Value.integer) (Faithful.returns number)
    | .reference target => rfl
    | .url url => congrArg (Option.map Value.url) (Faithful.returns url)
    | .modification modification =>
      congrArg (Option.map Value.modification) (Faithful.returns modification)
    | .image image => rfl
  present value := by cases value <;> nofun

namespace Value

variable {value first second : Value}

/-- **A value is read back** if no text in it is too long, -/
theorem ofMessagePack?_toMessagePack (short : value.Short) :
    ofMessagePack? (toMessagePack false value) = some value :=
  Portable.ofMessagePack?_toMessagePack false (packable short)

/-- and it is the only one that is written like that. -/
theorem toMessagePack_inj (firstShort : first.Short) (secondShort : second.Short)
    (same : toMessagePack false first = toMessagePack false second) : first = second :=
  Portable.toMessagePack_inj (packable firstShort) (packable secondShort) same

end Value

/-! ### Details -/

/-- What is added to a list and what is removed can be written. -/
structure ListChange.Short {α : Type} (short : α → Prop) (change : ListChange α) : Prop where
  added : ShortList short change.added
  removed : ShortList short change.removed

instance {α : Type} {short : α → Prop} [DecidablePred short] (change : ListChange α) :
    Decidable (change.Short short) :=
  decidable_of_iff (ShortList short change.added ∧ ShortList short change.removed)
    ⟨fun ⟨added, removed⟩ => ⟨added, removed⟩, fun shorts => ⟨shorts.added, shorts.removed⟩⟩

/-- The credit of an appearance is not too long; a tag has no text. -/
def Link.Short {kind : Kind} : (link : Link kind) → link.Carrier → Prop
  | .sceneTags, _ => True
  | .scenePerformers, appearance => ∀ credit ∈ appearance.creditedAs, ShortText credit

instance {kind : Kind} : (link : Link kind) → DecidablePred link.Short
  | .sceneTags => fun _ => inferInstanceAs (Decidable True)
  | .scenePerformers => fun appearance =>
    inferInstanceAs (Decidable (∀ credit ∈ appearance.creditedAs, ShortText credit))

/-- No text and no list on one side of an edit is too long. -/
structure Side.Short {kind : Kind} (side : Side kind) : Prop where
  scalar : ∀ field, ∀ value ∈ side.value? field, value.Short
  members : ∀ collection, (side.members collection).Short fun held =>
    (collection.sort.value held).Short
  links : ∀ link, (side.links link).Short link.Short

/-- **No text of some details has 2^32 bytes, and no list as many members.** -/
structure Details.Short (details : Details) : Prop where
  new : details.change.new.Short
  old : details.change.old.Short

theorem ListChange.packable {α : Type} [Portable α] {short : α → Prop} {change : ListChange α}
    (each : ∀ value, short value → (toDatum value).Packable) (shorts : change.Short short) :
    (toDatum change).Packable :=
  ⟨(by decide : 2 < lengthLimit), by decide,
    packable_list ⟨shorts.added.1, fun value member => each value (shorts.added.2 value member)⟩,
    by decide,
    packable_list ⟨shorts.removed.1, fun value member => each value (shorts.removed.2 value member)⟩,
    trivial⟩

theorem Link.packable {kind : Kind} : (link : Link kind) → (held : link.Carrier) → link.Short held →
    (toDatum held).Packable
  | .sceneTags, _, _ => trivial
  | .scenePerformers, _, short =>
    ⟨(by decide : 2 < lengthLimit), by decide, trivial, by decide, packable_option short, trivial⟩

/-- The members that a kind lists are written under short names. -/
theorem Kind.packable_toData (kind : Kind) {scalar : Field kind → Type}
    {members : Collection kind → Type} {links : Link kind → Type}
    [(field : Field kind) → Portable (scalar field)]
    [(collection : Collection kind) → Portable (members collection)]
    [(link : Link kind) → Portable (links link)] {scalars : (field : Field kind) → scalar field}
    {lists : (collection : Collection kind) → members collection}
    {ends : (link : Link kind) → links link}
    (fields : ∀ field, (toDatum (scalars field)).Packable)
    (collections : ∀ collection, (toDatum (lists collection)).Packable)
    (linked : ∀ link, (toDatum (ends link)).Packable) :
    (Datum.record (kind.toData scalars lists ends)).Packable := by
  refine ⟨?_, Datum.packableMembers_iff.mpr fun member listed => ?_⟩
  · unfold toData
    rw [List.length_append, List.length_append, List.length_map, List.length_map, List.length_map]
    cases kind <;> decide
  · rcases List.mem_append.mp listed with earlier | link
    · rcases List.mem_append.mp earlier with scalar | list
      · obtain ⟨field, -, rfl⟩ := List.mem_map.mp scalar
        have short : ShortText field.key := by cases field <;> decide
        exact ⟨short, fields field⟩
      · obtain ⟨collection, -, rfl⟩ := List.mem_map.mp list
        have short : ShortText collection.key := by cases collection <;> decide
        exact ⟨short, collections collection⟩
    · obtain ⟨held, -, rfl⟩ := List.mem_map.mp link
      have short : ShortText held.key := by cases held <;> decide
      exact ⟨short, linked held⟩

theorem Side.packable {kind : Kind} {side : Side kind} (short : side.Short) :
    (toDatum side).Packable := by
  refine kind.packable_toData (fun field => packable_option fun held given => ?_)
    (fun collection => ListChange.packable (fun _ => Member.packable) (short.members collection))
    fun link => ListChange.packable link.packable (short.links link)
  refine Scalar.packable (short.scalar field _ ?_)
  exact Option.mem_map_of_mem field.sort.value given

namespace Details

variable {details first second : Details}

theorem packable (short : details.Short) : (toDatum details).Packable := by
  obtain ⟨kind, change⟩ := details
  have title : ShortText kind.title := by cases kind <;> decide
  exact ⟨title, (by decide : 4 < lengthLimit), by decide, Side.packable short.new, by decide,
    Side.packable short.old, by decide, trivial, by decide, trivial, trivial⟩

/-- **Details survive storage.** They are read back from the bytes that are kept of them, so that
different details are kept as different bytes. -/
theorem survive :
    (∀ details : Details, details.Short →
      ofMessagePack? (toMessagePack true details) = some details) ∧
    ∀ first second : Details, first.Short → second.Short → first ≠ second →
      toMessagePack true first ≠ toMessagePack true second :=
  ⟨fun _ short => ofMessagePack?_toMessagePack true (packable short),
    fun _ _ firstShort secondShort other same =>
      other (toMessagePack_inj (packable firstShort) (packable secondShort) same)⟩

/-- Details with lengths and numbers that just do not fit a shorter form. -/
def portrait : Details where
  kind := .performer
  change :=
    { new :=
        { scalar := fun
            | .performerName => some "Zoé of the Thirty-Two Byte Names"
            | .height => some (-33)
            | .careerStart => some 65536
            | .careerEnd => some (-9223372036854775808)
            | _ => none
          members := fun
            | .performerAliases => ⟨List.replicate 16 "Zoë", [""]⟩
            | .tattoos => ⟨[⟨"wrist", none⟩, ⟨"arm", some "swan"⟩], []⟩
            | _ => .none
          links := fun link => nomatch link }
      old := .empty .performer
      modifyAliases := true
      mergeAliases := false }

theorem portrait_survives : portrait.Short ∧ (empty .performer).Short ∧ portrait ≠ empty .performer ∧
    ofMessagePack? (toMessagePack true portrait) = some portrait ∧
      toMessagePack true portrait ≠ toMessagePack true (empty .performer) := by
  have short : portrait.Short :=
    ⟨⟨by decide, by decide, nofun⟩, ⟨by decide, by decide, nofun⟩⟩
  have blank : (empty .performer).Short :=
    ⟨⟨by decide, by decide, nofun⟩, ⟨by decide, by decide, nofun⟩⟩
  have other : portrait ≠ empty .performer := by decide
  exact ⟨short, blank, other, survive.1 _ short, survive.2 _ _ short blank other⟩

end Details

end Curation
