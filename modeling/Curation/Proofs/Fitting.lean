/-
**What fits a shape.** A shape reads the documents of some data as those data. What these are is seen
from the shape: the members of a record are those that the shape has, in its order, and each of them fits
in turn; an alternative is one that is listed, and so on.

* `Shape.Admits`: the data that fit, one case for each form of a shape;
* `Datum.Fits.admits`: there are no others.
-/

import Curation.Proofs.Portability

namespace Curation

/-! ### Lists and records -/

theorem forall_of_mapM_map {β γ : Type} {read : γ → Option β} {write : β → γ} {values : List β}
    (all : (values.map write).mapM read = some values) :
    ∀ value ∈ values, read (write value) = some value := by
  induction values with
  | nil => exact List.forall_mem_nil _
  | cons first rest hypothesis =>
    rw [List.map_cons, List.mapM_cons] at all
    obtain ⟨head, here, all⟩ := Option.bind_eq_some_iff.mp all
    obtain ⟨tail, later, same⟩ := Option.bind_eq_some_iff.mp all
    cases same
    exact List.forall_mem_cons.mpr ⟨here, hypothesis later⟩

namespace Fields

/-- A record is read with its first member and those after it. -/
theorem ofMembers?_cons {name : String} {shape : Shape} {absent : Option Datum} {rest : Fields}
    {given : List (Option String × Json)} {members : List (String × Datum)}
    (read : (Fields.cons name shape absent rest).ofMembers? given = some members) :
    ∃ value others, (match given.find? fun member => member.1 = some name with
      | some (_, json) => shape.ofJson? json
      | none => absent) = some value ∧ rest.ofMembers? given = some others ∧
        members = (name, value) :: others := by
  rw [ofMembers?] at read
  cases found : given.find? fun member => member.1 = some name
  all_goals
    rw [found] at read
    obtain ⟨value, here, read⟩ := Option.bind_eq_some_iff.mp read
    obtain ⟨others, later, same⟩ := Option.bind_eq_some_iff.mp read
    cases same
    exact ⟨value, others, here, later, rfl⟩

theorem names_of_ofMembers? : (fields : Fields) → {given : List (Option String × Json)} →
    {members : List (String × Datum)} → fields.ofMembers? given = some members →
      members.map Prod.fst = fields.names
  | .nil, _, _, read => by
    cases read
    rfl
  | .cons _ _ _ rest, _, _, read => by
    obtain ⟨value, others, -, later, rfl⟩ := ofMembers?_cons read
    rw [List.map_cons, names_of_ofMembers? rest later]
    rfl

/-- What is read from the members of a document holds the members. -/
theorem hold_of_ofMembers? {given : List (String × Datum)} (distinct : (given.map Prod.fst).Nodup) :
    (fields : Fields) → {members : List (String × Datum)} →
      fields.ofMembers? (Datum.membersToJson given) = some members → members ⊆ given →
        fields.Hold members
  | .nil, _, read, _ => by
    cases read
    exact .nil
  | .cons name shape absent rest, _, read, part => by
    obtain ⟨value, others, here, later, rfl⟩ := ofMembers?_cons read
    have listed : (some name, value.toJson) ∈ Datum.membersToJson given := by
      rw [Datum.membersToJson_eq]
      exact List.mem_map.mpr ⟨_, part List.mem_cons_self, rfl⟩
    rw [find?_member (nodup_membersToJson distinct) listed] at here
    exact .cons here
      (hold_of_ofMembers? distinct rest later fun _ member => part (List.mem_cons_of_mem _ member))

/-- No name comes twice among members that may be those of a record. -/
theorem nodup_of_allow {fields : Fields} {members : List (String × Datum)}
    (allowed : fields.allow (Datum.membersToJson members) = true)
    (names : members.map Prod.fst = fields.names) : (members.map Prod.fst).Nodup := by
  refine List.nodup_iff_count_le_one.mpr fun name => ?_
  by_cases listed : name ∈ members.map Prod.fst
  · have once := List.all_eq_true.mp (Bool.and_eq_true_iff.mp allowed).2 name (names ▸ listed)
    have most := of_decide_eq_true once
    rw [Datum.membersToJson_eq, List.countP_map] at most
    rw [List.count, List.countP_map]
    refine Nat.le_trans (Nat.le_of_eq (List.countP_congr fun member _ => ?_)) most
    simp
  · rw [List.count_eq_zero_of_not_mem listed]
    exact Nat.zero_le 1

end Fields

/-- What a shape reads from the document of a datum, when it is that datum. -/
inductive Shape.Admits : Shape → Datum → Prop where
  | bool (value : Bool) : Admits .bool (.bool value)
  | integer {least most value : Int} (within : least ≤ value ∧ value ≤ most) :
      Admits (.integer least most) (.integer value)
  | text (content : String) : Admits .text (.text content)
  | id (uuid : Uuid) : Admits .id (.id uuid)
  | instant (moment : Instant) : Admits .instant (.instant moment)
  | absent (inner : Shape) : Admits (.optional inner) .null
  | present {inner : Shape} {datum : Datum} (given : datum ≠ .null) (fits : datum.Fits inner) :
      Admits (.optional inner) datum
  | list {element : Shape} {elements : List Datum}
      (fits : ∀ datum ∈ elements, datum.Fits element) : Admits (.list element) (.list elements)
  | record {mayBeShort : Bool} {fields : Fields} {members : List (String × Datum)}
      (hold : fields.Hold members) (distinct : (members.map Prod.fst).Nodup) :
      Admits (.record mayBeShort fields) (.record members)
  | word {cases : Cases} {name : String} (named : cases.ofName? name = some (.word name)) :
      Admits (.choice cases) (.word name)
  | variant {cases : Cases} {name : String} {payload : Datum}
      (named : cases.ofMember? name payload.toJson = some (.variant name payload)) :
      Admits (.choice cases) (.variant name payload)

namespace Cases

/-- Alternatives with nothing attached are words, -/
theorem word_of_ofName? : (cases : Cases) → {name : String} → {datum : Datum} →
    cases.ofName? name = some datum → datum = .word name
  | .nil, _, _, found => by cases found
  | .word first rest, name, datum, found => by
    unfold ofName? at found
    split at found
    next same =>
      cases found
      rw [same]
    next => exact word_of_ofName? rest found
  | .variant first _ rest, name, datum, found => by
    unfold ofName? at found
    split at found
    · cases found
    · exact word_of_ofName? rest found

/-- and what stands under the name of an alternative is a word or attached to it. -/
theorem choice_of_ofMember? : (cases : Cases) → {name : String} → {json : Json} → {datum : Datum} →
    cases.ofMember? name json = some datum → datum = .word name ∨ ∃ payload, datum = .variant name payload
  | .nil, _, _, _, found => by cases found
  | .word first rest, name, json, datum, found => by
    unfold ofMember? at found
    split at found
    next same =>
      split at found
      · cases found
        exact .inl (by rw [same])
      · cases found
    next => exact choice_of_ofMember? rest found
  | .variant first shape rest, name, json, datum, found => by
    unfold ofMember? at found
    split at found
    next same =>
      obtain ⟨payload, -, rfl⟩ := Option.map_eq_some_iff.mp found
      exact .inr ⟨payload, by rw [same]⟩
    next => exact choice_of_ofMember? rest found

end Cases

namespace Datum

theorem toJson_eq_null {datum : Datum} : datum.toJson = .null ↔ datum = .null := by
  cases datum <;> simp [toJson, Json.text]

/-- **What fits a shape is of one of these forms.** -/
theorem Fits.admits {shape : Shape} {datum : Datum} (fits : datum.Fits shape) :
    shape.Admits datum := by
  unfold Fits at fits
  cases shape with
  | bool =>
    cases datum
    case bool value => exact .bool value
    all_goals cases fits
  | integer least most =>
    cases datum
    case integer value =>
      unfold toJson Shape.ofJson? at fits
      split at fits
      next within => exact .integer within
      next => cases fits
    all_goals cases fits
  | text =>
    cases datum
    case text content => exact .text content
    all_goals cases fits
  | id =>
    cases datum
    case id uuid => exact .id uuid
    case text | instant | word =>
      obtain ⟨_, -, same⟩ := Option.map_eq_some_iff.mp fits
      cases same
    all_goals cases fits
  | instant =>
    cases datum
    case instant moment => exact .instant moment
    case text | id | word =>
      obtain ⟨_, -, same⟩ := Option.map_eq_some_iff.mp fits
      cases same
    all_goals cases fits
  | optional inner =>
    by_cases null : datum = .null
    · rw [null]
      exact .absent inner
    · rw [Shape.ofJson?] at fits
      · exact .present null fits
      · exact fun same => null (toJson_eq_null.mp same)
  | list element =>
    cases datum
    case list elements =>
      obtain ⟨read, all, same⟩ := Option.map_eq_some_iff.mp fits
      cases same
      rw [elementsToJson_eq] at all
      exact .list (forall_of_mapM_map all)
    all_goals cases fits
  | record mayBeShort fields =>
    cases datum
    case record members =>
      unfold toJson Shape.ofJson? at fits
      split at fits
      next allowed =>
        obtain ⟨read, all, same⟩ := Option.map_eq_some_iff.mp fits
        cases same
        have distinct := Fields.nodup_of_allow allowed (Fields.names_of_ofMembers? fields all)
        exact .record (Fields.hold_of_ofMembers? distinct fields all fun _ member => member) distinct
      next => cases fits
    case list =>
      obtain ⟨_, -, same⟩ := Option.map_eq_some_iff.mp fits
      cases same
    case variant =>
      unfold toJson Shape.ofJson? at fits
      split at fits
      · obtain ⟨_, -, same⟩ := Option.map_eq_some_iff.mp fits
        cases same
      · cases fits
    all_goals cases fits
  | choice cases =>
    cases datum
    case word name => exact .word fits
    case variant name payload => exact .variant fits
    case text | id | instant => cases Cases.word_of_ofName? cases fits
    case record members =>
      -- only an object with one member is read, and what is read is no record
      cases members with
      | nil => cases fits
      | cons member rest =>
        cases rest with
        | nil => rcases Cases.choice_of_ofMember? cases fits with same | ⟨payload, same⟩ <;> cases same
        | cons => cases fits
    all_goals cases fits

end Datum

end Curation
