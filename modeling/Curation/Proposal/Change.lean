/-
**What an edit changes.** The details of an edit hold two sides: the values that it found and the
values that it proposes. Additions to collections and links stand on the proposing side only.

* `Side.scalars`: the values of a side, ordered by their keys;
* `Details.hasChanges`: whether either side holds anything at all.
-/

import Curation.Catalogue.Record

namespace Curation

/-- What is added to a list and what is removed from it. -/
structure ListChange (α : Type) where
  added : List α
  removed : List α
deriving DecidableEq

namespace ListChange

/-- The change that leaves a list alone. -/
def none {α : Type} : ListChange α := ⟨[], []⟩

/-- A change is empty when it adds nothing and removes nothing. -/
def isEmpty {α : Type} (change : ListChange α) : Bool :=
  change.added.isEmpty && change.removed.isEmpty

/-- The same change of the images of the members. -/
def map {α β : Type} (image : α → β) (change : ListChange α) : ListChange β :=
  ⟨change.added.map image, change.removed.map image⟩

end ListChange

/-- One side of an edit's details. -/
@[ext] structure Side (kind : Kind) where
  scalar : (field : Field kind) → Option field.Carrier
  members : (collection : Collection kind) → ListChange collection.Carrier
  links : (link : Link kind) → ListChange link.Carrier

namespace Side

variable {kind : Kind}

/-- A side with nothing on it. -/
def empty (kind : Kind) : Side kind := ⟨fun _ => none, fun _ => .none, fun _ => .none⟩

instance : DecidableEq (Side kind) := fun first second =>
  have := Enumerated.decideFunctionEq first.scalar second.scalar
  have := Enumerated.decideFunctionEq first.members second.members
  have := Enumerated.decideFunctionEq first.links second.links
  decidable_of_iff (first.scalar = second.scalar ∧ first.members = second.members ∧
      first.links = second.links)
    ⟨fun ⟨scalars, lists, links⟩ => Side.ext scalars lists links,
      fun same => same ▸ ⟨rfl, rfl, rfl⟩⟩

/-- The value that a side has for a field. -/
def value? (side : Side kind) (field : Field kind) : Option Value :=
  (side.scalar field).map field.sort.value

/-- The values on a side, ordered by their keys. -/
def scalars (side : Side kind) : List (String × Value) :=
  (Field.byKey kind).filterMap fun field => (side.value? field).map fun value => (field.key, value)

/-- The changes of collections on a side that are not empty. -/
def lists (side : Side kind) : List (String × ListChange Value) :=
  (Collection.ofKind kind).filterMap fun collection =>
    let change := side.members collection
    if change.isEmpty then none else some (collection.key, change.map collection.sort.value)

/-- A side has changes when it has a value or a change of a collection or link. -/
def hasChanges (side : Side kind) : Bool :=
  !side.scalars.isEmpty || !side.lists.isEmpty ||
    (Link.ofKind kind).any fun link => !(side.links link).isEmpty

theorem mem_scalars {side : Side kind} {entry : String × Value} :
    entry ∈ side.scalars ↔ ∃ field, side.value? field = some entry.2 ∧ field.key = entry.1 := by
  unfold scalars
  rw [List.mem_filterMap]
  constructor
  · rintro ⟨field, -, proposed⟩
    obtain ⟨value, valued, rfl⟩ := Option.map_eq_some_iff.mp proposed
    exact ⟨field, valued, rfl⟩
  · rintro ⟨field, valued, named⟩
    exact ⟨field, Field.mem_byKey field, by rw [valued, Option.map_some, named]⟩

theorem mem_lists {side : Side kind} {entry : String × ListChange Value} :
    entry ∈ side.lists ↔ ∃ collection, (side.members collection).isEmpty = false ∧
      entry = (collection.key, (side.members collection).map collection.sort.value) := by
  unfold lists
  rw [List.mem_filterMap]
  constructor
  · rintro ⟨collection, -, listed⟩
    dsimp only at listed
    split at listed
    · cases listed
    next changes =>
      cases listed
      exact ⟨collection, Bool.eq_false_iff.mpr changes, rfl⟩
  · rintro ⟨collection, changes, rfl⟩
    refine ⟨collection, Enumerated.mem_all collection, ?_⟩
    dsimp only
    rw [if_neg (Bool.eq_false_iff.mp changes)]

end Side

/-- The two sides of an edit of a record of a kind. -/
structure Change (kind : Kind) where
  new : Side kind
  old : Side kind
  modifyAliases : Bool
  mergeAliases : Bool
deriving DecidableEq

/-- The change that proposes nothing. -/
def Change.empty (kind : Kind) : Change kind := ⟨.empty kind, .empty kind, false, false⟩

/-- The details of an edit: a kind of record and a change of one. -/
structure Details where
  kind : Kind
  change : Change kind
deriving DecidableEq

namespace Details

/-- Details that propose nothing. -/
def empty (kind : Kind) : Details := ⟨kind, .empty kind⟩

instance : Inhabited Details := ⟨empty default⟩

/-- Details have changes when one of their sides has. -/
def hasChanges (details : Details) : Bool :=
  details.change.new.hasChanges || details.change.old.hasChanges

end Details

end Curation
