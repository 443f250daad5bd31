/-
**The catalogue in the store.** Records, what their fields hold, the members of their collections,
their links and their redirects.

* a field holds one value, a collection lists each value once, and two records are linked at most
  once by an association;
* all of these belong to records that exist;
* `Store.repointEdges` moves the links of one record to another.
-/

import Curation.Ordering
import Curation.Store

namespace Curation.Store

/-! ### Records -/

/-- The record with an identifier. -/
def entity? (store : Store) (id : EntityId) : Option EntityRow :=
  (store.entities.find? fun row => row.id = id).map EntityRow.toMillisecond

/-- A record with an identifier exists. -/
def hasEntity (store : Store) (id : EntityId) : Bool := store.entities.any fun row => row.id = id

/-- Adds a record that holds nothing yet. -/
def insertEntity (store : Store) (id : EntityId) (kind : Kind) (now : Instant) :
    Except StoreError Store :=
  if store.hasEntity id then .error (.entityExists id)
  else .ok { store with entities := store.entities ++ [⟨id, kind, now, now, false⟩] }

/-- Notes that a record was changed. -/
def touchEntity (store : Store) (id : EntityId) (now : Instant) : Store :=
  { store with
    entities := store.entities.map fun row => if row.id = id then { row with updated := now } else row }

/-- Marks a record as removed and drops every link that touches it. -/
def tombstoneEntity (store : Store) (id : EntityId) (now : Instant) : Except StoreError Store :=
  if store.hasEntity id then
    .ok { store with
      entities := store.entities.map fun row =>
        if row.id = id then { row with updated := now, deleted := true } else row
      edges := store.edges.filter fun edge => edge.source ≠ id ∧ edge.target ≠ id }
  else .error (.noEntity id)

/-! ### Fields -/

/-- The fields of a record, with what they hold. -/
def fieldsOf (store : Store) (entity : EntityId) : List (String × Value) :=
  (store.fields.filter fun row => row.entity = entity).map fun row => (row.key, row.value)

/-- What a field of a record holds. -/
def field? (store : Store) (entity : EntityId) (key : String) : Option Value :=
  (store.fields.find? fun row => row.entity = entity ∧ row.key = key).map FieldRow.value

/-- Gives a field of a record a value. -/
def setField (store : Store) (entity : EntityId) (key : String) (value : Value) :
    Except StoreError Store :=
  if store.hasEntity entity then
    if (store.field? entity key).isSome then
      .ok { store with
        fields := store.fields.map fun row =>
          if row.entity = entity ∧ row.key = key then { row with value := value } else row }
    else .ok { store with fields := store.fields ++ [⟨entity, key, value⟩] }
  else .error .danglingReference

/-- Takes the value from a field of a record. -/
def clearField (store : Store) (entity : EntityId) (key : String) : Store :=
  { store with fields := store.fields.filter fun row => ¬ (row.entity = entity ∧ row.key = key) }

/-- The records whose field with a given key refers to a given record, ordered by identifier. -/
def referrers (store : Store) (key : String) (target : EntityId) : List EntityId :=
  sortBy (fun first second => first.uuid ≤ second.uuid)
    ((store.fields.filter fun row => row.key = key ∧ row.value = .reference target).map
      FieldRow.entity)

/-! ### Collections -/

/-- The members of a collection of a record. -/
def collection (store : Store) (entity : EntityId) (list : String) : List Value :=
  (store.members.filter fun row => row.entity = entity ∧ row.list = list).map MemberRow.value

/-- Adds a member to a collection of a record, and tells whether it was not there before. -/
def addMember (store : Store) (entity : EntityId) (list : String) (value : Value) :
    Except StoreError (Bool × Store) :=
  if ⟨entity, list, value⟩ ∈ store.members then .ok (false, store)
  else if store.hasEntity entity then
    .ok (true, { store with members := store.members ++ [⟨entity, list, value⟩] })
  else .error .danglingReference

/-- Removes a member from a collection of a record, and tells whether it was there. -/
def removeMember (store : Store) (entity : EntityId) (list : String) (value : Value) :
    Bool × Store :=
  (decide (⟨entity, list, value⟩ ∈ store.members),
    { store with members := store.members.filter fun row => row ≠ ⟨entity, list, value⟩ })

/-! ### Links -/

/-- An edge is the one by which an association links two records. -/
def joins (association : Association) (source target : EntityId) (edge : Edge) : Bool :=
  edge.association = association && edge.source = source && edge.target = target

/-- Links two records, and tells whether they were not linked before. -/
def insertEdge (store : Store) (association : Association) (source target : EntityId)
    (credit : Option String) : Except StoreError (Bool × Store) :=
  if store.edges.any (joins association source target) then .ok (false, store)
  else if store.hasEntity source && store.hasEntity target then
    .ok (true, { store with edges := store.edges ++ [⟨association, source, target, credit⟩] })
  else .error .danglingReference

/-- Removes a link, and tells whether it was there. -/
def deleteEdge (store : Store) (association : Association) (source target : EntityId) :
    Bool × Store :=
  (store.edges.any (joins association source target),
    { store with edges := store.edges.filter fun edge => !joins association source target edge })

/-- Changes the credit of a link. -/
def setCredit (store : Store) (association : Association) (source target : EntityId)
    (credit : Option String) : Store :=
  { store with
    edges := store.edges.map fun edge =>
      if joins association source target edge then { edge with credit := credit } else edge }

/-- The links of a record by an association. -/
def edgesFrom (store : Store) (source : EntityId) (association : Association) : List Edge :=
  store.edges.filter fun edge => edge.source = source ∧ edge.association = association

/-- The links to a record by an association. -/
def edgesTo (store : Store) (target : EntityId) (association : Association) : List Edge :=
  store.edges.filter fun edge => edge.target = target ∧ edge.association = association

/-- Moves the links to one record onto another, and tells how many moved. Where both are linked to
the same record the link to the first is dropped. -/
def repointEdges (store : Store) (association : Association) (origin destination : EntityId) :
    Except StoreError (Nat × Store) :=
  let kept := store.edges.filter fun edge =>
    ¬ (edge.association = association ∧ edge.target = origin ∧
      store.edges.any (joins association edge.source destination))
  let moves (edge : Edge) : Bool := edge.association = association && edge.target = origin
  let moved := kept.countP moves
  if moved = 0 then .ok (0, { store with edges := kept })
  else if store.hasEntity destination then
    .ok (moved, { store with
      edges := kept.map fun edge => if moves edge then { edge with target := destination } else edge })
  else .error .danglingReference

/-! ### Redirects -/

/-- Redirects one record to another, in place of any earlier redirect of it. -/
def insertRedirect (store : Store) (source target : EntityId) (now : Instant) :
    Except StoreError Store :=
  if store.hasEntity source && store.hasEntity target then
    if store.redirects.any fun row => row.source = source then
      .ok { store with
        redirects := store.redirects.map fun row =>
          if row.source = source then ⟨source, target, now⟩ else row }
    else .ok { store with redirects := store.redirects ++ [⟨source, target, now⟩] }
  else .error .danglingReference

/-- The record to which a record is redirected. -/
def redirect? (store : Store) (source : EntityId) : Option EntityId :=
  (store.redirects.find? fun row => row.source = source).map Redirect.target

/-- The records that are redirected to a record, the earliest redirect first. -/
def redirectsTo (store : Store) (target : EntityId) : List EntityId :=
  (sortBy (fun first second => noLater first.created second.created)
    (store.redirects.filter fun row => row.target = target)).map Redirect.source

end Curation.Store
