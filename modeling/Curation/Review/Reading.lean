/-
**Reading records.** What a record holds is put together from its fields, the members of its
collections and its links; a value of another sort than its field's is passed over. Redirects are
followed from a merged record to the one that remains, and back.

* `Store.record?`: the record of a kind with an identifier, also if it was removed;
* `Store.mergedInto`: the end of the redirects from a record;
* `Store.mergedIds`: the records whose redirects lead to a record.
-/

import Curation.Catalogue.Record
import Curation.Review.Error
import Curation.Store.Catalogue

namespace Curation.Store

/-! ### Records -/

/-- What the record with an identifier holds, read as a record of a kind. -/
def contents (store : Store) (kind : Kind) (id : EntityId) : Contents kind where
  scalar field := (store.field? id field.key).bind field.sort.ofValue?
  members collection := (store.collection id collection.key).filterMap collection.sort.ofValue?
  links link :=
    (store.edgesFrom id link.association).map fun edge => link.ofEdge edge.target edge.credit

/-- The record of a kind with an identifier. -/
def record? (store : Store) (kind : Kind) (id : EntityId) : Option (Record kind) :=
  ((store.entity? id).filter fun row => row.kind = kind).map fun row =>
    ⟨⟨row.id, row.created, row.updated, row.deleted⟩, store.contents kind id⟩

/-! ### Redirects -/

/-- Follows redirects from a record until there is none; `seen` are the records passed so far. -/
def follow (store : Store) : Nat → List EntityId → EntityId → Except ReviewError EntityId
  | 0, _, current => .ok current
  | steps + 1, seen, current =>
    match store.redirect? current with
    | none => .ok current
    | some next =>
      if next ∈ seen then .error (.conflict (.redirectCycle next))
      else store.follow steps (next :: seen) next

/-- The record into which a record was merged in the end, if it was merged at all. -/
def mergedInto (store : Store) (id : EntityId) : Except ReviewError (Option EntityId) := do
  let last ← store.follow (store.redirects.length + 1) [id] id
  return if last = id then none else some last

/-- Goes through the records redirected to those in the queue, and then those redirected to them;
`seen` are the records passed so far. -/
def gather (store : Store) : Nat → List EntityId → List EntityId → List EntityId
  | 0, _, _ => []
  | _ + 1, _, [] => []
  | steps + 1, seen, current :: queue =>
    let found := (store.redirectsTo current).filter fun source => source ∉ seen
    found ++ store.gather steps (found ++ seen) (queue ++ found)

/-- The records merged into a record, directly or through others. -/
def mergedIds (store : Store) (id : EntityId) : List EntityId :=
  store.gather (store.redirects.length + 1) [id] [id]

end Curation.Store
