/-
**Records as they are read.** The contents of a record give each of its fields what it holds, and
each of its collections and links what they list; the header tells the record's own history.

* `Contents.ext`: contents are equal when every field, collection and link agrees.
-/

import Curation.Catalogue.Field
import Curation.Instant

namespace Curation

/-- What a record of a kind holds. -/
@[ext] structure Contents (kind : Kind) where
  scalar : (field : Field kind) → Option field.Carrier
  members : (collection : Collection kind) → List collection.Carrier
  links : (link : Link kind) → List link.Carrier

/-- Contents with nothing in them. -/
def Contents.blank (kind : Kind) : Contents kind := ⟨fun _ => none, fun _ => [], fun _ => []⟩

instance (kind : Kind) : DecidableEq (Contents kind) := fun first second =>
  have := Enumerated.decideFunctionEq first.scalar second.scalar
  have := Enumerated.decideFunctionEq first.members second.members
  have := Enumerated.decideFunctionEq first.links second.links
  decidable_of_iff (first.scalar = second.scalar ∧ first.members = second.members ∧
      first.links = second.links)
    ⟨fun ⟨scalars, lists, links⟩ => Contents.ext scalars lists links,
      fun same => same ▸ ⟨rfl, rfl, rfl⟩⟩

/-- When a record was made and last changed, and whether it has been removed. -/
structure Header where
  id : EntityId
  created : Instant
  updated : Instant
  deleted : Bool
deriving DecidableEq

/-- A record of a kind. -/
structure Record (kind : Kind) where
  header : Header
  contents : Contents kind
deriving DecidableEq

end Curation
