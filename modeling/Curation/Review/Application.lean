/-
**Applying an edit.** An accepted edit is carried out on the record that it targets. An edit is only
applied to what it was made for: every field that it touches must still hold the value that it found.

* `Edit.apply`: the target and the store after an edit has been applied, or why it cannot be.
-/

import Curation.Review.Submission

namespace Curation

/-- A refusal of the store is a refusal of the review. -/
def Store.lift {α : Type} : Except StoreError α → Except ReviewError α := Except.mapError .store

namespace Store

/-- The record with an identifier is there; one that has been removed since is a mismatch. -/
def requireStillLive (store : Store) (id : EntityId) (expected : Kind) :
    Except ReviewError Unit :=
  match store.entity? id with
  | some row =>
    if row.deleted then .error (.mismatch .removed) else store.requireLive id expected
  | none => store.requireLive id expected

/-! ### Writing what a side proposes -/

/-- Gives fields of a record their values. -/
def writeScalars (store : Store) (id : EntityId) (scalars : List (String × Value)) :
    Except ReviewError Store :=
  scalars.foldlM (fun store (key, value) => lift (store.setField id key value)) store

/-- Takes away from a collection of a record what is removed and adds what is added. -/
def writeList (store : Store) (id : EntityId) (key : String) (change : ListChange Value) :
    Except ReviewError Store :=
  let store := change.removed.foldl (fun store value => (store.removeMember id key value).2) store
  change.added.foldlM
    (fun store value => (lift (store.addMember id key value)).map Prod.snd) store

/-- Changes the collections of a record. -/
def writeLists (store : Store) (id : EntityId) (lists : List (String × ListChange Value)) :
    Except ReviewError Store :=
  lists.foldlM (fun store (key, change) => store.writeList id key change) store

/-- Links a scene to a tag. -/
def linkTag (store : Store) (scene tag : EntityId) : Except ReviewError Store :=
  (lift (store.insertEdge .sceneTag scene tag none)).map Prod.snd

/-- Links a scene to a performer, or changes the credit of the link. -/
def linkPerformer (store : Store) (scene : EntityId) (appearance : Appearance) :
    Except ReviewError Store := do
  let (isNew, store) ← lift
    (store.insertEdge .scenePerformer scene appearance.performer appearance.creditedAs)
  if isNew then return store
  else
    return store.setCredit .scenePerformer scene appearance.performer appearance.creditedAs

/-- Changes the links of a scene. -/
def writeLinks (store : Store) (scene : EntityId) (tags : ListChange EntityId)
    (performers : ListChange Appearance) : Except ReviewError Store := do
  let store := tags.removed.foldl
    (fun store tag => (store.deleteEdge .sceneTag scene tag).2) store
  let store ← tags.added.foldlM (fun store tag => store.linkTag scene tag) store
  let store := performers.removed.foldl
    (fun store appearance => (store.deleteEdge .scenePerformer scene appearance.performer).2) store
  performers.added.foldlM (fun store appearance => store.linkPerformer scene appearance) store

/-- Changes the links that details of scenes propose; other records have none of their own. -/
def writeDetailLinks (store : Store) (id : EntityId) : Details → Except ReviewError Store
  | ⟨.scene, change⟩ =>
    store.writeLinks id (change.new.links .sceneTags) (change.new.links .scenePerformers)
  | _ => .ok store

/-! ### Creation -/

/-- Makes a new record with what a change proposes. -/
def create (store : Store) (id : EntityId) (kind : Kind) (details : Details) (now : Instant) :
    Except ReviewError Store := do
  details.change.checkReferences store none
  let store ← lift (store.insertEntity id kind now)
  let store ← store.writeScalars id details.change.new.scalars
  let store ← store.writeLists id details.change.new.lists
  store.writeDetailLinks id details

/-! ### Modification -/

/-- Every field that a change touches holds the value that it found; fields are checked in the order
of their keys. -/
def checkFound {kind : Kind} (store : Store) (id : EntityId) (change : Change kind) :
    Except ReviewError Unit :=
  (Field.byKey kind).forM fun field =>
    let expected := change.old.value? field
    let actual := store.field? id field.key
    if expected.isNone && (change.new.value? field).isNone then .ok ()
    else if actual = expected then .ok ()
    else .error (.mismatch (.field field.key expected actual))

/-- Clears the fields of a record for which a change found a value and proposes none. -/
def clearDropped {kind : Kind} (store : Store) (id : EntityId) (change : Change kind) : Store :=
  (Field.byKey kind).foldl
    (fun store field =>
      if (change.old.value? field).isSome && (change.new.value? field).isNone then
        store.clearField id field.key
      else store)
    store

/-- Keeps an old name as the credit of one link if that showed it; a credit that is the new name is
dropped. -/
def creditOldNameOn (performer : EntityId) (oldName newName : String) (store : Store)
    (edge : Edge) : Store :=
  match edge.credit with
  | none => store.setCredit .scenePerformer edge.source performer (some oldName)
  | some credit =>
    if credit = newName then store.setCredit .scenePerformer edge.source performer none else store

/-- Keeps a performer's old name as the credit of the scenes that showed it. -/
def creditOldName (store : Store) (performer : EntityId) (change : Change .performer) : Store :=
  match (change.old.scalar .performerName : Option String),
      (change.new.scalar .performerName : Option String) with
  | some oldName, some newName =>
    if oldName = newName then store
    else
      (store.edgesTo performer .scenePerformer).foldl (creditOldNameOn performer oldName newName)
        store
  | _, _ => store

/-- Keeps a performer's old name on scenes if the details ask for it. -/
def keepCredits (store : Store) (id : EntityId) : Details → Store
  | ⟨.performer, change⟩ => if change.modifyAliases then store.creditOldName id change else store
  | _ => store

/-- Changes a record. -/
def modify (store : Store) (id : EntityId) (kind : Kind) (details : Details) (now : Instant) :
    Except ReviewError Store := do
  store.requireStillLive id kind
  store.checkFound id details.change
  details.change.checkReferences store (some id)
  let store ← store.writeScalars id details.change.new.scalars
  let store := store.clearDropped id details.change
  let store ← store.writeLists id details.change.new.lists
  let store ← store.writeDetailLinks id details
  return (store.keepCredits id details).touchEntity id now

/-! ### Removal -/

/-- The keys of the fields that refer to studios. -/
def studioKeys : List String := [Field.sceneStudio.key, Field.studioParent.key]

/-- Clears a field of a record that refers to a studio. -/
def detachReferrer (key : String) (now : Instant) (store : Store) (referrer : EntityId) : Store :=
  (store.clearField referrer key).touchEntity referrer now

/-- Clears every field that refers to a studio. -/
def detachStudio (store : Store) (studio : EntityId) (now : Instant) : Store :=
  studioKeys.foldl
    (fun store key => (store.referrers key studio).foldl (detachReferrer key now) store) store

/-- Removes a record. -/
def destroy (store : Store) (id : EntityId) (kind : Kind) (now : Instant) :
    Except ReviewError Store := do
  store.requireStillLive id kind
  let store := if kind = .studio then store.detachStudio id now else store
  lift (store.tombstoneEntity id now)

/-! ### Merging -/

/-- Keeps the name of a merged performer as the credit of one of its links, unless the performer it is
merged into has that name; a credit that is the latter's name is dropped. -/
def creditSourceNameOn (source : EntityId) (sourceName targetName : Option String) (store : Store)
    (edge : Edge) : Store :=
  let put (credit : Option String) : Store :=
    store.setCredit .scenePerformer edge.source source
      (credit.filter fun name => some name ≠ targetName)
  match edge.credit with
  | none => put sourceName
  | some credit => if some credit = targetName then put none else store

/-- The name of a performer. -/
def performerName? (store : Store) (performer : EntityId) : Option String :=
  (store.field? performer Field.performerName.key).bind Value.text?

/-- Keeps the name of a merged performer as the credit of its scenes. -/
def creditSourceName (store : Store) (source target : EntityId) : Store :=
  (store.edgesTo source .scenePerformer).foldl
    (creditSourceNameOn source (store.performerName? source) (store.performerName? target)) store

/-- Makes a field of a record refer to a studio; that studio itself is cleared of the reference. -/
def redirectReferrer (target : EntityId) (key : String) (now : Instant) (store : Store)
    (referrer : EntityId) : Except ReviewError Store :=
  if referrer = target then .ok ((store.clearField referrer key).touchEntity referrer now)
  else do
    let store ← lift (store.setField referrer key (.reference target))
    return store.touchEntity referrer now

/-- Makes every field that refers to one studio refer to another. -/
def redirectStudio (store : Store) (source target : EntityId) (now : Instant) :
    Except ReviewError Store :=
  studioKeys.foldlM
    (fun store key => (store.referrers key source).foldlM (redirectReferrer target key now) store)
    store

/-- The details ask for the names of merged performers to be kept. -/
def keepsNames : Details → Bool
  | ⟨.performer, change⟩ => change.mergeAliases
  | _ => false

/-- Makes what is linked to one record, or refers to it, do so to another of its kind. -/
def moveReferences (store : Store) (source target : EntityId) (kind : Kind) (details : Details)
    (now : Instant) : Except ReviewError Store :=
  match kind with
  | .tag => (lift (store.repointEdges .sceneTag source target)).map Prod.snd
  | .performer =>
    let store := if keepsNames details then store.creditSourceName source target else store
    (lift (store.repointEdges .scenePerformer source target)).map Prod.snd
  | .studio => store.redirectStudio source target now
  | .scene => .ok store

/-- Merges one record into another of its kind. -/
def mergeSource (store : Store) (source target : EntityId) (kind : Kind) (details : Details)
    (now : Instant) : Except ReviewError Store := do
  store.requireStillLive source kind
  let store ← store.moveReferences source target kind details now
  let store ← lift (store.tombstoneEntity source now)
  lift (store.insertRedirect source target now)

/-- Changes a record and merges others into it, one after the other. -/
def merge (store : Store) (target : EntityId) (sources : List EntityId) (kind : Kind)
    (details : Details) (now : Instant) : Except ReviewError Store := do
  let store ← store.modify target kind details now
  sources.foldlM (fun store source => store.mergeSource source target kind details now) store

end Store

/-! ### Edits -/

/-- The target of an edit that must have one. -/
def Edit.requireTarget (edit : Edit) : Except ReviewError EntityId :=
  match edit.target with
  | some target => .ok target
  | none => .error (.flawed (.lostTarget edit.operation))

/-- Carries out an edit: the record that is then its target, and the store. A new record gets the
identifier `fresh`. -/
def Edit.apply (edit : Edit) (fresh : EntityId) (now : Instant) (store : Store) :
    Except ReviewError (EntityId × Store) :=
  match edit.operation with
  | .create => do
    let store ← store.create fresh edit.kind edit.details now
    return (fresh, store)
  | .modify => do
    let target ← edit.requireTarget
    let store ← store.modify target edit.kind edit.details now
    return (target, store)
  | .destroy => do
    let target ← edit.requireTarget
    let store ← store.destroy target edit.kind now
    return (target, store)
  | .merge => do
    let target ← edit.requireTarget
    let store ← store.merge target edit.sources edit.kind edit.details now
    return (target, store)

end Curation
