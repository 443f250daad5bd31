/-
**Applying an edit statement by statement.** The statements are those of the transaction under way. An
application that is refused leaves in it what it has written by then; it is for the caller to undo that.

* `Procedure.createRecord`, `Procedure.modifyRecord`, `Procedure.destroyRecord`,
  `Procedure.mergeRecords`: the operations;
* `Procedure.applyEdit`: an edit by its operation, with the record that is then its target.
-/

import Curation.Procedure
import Curation.Review.Application

namespace Curation.Procedure

variable {kind : Kind}

/-! ### Writing what a side proposes -/

/-- Gives fields of a record their values. -/
def writeScalars (id : EntityId) (scalars : List (String × Value)) : Procedure Unit :=
  scalars.forM fun (key, value) => write (.setField id key value)

/-- Takes away from a collection of a record what is removed and adds what is added. -/
def writeList (id : EntityId) (key : String) (change : ListChange Value) : Procedure Unit := do
  change.removed.forM fun value => write (.removeMember id key value)
  change.added.forM fun value => write (.addMember id key value)

/-- Changes the collections of a record. -/
def writeLists (id : EntityId) (lists : List (String × ListChange Value)) : Procedure Unit :=
  lists.forM fun (key, change) => writeList id key change

/-- Links a scene to a performer, or changes the credit of the link. -/
def linkPerformer (scene : EntityId) (appearance : Appearance) : Procedure Unit := do
  let isNew ← ask
    (.insertEdge .scenePerformer scene appearance.performer appearance.creditedAs)
  if !isNew then
    write (.setCredit .scenePerformer scene appearance.performer appearance.creditedAs)

/-- Changes the links of a scene. -/
def writeLinks (scene : EntityId) (tags : ListChange EntityId) (performers : ListChange Appearance) :
    Procedure Unit := do
  tags.removed.forM fun tag => write (.deleteEdge .sceneTag scene tag)
  tags.added.forM fun tag => write (.insertEdge .sceneTag scene tag none)
  performers.removed.forM fun appearance =>
    write (.deleteEdge .scenePerformer scene appearance.performer)
  performers.added.forM fun appearance => linkPerformer scene appearance

/-- Changes the links that details of scenes propose; other records have none of their own. -/
def writeDetailLinks (id : EntityId) : Details → Procedure Unit
  | ⟨.scene, change⟩ =>
    writeLinks id (change.new.links .sceneTags) (change.new.links .scenePerformers)
  | _ => pure ()

/-! ### Creation -/

/-- Makes a new record with what a change proposes. -/
def createRecord (id : EntityId) (kind : Kind) (details : Details) (now : Instant) :
    Procedure Unit := do
  check fun store => details.change.checkReferences store none
  write (.insertEntity id kind now)
  writeScalars id details.change.new.scalars
  writeLists id details.change.new.lists
  writeDetailLinks id details

/-! ### Modification -/

/-- Clears the fields of a record for which a change found a value and proposes none. -/
def clearDropped (id : EntityId) (change : Change kind) : Procedure Unit :=
  (Field.byKey kind).forM fun field => do
    if (change.old.value? field).isSome && (change.new.value? field).isNone then
      write (.clearField id field.key)

/-- Keeps an old name as the credit of one link if that showed it; a credit that is the new name is
dropped. -/
def creditOldNameOn (performer : EntityId) (oldName newName : String) (edge : Edge) :
    Procedure Unit :=
  match edge.credit with
  | none => write (.setCredit .scenePerformer edge.source performer (some oldName))
  | some credit =>
    if credit = newName then write (.setCredit .scenePerformer edge.source performer none)
    else pure ()

/-- Keeps a performer's old name as the credit of the scenes that showed it. -/
def creditOldName (performer : EntityId) (change : Change .performer) : Procedure Unit :=
  match (change.old.scalar .performerName : Option String),
      (change.new.scalar .performerName : Option String) with
  | some oldName, some newName =>
    if oldName = newName then pure ()
    else do
      let edges ← look fun store => store.edgesTo performer .scenePerformer
      edges.forM (creditOldNameOn performer oldName newName)
  | _, _ => pure ()

/-- Keeps a performer's old name on scenes if the details ask for it. -/
def keepCredits (id : EntityId) : Details → Procedure Unit
  | ⟨.performer, change⟩ => if change.modifyAliases then creditOldName id change else pure ()
  | _ => pure ()

/-- Changes a record. -/
def modifyRecord (id : EntityId) (kind : Kind) (details : Details) (now : Instant) :
    Procedure Unit := do
  check fun store => store.requireStillLive id kind
  check fun store => store.checkFound id details.change
  check fun store => details.change.checkReferences store (some id)
  writeScalars id details.change.new.scalars
  clearDropped id details.change
  writeLists id details.change.new.lists
  writeDetailLinks id details
  keepCredits id details
  write (.touchEntity id now)

/-! ### Removal -/

/-- Clears a field of a record that refers to a studio. -/
def detachReferrer (key : String) (now : Instant) (referrer : EntityId) : Procedure Unit := do
  write (.clearField referrer key)
  write (.touchEntity referrer now)

/-- Clears every field that refers to a studio. -/
def detachStudio (studio : EntityId) (now : Instant) : Procedure Unit :=
  Store.studioKeys.forM fun key => do
    let referrers ← look fun store => store.referrers key studio
    referrers.forM (detachReferrer key now)

/-- Removes a record. -/
def destroyRecord (id : EntityId) (kind : Kind) (now : Instant) : Procedure Unit := do
  check fun store => store.requireStillLive id kind
  if kind = .studio then detachStudio id now
  write (.tombstoneEntity id now)

/-! ### Merging -/

/-- Keeps the name of a merged performer as the credit of one of its links, unless the performer it is
merged into has that name; a credit that is the latter's name is dropped. -/
def creditSourceNameOn (source : EntityId) (sourceName targetName : Option String) (edge : Edge) :
    Procedure Unit :=
  let put (credit : Option String) : Procedure Unit :=
    write (.setCredit .scenePerformer edge.source source
      (credit.filter fun name => some name ≠ targetName))
  match edge.credit with
  | none => put sourceName
  | some credit => if some credit = targetName then put none else pure ()

/-- Keeps the name of a merged performer as the credit of its scenes. -/
def creditSourceName (source target : EntityId) : Procedure Unit := do
  let sourceName ← look fun store => store.performerName? source
  let targetName ← look fun store => store.performerName? target
  let edges ← look fun store => store.edgesTo source .scenePerformer
  edges.forM (creditSourceNameOn source sourceName targetName)

/-- Makes a field of a record refer to a studio; that studio itself is cleared of the reference. -/
def redirectReferrer (target : EntityId) (key : String) (now : Instant) (referrer : EntityId) :
    Procedure Unit := do
  if referrer = target then write (.clearField referrer key)
  else write (.setField referrer key (.reference target))
  write (.touchEntity referrer now)

/-- Makes every field that refers to one studio refer to another. -/
def redirectStudio (source target : EntityId) (now : Instant) : Procedure Unit :=
  Store.studioKeys.forM fun key => do
    let referrers ← look fun store => store.referrers key source
    referrers.forM (redirectReferrer target key now)

/-- Makes what is linked to one record, or refers to it, do so to another of its kind. -/
def moveReferences (source target : EntityId) (kind : Kind) (details : Details) (now : Instant) :
    Procedure Unit :=
  match kind with
  | .tag => write (.repointEdges .sceneTag source target)
  | .performer => do
    if Store.keepsNames details then creditSourceName source target
    write (.repointEdges .scenePerformer source target)
  | .studio => redirectStudio source target now
  | .scene => pure ()

/-- Merges one record into another of its kind. -/
def mergeSource (source target : EntityId) (kind : Kind) (details : Details) (now : Instant) :
    Procedure Unit := do
  check fun store => store.requireStillLive source kind
  moveReferences source target kind details now
  write (.tombstoneEntity source now)
  write (.insertRedirect source target now)

/-- Changes a record and merges others into it, one after the other. -/
def mergeRecords (target : EntityId) (sources : List EntityId) (kind : Kind) (details : Details)
    (now : Instant) : Procedure Unit := do
  modifyRecord target kind details now
  sources.forM fun source => mergeSource source target kind details now

/-! ### Edits -/

/-- Carries out an edit, and tells the record that is then its target. A new record gets the identifier
`fresh`. -/
def applyEdit (edit : Edit) (fresh : EntityId) (now : Instant) : Procedure EntityId :=
  match edit.operation with
  | .create => do
    createRecord fresh edit.kind edit.details now
    return fresh
  | .modify => do
    let target ← ensure edit.requireTarget
    modifyRecord target edit.kind edit.details now
    return target
  | .destroy => do
    let target ← ensure edit.requireTarget
    destroyRecord target edit.kind now
    return target
  | .merge => do
    let target ← ensure edit.requireTarget
    mergeRecords target edit.sources edit.kind edit.details now
    return target

end Curation.Procedure
