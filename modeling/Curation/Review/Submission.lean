/-
**Submissions.** A submission is checked against the store and turned into the details of an edit.

* `Submission.details`: the details, or what is wrong with the submission;
* `Details.checkReferences`: the records that an edit newly refers to must be there. This is checked
  again when the edit is applied.
-/

import Curation.Catalogue.FuzzyDate
import Curation.Proposal.Input
import Curation.Review.Reading
import Curation.Text.Blank

namespace Curation

/-- What a submitter hands in. -/
structure Submission where
  operation : Operation
  target : Option EntityId
  sources : List EntityId
  proposal : Proposal
  comment : Option String
  bot : Bool

namespace Submission

/-- The submission of a new record. -/
def create (proposal : Proposal) : Submission := ⟨.create, none, [], proposal, none, false⟩

/-- The submission of a change of a record. -/
def modify (target : EntityId) (proposal : Proposal) : Submission :=
  { create proposal with operation := .modify, target := some target }

/-- The submission of the removal of a record. -/
def destroy (kind : Kind) (target : EntityId) : Submission :=
  { create (.empty kind) with operation := .destroy, target := some target }

/-- The submission of a merge of records into another. -/
def merge (target : EntityId) (sources : List EntityId) (proposal : Proposal) : Submission :=
  { create proposal with operation := .merge, target := some target, sources }

end Submission

/-- The record with an identifier exists, is of the given kind and has not been removed. -/
def Store.requireLive (store : Store) (id : EntityId) (expected : Kind) :
    Except ReviewError Unit :=
  match store.entity? id with
  | none => .error (.missing (.entity expected id))
  | some row =>
    if row.kind ≠ expected then .error (.flawed (.otherKind id row.kind expected))
    else if row.deleted then .error (.flawed (.removed expected id))
    else .ok ()

/-! ### Checks of a change -/

/-- The name that a side gives a record. -/
def Side.name? {kind : Kind} (side : Side kind) : Option String :=
  (side.value? (Field.naming kind)).bind Value.text?

/-- The field of a kind that holds a date. -/
def Field.dating? : (kind : Kind) → Option (Field kind)
  | .tag => none
  | .performer => some .birthdate
  | .studio => none
  | .scene => some .sceneDate

namespace Change

variable {kind : Kind}

/-- A new record needs a name. -/
def checkName (change : Change kind) : Except ReviewError Unit :=
  if (change.new.name?.map Text.isVoid).getD true then
    .error (.flawed (.unnamed (Field.naming kind).key))
  else .ok ()

/-- A new date must be one. -/
def checkDate (change : Change kind) : Except ReviewError Unit :=
  match Field.dating? kind with
  | none => .ok ()
  | some field =>
    match (change.new.value? field).bind Value.text? with
    | none => .ok ()
    | some written =>
      if FuzzyDate.isDate written then .ok () else .error (.flawed (.badDate field.key written))

/-- The records that a change newly refers to must be there, and no studio may be its own parent. -/
def checkReferences (store : Store) (target : Option EntityId) :
    {kind : Kind} → Change kind → Except ReviewError Unit
  | .tag, _ => .ok ()
  | .performer, _ => .ok ()
  | .studio, change =>
    match (change.new.scalar .studioParent : Option EntityId) with
    | none => .ok ()
    | some parent =>
      if target = some parent then .error (.flawed .ownParent)
      else store.requireLive parent .studio
  | .scene, change => do
    if let some studio := change.new.scalar .sceneStudio then
      store.requireLive studio .studio
    (change.new.links .sceneTags).added.forM fun tag => store.requireLive tag .tag
    (change.new.links .scenePerformers).added.forM fun appearance =>
      store.requireLive appearance.performer .performer

end Change

/-! ### Checks of a submission -/

namespace Submission

/-- The target must be given exactly when the operation needs one, and it must be there. -/
def checkTarget (submission : Submission) (store : Store) : Except ReviewError Unit :=
  match submission.operation.needsTarget, submission.target with
  | true, some target => store.requireLive target submission.proposal.kind
  | true, none => .error (.flawed (.needsTarget submission.operation))
  | false, some _ => .error (.flawed .needlessTarget)
  | false, none => .ok ()

/-- The sources of a merge must be there, differ from its target and be listed once; `seen` are
those listed so far. -/
def checkSources (store : Store) (kind : Kind) (target : Option EntityId) :
    List EntityId → List EntityId → Except ReviewError Unit
  | _, [] => .ok ()
  | seen, source :: rest => do
    if some source = target then throw (.flawed .intoItself)
    if source ∈ seen then throw (.flawed (.listedTwice source))
    store.requireLive source kind
    checkSources store kind target (source :: seen) rest

/-- A merge has sources, and nothing else has. -/
def checkMerge (submission : Submission) (store : Store) : Except ReviewError Unit :=
  if submission.operation = .merge then
    if submission.sources.isEmpty then .error (.flawed .needsSource)
    else
      checkSources store submission.proposal.kind submission.target [] submission.sources
  else if submission.sources.isEmpty then .ok ()
  else .error (.flawed (.needlessSources submission.operation))

/-- The change that a submission asks for against the record as it stands. -/
def change (submission : Submission) (store : Store) : Change submission.proposal.kind :=
  let record := submission.target.bind (store.record? submission.proposal.kind)
  submission.proposal.input.diff (record.map Record.contents)

/-- The details of the edit that a submission makes. -/
def details (submission : Submission) (store : Store) : Except ReviewError Details := do
  submission.checkTarget store
  submission.checkMerge store
  if submission.operation = .destroy then return .empty submission.proposal.kind
  let change := submission.change store
  if submission.operation = .create then change.checkName
  if submission.operation = .modify && !(Details.mk _ change).hasChanges then
    throw (.flawed .unchanged)
  change.checkDate
  change.checkReferences store submission.target
  return ⟨submission.proposal.kind, change⟩

end Submission

end Curation
