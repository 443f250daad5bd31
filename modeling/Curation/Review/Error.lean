/-
**Why the review refuses.** Each cause of a refusal has its own wording; the kind of an error is all
that a caller needs who passes it on.

* `ReviewError.kind`: what is missing in the store is missing for the caller too, and any other
  failure of the store is internal;
* `ReviewError.message`: the wording;
* `Halt`: a refusal, or an operation that does not complete.
-/

import Curation.Store

namespace Curation

/-- Why a user may not do something. -/
inductive Refusal where
  | unknownUser (user : UserId)
  | readOnly
  | lacks (role : Role)
  | notSubmitter
  | neitherSubmitterNorAdmin
  | ownEdit
  | stated (reason : String)
deriving DecidableEq

/-- The wording of a refusal. -/
def Refusal.reason : Refusal → String
  | .unknownUser user => "unknown user " ++ user.toText
  | .readOnly => "user is read-only"
  | .lacks role => Word.text role ++ " role required"
  | .notSubmitter => "only the submitter may amend an edit"
  | .neitherSubmitterNorAdmin => "only the submitter or an admin may cancel"
  | .ownEdit => "cannot vote on own edit"
  | .stated reason => reason

/-- Why something cannot be done in the present state. -/
inductive Conflict where
  | settled (status : Status)
  | fixedRemoval
  | amendmentLimit
  | stillPending
  | redirectCycle (entity : EntityId)
  | notApplied (edit : EditId)
  | stated (reason : String)
deriving DecidableEq

/-- The wording of a conflict. -/
def Conflict.reason : Conflict → String
  | .settled status => "edit is " ++ Word.text status
  | .fixedRemoval => "destroy edits cannot be amended"
  | .amendmentLimit => "edit update limit reached"
  | .stillPending => "pending edits cannot be deleted"
  | .redirectCycle entity => "redirect cycle at " ++ entity.toText
  | .notApplied edit => "create edit " ++ edit.toText ++ " was not applied"
  | .stated reason => reason

/-- What is wrong with a submission. -/
inductive Flaw where
  | otherKind (entity : EntityId) (actual expected : Kind)
  | removed (kind : Kind) (entity : EntityId)
  | needsTarget (operation : Operation)
  | lostTarget (operation : Operation)
  | needlessTarget
  | needsSource
  | intoItself
  | listedTwice (source : EntityId)
  | needlessSources (operation : Operation)
  | unnamed (key : String)
  | unchanged
  | badDate (key written : String)
  | ownParent
  | otherDetails (given expected : Kind)
  | notBallot (choice : Choice)
  | emptyComment
  | stated (reason : String)
deriving DecidableEq

/-- The wording of a flaw. -/
def Flaw.reason : Flaw → String
  | .otherKind entity actual expected =>
    entity.toText ++ " is a " ++ Word.text actual ++ ", not a " ++ Word.text expected
  | .removed kind entity => Word.text kind ++ " " ++ entity.toText ++ " has been deleted"
  | .needsTarget operation => Word.text operation ++ " edit needs a target"
  | .lostTarget operation => Word.text operation ++ " edit has no target"
  | .needlessTarget => "create edit cannot name a target"
  | .needsSource => "merge edit needs at least one source"
  | .intoItself => "cannot merge an entity into itself"
  | .listedTwice source => "merge source " ++ source.toText ++ " is listed twice"
  | .needlessSources operation => Word.text operation ++ " edit cannot have merge sources"
  | .unnamed key => key ++ " is required"
  | .unchanged => "edit contains no changes"
  | .badDate key written => "invalid " ++ key ++ ": " ++ written
  | .ownParent => "studio cannot be its own parent"
  | .otherDetails given expected =>
    Word.text given ++ " details for a " ++ Word.text expected ++ " edit"
  | .notBallot choice => Word.text choice ++ " is not a ballot"
  | .emptyComment => "comment is empty"
  | .stated reason => reason

/-- What does not exist. -/
inductive Absence where
  | entity (kind : Kind) (entity : EntityId)
  | edit (edit : EditId)
  | user (user : UserId)
  | stated (subject : String)
deriving DecidableEq

/-- The wording of an absence. -/
def Absence.subject : Absence → String
  | .entity kind id => Word.text kind ++ " " ++ id.toText
  | .edit id => "edit " ++ id.toText
  | .user id => "user " ++ id.toText
  | .stated what => what

/-- How a record differs from what an edit was made for. -/
inductive Mismatch where
  | field (key : String) (expected actual : Option Value)
  | removed
deriving DecidableEq

/-- The wording of a mismatch. -/
def Mismatch.reason : Mismatch → String
  | .field key expected actual =>
    "expected " ++ key ++ " to be " ++ Value.shown expected ++ ", but was " ++ Value.shown actual
  | .removed => "expected deleted to be false, but was true"

/-- Why the review refuses. -/
inductive ReviewError where
  | store (cause : StoreError)
  | data (fault : Fault)
  | unauthorized (refusal : Refusal)
  | conflict (conflict : Conflict)
  | mismatch (mismatch : Mismatch)
  | flawed (flaw : Flaw)
  | missing (absence : Absence)
deriving DecidableEq

/-- The kinds of error. -/
inductive ReviewError.Kind where
  | authorization
  | stateConflict
  | prerequisiteMismatch
  | validation
  | notFound
  | internal
deriving DecidableEq

namespace ReviewError

/-- The kind of an error. -/
def kind : ReviewError → ReviewError.Kind
  | .store cause => if cause.kind? = some .notFound then .notFound else .internal
  | .data _ => .internal
  | .unauthorized _ => .authorization
  | .conflict _ => .stateConflict
  | .mismatch _ => .prerequisiteMismatch
  | .flawed _ => .validation
  | .missing _ => .notFound

/-- The message of an error. -/
def message : ReviewError → String
  | .store cause => "storage error: " ++ cause.message
  | .data fault => "core error: " ++ fault.message
  | .unauthorized refusal => "not authorized: " ++ refusal.reason
  | .conflict cause => "state conflict: " ++ cause.reason
  | .mismatch difference => "data has changed: " ++ difference.reason
  | .flawed flaw => "invalid edit: " ++ flaw.reason
  | .missing absence => "not found: " ++ absence.subject

end ReviewError

/-- Why an operation gives no result: it is refused, or it breaks off and gives no answer at all, because
it would reach an instant that there is not. -/
inductive Halt where
  | refused (error : ReviewError)
  | brokenOff
deriving DecidableEq

end Curation
