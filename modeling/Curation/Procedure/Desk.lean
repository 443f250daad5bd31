/-
**The operations as procedures.** Each operation writes within a transaction, commits, and only then
tells the listeners and promotes whom it may. What is refused before that is dropped with the
transaction.

* `Procedure.createEdit`, `Procedure.updateEdit`, `Procedure.vote`, `Procedure.comment`,
  `Procedure.cancel`, `Procedure.apply`;
* `Procedure.resolve`: a verdict, with a savepoint around the application of an edit;
* `Procedure.closeCompleted`: one transaction after the other;
* `Procedure.deleteEdit`, `Procedure.deleteExpiredAudits`;
* `Procedure.dispatch`: what follows a transaction.
-/

import Curation.Procedure.Application
import Curation.Review.Desk

namespace Curation

/-- The savepoint that is set before an edit is applied. -/
def SavepointName.beforeApplying : SavepointName := .of "apply_edit" rfl

namespace Procedure

/-! ### What follows a transaction -/

/-- Grants the role for voting to a user who has earned it, and tells whether it is new. -/
def grantVote (user : UserId) (threshold : UInt32) : Procedure Bool := do
  let roles ← look fun store => store.roles user
  if Role.barsPromotion roles then return false
  let counted ← look fun store => store.countEdits user Status.counting
  if counted < threshold.toNat then return false
  ask (.grantRole user .vote)

/-- Promotes a user in a transaction of its own. -/
def promote (desk : Desk) (user : UserId) : Procedure Unit :=
  match desk.rules.promotionThreshold with
  | none => pure ()
  | some threshold => inTransaction do
    if ← grantVote user threshold then commit

/-- Lets the effects of a transaction follow, in their order. A promotion that is refused has no
consequence. -/
def dispatch (desk : Desk) (effects : List Effect) : Procedure Unit :=
  effects.forM fun
    | .notify notice => send notice
    | .promote user => do
      let _ ← attempt (promote desk user)

/-! ### Parts of the operations -/

/-- Adds a comment to an edit. -/
def addComment (desk : Desk) (edit : EditId) (author : Option UserId) (text : String)
    (now : Instant) : Procedure Comment := do
  let id ← issue desk.draw
  let comment : Comment := ⟨id, edit, author, text, now⟩
  write (.insertComment comment)
  return comment

/-- Adds the comment that came with a submission, unless it is void. -/
def addRemark (desk : Desk) (edit : EditId) (author : UserId) (remark : Option String)
    (now : Instant) : Procedure Unit :=
  match remark with
  | none => pure ()
  | some text =>
    if Text.isVoid text then pure ()
    else do
      let _ ← addComment desk edit (some author) text now

/-- Applies an edit. The identifier that a new record gets counts as issued when that is done. -/
def applyToStore (desk : Desk) (edit : Edit) (now : Instant) : Procedure Edit := do
  let fresh ← upcoming desk.draw
  let target ← applyEdit edit fresh now
  let _ : EntityId ← issue desk.draw
  return { edit with target := some target }

/-- Carries out a verdict on a pending edit. An edit that cannot be applied has failed: what was written
for it is undone, and a comment tells why. -/
def resolve (desk : Desk) (edit : Edit) (verdict : Verdict) (now : Instant) :
    Procedure (Edit × List Effect) :=
  match verdict with
  | .pending => pure (edit, [])
  | .reject => pure (edit.close .rejected now, [])
  | .accept => do
    write (.savepoint .beforeApplying)
    match ← attempt (applyToStore desk edit now) with
    | .ok applied =>
      write (.release .beforeApplying)
      let accepted := applied.close .accepted now
      return (accepted, Effect.ofApplied accepted)
    | .error error =>
      write (.rollbackTo .beforeApplying)
      let _ ← addComment desk edit.id none ("Edit application failed: " ++ error.message) now
      return (edit.close .failed now, [])

/-! ### Users -/

/-- Registers a user with some roles. -/
def registerUser (desk : Desk) (now : Instant) (name : String) (roles : List Role) :
    Procedure UserId := inTransaction do
  let user ← issue desk.draw
  write (.insertUser user name now)
  for role in roles do
    let _ ← ask (.grantRole user role)
  commit
  return user

/-- Grants a role to a user, and tells whether it is new. -/
def grantRole (user : UserId) (role : Role) : Procedure Bool := inTransaction do
  check fun store => Desk.require (store.hasUser user) (.missing (.user user))
  let granted ← ask (.grantRole user role)
  commit
  return granted

/-! ### Submission -/

/-- Stores what is submitted as a pending edit. -/
def fileEdit (desk : Desk) (now : Instant) (caller : UserId) (submission : Submission) :
    Procedure Edit := do
  let roles ← check fun store => Desk.rolesOf store caller
  ensure (desk.requireFiling roles submission)
  let details ← check submission.details
  let id ← issue desk.draw
  let edit := submission.edit id caller details now
  write (.insertEdit edit)
  addRemark desk id caller submission.comment now
  return edit

/-- Applies a stored edit without a vote. -/
def enact (desk : Desk) (edit : Edit) (now : Instant) : Procedure Edit := do
  let applied ← applyToStore desk edit now
  let closed := applied.close .immediateAccepted now
  write (.updateEdit closed)
  return closed

/-- Submits an edit. -/
def createEdit (desk : Desk) (now : Instant) (caller : UserId) (submission : Submission) :
    Procedure Edit := inTransaction do
  let edit ← fileEdit desk now caller submission
  let immediate := desk.isImmediate edit
  let filed ← if immediate then enact desk edit now else pure edit
  commit
  let applied := if immediate then Effect.ofApplied filed else []
  dispatch desk (.notify (.created filed) :: applied)
  return filed

/-- Replaces the details of the caller's pending edit; voting on it starts anew. -/
def updateEdit (desk : Desk) (now : Instant) (caller : UserId) (id : EditId) (proposal : Proposal)
    (remark : Option String) : Procedure Edit := inTransaction do
  let _ ← check fun store => Desk.rolesOf store caller
  let edit ← check fun store => Desk.loadEdit store id
  ensure (Desk.require (edit.submitter = some caller) (.unauthorized .notSubmitter))
  ensure (Desk.requirePending edit)
  ensure (Desk.require (edit.operation ≠ .destroy) (.conflict .fixedRemoval))
  ensure (Desk.require (edit.amendments < desk.rules.amendmentLimit) (.conflict .amendmentLimit))
  ensure (Desk.require (proposal.kind = edit.kind) (.flawed (.otherDetails proposal.kind edit.kind)))
  let details ← check (edit.resubmission proposal remark).details
  let amended : Edit :=
    { edit with
      details
      amendments := edit.amendments + 1
      updated := some now
      score := 0 }
  let _ ← count (.clearVotes id)
  write (.updateEdit amended)
  addRemark desk id caller remark now
  commit
  dispatch desk [.notify (.amended amended)]
  return amended

/-! ### Review -/

/-- Casts a ballot on a pending edit, which may settle it. -/
def vote (desk : Desk) (now : Instant) (caller : UserId) (id : EditId) (choice : Choice) :
    Procedure Edit := do
  ensure (Desk.require choice.isBallot (.flawed (.notBallot choice)))
  inTransaction do
    let roles ← check fun store => Desk.rolesOf store caller
    ensure (Desk.requireRole roles .vote)
    let edit ← check fun store => Desk.loadEdit store id
    ensure (Desk.requirePending edit)
    ensure (Desk.require (edit.submitter ≠ some caller) (.unauthorized .ownEdit))
    write (.upsertVote ⟨id, caller, choice, now⟩)
    let tally ← look fun store => Tally.ofVotes (store.votesOn id)
    let counted := { edit with score := tally.net }
    let verdict := Verdict.onVote counted tally (desk.policy counted) now desk.rules
    let (resolved, effects) ← resolve desk counted verdict now
    write (.updateEdit resolved)
    commit
    let downvote : List Effect :=
      if choice = .reject then [.notify (.downvoted resolved)] else []
    dispatch desk (effects ++ downvote)
    return resolved

/-- Comments on an edit. -/
def comment (desk : Desk) (now : Instant) (caller : UserId) (id : EditId) (text : String) :
    Procedure Edit := do
  ensure (Desk.require (!Text.isVoid text) (.flawed .emptyComment))
  inTransaction do
    let roles ← check fun store => Desk.rolesOf store caller
    ensure (Desk.requireRole roles .edit)
    let edit ← check fun store => Desk.loadEdit store id
    let comment ← addComment desk id (some caller) text now
    commit
    dispatch desk [.notify (.commented edit comment)]
    return edit

/-- Withdraws a pending edit, on behalf of its submitter or an administrator. -/
def cancel (desk : Desk) (now : Instant) (caller : UserId) (id : EditId) : Procedure Edit :=
  inTransaction do
    let roles ← check fun store => Desk.rolesOf store caller
    let edit ← check fun store => Desk.loadEdit store id
    let owns : Bool := edit.submitter = some caller
    ensure (Desk.require (owns || Role.anyGrants roles .admin)
      (.unauthorized .neitherSubmitterNorAdmin))
    ensure (Desk.requirePending edit)
    if !owns then
      write (.upsertVote ⟨id, caller, .immediateReject, now⟩)
    let canceled := edit.close .immediateRejected now
    write (.updateEdit canceled)
    commit
    dispatch desk [.notify (.canceled canceled)]
    return canceled

/-- Applies a pending edit whatever the votes on it are. -/
def apply (desk : Desk) (now : Instant) (caller : UserId) (id : EditId) : Procedure Edit :=
  inTransaction do
    let roles ← check fun store => Desk.rolesOf store caller
    ensure (Desk.requireRole roles .admin)
    let edit ← check fun store => Desk.loadEdit store id
    ensure (Desk.requirePending edit)
    write (.upsertVote ⟨id, caller, .immediateAccept, now⟩)
    let closed ← enact desk edit now
    commit
    dispatch desk (Effect.ofApplied closed)
    return closed

/-- Closes an edit if it is due, and tells whether it was. -/
def closeIfDue (desk : Desk) (now : Instant) (id : EditId) : Procedure Bool := inTransaction do
  let found ← look fun store => (store.edit? id).filter fun edit => desk.isDue store edit now
  match found with
  | none => return false
  | some edit =>
    let tally ← look fun store => Tally.ofVotes (store.votesOn id)
    let verdict := Verdict.onExpiry tally (desk.policy edit)
    let (resolved, effects) ← resolve desk { edit with score := tally.net } verdict now
    write (.updateEdit resolved)
    commit
    dispatch desk effects
    return true

/-- Closes the due ones among some edits and counts them. -/
def closeEach (desk : Desk) (now : Instant) : List EditId → Nat → Procedure Nat
  | [], closed => pure closed
  | id :: rest, closed => do
    let wasDue ← closeIfDue desk now id
    closeEach desk now rest (if wasDue then closed + 1 else closed)

/-- Closes every edit on which voting has ended, the oldest first, and counts them. -/
def closeCompleted (desk : Desk) (now : Instant) : Procedure Nat := do
  let due ← look fun store => store.pendingEdits.filter fun edit =>
    decide (desk.votingEnds store edit ≤ now)
  closeEach desk now (due.map Edit.id) 0

/-! ### Moderation -/

/-- Removes an edit and leaves an audit of it. -/
def deleteWithAudit (id : AuditId) (edit : Edit) (deletedBy : UserId) (reason : String)
    (now : Instant) : Procedure Unit := do
  let snapshot ← look fun store => store.snapshot edit deletedBy now
  write (.insertAudit (Audit.ofDeletion id snapshot reason))
  write (.deleteEdit edit.id)

/-- Removes an edit that is no longer pending and leaves an audit of it; tells whether the edit was
there. -/
def deleteEdit (desk : Desk) (now : Instant) (caller : UserId) (id : EditId) (reason : String) :
    Procedure Bool := inTransaction do
  let roles ← check fun store => Desk.rolesOf store caller
  ensure (Desk.requireRole roles .admin)
  let found ← look fun store => store.edit? id
  match found with
  | none => return false
  | some edit =>
    ensure (Desk.require (!edit.isPending) (.conflict .stillPending))
    let audit ← issue desk.draw
    deleteWithAudit audit edit caller reason now
    commit
    return true

/-- Drops the audits that are older than the rules keep them, and counts them. -/
def deleteExpiredAudits (desk : Desk) (now : Instant) : Procedure Nat :=
  match desk.rules.retentionCutoff now with
  | .error halt => throw halt
  | .ok none => pure 0
  | .ok (some cutoff) => inTransaction do
    let removed ← count (.deleteAuditsBefore cutoff)
    commit
    return removed

end Procedure

end Curation
