/-
**The review desk.** The operations of the review: submitting, amending, voting, commenting,
canceling, applying, closing what voting has ended on, deleting and keeping audits. Each is given here
as what it comes to: one step on the ledger, which is kept with what follows it or not at all. Which
statements it sends to the store, and where among them it commits, is said by the procedures; that these
come to the same is `Procedure.ofCall_conducts`.

* `Desk.createEdit`, `Desk.updateEdit`, `Desk.vote`, `Desk.comment`, `Desk.cancel`, `Desk.apply`;
* `Desk.closeCompleted`: closes one edit after the other, each in a step of its own;
* `Desk.deleteEdit`, `Desk.deleteExpiredAudits`.
-/

import Curation.Policy
import Curation.Review.Ledger
import Curation.Review.Promotion
import Curation.Review.Retention
import Curation.Verdict

namespace Curation

/-- The rules and the policy of a review, and the identifiers that it issues, in their order. -/
structure Desk where
  rules : Rules
  policy : Policy
  draw : Nat → Uuid

/-- A submission as an edit that is yet to be reviewed. -/
def Submission.edit (submission : Submission) (id : EditId) (caller : UserId)
    (details : Details) (now : Instant) : Edit where
  id
  submitter := some caller
  kind := submission.proposal.kind
  operation := submission.operation
  status := .pending
  target := submission.target
  sources := submission.sources
  details
  score := 0
  amendments := 0
  applied := false
  bot := submission.bot
  created := now
  updated := none
  closed := none

/-- A new proposal for an edit as a submission. -/
def Edit.resubmission (edit : Edit) (proposal : Proposal) (remark : Option String) : Submission where
  operation := edit.operation
  target := edit.target
  sources := edit.sources
  proposal
  comment := remark
  bot := edit.bot

namespace Desk

/-! ### What follows a step -/

/-- Promotes a user; a failure has no consequence. -/
def promote (desk : Desk) (user : UserId) (ledger : Ledger) : Ledger :=
  match desk.rules.promotionThreshold with
  | none => ledger
  | some threshold =>
    match ledger.store.promote user threshold with
    | .ok (_, store) => { ledger with store }
    | .error _ => ledger

/-- Lets the effects of a step follow, in their order. -/
def follow (desk : Desk) (effects : List Effect) (ledger : Ledger) : Ledger × List Notice :=
  effects.foldl
    (fun (ledger, notices) effect =>
      match effect with
      | .notify notice => (ledger, notices ++ [notice])
      | .promote user => (desk.promote user ledger, notices))
    (ledger, [])

/-- What an operation comes to whose transaction is a step: the ledger after it and what follows, or an
error and the ledger from before. -/
def carryOut {α : Type} (desk : Desk) (step : Step (α × List Effect)) (ledger : Ledger) :
    Outcome α :=
  match step ledger with
  | .ok ((result, effects), after) =>
    let (after, notices) := desk.follow effects after
    ⟨.ok result, after, notices⟩
  | .error error => ⟨.error (.refused error), ledger, []⟩

/-- What an operation without effects comes to. -/
def carryOutQuietly {α : Type} (step : Step α) (ledger : Ledger) : Outcome α :=
  match step ledger with
  | .ok (result, after) => ⟨.ok result, after, []⟩
  | .error error => ⟨.error (.refused error), ledger, []⟩

/-! ### Checks -/

/-- The roles of a user, who must be registered. -/
def rolesOf (store : Store) (caller : UserId) : Except ReviewError (List Role) :=
  if store.hasUser caller then .ok (store.roles caller)
  else .error (.unauthorized (.unknownUser caller))

/-- Some role grants the required one; who may only read may do nothing else. -/
def requireRole (roles : List Role) (required : Role) : Except ReviewError Unit :=
  if required ≠ .read ∧ .readOnly ∈ roles then .error (.unauthorized .readOnly)
  else if Role.anyGrants roles required then .ok ()
  else .error (.unauthorized (.lacks required))

/-- The edit with an identifier. -/
def loadEdit (store : Store) (id : EditId) : Except ReviewError Edit :=
  match store.edit? id with
  | some edit => .ok edit
  | none => .error (.missing (.edit id))

/-- The edit is still pending. -/
def requirePending (edit : Edit) : Except ReviewError Unit :=
  if edit.isPending then .ok () else .error (.conflict (.settled edit.status))

/-- A check fails with an error unless a condition holds. -/
def require (condition : Bool) (error : ReviewError) : Except ReviewError Unit :=
  if condition then .ok () else .error error

/-! ### Parts of the operations -/

/-- Adds a comment to an edit. -/
def addComment (desk : Desk) (edit : EditId) (author : Option UserId) (text : String)
    (now : Instant) : Step Comment := do
  let id ← Step.issue desk.draw
  let comment : Comment := ⟨id, edit, author, text, now⟩
  Step.write fun store => store.insertComment comment
  return comment

/-- Adds the comment that came with a submission, unless it is void. -/
def addRemark (desk : Desk) (edit : EditId) (author : UserId) (remark : Option String)
    (now : Instant) : Step Unit :=
  match remark with
  | none => pure ()
  | some text =>
    if Text.isVoid text then pure ()
    else do
      let _ ← desk.addComment edit (some author) text now

/-- Applies an edit to the store. -/
def applyToStore (desk : Desk) (edit : Edit) (now : Instant) : Step Edit := fun ledger =>
  (edit.apply ⟨desk.draw ledger.issued⟩ now ledger.store).map fun (target, store) =>
    ({ edit with target := some target }, ⟨store, ledger.issued + 1⟩)

/-- Carries out a verdict on a pending edit. An edit that cannot be applied has failed; a comment
tells why, and nothing of the attempt remains. -/
def resolve (desk : Desk) (edit : Edit) (verdict : Verdict) (now : Instant) :
    Step (Edit × List Effect) :=
  match verdict with
  | .pending => pure (edit, [])
  | .reject => pure (edit.close .rejected now, [])
  | .accept => fun ledger =>
    match desk.applyToStore edit now ledger with
    | .ok (applied, after) =>
      let accepted := applied.close .accepted now
      .ok ((accepted, Effect.ofApplied accepted), after)
    | .error error =>
      (do
        let _ ← desk.addComment edit.id none ("Edit application failed: " ++ error.message) now
        return (edit.close .failed now, []) : Step (Edit × List Effect)) ledger

/-! ### Users -/

/-- Registers a user with some roles. -/
def registerUser (desk : Desk) (now : Instant) (name : String) (roles : List Role) :
    Ledger → Outcome UserId :=
  carryOutQuietly do
    let user ← Step.issue desk.draw
    Step.write fun store => store.insertUser user name now
    for role in roles do
      let _ ← Step.writeWith fun store => store.grantRole user role
    return user

/-- Grants a role to a user, and tells whether it is new. -/
def grantRole (user : UserId) (role : Role) : Ledger → Outcome Bool :=
  carryOutQuietly do
    Step.check fun store => require (store.hasUser user) (.missing (.user user))
    Step.writeWith fun store => store.grantRole user role

/-! ### Submission -/

/-- The roles that a submission calls for. -/
def requireFiling (desk : Desk) (roles : List Role) (submission : Submission) :
    Except ReviewError Unit := do
  requireRole roles .edit
  if submission.proposal.kind = .tag && desk.rules.guardsTags then requireRole roles .editTags
  if submission.bot then requireRole roles .bot

/-- Stores what is submitted as a pending edit. -/
def fileEdit (desk : Desk) (now : Instant) (caller : UserId) (submission : Submission) :
    Step Edit := do
  let roles ← Step.check fun store => rolesOf store caller
  Step.check fun _ => desk.requireFiling roles submission
  let details ← Step.check submission.details
  let id ← Step.issue desk.draw
  let edit := submission.edit id caller details now
  Step.write fun store => store.insertEdit edit
  desk.addRemark id caller submission.comment now
  return edit

/-- Applies a stored edit without a vote. -/
def enact (desk : Desk) (edit : Edit) (now : Instant) : Step Edit := do
  let applied ← desk.applyToStore edit now
  let closed := applied.close .immediateAccepted now
  Step.write fun store => store.updateEdit closed
  return closed

/-- A new record that is not destructive is made at once if the rules say so. -/
def isImmediate (desk : Desk) (edit : Edit) : Bool :=
  edit.operation = .create && desk.rules.appliesCreates && !desk.policy edit

/-- Submits an edit. -/
def createEdit (desk : Desk) (now : Instant) (caller : UserId) (submission : Submission) :
    Ledger → Outcome Edit :=
  desk.carryOut do
    let edit ← desk.fileEdit now caller submission
    if desk.isImmediate edit then
      let closed ← desk.enact edit now
      return (closed, .notify (.created closed) :: Effect.ofApplied closed)
    else return (edit, [.notify (.created edit)])

/-- Replaces the details of the caller's pending edit; voting on it starts anew. -/
def updateEdit (desk : Desk) (now : Instant) (caller : UserId) (id : EditId)
    (proposal : Proposal) (remark : Option String) : Ledger → Outcome Edit :=
  desk.carryOut do
    let _ ← Step.check fun store => rolesOf store caller
    let edit ← Step.check fun store => loadEdit store id
    Step.check fun _ => require (edit.submitter = some caller) (.unauthorized .notSubmitter)
    Step.check fun _ => requirePending edit
    Step.check fun _ => require (edit.operation ≠ .destroy) (.conflict .fixedRemoval)
    Step.check fun _ =>
      require (edit.amendments < desk.rules.amendmentLimit) (.conflict .amendmentLimit)
    Step.check fun _ =>
      require (proposal.kind = edit.kind) (.flawed (.otherDetails proposal.kind edit.kind))
    let details ← Step.check (edit.resubmission proposal remark).details
    let amended : Edit :=
      { edit with
        details
        amendments := edit.amendments + 1
        updated := some now
        score := 0 }
    let _ ← Step.writeWith fun store => .ok (store.clearVotes id)
    Step.write fun store => store.updateEdit amended
    desk.addRemark id caller remark now
    return (amended, [.notify (.amended amended)])

/-! ### Review -/

/-- Casts a ballot on a pending edit, which may settle it. -/
def vote (desk : Desk) (now : Instant) (caller : UserId) (id : EditId) (choice : Choice) :
    Ledger → Outcome Edit :=
  desk.carryOut do
    Step.check fun _ => require choice.isBallot (.flawed (.notBallot choice))
    let roles ← Step.check fun store => rolesOf store caller
    Step.check fun _ => requireRole roles .vote
    let edit ← Step.check fun store => loadEdit store id
    Step.check fun _ => requirePending edit
    Step.check fun _ => require (edit.submitter ≠ some caller) (.unauthorized .ownEdit)
    Step.write fun store => store.upsertVote ⟨id, caller, choice, now⟩
    let tally ← Step.read fun store => Tally.ofVotes (store.votesOn id)
    let counted := { edit with score := tally.net }
    let verdict := Verdict.onVote counted tally (desk.policy counted) now desk.rules
    let (resolved, effects) ← desk.resolve counted verdict now
    Step.write fun store => store.updateEdit resolved
    let downvote : List Effect :=
      if choice = .reject then [.notify (.downvoted resolved)] else []
    return (resolved, effects ++ downvote)

/-- Comments on an edit. -/
def comment (desk : Desk) (now : Instant) (caller : UserId) (id : EditId) (text : String) :
    Ledger → Outcome Edit :=
  desk.carryOut do
    Step.check fun _ => require (!Text.isVoid text) (.flawed .emptyComment)
    let roles ← Step.check fun store => rolesOf store caller
    Step.check fun _ => requireRole roles .edit
    let edit ← Step.check fun store => loadEdit store id
    let comment ← desk.addComment id (some caller) text now
    return (edit, [.notify (.commented edit comment)])

/-- Withdraws a pending edit, on behalf of its submitter or an administrator. -/
def cancel (desk : Desk) (now : Instant) (caller : UserId) (id : EditId) :
    Ledger → Outcome Edit :=
  desk.carryOut do
    let roles ← Step.check fun store => rolesOf store caller
    let edit ← Step.check fun store => loadEdit store id
    let owns : Bool := edit.submitter = some caller
    Step.check fun _ =>
      require (owns || Role.anyGrants roles .admin) (.unauthorized .neitherSubmitterNorAdmin)
    Step.check fun _ => requirePending edit
    if !owns then
      Step.write fun store => store.upsertVote ⟨id, caller, .immediateReject, now⟩
    let canceled := edit.close .immediateRejected now
    Step.write fun store => store.updateEdit canceled
    return (canceled, [.notify (.canceled canceled)])

/-- Applies a pending edit whatever the votes on it are. -/
def apply (desk : Desk) (now : Instant) (caller : UserId) (id : EditId) :
    Ledger → Outcome Edit :=
  desk.carryOut do
    let roles ← Step.check fun store => rolesOf store caller
    Step.check fun _ => requireRole roles .admin
    let edit ← Step.check fun store => loadEdit store id
    Step.check fun _ => requirePending edit
    Step.write fun store => store.upsertVote ⟨id, caller, .immediateAccept, now⟩
    let closed ← desk.enact edit now
    return (closed, Effect.ofApplied closed)

/-- When voting on a stored edit ends. -/
def votingEnds (desk : Desk) (store : Store) (edit : Edit) : Instant :=
  Verdict.votingEnds edit (Tally.ofVotes (store.votesOn edit.id)) desk.rules

/-- An edit is due when it is pending and voting on it has ended. -/
def isDue (desk : Desk) (store : Store) (edit : Edit) (now : Instant) : Bool :=
  edit.isPending && decide (desk.votingEnds store edit ≤ now)

/-- Closes an edit if it is due, and tells whether it was. -/
def closeIfDue (desk : Desk) (now : Instant) (id : EditId) : Step (Bool × List Effect) := do
  let found ← Step.read fun store => (store.edit? id).filter fun edit => desk.isDue store edit now
  match found with
  | none => return (false, [])
  | some edit =>
    let tally ← Step.read fun store => Tally.ofVotes (store.votesOn id)
    let verdict := Verdict.onExpiry tally (desk.policy edit)
    let (resolved, effects) ← desk.resolve { edit with score := tally.net } verdict now
    Step.write fun store => store.updateEdit resolved
    return (true, effects)

/-- Closes the due ones among some edits and counts them, until one step fails. -/
def closeEach (desk : Desk) (now : Instant) : List EditId → Nat → Ledger → Outcome Nat
  | [], closed, ledger => ⟨.ok closed, ledger, []⟩
  | id :: rest, closed, ledger =>
    let first := desk.carryOut (desk.closeIfDue now id) ledger
    match first.result with
    | .ok wasDue =>
      let others := desk.closeEach now rest (if wasDue then closed + 1 else closed) first.ledger
      { others with notices := first.notices ++ others.notices }
    | .error error => ⟨.error error, first.ledger, first.notices⟩

/-- Closes every edit on which voting has ended, the oldest first, and counts them. -/
def closeCompleted (desk : Desk) (now : Instant) (ledger : Ledger) : Outcome Nat :=
  let due := ledger.store.pendingEdits.filter fun edit =>
    decide (desk.votingEnds ledger.store edit ≤ now)
  desk.closeEach now (due.map Edit.id) 0 ledger

/-! ### Moderation -/

/-- Removes an edit that is no longer pending and leaves an audit of it; tells whether the edit was
there. -/
def deleteEdit (desk : Desk) (now : Instant) (caller : UserId) (id : EditId) (reason : String) :
    Ledger → Outcome Bool :=
  carryOutQuietly do
    let roles ← Step.check fun store => rolesOf store caller
    Step.check fun _ => requireRole roles .admin
    let found ← Step.read fun store => store.edit? id
    match found with
    | none => return false
    | some edit =>
      Step.check fun _ => require (!edit.isPending) (.conflict .stillPending)
      let audit ← Step.issue desk.draw
      Step.write fun store => store.deleteWithAudit audit edit caller reason now
      return true

/-- Drops the audits that are older than the rules keep them, and counts them. -/
def deleteExpiredAudits (desk : Desk) (now : Instant) (ledger : Ledger) : Outcome Nat :=
  match desk.rules.retentionCutoff now with
  | .error halt => ⟨.error halt, ledger, []⟩
  | .ok none => ⟨.ok 0, ledger, []⟩
  | .ok (some cutoff) =>
    carryOutQuietly (Step.writeWith fun store => .ok (store.deleteAuditsBefore cutoff)) ledger

end Desk

end Curation
