/-
**The review in the store.** Users and their roles, edits with their votes and comments, and audits.

* an edit is pending exactly while it has no closing time;
* a user has at most one vote on an edit;
* votes and comments belong to edits that exist, and go when the edit goes.
-/

import Curation.Ordering
import Curation.Store

namespace Curation.Store

/-! ### Users -/

/-- A user is registered. -/
def hasUser (store : Store) (id : UserId) : Bool := store.users.any fun user => user.id = id

/-- Registers a user; neither the identifier nor the name may be taken. -/
def insertUser (store : Store) (id : UserId) (name : String) (now : Instant) :
    Except StoreError Store :=
  if store.users.any fun user => user.id = id ∨ user.name = name then .error (.userExists name)
  else .ok { store with users := store.users ++ [⟨id, name, now⟩] }

/-- The roles of a user, ordered by their texts. -/
def roles (store : Store) (user : UserId) : List Role :=
  sortBy (fun first second => Word.text first ≤ Word.text second)
    ((store.grants.filter fun grant => grant.user = user).map Grant.role)

/-- Grants a role to a user, and tells whether it is new. -/
def grantRole (store : Store) (user : UserId) (role : Role) : Except StoreError (Bool × Store) :=
  if ⟨user, role⟩ ∈ store.grants then .ok (false, store)
  else if store.hasUser user then
    .ok (true, { store with grants := store.grants ++ [⟨user, role⟩] })
  else .error .danglingReference

/-! ### Edits -/

/-- An edit may be stored when it is pending exactly while it has no closing time. -/
def closesRightly (edit : Edit) : Bool := edit.isPending == edit.closed.isNone

/-- The edit with an identifier. -/
def edit? (store : Store) (id : EditId) : Option Edit :=
  (store.edits.find? fun edit => edit.id = id).map Edit.toMillisecond

/-- An edit with an identifier exists. -/
def hasEdit (store : Store) (id : EditId) : Bool := store.edits.any fun edit => edit.id = id

/-- Adds an edit. -/
def insertEdit (store : Store) (edit : Edit) : Except StoreError Store :=
  if !closesRightly edit then .error .closingMismatch
  else if store.hasEdit edit.id then .error (.duplicate "edits.edit_id")
  else .ok { store with edits := store.edits ++ [edit] }

/-- An edit with the state of another; who proposed what, and when, is kept. -/
def overwriteEdit (stored written : Edit) : Edit :=
  { stored with
    status := written.status
    target := written.target
    details := written.details
    score := written.score
    amendments := written.amendments
    applied := written.applied
    updated := written.updated
    closed := written.closed }

/-- Writes the state of an edit. -/
def updateEdit (store : Store) (edit : Edit) : Except StoreError Store :=
  if !store.hasEdit edit.id then .error (.noEdit edit.id)
  else if !closesRightly edit then .error .closingMismatch
  else .ok { store with
    edits := store.edits.map fun stored =>
      if stored.id = edit.id then overwriteEdit stored edit else stored }

/-- The edits that a test picks, the oldest first; of two made at once the lesser identifier. -/
def editsWhere (store : Store) (test : Edit → Bool) : List Edit :=
  (sortBy (inOrder Edit.created fun edit => edit.id.uuid) (store.edits.filter test)).map
    Edit.toMillisecond

/-- The edits of a record, the oldest first. -/
def editsFor (store : Store) (target : EntityId) : List Edit :=
  store.editsWhere fun edit => edit.target = some target

/-- The pending edits, the oldest first. -/
def pendingEdits (store : Store) : List Edit := store.editsWhere Edit.isPending

/-- Removes an edit with its votes and comments, and tells whether it was there. -/
def deleteEdit (store : Store) (id : EditId) : Bool × Store :=
  (store.hasEdit id,
    { store with
      edits := store.edits.filter fun edit => edit.id ≠ id
      votes := store.votes.filter fun vote => vote.edit ≠ id
      comments := store.comments.filter fun comment => comment.edit ≠ id })

/-- The number of edits of a user with one of the given statuses. -/
def countEdits (store : Store) (user : UserId) (statuses : List Status) : Nat :=
  store.edits.countP fun edit => edit.submitter = some user ∧ edit.status ∈ statuses

/-! ### Votes and comments -/

/-- Records a vote, in place of the user's earlier vote on the edit. -/
def upsertVote (store : Store) (vote : Vote) : Except StoreError Store :=
  if !store.hasEdit vote.edit then .error .danglingReference
  else if store.votes.any fun row => row.edit = vote.edit ∧ row.voter = vote.voter then
    .ok { store with
      votes := store.votes.map fun row =>
        if row.edit = vote.edit ∧ row.voter = vote.voter then vote else row }
  else .ok { store with votes := store.votes ++ [vote] }

/-- The votes on an edit, the earliest first; of two cast at once the lesser voter comes first. -/
def votesOn (store : Store) (edit : EditId) : List Vote :=
  (sortBy (inOrder Vote.created fun vote => vote.voter.uuid)
    (store.votes.filter fun vote => vote.edit = edit)).map Vote.toMillisecond

/-- Removes the votes on an edit, and tells how many there were. -/
def clearVotes (store : Store) (edit : EditId) : Nat × Store :=
  (store.votes.countP fun vote => vote.edit = edit,
    { store with votes := store.votes.filter fun vote => vote.edit ≠ edit })

/-- Adds a comment. -/
def insertComment (store : Store) (comment : Comment) : Except StoreError Store :=
  if store.comments.any fun row => row.id = comment.id then
    .error (.duplicate "edit_comments.comment_id")
  else if !store.hasEdit comment.edit then .error .danglingReference
  else .ok { store with comments := store.comments ++ [comment] }

/-- The comments on an edit, the earliest first; of two made at once the lesser identifier. -/
def commentsOn (store : Store) (edit : EditId) : List Comment :=
  (sortBy (inOrder Comment.created fun comment => comment.id.uuid)
    (store.comments.filter fun comment => comment.edit = edit)).map Comment.toMillisecond

/-! ### Audits -/

/-- Adds an audit. -/
def insertAudit (store : Store) (audit : Audit) : Except StoreError Store :=
  if store.audits.any fun row => row.id = audit.id then .error (.duplicate "mod_audits.audit_id")
  else .ok { store with audits := store.audits ++ [audit] }

/-- The audits that a filter lists, the latest first. -/
def auditsMatching (store : Store) (filter : AuditFilter) : List Audit :=
  let sorted := sortBy (flip (inOrder Audit.created fun audit => audit.id.uuid))
    (store.audits.filter filter.accepts)
  let rest := (sorted.drop filter.offset.toNat).map Audit.toMillisecond
  match filter.limit with
  | some limit => rest.take limit.toNat
  | none => rest

/-- The number of audits that a filter accepts, whatever its offset and limit. -/
def countAudits (store : Store) (filter : AuditFilter) : Nat := store.audits.countP filter.accepts

/-- Removes the audits made before an instant, and tells how many there were. -/
def deleteAuditsBefore (store : Store) (cutoff : Instant) : Nat × Store :=
  let isLate (audit : Audit) : Bool := noLater cutoff audit.created
  (store.audits.countP fun audit => !isLate audit, { store with audits := store.audits.filter isLate })

end Curation.Store
