/-
**The words of the catalogue and of its review.** The kinds of record, what an edit does to one, how
an edit stands, how a reviewer votes, what a user may do, and how records are linked.

* `Role.grants`: whether one role carries the rights of another;
* `Status.isApplied`: the two outcomes that change the catalogue.
-/

import Curation.Word

namespace Curation

/-- The kinds of record in the catalogue. -/
inductive Kind where
  | tag
  | performer
  | studio
  | scene
deriving DecidableEq, Inhabited

instance : Word Kind where
  title := "target type"
  all := [.tag, .performer, .studio, .scene]
  mem_all kind := by cases kind <;> decide
  text
    | .tag => "tag"
    | .performer => "performer"
    | .studio => "studio"
    | .scene => "scene"
  text_inj first second := by cases first <;> cases second <;> decide

/-- What an edit does to its target. -/
inductive Operation where
  | create
  | modify
  | destroy
  | merge
deriving DecidableEq, Inhabited

instance : Word Operation where
  title := "operation"
  all := [.create, .modify, .destroy, .merge]
  mem_all operation := by cases operation <;> decide
  text
    | .create => "create"
    | .modify => "modify"
    | .destroy => "destroy"
    | .merge => "merge"
  text_inj first second := by cases first <;> cases second <;> decide

/-- Every operation but creation needs a target that exists. -/
def Operation.needsTarget : Operation → Bool
  | .create => false
  | .modify => true
  | .destroy => true
  | .merge => true

/-- How an edit stands. -/
inductive Status where
  | pending
  | accepted
  | rejected
  | immediateAccepted
  | immediateRejected
  | canceled
  | failed
deriving DecidableEq, Inhabited

instance : Word Status where
  title := "edit status"
  all := [.pending, .accepted, .rejected, .immediateAccepted, .immediateRejected, .canceled,
    .failed]
  mem_all status := by cases status <;> decide
  text
    | .pending => "pending"
    | .accepted => "accepted"
    | .rejected => "rejected"
    | .immediateAccepted => "immediate_accepted"
    | .immediateRejected => "immediate_rejected"
    | .canceled => "canceled"
    | .failed => "failed"
  text_inj first second := by cases first <;> cases second <;> decide

/-- A pending edit is open to votes. -/
def Status.isPending (status : Status) : Bool := status = .pending

/-- The outcomes with which the changes of an edit reach its target. -/
def Status.isApplied : Status → Bool
  | .accepted => true
  | .immediateAccepted => true
  | _ => false

/-- What a vote says. -/
inductive Choice where
  | accept
  | reject
  | abstain
  | immediateAccept
  | immediateReject
deriving DecidableEq, Inhabited

instance : Word Choice where
  title := "vote"
  all := [.accept, .reject, .abstain, .immediateAccept, .immediateReject]
  mem_all choice := by cases choice <;> decide
  text
    | .accept => "accept"
    | .reject => "reject"
    | .abstain => "abstain"
    | .immediateAccept => "immediate_accept"
    | .immediateReject => "immediate_reject"
  text_inj first second := by cases first <;> cases second <;> decide

/-- Reviewers cast ballots; the other votes mark the decision of an administrator. -/
def Choice.isBallot : Choice → Bool
  | .accept => true
  | .reject => true
  | .abstain => true
  | .immediateAccept => false
  | .immediateReject => false

/-- What a user may do. -/
inductive Role where
  | read
  | vote
  | edit
  | editTags
  | bot
  | readOnly
  | admin
deriving DecidableEq, Inhabited

instance : Word Role where
  title := "role"
  all := [.read, .vote, .edit, .editTags, .bot, .readOnly, .admin]
  mem_all role := by cases role <;> decide
  text
    | .read => "read"
    | .vote => "vote"
    | .edit => "edit"
    | .editTags => "edit_tags"
    | .bot => "bot"
    | .readOnly => "read_only"
    | .admin => "admin"
  text_inj first second := by cases first <;> cases second <;> decide

/-- An administrator holds every role, and whoever contributes may read. -/
def Role.grants (held required : Role) : Bool :=
  held = required ||
    match held with
    | .admin => true
    | .edit => required = .read
    | .vote => required = .read
    | .editTags => required = .read
    | .bot => required = .read
    | .read => false
    | .readOnly => false

/-- Some role in the list grants the required one. -/
def Role.anyGrants (held : List Role) (required : Role) : Bool :=
  held.any fun role => role.grants required

/-- What a moderator did. -/
inductive AuditAction where
  | editDelete
deriving DecidableEq, Inhabited

instance : Word AuditAction where
  title := "audit action"
  all := [.editDelete]
  mem_all action := by cases action; decide
  text
    | .editDelete => "edit_delete"
  text_inj first second := by cases first; cases second; decide

/-- How a scene is linked to another record. -/
inductive Association where
  | sceneTag
  | scenePerformer
deriving DecidableEq, Inhabited

instance : Word Association where
  title := "edge type"
  all := [.sceneTag, .scenePerformer]
  mem_all association := by cases association <;> decide
  text
    | .sceneTag => "scene_tag"
    | .scenePerformer => "scene_performer"
  text_inj first second := by cases first <;> cases second <;> decide

end Curation
