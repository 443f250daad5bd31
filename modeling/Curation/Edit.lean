/-
**Edits under review.** An edit proposes a change of one record and tells how its review stands.
Comments and votes belong to an edit.

* `Edit.close`: an edit leaves review with a status, and counts as applied if that status says so;
* `Edit.votingStarted`: voting starts anew when an edit is amended.
-/

import Curation.Proposal.Change

namespace Curation

/-- A proposed change of one record, and how its review stands. -/
structure Edit where
  id : EditId
  submitter : Option UserId
  kind : Kind
  operation : Operation
  status : Status
  target : Option EntityId
  sources : List EntityId
  details : Details
  score : Int32
  amendments : UInt32
  applied : Bool
  bot : Bool
  created : Instant
  updated : Option Instant
  closed : Option Instant
deriving DecidableEq, Inhabited

namespace Edit

/-- An edit is pending while its status is. -/
def isPending (edit : Edit) : Bool := edit.status.isPending

/-- The edit taken out of review with a status. -/
def close (edit : Edit) (status : Status) (instant : Instant) : Edit :=
  { edit with status := status, applied := status.isApplied, closed := some instant }

/-- The start of voting: the last amendment, or else the submission. -/
def votingStarted (edit : Edit) : Instant := edit.updated.getD edit.created

end Edit

/-- A remark on an edit; one without an author was made by the review itself. -/
structure Comment where
  id : CommentId
  edit : EditId
  author : Option UserId
  text : String
  created : Instant
deriving DecidableEq, Inhabited

/-- A user's vote on an edit. -/
structure Vote where
  edit : EditId
  voter : UserId
  choice : Choice
  created : Instant
deriving DecidableEq, Inhabited

end Curation
