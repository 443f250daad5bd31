/-
**Snapshots of deleted edits.** All that is known about an edit when it is deleted is kept as JSON in
an audit, with a digest by which any change of the text is found out.

* `Audit.ofDeletion`: the audit of a deletion;
* `Audit.verifies`, `Audit.snapshot?`: checking its text and reading it back.
-/

import Curation.Datum.Json
import Curation.Digest.Blake3
import Curation.Portable.Edits

namespace Curation

open Portable

/-- All that is known about an edit when it is deleted. -/
structure Snapshot where
  edit : Edit
  comments : List Comment
  votes : List Vote
  deletedBy : UserId
  deletedAt : Instant
deriving DecidableEq

instance : Portable Snapshot where
  shape := .record false
    (.of "edit" Edit (.of "comments" (List Comment) (.of "votes" (List Vote)
      (.of "deleted_by" UserId (.of "deleted_at" Instant .nil)))))
  toDatum snapshot := .record
    [("edit", toDatum snapshot.edit),
      ("comments", toDatum snapshot.comments),
      ("votes", toDatum snapshot.votes),
      ("deleted_by", toDatum snapshot.deletedBy),
      ("deleted_at", toDatum snapshot.deletedAt)]
  ofDatum? datum := do
    return {
      edit := ← datum.member? "edit"
      comments := ← datum.member? "comments"
      votes := ← datum.member? "votes"
      deletedBy := ← datum.member? "deleted_by"
      deletedAt := ← datum.member? "deleted_at" }

namespace Audit

/-- The digest of a text. -/
def digestOf (data : String) : Digest := Blake3.hash (Bytes.Utf8.encode data)

/-- The audit of the deletion of an edit. -/
def ofDeletion (id : AuditId) (snapshot : Snapshot) (reason : String) : Audit :=
  let data := toJsonText snapshot
  { id
    action := .editDelete
    moderator := snapshot.deletedBy
    edit := snapshot.edit.id
    kind := snapshot.edit.kind
    data
    digest := digestOf data
    reason
    created := snapshot.deletedAt }

/-- The text of an audit has the digest that was kept with it. -/
def verifies (audit : Audit) : Bool := digestOf audit.data = audit.digest

/-- The snapshot in the text of an audit. -/
def snapshot? (audit : Audit) : Except Fault Snapshot :=
  match ofJsonText? audit.data with
  | some snapshot => .ok snapshot
  | none => .error .unreadable

end Audit

end Curation
