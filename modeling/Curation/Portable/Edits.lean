/-
**Portable edits.** Edits with their comments and votes, and the rules of review. Rules may leave out
any of their members, which then keep their standard values.
-/

import Curation.Edit
import Curation.Portable.Records
import Curation.Rules

namespace Curation

open Portable

instance : Portable Operation := Word.portable Operation

instance : Portable Status := Word.portable Status

instance : Portable Choice := Word.portable Choice

instance : Portable Edit where
  shape := .record false
    (.of "id" EditId (.maybe "user_id" UserId (.of "target_type" Kind (.of "operation" Operation
    (.of "status" Status (.maybe "target_id" EntityId (.of "merge_source_ids" (List EntityId)
    (.of "details" Details (.of "vote_count" Int32 (.of "update_count" UInt32
    (.of "applied" Bool (.of "bot" Bool (.of "created_at" Instant (.maybe "updated_at" Instant
    (.maybe "closed_at" Instant .nil)))))))))))))))
  toDatum edit := .record
    [("id", toDatum edit.id),
      ("user_id", toDatum edit.submitter),
      ("target_type", toDatum edit.kind),
      ("operation", toDatum edit.operation),
      ("status", toDatum edit.status),
      ("target_id", toDatum edit.target),
      ("merge_source_ids", toDatum edit.sources),
      ("details", toDatum edit.details),
      ("vote_count", toDatum edit.score),
      ("update_count", toDatum edit.amendments),
      ("applied", toDatum edit.applied),
      ("bot", toDatum edit.bot),
      ("created_at", toDatum edit.created),
      ("updated_at", toDatum edit.updated),
      ("closed_at", toDatum edit.closed)]
  ofDatum? datum := do
    return {
      id := ← datum.member? "id"
      submitter := ← datum.member? "user_id"
      kind := ← datum.member? "target_type"
      operation := ← datum.member? "operation"
      status := ← datum.member? "status"
      target := ← datum.member? "target_id"
      sources := ← datum.member? "merge_source_ids"
      details := ← datum.member? "details"
      score := ← datum.member? "vote_count"
      amendments := ← datum.member? "update_count"
      applied := ← datum.member? "applied"
      bot := ← datum.member? "bot"
      created := ← datum.member? "created_at"
      updated := ← datum.member? "updated_at"
      closed := ← datum.member? "closed_at" }

instance : Portable Comment where
  shape := .record false
    (.of "id" CommentId (.of "edit_id" EditId (.maybe "user_id" UserId (.of "text" String
      (.of "created_at" Instant .nil)))))
  toDatum comment := .record
    [("id", toDatum comment.id),
      ("edit_id", toDatum comment.edit),
      ("user_id", toDatum comment.author),
      ("text", toDatum comment.text),
      ("created_at", toDatum comment.created)]
  ofDatum? datum := do
    return {
      id := ← datum.member? "id"
      edit := ← datum.member? "edit_id"
      author := ← datum.member? "user_id"
      text := ← datum.member? "text"
      created := ← datum.member? "created_at" }

instance : Portable Vote where
  shape := .record false
    (.of "edit_id" EditId (.of "user_id" UserId (.of "vote" Choice (.of "created_at" Instant .nil))))
  toDatum vote := .record
    [("edit_id", toDatum vote.edit),
      ("user_id", toDatum vote.voter),
      ("vote", toDatum vote.choice),
      ("created_at", toDatum vote.created)]
  ofDatum? datum := do
    return {
      edit := ← datum.member? "edit_id"
      voter := ← datum.member? "user_id"
      choice := ← datum.member? "vote"
      created := ← datum.member? "created_at" }

namespace Rules

/-- The members of rules, with their values where they are left out. -/
def data (rules : Rules) : List (String × Shape × Datum) :=
  [("vote_application_threshold", shape UInt32, toDatum rules.threshold),
    ("voting_period_secs", shape UInt64, toDatum rules.votingSeconds),
    ("min_destructive_voting_period_secs", shape UInt64, toDatum rules.destructiveSeconds),
    ("edit_update_limit", shape UInt32, toDatum rules.amendmentLimit),
    ("vote_promotion_threshold", shape (Option UInt32), toDatum rules.promotionThreshold),
    ("auto_apply_creates", shape Bool, toDatum rules.appliesCreates),
    ("require_tag_role", shape Bool, toDatum rules.guardsTags),
    ("mod_audit_retention_days", shape UInt32, toDatum rules.retentionDays)]

end Rules

instance : Portable Rules where
  shape := .record true
    (Fields.ofList (Rules.standard.data.map fun (name, shape, datum) => (name, shape, some datum)))
  toDatum rules := .record (rules.data.map fun (name, _, datum) => (name, datum))
  ofDatum? datum := do
    return {
      threshold := ← datum.member? "vote_application_threshold"
      votingSeconds := ← datum.member? "voting_period_secs"
      destructiveSeconds := ← datum.member? "min_destructive_voting_period_secs"
      amendmentLimit := ← datum.member? "edit_update_limit"
      promotionThreshold := ← datum.member? "vote_promotion_threshold"
      appliesCreates := ← datum.member? "auto_apply_creates"
      guardsTags := ← datum.member? "require_tag_role"
      retentionDays := ← datum.member? "mod_audit_retention_days" }

end Curation
