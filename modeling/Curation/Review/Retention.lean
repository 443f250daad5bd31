/-
**Deletion and retention.** A deleted edit leaves an audit behind, and audits are dropped when they
are older than the rules keep them.
-/

import Curation.Audit.Snapshot
import Curation.Review.Error
import Curation.Store.Reviews

namespace Curation

/-- All that the store knows about an edit. -/
def Store.snapshot (store : Store) (edit : Edit) (deletedBy : UserId) (now : Instant) : Snapshot where
  edit
  comments := store.commentsOn edit.id
  votes := store.votesOn edit.id
  deletedBy
  deletedAt := now

/-- Removes an edit and leaves an audit of it. -/
def Store.deleteWithAudit (store : Store) (id : AuditId) (edit : Edit) (deletedBy : UserId)
    (reason : String) (now : Instant) : Except StoreError Store := do
  let audit := Audit.ofDeletion id (store.snapshot edit deletedBy now) reason
  let store ← store.insertAudit audit
  return (store.deleteEdit edit.id).2

/-- The milliseconds of a day. -/
def dayMillis : Int := 86400000

/-- The instant before which audits are dropped; none if they are kept for ever. There is no answer where
the days reach back before the first instant. -/
def Rules.retentionCutoff (rules : Rules) (now : Instant) : Except Halt (Option Instant) :=
  if rules.retentionDays = 0 then .ok none
  else
    match now.plusMillis? (-(rules.retentionDays.toNat * dayMillis)) with
    | some cutoff => .ok (some cutoff)
    | none => .error .brokenOff

end Curation
