/-
**Audits of moderation.** An audit keeps the text of what was removed, a digest of that text, who
removed it, when and why.
-/

import Curation.Identity.Id
import Curation.Instant
import Curation.Vocabulary

namespace Curation

/-- The digest of a text. -/
structure Digest where
  bytes : List UInt8
deriving DecidableEq, Inhabited

/-- The record of what a moderator did. -/
structure Audit where
  id : AuditId
  action : AuditAction
  moderator : UserId
  edit : EditId
  kind : Kind
  data : String
  digest : Digest
  reason : String
  created : Instant
deriving DecidableEq, Inhabited

/-- Which audits to list: those of an action and a moderator, after an offset, up to a limit. -/
structure AuditFilter where
  action : Option AuditAction := none
  moderator : Option UserId := none
  limit : Option UInt32 := none
  offset : UInt32 := 0

/-- An audit is of the action and by the moderator that a filter names. -/
def AuditFilter.accepts (filter : AuditFilter) (audit : Audit) : Bool :=
  filter.action.all (fun action => action = audit.action) &&
    filter.moderator.all fun moderator => moderator = audit.moderator

end Curation
