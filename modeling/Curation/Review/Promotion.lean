/-
**Promotion.** A user enough of whose edits have been applied may vote.

* `Store.promote`: grants the role for voting where it is earned and not yet held.
-/

import Curation.Review.Error
import Curation.Store.Reviews

namespace Curation

/-- The statuses of edits that count for a promotion. -/
def Status.counting : List Status := [.accepted, .immediateAccepted]

/-- A user with these roles may vote already, or may not be promoted. -/
def Role.barsPromotion (roles : List Role) : Bool :=
  roles.any fun role => role = .readOnly || role.grants .vote

/-- Grants the role for voting to a user who has earned it, and tells whether it is new. -/
def Store.promote (store : Store) (user : UserId) (threshold : UInt32) :
    Except StoreError (Bool × Store) :=
  if Role.barsPromotion (store.roles user) then .ok (false, store)
  else if store.countEdits user Status.counting < threshold.toNat then .ok (false, store)
  else store.grantRole user .vote

end Curation
