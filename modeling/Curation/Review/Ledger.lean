/-
**The ledger.** The ledger is the store together with the number of identifiers issued so far. A step
on the ledger gives a result and the ledger after it, or an error and no ledger at all, since what a
failed step has written is taken back.

* `Outcome`: what an operation leaves behind, with the notices that it sent;
* `Effect`: what follows a step once its ledger is kept.
-/

import Curation.Review.Application

namespace Curation

/-- The store and the number of identifiers issued so far. -/
structure Ledger where
  store : Store
  issued : Nat

/-- The ledger at the beginning. -/
def Ledger.empty : Ledger := ⟨.empty, 0⟩

/-- A step on the ledger. -/
abbrev Step := StateT Ledger (Except ReviewError)

namespace Step

/-- Reads from the store. -/
def read {α : Type} (look : Store → α) : Step α := fun ledger => .ok (look ledger.store, ledger)

/-- A check of the store. -/
def check {α : Type} (test : Store → Except ReviewError α) : Step α := fun ledger =>
  (test ledger.store).map fun result => (result, ledger)

/-- Writes to the store. -/
def write (change : Store → Except StoreError Store) : Step Unit := fun ledger =>
  (Store.lift (change ledger.store)).map fun store => ((), { ledger with store })

/-- Writes to the store, with a result. -/
def writeWith {α : Type} (change : Store → Except StoreError (α × Store)) : Step α :=
  fun ledger =>
    (Store.lift (change ledger.store)).map fun (result, store) => (result, { ledger with store })

/-- Issues an identifier; `draw` gives the identifiers in the order in which they are issued. -/
def issue {subject : Id.Subject} (draw : Nat → Uuid) : Step (Id subject) := fun ledger =>
  .ok (⟨draw ledger.issued⟩, { ledger with issued := ledger.issued + 1 })

end Step

/-! ### Notices -/

/-- What listeners are told. -/
inductive Notice where
  | created (edit : Edit)
  | amended (edit : Edit)
  | commented (edit : Edit) (comment : Comment)
  | downvoted (edit : Edit)
  | canceled (edit : Edit)
  | applied (edit : Edit)

/-- What follows a step: a notice, or a user who may have earned the right to vote. -/
inductive Effect where
  | notify (notice : Notice)
  | promote (user : UserId)

/-- What follows the application of an edit. -/
def Effect.ofApplied (edit : Edit) : List Effect :=
  .notify (.applied edit) :: (edit.submitter.map Effect.promote).toList

/-- What an operation leaves behind. -/
structure Outcome (α : Type) where
  result : Except Halt α
  ledger : Ledger
  notices : List Notice

end Curation
