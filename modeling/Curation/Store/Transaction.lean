/-
**Transactions with savepoints.** A transaction works on its own copy of the store, which replaces
the store when the transaction is committed. A savepoint keeps the copy as it was; savepoints nest,
and of two with the same name the inner one is meant. A name is the same in letters of either case.

* `Transaction.rollbackTo?_savepoint`: going back to a savepoint undoes what came after it;
* `Transaction.release?_savepoint`: releasing it keeps what came after it.
-/

import Curation.Store
import Curation.Store.SavepointName

namespace Curation

/-- The copy of the store at a named point of a transaction. -/
structure Savepoint where
  name : String
  saved : Store
deriving DecidableEq

/-- A transaction under way, with its savepoints, the innermost first. -/
structure Transaction where
  began : Store
  current : Store
  savepoints : List Savepoint
deriving DecidableEq

namespace Transaction

/-- Begins a transaction on a store. -/
def start (store : Store) : Transaction := ⟨store, store, []⟩

/-- The store when a transaction is committed. -/
def commit (transaction : Transaction) : Store := transaction.current

/-- The store when a transaction ends without being committed. -/
def rollback (transaction : Transaction) : Store := transaction.began

/-- Two names of savepoints are the same but for the case of their letters. -/
def sameName (first second : String) : Bool :=
  first.toList.map Char.toLower = second.toList.map Char.toLower

/-- Sets a savepoint. -/
def savepoint (transaction : Transaction) (name : SavepointName) : Transaction :=
  { transaction with
    savepoints := ⟨name.name, transaction.current⟩ :: transaction.savepoints }

/-- The innermost savepoint with a name, and the savepoints around it. -/
def innermost? (name : String) : List Savepoint → Option (Savepoint × List Savepoint)
  | [] => none
  | point :: outer => if sameName point.name name then some (point, outer) else innermost? name outer

/-- Discards a savepoint and those within it, and keeps what was done since. -/
def release? (transaction : Transaction) (name : SavepointName) : Except StoreError Transaction :=
  match innermost? name.name transaction.savepoints with
  | some (_, outer) => .ok { transaction with savepoints := outer }
  | none => .error (.noSavepoint name.name)

/-- Undoes what was done since a savepoint and discards those within it; the savepoint stays. -/
def goBack? (transaction : Transaction) (name : SavepointName) : Except StoreError Transaction :=
  match innermost? name.name transaction.savepoints with
  | some (point, outer) => .ok { transaction with current := point.saved, savepoints := point :: outer }
  | none => .error (.noSavepoint name.name)

/-- Undoes what was done since a savepoint, and discards it and those within it. -/
def rollbackTo? (transaction : Transaction) (name : SavepointName) : Except StoreError Transaction :=
  transaction.goBack? name >>= fun back => back.release? name

section Meaning

variable {transaction after : Transaction} {name : SavepointName} {point : Savepoint}
  {outer : List Savepoint}

theorem innermost?_cons (name : String) (store : Store) (outer : List Savepoint) :
    innermost? name (⟨name, store⟩ :: outer) = some (⟨name, store⟩, outer) := by
  simp [innermost?, sameName]

theorem innermost?_some {name : String} {points : List Savepoint}
    (found : innermost? name points = some (point, outer)) :
    (point :: outer) <:+ points ∧ sameName point.name name = true := by
  induction points with
  | nil => cases found
  | cons first rest hypothesis =>
    unfold innermost? at found
    split at found
    next same =>
      cases found
      exact ⟨List.suffix_rfl, same⟩
    · obtain ⟨suffix, same⟩ := hypothesis found
      exact ⟨suffix.trans (List.suffix_cons first rest), same⟩

/-- What a savepoint that is found becomes when it is released. -/
theorem release?_found (found : innermost? name.name transaction.savepoints = some (point, outer)) :
    transaction.release? name = .ok { transaction with savepoints := outer } := by
  rw [release?, found]

theorem goBack?_found (found : innermost? name.name transaction.savepoints = some (point, outer)) :
    transaction.goBack? name =
      .ok { transaction with current := point.saved, savepoints := point :: outer } := by
  rw [goBack?, found]

theorem rollbackTo?_found
    (found : innermost? name.name transaction.savepoints = some (point, outer)) :
    transaction.rollbackTo? name =
      .ok { transaction with current := point.saved, savepoints := outer } := by
  -- After going back the savepoint is the innermost of all, so that it is the one that is released.
  have again : innermost? name.name (point :: outer) = some (point, outer) := by
    rw [innermost?, if_pos (innermost?_some found).2]
  show (transaction.goBack? name).bind (fun back => back.release? name) = _
  rw [goBack?_found found]
  exact release?_found again

theorem release?_missing (missing : innermost? name.name transaction.savepoints = none) :
    transaction.release? name = .error (.noSavepoint name.name) := by
  rw [release?, missing]

theorem goBack?_missing (missing : innermost? name.name transaction.savepoints = none) :
    transaction.goBack? name = .error (.noSavepoint name.name) := by
  rw [goBack?, missing]

theorem rollbackTo?_missing (missing : innermost? name.name transaction.savepoints = none) :
    transaction.rollbackTo? name = .error (.noSavepoint name.name) := by
  show (transaction.goBack? name).bind (fun back => back.release? name) = _
  rw [goBack?_missing missing]
  rfl

/-- What is released is a savepoint, with those within it. -/
theorem release?_ok (done : transaction.release? name = .ok after) :
    ∃ point outer, (point :: outer) <:+ transaction.savepoints ∧
      after = { transaction with savepoints := outer } := by
  cases found : innermost? name.name transaction.savepoints with
  | none =>
    rw [release?_missing found] at done
    cases done
  | some pair =>
    rw [release?_found found] at done
    cases done
    exact ⟨pair.1, pair.2, (innermost?_some found).1, rfl⟩

theorem goBack?_ok (done : transaction.goBack? name = .ok after) :
    ∃ point outer, (point :: outer) <:+ transaction.savepoints ∧
      after = { transaction with current := point.saved, savepoints := point :: outer } := by
  cases found : innermost? name.name transaction.savepoints with
  | none =>
    rw [goBack?_missing found] at done
    cases done
  | some pair =>
    rw [goBack?_found found] at done
    cases done
    exact ⟨pair.1, pair.2, (innermost?_some found).1, rfl⟩

theorem rollbackTo?_ok (done : transaction.rollbackTo? name = .ok after) :
    ∃ point outer, (point :: outer) <:+ transaction.savepoints ∧
      after = { transaction with current := point.saved, savepoints := outer } := by
  cases found : innermost? name.name transaction.savepoints with
  | none =>
    rw [rollbackTo?_missing found] at done
    cases done
  | some pair =>
    rw [rollbackTo?_found found] at done
    cases done
    exact ⟨pair.1, pair.2, (innermost?_some found).1, rfl⟩

theorem rollbackTo?_savepoint (transaction : Transaction) (name : SavepointName) (later : Store) :
    rollbackTo? { transaction.savepoint name with current := later } name = .ok transaction := by
  rw [rollbackTo?_found (innermost?_cons name.name transaction.current transaction.savepoints)]
  rfl

theorem release?_savepoint (transaction : Transaction) (name : SavepointName) (later : Store) :
    release? { transaction.savepoint name with current := later } name =
      .ok { transaction with current := later } :=
  release?_found (innermost?_cons name.name transaction.current transaction.savepoints)

end Meaning

end Transaction

end Curation
