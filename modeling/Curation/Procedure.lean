/-
**Procedures.** A procedure works on a connection to the store, statement by statement. What it writes in
a transaction is kept once that is committed. A transaction that has not been committed is dropped at
its end, whether the procedure has succeeded by then, has been refused or has broken off, and whatever
was written in it is gone with it. Notices that have been sent cannot be taken back.

* `Procedure.inTransaction`, `Procedure.commit`: a transaction, and how its writes are kept;
* `Procedure.perform`, `Procedure.look`: statements and reads;
* `Procedure.attempt`: a refusal as a value, with all that had been written by then;
* `Procedure.outcome`: what a procedure leaves behind.
-/

import Curation.Review.Ledger
import Curation.Store.Statement

namespace Curation

/-- A transaction under way, and the number of identifiers issued by then. -/
structure Work where
  transaction : Transaction
  issued : Nat

/-- A connection to the store: what is kept, the transaction under way, and the notices sent so far. -/
structure Connection where
  kept : Ledger
  work : Option Work
  sent : List Notice

namespace Connection

/-- The store that is read: that of the transaction under way, or else the one that is kept. -/
def store (connection : Connection) : Store :=
  match connection.work with
  | some work => work.transaction.current
  | none => connection.kept.store

/-- The connection when a transaction has begun. -/
def opened (connection : Connection) : Connection :=
  { connection with
    work := some ⟨.start connection.kept.store, connection.kept.issued⟩ }

/-- The connection when the transaction under way, if there still is one, has been dropped. The
identifiers that were issued in it are issued again. -/
def closed (connection : Connection) : Connection :=
  match connection.work with
  | some work =>
    { connection with
      kept := { connection.kept with store := work.transaction.rollback }
      work := none }
  | none => connection

end Connection

/-- A procedure on a connection. One that gives no result leaves the connection as it is by then. -/
abbrev Procedure := EStateM Halt Connection

/-- The yes or no of a statement. -/
def Statement.Answer.held : Statement.Answer → Bool
  | .flag held => held
  | _ => false

/-- The number of rows of a statement. -/
def Statement.Answer.number : Statement.Answer → Nat
  | .count number => number
  | _ => 0

namespace Procedure

variable {α : Type}

/-! ### Reading and checking -/

/-- Reads from the store. -/
def look (read : Store → α) : Procedure α := fun connection =>
  .ok (read connection.store) connection

/-- The result of a test, or its refusal. -/
def ensure : Except ReviewError α → Procedure α
  | .ok result => pure result
  | .error error => throw (.refused error)

/-- A test of the store. -/
def check (test : Store → Except ReviewError α) : Procedure α := do
  ensure (← look test)

/-! ### Transactions -/

/-- Does something within a transaction of its own. Within another one there is no way to do so. -/
def inTransaction (body : Procedure α) : Procedure α := fun connection =>
  match connection.work with
  | some _ => .error .brokenOff connection
  | none =>
    match body connection.opened with
    | .ok result after => .ok result after.closed
    | .error halt after => .error halt after.closed

/-- Keeps what was written in the transaction under way, which ends. -/
def commit : Procedure Unit := fun connection =>
  match connection.work with
  | some work =>
    .ok () { connection with kept := ⟨work.transaction.commit, work.issued⟩, work := none }
  | none => .error .brokenOff connection

/-- Carries out a statement in the transaction under way. -/
def perform (statement : Statement) : Procedure Statement.Answer := fun connection =>
  match connection.work with
  | some work =>
    match work.transaction.perform statement with
    | .ok (answer, transaction) =>
      .ok answer { connection with work := some { work with transaction } }
    | .error error => .error (.refused (.store error)) connection
  | none => .error .brokenOff connection

/-- Carries out a statement whose answer does not matter. -/
def write (statement : Statement) : Procedure Unit := do
  let _ ← perform statement

/-- Carries out a statement that answers yes or no. -/
def ask (statement : Statement) : Procedure Bool := return (← perform statement).held

/-- Carries out a statement that counts rows. -/
def count (statement : Statement) : Procedure Nat := return (← perform statement).number

/-- Does something that may be refused. What it had written by then is not undone. -/
def attempt (procedure : Procedure α) : Procedure (Except ReviewError α) := fun connection =>
  match procedure connection with
  | .ok result after => .ok (.ok result) after
  | .error (.refused error) after => .ok (.error error) after
  | .error .brokenOff after => .error .brokenOff after

/-! ### Identifiers -/

/-- The identifier that is issued next; `draw` gives them in the order in which they are issued. -/
def upcoming {subject : Id.Subject} (draw : Nat → Uuid) : Procedure (Id subject) := fun connection =>
  match connection.work with
  | some work => .ok ⟨draw work.issued⟩ connection
  | none => .error .brokenOff connection

/-- Issues an identifier. -/
def issue {subject : Id.Subject} (draw : Nat → Uuid) : Procedure (Id subject) := fun connection =>
  match connection.work with
  | some work =>
    .ok ⟨draw work.issued⟩
      { connection with work := some { work with issued := work.issued + 1 } }
  | none => .error .brokenOff connection

/-! ### What is left behind -/

/-- Sends a notice. -/
def send (notice : Notice) : Procedure Unit := fun connection =>
  .ok () { connection with sent := connection.sent ++ [notice] }

/-- What a procedure leaves behind that begins with no transaction under way. -/
def outcome (procedure : Procedure α) (ledger : Ledger) : Outcome α :=
  match procedure ⟨ledger, none, []⟩ with
  | .ok result after => ⟨.ok result, after.kept, after.sent⟩
  | .error halt after => ⟨.error halt, after.kept, after.sent⟩

end Procedure

end Curation
