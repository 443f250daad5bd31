/-
**Statements.** A statement is one write to the store or one step in the savepoints of a transaction.
A statement that fails leaves the transaction as it was.

* `Transaction.perform`: what a statement does and answers;
* `Statement.rollbackTo?`: what a text says of going back, which may be less than it should.
-/

import Curation.Store.Catalogue
import Curation.Store.Reviews
import Curation.Store.Transaction

namespace Curation

/-- The statements of a transaction. -/
inductive Statement where
  | insertEntity (id : EntityId) (kind : Kind) (now : Instant)
  | touchEntity (id : EntityId) (now : Instant)
  | tombstoneEntity (id : EntityId) (now : Instant)
  | setField (entity : EntityId) (key : String) (value : Value)
  | clearField (entity : EntityId) (key : String)
  | addMember (entity : EntityId) (list : String) (value : Value)
  | removeMember (entity : EntityId) (list : String) (value : Value)
  | insertEdge (association : Association) (source target : EntityId) (credit : Option String)
  | deleteEdge (association : Association) (source target : EntityId)
  | setCredit (association : Association) (source target : EntityId) (credit : Option String)
  | repointEdges (association : Association) (origin destination : EntityId)
  | insertRedirect (source target : EntityId) (now : Instant)
  | insertUser (id : UserId) (name : String) (now : Instant)
  | grantRole (user : UserId) (role : Role)
  | insertEdit (edit : Edit)
  | updateEdit (edit : Edit)
  | deleteEdit (id : EditId)
  | upsertVote (vote : Vote)
  | clearVotes (edit : EditId)
  | insertComment (comment : Comment)
  | insertAudit (audit : Audit)
  | deleteAuditsBefore (cutoff : Instant)
  | savepoint (name : SavepointName)
  | release (name : SavepointName)
  | goBack (name : SavepointName)
  | rollbackTo (name : SavepointName)

/-- What a statement answers. -/
inductive Statement.Answer where
  | done
  | flag (held : Bool)
  | count (number : Nat)
deriving DecidableEq

namespace Transaction

/-- A transaction whose store has been written. -/
def write (transaction : Transaction) (store : Store) : Statement.Answer × Transaction :=
  (.done, { transaction with current := store })

/-- A transaction whose store has been written, with a yes or no. -/
def writeFlag (transaction : Transaction) (result : Bool × Store) :
    Statement.Answer × Transaction :=
  (.flag result.1, { transaction with current := result.2 })

/-- A transaction whose store has been written, with a number of rows. -/
def writeCount (transaction : Transaction) (result : Nat × Store) :
    Statement.Answer × Transaction :=
  (.count result.1, { transaction with current := result.2 })

/-- Carries out a statement. -/
def perform (transaction : Transaction) :
    Statement → Except StoreError (Statement.Answer × Transaction)
  | .insertEntity id kind now =>
    transaction.write <$> transaction.current.insertEntity id kind now
  | .touchEntity id now => .ok (transaction.write (transaction.current.touchEntity id now))
  | .tombstoneEntity id now => transaction.write <$> transaction.current.tombstoneEntity id now
  | .setField entity key value =>
    transaction.write <$> transaction.current.setField entity key value
  | .clearField entity key => .ok (transaction.write (transaction.current.clearField entity key))
  | .addMember entity list value =>
    transaction.writeFlag <$> transaction.current.addMember entity list value
  | .removeMember entity list value =>
    .ok (transaction.writeFlag (transaction.current.removeMember entity list value))
  | .insertEdge association source target credit =>
    transaction.writeFlag <$> transaction.current.insertEdge association source target credit
  | .deleteEdge association source target =>
    .ok (transaction.writeFlag (transaction.current.deleteEdge association source target))
  | .setCredit association source target credit =>
    .ok (transaction.write (transaction.current.setCredit association source target credit))
  | .repointEdges association origin destination =>
    transaction.writeCount <$> transaction.current.repointEdges association origin destination
  | .insertRedirect source target now =>
    transaction.write <$> transaction.current.insertRedirect source target now
  | .insertUser id name now => transaction.write <$> transaction.current.insertUser id name now
  | .grantRole user role => transaction.writeFlag <$> transaction.current.grantRole user role
  | .insertEdit edit => transaction.write <$> transaction.current.insertEdit edit
  | .updateEdit edit => transaction.write <$> transaction.current.updateEdit edit
  | .deleteEdit id => .ok (transaction.writeFlag (transaction.current.deleteEdit id))
  | .upsertVote vote => transaction.write <$> transaction.current.upsertVote vote
  | .clearVotes edit => .ok (transaction.writeCount (transaction.current.clearVotes edit))
  | .insertComment comment => transaction.write <$> transaction.current.insertComment comment
  | .insertAudit audit => transaction.write <$> transaction.current.insertAudit audit
  | .deleteAuditsBefore cutoff =>
    .ok (transaction.writeCount (transaction.current.deleteAuditsBefore cutoff))
  | .savepoint name => .ok (.done, transaction.savepoint name)
  | .release name => (fun released => (.done, released)) <$> transaction.release? name
  | .goBack name => (fun back => (.done, back)) <$> transaction.goBack? name
  | .rollbackTo name => (fun restored => (.done, restored)) <$> transaction.rollbackTo? name

/-- A savepoint that is released leaves what was written since. -/
theorem perform_release (transaction : Transaction) (name : SavepointName) (later : Store) :
    perform { transaction.savepoint name with current := later } (.release name) =
      .ok (.done, { transaction with current := later }) := by
  show (fun released => (Statement.Answer.done, released)) <$> release? _ name = _
  rw [release?_savepoint transaction name later]
  rfl

/-- Going back to a savepoint leaves nothing of what was written since. -/
theorem perform_rollbackTo (transaction : Transaction) (name : SavepointName) (later : Store) :
    perform { transaction.savepoint name with current := later } (.rollbackTo name) =
      .ok (.done, transaction) := by
  show (fun restored => (Statement.Answer.done, restored)) <$> rollbackTo? _ name = _
  rw [rollbackTo?_savepoint transaction name later]
  rfl

end Transaction

/-! ### Savepoints by their texts -/

namespace Statement

/-- The statement that sets the savepoint that a text mentions. -/
def savepoint? (written : String) : Option Statement :=
  (SavepointName.Mention.ofText? written).map fun mention => .savepoint mention.name

/-- The statement that releases the savepoint that a text mentions. -/
def release? (written : String) : Option Statement :=
  (SavepointName.Mention.ofText? written).map fun mention => .release mention.name

/-- The statement that goes back to the savepoint that a text mentions. That would discard the savepoint
in a second command, after the text, but a comment takes it in. -/
def rollbackTo? (written : String) : Option Statement :=
  (SavepointName.Mention.ofText? written).map fun mention =>
    match mention with
    | .alone name => .rollbackTo name
    | .withComment name => .goBack name

/-- A text that is one name gives the statements with that name. -/
theorem of_written (name : SavepointName) :
    savepoint? name.written = some (.savepoint name) ∧
      release? name.written = some (.release name) ∧
        rollbackTo? name.written = some (.rollbackTo name) := by
  unfold savepoint? release? rollbackTo?
  rw [SavepointName.Mention.ofText?_written]
  exact ⟨rfl, rfl, rfl⟩

end Statement

end Curation
