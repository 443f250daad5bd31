/-
**The store.** All that the review keeps, as tables of rows in the order in which they were inserted.
Writes that would break a constraint fail and change nothing. The store tells time in milliseconds:
rows are ordered by the milliseconds of their instants, and no more of an instant is read back.

* `StoreError.message`: the wording of each failure.
-/

import Curation.Audit
import Curation.Catalogue.Value
import Curation.Edit
import Curation.Fault

namespace Curation

/-- A record of the catalogue, without what it holds. -/
structure EntityRow where
  id : EntityId
  kind : Kind
  created : Instant
  updated : Instant
  deleted : Bool
deriving DecidableEq

/-- What one field of a record holds. -/
structure FieldRow where
  entity : EntityId
  key : String
  value : Value
deriving DecidableEq

/-- One member of a collection of a record. -/
structure MemberRow where
  entity : EntityId
  list : String
  value : Value
deriving DecidableEq

/-- A scene's link to a tag or performer; the credit is the performer's name on that scene. -/
structure Edge where
  association : Association
  source : EntityId
  target : EntityId
  credit : Option String
deriving DecidableEq

/-- A record was merged into another. -/
structure Redirect where
  source : EntityId
  target : EntityId
  created : Instant
deriving DecidableEq

/-- A registered user. -/
structure User where
  id : UserId
  name : String
  created : Instant
deriving DecidableEq

/-- A user holds a role. -/
structure Grant where
  user : UserId
  role : Role
deriving DecidableEq

/-- The tables of the store. -/
structure Store where
  entities : List EntityRow
  fields : List FieldRow
  members : List MemberRow
  edges : List Edge
  redirects : List Redirect
  users : List User
  grants : List Grant
  edits : List Edit
  votes : List Vote
  comments : List Comment
  audits : List Audit
deriving DecidableEq

/-- The store with no rows. -/
def Store.empty : Store := ⟨[], [], [], [], [], [], [], [], [], [], []⟩

instance : Inhabited Store := ⟨.empty⟩

/-- The version of the tables. -/
def Store.version : Nat := 1

/-! ### Time -/

/-- A record as it is read back. -/
def EntityRow.toMillisecond (row : EntityRow) : EntityRow :=
  { row with created := row.created.toMillisecond, updated := row.updated.toMillisecond }

/-- An edit as it is read back. -/
def Edit.toMillisecond (edit : Edit) : Edit :=
  { edit with
    created := edit.created.toMillisecond
    updated := edit.updated.map Instant.toMillisecond
    closed := edit.closed.map Instant.toMillisecond }

@[simp] theorem Edit.toMillisecond_toMillisecond (edit : Edit) :
    edit.toMillisecond.toMillisecond = edit.toMillisecond := by
  obtain ⟨_, _, _, _, _, _, _, _, _, _, _, _, created, updated, closed⟩ := edit
  cases updated <;> cases closed <;> simp [toMillisecond]

/-- A vote as it is read back. -/
def Vote.toMillisecond (vote : Vote) : Vote :=
  { vote with created := vote.created.toMillisecond }

/-- A comment as it is read back. -/
def Comment.toMillisecond (comment : Comment) : Comment :=
  { comment with created := comment.created.toMillisecond }

/-- An audit as it is read back. -/
def Audit.toMillisecond (audit : Audit) : Audit :=
  { audit with created := audit.created.toMillisecond }

/-- One instant is no later than another, as far as the store can tell. -/
def Store.noLater (first second : Instant) : Bool := first.toMillis ≤ second.toMillis

/-- One row comes no later than another; of two at the same time the one with the lesser identifier
comes first. -/
def Store.inOrder {α : Type} (time : α → Instant) (tie : α → Uuid) (first second : α) : Bool :=
  noLater (time first) (time second) &&
    (!noLater (time second) (time first) || decide (tie first ≤ tie second))

theorem Store.inOrder_iff {α : Type} {time : α → Instant} {tie : α → Uuid} {first second : α} :
    inOrder time tie first second = true ↔
      (time first).toMillis < (time second).toMillis ∨
        ((time first).toMillis = (time second).toMillis ∧ tie first ≤ tie second) := by
  simp only [inOrder, noLater, Bool.and_eq_true, Bool.or_eq_true, Bool.not_eq_true',
    decide_eq_true_eq, decide_eq_false_iff_not]
  by_cases ties : tie first ≤ tie second
  · simp only [ties, or_true, and_true]
    omega
  · simp only [ties, or_false, and_false]
    omega

/-- Of two rows one comes no later than the other. -/
theorem Store.inOrder_total {α : Type} (time : α → Instant) (tie : α → Uuid) (first second : α) :
    inOrder time tie first second = true ∨ inOrder time tie second first = true := by
  rw [inOrder_iff, inOrder_iff]
  rcases Int.lt_trichotomy (time first).toMillis (time second).toMillis with early | same | late
  · exact .inl (.inl early)
  · rcases Uuid.le_total (tie first) (tie second) with least | greatest
    · exact .inl (.inr ⟨same, least⟩)
    · exact .inr (.inr ⟨same.symm, greatest⟩)
  · exact .inr (.inl late)

theorem Store.inOrder_trans {α : Type} {time : α → Instant} {tie : α → Uuid} {first second third : α}
    (left : inOrder time tie first second = true) (right : inOrder time tie second third = true) :
    inOrder time tie first third = true := by
  rw [inOrder_iff] at left right ⊢
  rcases left with early | ⟨same, least⟩
  · rcases right with later | ⟨also, -⟩
    · exact .inl (by omega)
    · exact .inl (by omega)
  · rcases right with later | ⟨also, lesser⟩
    · exact .inl (by omega)
    · exact .inr ⟨by omega, Uuid.le_trans least lesser⟩

/-! ### Failures -/

/-- The classes of failure. -/
inductive StoreError.Class where
  | database
  | serialization
  | notFound
  | violation
deriving DecidableEq

/-- How messages about a class of failure begin. -/
def StoreError.Class.title : StoreError.Class → String
  | .database => "sqlite error"
  | .serialization => "serialization error"
  | .notFound => "not found"
  | .violation => "constraint violation"

/-- Why the store refuses. -/
inductive StoreError where
  | danglingReference
  | closingMismatch
  | duplicate (column : String)
  | noSavepoint (name : String)
  | unknownAssociation (written : String)
  | noEntity (id : EntityId)
  | noEdit (id : EditId)
  | entityExists (id : EntityId)
  | userExists (name : String)
  | data (fault : Fault)
  | stated (kind : StoreError.Class) (reason : String)
deriving DecidableEq

namespace StoreError

/-- The class of a failure; a fault of the data is of none of them. -/
def kind? : StoreError → Option Class
  | .danglingReference => some .database
  | .closingMismatch => some .database
  | .duplicate _ => some .database
  | .noSavepoint _ => some .database
  | .unknownAssociation _ => some .serialization
  | .noEntity _ => some .notFound
  | .noEdit _ => some .notFound
  | .entityExists _ => some .violation
  | .userExists _ => some .violation
  | .data _ => none
  | .stated kind _ => some kind

/-- The message of a failure. -/
def message : StoreError → String
  | .danglingReference => Class.database.title ++ ": FOREIGN KEY constraint failed"
  | .closingMismatch =>
    Class.database.title ++
      ": CHECK constraint failed: (status = 'pending') = (closed_at IS NULL)"
  | .duplicate column => Class.database.title ++ ": UNIQUE constraint failed: " ++ column
  | .noSavepoint name => Class.database.title ++ ": no such savepoint: " ++ name
  | .unknownAssociation written =>
    Class.serialization.title ++ ": unknown edge type: " ++ written
  | .noEntity id => Class.notFound.title ++ ": entity " ++ id.toText
  | .noEdit id => Class.notFound.title ++ ": edit " ++ id.toText
  | .entityExists id => Class.violation.title ++ ": entity " ++ id.toText ++ " already exists"
  | .userExists name => Class.violation.title ++ ": user " ++ name ++ " already exists"
  | .data fault => "core error: " ++ fault.message
  | .stated kind reason => kind.title ++ ": " ++ reason

end StoreError

/-- Reads the word for an association. -/
def Association.read (written : String) : Except StoreError Association :=
  match Word.ofText? written with
  | some association => .ok association
  | none => .error (.unknownAssociation written)

end Curation
