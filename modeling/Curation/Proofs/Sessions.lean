/-
**Sessions with the store.** A session is any sequence of statements, commits and rollbacks, beginning
with an empty store. Statements that are made of several parts carry them out one after the other, and a
part that fails does not undo those before it. The store is nevertheless left as it was by every
statement that fails: where links are to be moved to a record that does not exist, no link leads there,
and so none was dropped for being in the way. A savepoint is named by a text that is one name, with or
without a comment after it.

The record that a value refers to is kept in a column of its own, by which referrers are looked up; it is
written along with the value and always agrees with it.

* `Transaction.perform_moves`: every statement writes to one part of the store or is a step in the
  savepoints;
* `Transaction.attempt`, `Transaction.attempt_eq`: a statement in its parts, and as a whole;
* `Store.lines`, `Transaction.perform_lines`: the fields with the column of references;
* `Transaction.session_constrained`: what holds of the store in every session.
-/

import Curation.Proofs.Constraints
import Curation.Proofs.Substitution
import Curation.Store.Statement

namespace Curation

variable {transaction next : Transaction} {answer : Statement.Answer} {statement : Statement}
  {store : Store}

namespace Transaction

/-! ### What statements do -/

/-- What becomes of a transaction in a statement: one part of its store is written to, or its savepoints
are. -/
inductive Moves (before : Transaction) : Transaction → Prop where
  | catalogue {store : Store} (written : before.current.Written store) :
      Moves before { before with current := store }
  | review {store : Store} (reviews : before.current.Reviews store) :
      Moves before { before with current := store }
  | savepoint (name : SavepointName) : Moves before (before.savepoint name)
  | release {point : Savepoint} {outer : List Savepoint}
      (inner : (point :: outer) <:+ before.savepoints) :
      Moves before { before with savepoints := outer }
  | goBack {point : Savepoint} {outer : List Savepoint}
      (inner : (point :: outer) <:+ before.savepoints) :
      Moves before { before with current := point.saved, savepoints := point :: outer }
  | rollbackTo {point : Savepoint} {outer : List Savepoint}
      (inner : (point :: outer) <:+ before.savepoints) :
      Moves before { before with current := point.saved, savepoints := outer }

theorem map_write_ok {change : Except StoreError Store}
    (done : transaction.write <$> change = .ok (answer, next)) :
    ∃ store, change = .ok store ∧ next = { transaction with current := store } := by
  obtain ⟨store, written, same⟩ := Except.map_ok.mp done
  cases same
  exact ⟨store, written, rfl⟩

theorem map_writeFlag_ok {change : Except StoreError (Bool × Store)}
    (done : transaction.writeFlag <$> change = .ok (answer, next)) :
    ∃ flag store, change = .ok (flag, store) ∧ next = { transaction with current := store } := by
  obtain ⟨⟨flag, store⟩, written, same⟩ := Except.map_ok.mp done
  cases same
  exact ⟨flag, store, written, rfl⟩

theorem map_writeCount_ok {change : Except StoreError (Nat × Store)}
    (done : transaction.writeCount <$> change = .ok (answer, next)) :
    ∃ count store, change = .ok (count, store) ∧ next = { transaction with current := store } := by
  obtain ⟨⟨count, store⟩, written, same⟩ := Except.map_ok.mp done
  cases same
  exact ⟨count, store, written, rfl⟩

/-- **What a statement does** when it succeeds. -/
theorem perform_moves
    (done : transaction.perform statement = .ok (answer, next)) : transaction.Moves next := by
  cases statement with
  | insertEntity id kind now =>
    obtain ⟨store, written, rfl⟩ := map_write_ok done
    exact .catalogue (.insertEntity id kind now .keep written)
  | touchEntity id now =>
    cases done
    exact .catalogue (.touchEntity id now .keep)
  | tombstoneEntity id now =>
    obtain ⟨store, written, rfl⟩ := map_write_ok done
    exact .catalogue (.tombstoneEntity id now .keep written)
  | setField entity key value =>
    obtain ⟨store, written, rfl⟩ := map_write_ok done
    exact .catalogue (.setField entity key value .keep written)
  | clearField entity key =>
    cases done
    exact .catalogue (.clearField entity key .keep)
  | addMember entity list value =>
    obtain ⟨isNew, store, written, rfl⟩ := map_writeFlag_ok done
    exact .catalogue (.addMember entity list value .keep written)
  | removeMember entity list value =>
    cases done
    exact .catalogue (.removeMember entity list value .keep)
  | insertEdge association source target credit =>
    obtain ⟨isNew, store, written, rfl⟩ := map_writeFlag_ok done
    exact .catalogue (.insertEdge association source target credit .keep written)
  | deleteEdge association source target =>
    cases done
    exact .catalogue (.deleteEdge association source target .keep)
  | setCredit association source target credit =>
    cases done
    exact .catalogue (.setCredit association source target credit .keep)
  | repointEdges association origin destination =>
    obtain ⟨moved, store, written, rfl⟩ := map_writeCount_ok done
    exact .catalogue (.repointEdges association origin destination .keep written)
  | insertRedirect source target now =>
    obtain ⟨store, written, rfl⟩ := map_write_ok done
    exact .catalogue (.insertRedirect source target now .keep written)
  | insertUser id name now =>
    obtain ⟨store, written, rfl⟩ := map_write_ok done
    exact .review (.insertUser id name now written)
  | grantRole user role =>
    obtain ⟨isNew, store, written, rfl⟩ := map_writeFlag_ok done
    exact .review (.grantRole user role written)
  | insertEdit edit =>
    obtain ⟨store, written, rfl⟩ := map_write_ok done
    exact .review (.insertEdit edit written)
  | updateEdit edit =>
    obtain ⟨store, written, rfl⟩ := map_write_ok done
    exact .review (.updateEdit edit written)
  | deleteEdit id =>
    cases done
    exact .review (.deleteEdit id)
  | upsertVote vote =>
    obtain ⟨store, written, rfl⟩ := map_write_ok done
    exact .review (.upsertVote vote written)
  | clearVotes id =>
    cases done
    exact .review (.clearVotes id)
  | insertComment comment =>
    obtain ⟨store, written, rfl⟩ := map_write_ok done
    exact .review (.insertComment comment written)
  | insertAudit audit =>
    obtain ⟨store, written, rfl⟩ := map_write_ok done
    exact .review (.insertAudit audit written)
  | deleteAuditsBefore cutoff =>
    cases done
    exact .review (.deleteAuditsBefore cutoff)
  | savepoint name =>
    cases done
    exact .savepoint name
  | release name =>
    obtain ⟨released, found, same⟩ := Except.map_ok.mp done
    cases same
    obtain ⟨point, outer, inner, rfl⟩ := release?_ok found
    exact .release inner
  | goBack name =>
    obtain ⟨back, found, same⟩ := Except.map_ok.mp done
    cases same
    obtain ⟨point, outer, inner, rfl⟩ := goBack?_ok found
    exact .goBack inner
  | rollbackTo name =>
    obtain ⟨restored, found, same⟩ := Except.map_ok.mp done
    cases same
    obtain ⟨point, outer, inner, rfl⟩ := rollbackTo?_ok found
    exact .rollbackTo inner

/-- Every store that a transaction may come back to has a property. -/
structure Throughout (property : Store → Prop) (transaction : Transaction) : Prop where
  began : property transaction.began
  current : property transaction.current
  saved : ∀ point ∈ transaction.savepoints, property point.saved

theorem Throughout.start {property : Store → Prop} {store : Store} (holds : property store) :
    (start store).Throughout property :=
  ⟨holds, holds, fun _ member => nomatch member⟩

/-- **A property that writes keep is kept throughout a transaction**, also by going back. -/
theorem Moves.throughout {property : Store → Prop}
    (writes : ∀ {first second : Store}, first.Written second → property first → property second)
    (reviews : ∀ {first second : Store}, first.Reviews second → property first → property second)
    (moves : transaction.Moves next) (holds : transaction.Throughout property) :
    next.Throughout property := by
  cases moves with
  | catalogue written => exact ⟨holds.began, writes written holds.current, holds.saved⟩
  | review written => exact ⟨holds.began, reviews written holds.current, holds.saved⟩
  | savepoint name =>
    exact ⟨holds.began, holds.current, List.forall_mem_cons.mpr ⟨holds.current, holds.saved⟩⟩
  | release inner =>
    exact ⟨holds.began, holds.current,
      fun other member => holds.saved other (inner.subset (List.mem_cons_of_mem _ member))⟩
  | goBack inner =>
    exact ⟨holds.began, holds.saved _ (inner.subset List.mem_cons_self),
      fun other member => holds.saved other (inner.subset member)⟩
  | rollbackTo inner =>
    exact ⟨holds.began, holds.saved _ (inner.subset List.mem_cons_self),
      fun other member => holds.saved other (inner.subset (List.mem_cons_of_mem _ member))⟩

/-! ### Statements in parts -/

/-- A part of a statement, which is done as a whole, or fails and changes nothing. -/
abbrev Part := Transaction → Except StoreError (Statement.Answer × Transaction)

end Transaction

namespace Store

/-- Marks a record as removed. -/
def markRemoved (store : Store) (id : EntityId) (now : Instant) : Except StoreError Store :=
  if store.hasEntity id then
    .ok { store with
      entities := store.entities.map fun row =>
        if row.id = id then { row with updated := now, deleted := true } else row }
  else .error (.noEntity id)

/-- Drops every link that touches a record. -/
def dropLinks (store : Store) (id : EntityId) : Store :=
  { store with edges := store.edges.filter fun edge => edge.source ≠ id ∧ edge.target ≠ id }

/-- Drops the links to one record where there is one to another as well. -/
def dropColliding (store : Store) (association : Association) (origin destination : EntityId) :
    Store :=
  { store with
    edges := store.edges.filter fun edge =>
      ¬ (edge.association = association ∧ edge.target = origin ∧
        store.edges.any (joins association edge.source destination)) }

/-- Moves the links to one record onto another, and tells how many there are. -/
def moveLinks (store : Store) (association : Association) (origin destination : EntityId) :
    Except StoreError (Nat × Store) :=
  let moves (edge : Edge) : Bool := edge.association = association && edge.target = origin
  let moved := store.edges.countP moves
  if moved = 0 then .ok (0, store)
  else if store.hasEntity destination then
    .ok (moved, { store with
      edges := store.edges.map fun edge =>
        if moves edge then { edge with target := destination } else edge })
  else .error .danglingReference

/-- Removes the comments on an edit. -/
def clearComments (store : Store) (edit : EditId) : Store :=
  { store with comments := store.comments.filter fun comment => comment.edit ≠ edit }

/-- Removes an edit alone, and tells whether it was there. -/
def dropEdit (store : Store) (id : EditId) : Bool × Store :=
  (store.hasEdit id, { store with edits := store.edits.filter fun edit => edit.id ≠ id })

end Store

namespace Transaction

/-- The parts of a statement; most have one. -/
def parts : Statement → List Part
  | .tombstoneEntity id now =>
    [fun transaction => transaction.write <$> transaction.current.markRemoved id now,
      fun transaction => .ok (transaction.write (transaction.current.dropLinks id))]
  | .repointEdges association origin destination =>
    [fun transaction =>
        .ok (transaction.write (transaction.current.dropColliding association origin destination)),
      fun transaction =>
        transaction.writeCount <$> transaction.current.moveLinks association origin destination]
  | .deleteEdit id =>
    [fun transaction => .ok (transaction.writeCount (transaction.current.clearVotes id)),
      fun transaction => .ok (transaction.write (transaction.current.clearComments id)),
      fun transaction => .ok (transaction.writeFlag (transaction.current.dropEdit id))]
  | .rollbackTo name =>
    [fun transaction => transaction.perform (.goBack name),
      fun transaction => transaction.perform (.release name)]
  | statement => [fun transaction => transaction.perform statement]

/-- Carries out parts one after the other, up to one that fails; what was done before it stays. The
answer is that of the last part. -/
def carry (answer : Statement.Answer) (transaction : Transaction) :
    List Part → Except StoreError Statement.Answer × Transaction
  | [] => (.ok answer, transaction)
  | part :: rest =>
    match part transaction with
    | .ok (answer, next) => carry answer next rest
    | .error error => (.error error, transaction)

/-- Attempts a statement, part after part. -/
def attempt (transaction : Transaction) (statement : Statement) :
    Except StoreError Statement.Answer × Transaction :=
  transaction.carry .done (parts statement)

/-- What comes of a statement that is carried out as a whole or not at all. -/
def outcome (transaction : Transaction) (statement : Statement) :
    Except StoreError Statement.Answer × Transaction :=
  match transaction.perform statement with
  | .ok (answer, next) => (.ok answer, next)
  | .error error => (.error error, transaction)

theorem carry_perform (answer : Statement.Answer) (transaction : Transaction) (statement : Statement) :
    transaction.carry answer [fun transaction => transaction.perform statement] =
      transaction.outcome statement := by
  unfold carry outcome
  dsimp only
  cases transaction.perform statement <;> rfl

/-- Parts that cannot fail are followed by the others. -/
theorem carry_ok {answer given : Statement.Answer} {part : Part} {rest : List Part}
    (done : part transaction = .ok (given, next)) :
    transaction.carry answer (part :: rest) = next.carry given rest := by
  rw [carry, done]

theorem tombstoneEntity_attempt (transaction : Transaction) (id : EntityId) (now : Instant) :
    transaction.attempt (.tombstoneEntity id now) = transaction.outcome (.tombstoneEntity id now) := by
  by_cases known : transaction.current.hasEntity id = true
  · have marked : transaction.current.markRemoved id now = .ok _ := if_pos known
    have removed : transaction.current.tombstoneEntity id now = .ok _ := if_pos known
    unfold attempt outcome parts perform
    simp only [carry, marked, removed]
    rfl
  · have marked : transaction.current.markRemoved id now = .error _ := if_neg known
    have removed : transaction.current.tombstoneEntity id now = .error _ := if_neg known
    unfold attempt outcome parts perform
    simp only [carry, marked, removed]
    rfl

/-- No link leads to a record that does not exist, so none is dropped on its account. -/
theorem dropColliding_missing {association : Association} {origin destination : EntityId}
    (joined : store.Joined) (missing : ¬ store.hasEntity destination = true) :
    store.dropColliding association origin destination = store := by
  have free : ∀ edge ∈ store.edges, ¬ (edge.association = association ∧ edge.target = origin ∧
      store.edges.any (Store.joins association edge.source destination) = true) := by
    rintro edge - ⟨-, -, taken⟩
    obtain ⟨other, stored, leads⟩ := List.any_eq_true.mp taken
    have there : other.target = destination := congrArg (fun ends => ends.2.2) (Store.joins_iff.mp leads)
    exact missing (there ▸ (joined.edgeEnds other stored).2)
  unfold Store.dropColliding
  rw [List.filter_eq_self.mpr fun edge member => decide_eq_true (free edge member)]

theorem repointEdges_attempt (joined : transaction.current.Joined) (association : Association)
    (origin destination : EntityId) :
    transaction.attempt (.repointEdges association origin destination) =
      transaction.outcome (.repointEdges association origin destination) := by
  have dropped : transaction.attempt (.repointEdges association origin destination) = _ :=
    carry_ok rfl
  have both : transaction.current.repointEdges association origin destination =
      (transaction.current.dropColliding association origin destination).moveLinks association origin
        destination := rfl
  have whole : transaction.perform (.repointEdges association origin destination) =
      transaction.writeCount <$> transaction.current.repointEdges association origin destination := rfl
  rw [dropped, outcome, whole, both]
  cases moving : (transaction.current.dropColliding association origin destination).moveLinks
      association origin destination with
  | ok moved =>
    simp only [carry, moving]
    rfl
  | error error =>
    have missing : ¬ transaction.current.hasEntity destination = true := by
      unfold Store.moveLinks at moving
      dsimp only at moving
      split at moving
      · cases moving
      · split at moving
        · cases moving
        next missing => exact missing
    rw [dropColliding_missing joined missing] at moving ⊢
    simp only [carry, moving]

theorem rollbackTo_attempt (transaction : Transaction) (name : SavepointName) :
    transaction.attempt (.rollbackTo name) = transaction.outcome (.rollbackTo name) := by
  unfold attempt outcome parts perform
  cases found : innermost? name.name transaction.savepoints with
  | none => simp [carry, goBack?_missing found, rollbackTo?_missing found]
  | some pair =>
    obtain ⟨point, outer⟩ := pair
    have again : innermost? name.name (point :: outer) = some (point, outer) := by
      rw [innermost?, if_pos (innermost?_some found).2]
    simp [carry, goBack?_found found, rollbackTo?_found found, release?, again]

/-- **A statement is carried out as a whole or not at all**, although some have several parts. -/
theorem attempt_eq (joined : transaction.current.Joined) (statement : Statement) :
    transaction.attempt statement = transaction.outcome statement := by
  cases statement with
  | tombstoneEntity id now => exact transaction.tombstoneEntity_attempt id now
  | repointEdges association origin destination =>
    exact transaction.repointEdges_attempt joined association origin destination
  | deleteEdit id => rfl
  | rollbackTo name => exact transaction.rollbackTo_attempt name
  | _ => exact carry_perform .done transaction _

end Transaction

/-! ### The column of references -/

namespace Store

/-- A row of the table of fields as it is kept: the record to which the value refers stands in a column
of its own. -/
structure Line where
  entity : EntityId
  key : String
  value : Value
  reference : Option EntityId

/-- The table of fields as it is kept. -/
def lines (store : Store) : List Line :=
  store.fields.map fun row => ⟨row.entity, row.key, row.value, row.value.reference?⟩

/-- Overwrites the line of a field, or adds one; the column is set along with the value. -/
def Line.upsert (lines : List Line) (entity : EntityId) (key : String) (value : Value) : List Line :=
  if lines.any fun line => line.entity = entity ∧ line.key = key then
    lines.map fun line =>
      if line.entity = entity ∧ line.key = key then
        { line with value := value, reference := value.reference? }
      else line
  else lines ++ [⟨entity, key, value, value.reference?⟩]

/-- Deletes the line of a field. -/
def Line.delete (lines : List Line) (entity : EntityId) (key : String) : List Line :=
  lines.filter fun line => ¬ (line.entity = entity ∧ line.key = key)

/-- What a statement writes to the table of fields. -/
def Line.write (lines : List Line) : Statement → List Line
  | .setField entity key value => Line.upsert lines entity key value
  | .clearField entity key => Line.delete lines entity key
  | _ => lines

/-- The records whose line for a key has a given record in the column, ordered by identifier. -/
def Line.referrers (lines : List Line) (key : String) (target : EntityId) : List EntityId :=
  sortBy (fun first second => first.uuid ≤ second.uuid)
    ((lines.filter fun line => line.key = key ∧ line.reference = some target).map Line.entity)

theorem reference?_eq_some {value : Value} {target : EntityId} :
    value.reference? = some target ↔ value = .reference target := by
  cases value <;> simp [Value.reference?]

/-- **Looking a record up in the column finds the fields that refer to it.** -/
theorem referrers_lines (store : Store) (key : String) (target : EntityId) :
    store.referrers key target = Line.referrers store.lines key target := by
  unfold referrers Line.referrers lines
  rw [List.filter_map, List.map_map]
  congr 2
  refine List.filter_congr fun row _ => ?_
  rw [Function.comp_apply, Bool.eq_iff_iff, decide_eq_true_iff, decide_eq_true_iff,
    reference?_eq_some]

theorem lines_congr {first second : Store} (fields : second.fields = first.fields) :
    second.lines = first.lines := by
  unfold lines
  rw [fields]

/-- Giving a field a value sets its column along with the value. -/
theorem lines_setField {after : Store} {entity : EntityId} {key : String} {value : Value}
    (done : store.setField entity key value = .ok after) :
    after.lines = Line.upsert store.lines entity key value := by
  have known : (store.lines.any fun line => line.entity = entity ∧ line.key = key) =
      (store.field? entity key).isSome := by
    unfold lines field?
    rw [List.any_map, Option.isSome_map, List.isSome_find?]
    rfl
  unfold setField at done
  unfold Line.upsert
  rw [known]
  split at done
  · split at done
    next set =>
      cases done
      rw [if_pos set]
      unfold lines
      rw [List.map_map, List.map_map]
      refine List.map_congr_left fun row _ => ?_
      rw [Function.comp_apply, Function.comp_apply]
      by_cases same : row.entity = entity ∧ row.key = key
      · rw [if_pos same, if_pos same]
      · rw [if_neg same, if_neg same]
    next unset =>
      cases done
      rw [if_neg unset]
      unfold lines
      rw [List.map_append, List.map_singleton]
  · cases done

theorem lines_clearField (store : Store) (entity : EntityId) (key : String) :
    (store.clearField entity key).lines = Line.delete store.lines entity key := by
  unfold lines clearField Line.delete
  rw [List.filter_map]
  rfl

/-- Who is found to refer to a record is listed once. -/
theorem Keyed.nodup_referrers (keyed : store.Keyed) (key : String) (target : EntityId) :
    (store.referrers key target).Nodup := by
  unfold referrers
  rw [(perm_sortBy _ _).nodup_iff]
  refine .of_map (fun entity => (entity, key)) ?_
  have named : (store.fields.filter fun row => row.key = key ∧ row.value = .reference target).map
      (fun row => (row.entity, row.key)) =
        ((store.fields.filter fun row => row.key = key ∧ row.value = .reference target).map
          FieldRow.entity).map fun entity => (entity, key) := by
    rw [List.map_map]
    refine List.map_congr_left fun row member => ?_
    have held := (List.mem_filter.mp member).2
    rw [Function.comp_apply, (of_decide_eq_true held).1]
  rw [← named]
  exact keyed.sublist (List.filter_sublist.map _)

end Store

namespace Transaction

/-- **The column of references is written along with the values.** Only going back to a savepoint, which
puts all tables back, changes the table of fields in another way. -/
theorem perform_lines (done : transaction.perform statement = .ok (answer, next))
    (forward : ∀ name, statement ≠ .goBack name ∧ statement ≠ .rollbackTo name) :
    next.current.lines = Store.Line.write transaction.current.lines statement := by
  cases statement with
  | insertEntity id kind now =>
    obtain ⟨store, written, rfl⟩ := map_write_ok done
    exact Store.lines_congr (by rw [(Store.insertEntity_frame written).2])
  | tombstoneEntity id now =>
    obtain ⟨store, written, rfl⟩ := map_write_ok done
    exact Store.lines_congr (by rw [Store.tombstoneEntity_frame written])
  | setField entity key value =>
    obtain ⟨store, written, rfl⟩ := map_write_ok done
    exact Store.lines_setField written
  | clearField entity key =>
    cases done
    exact transaction.current.lines_clearField entity key
  | addMember entity list value =>
    obtain ⟨isNew, store, written, rfl⟩ := map_writeFlag_ok done
    exact Store.lines_congr (by rw [Store.addMember_frame written])
  | insertEdge association source target credit =>
    obtain ⟨isNew, store, written, rfl⟩ := map_writeFlag_ok done
    exact Store.lines_congr (by rw [(Store.insertEdge_frame written).2])
  | repointEdges association origin destination =>
    obtain ⟨moved, store, written, rfl⟩ := map_writeCount_ok done
    exact Store.lines_congr (by rw [Store.repointEdges_frame written])
  | insertRedirect source target now =>
    obtain ⟨store, written, rfl⟩ := map_write_ok done
    exact Store.lines_congr (by rw [(Store.insertRedirect_frame written).1])
  | insertUser id name now =>
    obtain ⟨store, written, rfl⟩ := map_write_ok done
    exact Store.lines_congr (by rw [Store.insertUser_ok written])
  | grantRole user role =>
    obtain ⟨isNew, store, written, rfl⟩ := map_writeFlag_ok done
    exact Store.lines_congr (by rw [Store.grantRole_store written])
  | insertEdit edit =>
    obtain ⟨store, written, rfl⟩ := map_write_ok done
    exact Store.lines_congr (by rw [(Desk.insertEdit_ok written).2])
  | updateEdit edit =>
    obtain ⟨store, written, rfl⟩ := map_write_ok done
    exact Store.lines_congr (by rw [Desk.updateEdit_ok written])
  | upsertVote vote =>
    obtain ⟨store, written, rfl⟩ := map_write_ok done
    exact Store.lines_congr (by rw [Desk.upsertVote_frame written])
  | insertComment comment =>
    obtain ⟨store, written, rfl⟩ := map_write_ok done
    exact Store.lines_congr (by rw [Store.insertComment_ok written])
  | insertAudit audit =>
    obtain ⟨store, written, rfl⟩ := map_write_ok done
    exact Store.lines_congr (by rw [(Store.Reviews.insertAudit audit written).catalogue]; rfl)
  | release name =>
    obtain ⟨released, found, same⟩ := Except.map_ok.mp done
    cases same
    obtain ⟨point, outer, -, rfl⟩ := release?_ok found
    rfl
  | goBack name => exact absurd rfl (forward name).1
  | rollbackTo name => exact absurd rfl (forward name).2
  | _ =>
    cases done
    rfl

/-! ### Sessions -/

/-- A move in a session. -/
inductive Move where
  | statement (statement : Statement)
  | commit
  | rollback

/-- The transaction under way after a move; when one ends, another one begins. -/
def move (transaction : Transaction) : Move → Transaction
  | .statement statement => (transaction.attempt statement).2
  | .commit => start transaction.commit
  | .rollback => start transaction.rollback

/-- The transaction under way after some moves, the first of which finds an empty store. -/
def session (moves : List Move) : Transaction := moves.foldl move (start .empty)

theorem outcome_cases (transaction : Transaction) (statement : Statement) :
    (∃ answer next, transaction.perform statement = .ok (answer, next) ∧
      transaction.outcome statement = (.ok answer, next)) ∨
    ∃ error, transaction.outcome statement = (.error error, transaction) := by
  unfold outcome
  cases done : transaction.perform statement with
  | ok pair => exact .inl ⟨pair.1, pair.2, rfl, rfl⟩
  | error error => exact .inr ⟨error, rfl⟩

/-- **Every move keeps the constraints of the tables**, in the store and wherever it may go back to. -/
theorem move_constrained (constrained : transaction.Throughout Store.Constrained) (move : Move) :
    (transaction.move move).Throughout Store.Constrained := by
  cases move with
  | statement statement =>
    show (transaction.attempt statement).2.Throughout Store.Constrained
    rw [attempt_eq constrained.current.catalogue.toJoined]
    rcases transaction.outcome_cases statement with ⟨answer, next, done, outcome⟩ | ⟨error, outcome⟩
    · rw [outcome]
      exact (perform_moves done).throughout Store.Written.constrained Store.Reviews.constrained
        constrained
    · rw [outcome]
      exact constrained
  | commit => exact .start constrained.current
  | rollback => exact .start constrained.began

theorem session_throughout (moves : List Move) :
    (session moves).Throughout Store.Constrained :=
  List.foldlRecOn moves move (.start Store.empty_constrained) fun _ constrained next _ =>
    move_constrained constrained next

/-- **The store is consistent in every session.** The constraints of the tables hold, the records that
are found to refer to another are those whose field holds a reference to it, each of them once, and
they are found by the column of references, which every statement writes along with the values. A
statement is carried out as a whole or not at all, so that one that fails leaves all tables, and all
savepoints, as they were. -/
theorem session_constrained (moves : List Move) :
    (session moves).current.Constrained ∧
    (∀ key target, ((session moves).current.referrers key target).Nodup ∧
      ∀ entity, entity ∈ (session moves).current.referrers key target ↔
        (session moves).current.field? entity key = some (.reference target)) ∧
    (∀ key target, (session moves).current.referrers key target =
      Store.Line.referrers (session moves).current.lines key target) ∧
    (∀ statement answer next, (session moves).perform statement = .ok (answer, next) →
      (∀ name, statement ≠ .goBack name ∧ statement ≠ .rollbackTo name) →
      next.current.lines = Store.Line.write (session moves).current.lines statement) ∧
    (∀ statement, (session moves).attempt statement = (session moves).outcome statement) ∧
    ∀ statement error, ((session moves).attempt statement).1 = .error error →
      session (moves ++ [.statement statement]) = session moves := by
  have constrained := (session_throughout moves).current
  have whole : ∀ statement, (session moves).attempt statement = (session moves).outcome statement :=
    attempt_eq constrained.catalogue.toJoined
  have keyed := constrained.catalogue.keyed
  refine ⟨constrained, fun key target => ⟨keyed.nodup_referrers key target, fun entity =>
    keyed.mem_referrers⟩, Store.referrers_lines _, fun statement answer next done forward =>
      perform_lines done forward, whole, fun statement error failed => ?_⟩
  have after : session (moves ++ [.statement statement]) = ((session moves).attempt statement).2 :=
    List.foldl_append
  rw [after]
  rw [whole] at failed ⊢
  rcases (session moves).outcome_cases statement with ⟨answer, next, -, outcome⟩ | ⟨cause, outcome⟩
  · rw [outcome] at failed
    cases failed
  · rw [outcome]

end Transaction

end Curation
