/-
**What the statements of an application come to.** Within a transaction a procedure does what a change of
the store does: where that succeeds, the procedure leaves the transaction with just that store, and where
it is refused, so is the procedure. What it has written by then is still in the transaction, whose
beginning and savepoints are what they were.

* `Procedure.Changes`: within a transaction a procedure does what a change of the store does;
* `Procedure.Changes.andThen`, `Procedure.Changes.forM`, ...: how procedures are put together;
* `Procedure.applyEdit_applied`: the statements of an application come to `Edit.apply`.
-/

import Curation.Procedure.Application
import Curation.Proofs.Steps

namespace Curation

namespace Work

/-- The store and the number of identifiers in a transaction. -/
def ledger (work : Work) : Ledger := ⟨work.transaction.current, work.issued⟩

/-- A transaction whose store has become another. -/
def holding (work : Work) (store : Store) : Work :=
  { work with transaction := { work.transaction with current := store } }

/-- A transaction with another store and number of identifiers. -/
def moved (work : Work) (ledger : Ledger) : Work :=
  { work.holding ledger.store with issued := ledger.issued }

/-- A transaction that has begun on a ledger. -/
def begun (ledger : Ledger) : Work := ⟨.start ledger.store, ledger.issued⟩

end Work

namespace Procedure

variable {α β : Type} {kept : Ledger} {work : Work} {sent : List Notice} {before middle : Connection}

theorem bind_of_ok {first : Procedure α} {next : α → Procedure β} {value : α}
    (done : first before = .ok value middle) : (first >>= next) before = next value middle := by
  show EStateM.bind first next before = _
  unfold EStateM.bind
  rw [done]

theorem bind_of_error {first : Procedure α} {next : α → Procedure β} {halt : Halt}
    (failed : first before = .error halt middle) : (first >>= next) before = .error halt middle := by
  show EStateM.bind first next before = _
  unfold EStateM.bind
  rw [failed]

theorem check_of_ok {test : Store → Except ReviewError α} {result : α}
    (passed : test before.store = .ok result) : check test before = .ok result before := by
  show ensure (test before.store) before = _
  rw [passed]
  rfl

theorem check_of_error {test : Store → Except ReviewError α} {error : ReviewError}
    (refused : test before.store = .error error) :
    check test before = .error (.refused error) before := by
  show ensure (test before.store) before = _
  rw [refused]
  rfl

/-! ### Changes of the store -/

/-- Within a transaction a procedure does what a change of the store does. -/
structure Changes (procedure : Procedure Unit) (change : Store → Except ReviewError Store) : Prop where
  ok : ∀ kept work sent {store}, change work.transaction.current = .ok store →
    procedure ⟨kept, some work, sent⟩ = .ok () ⟨kept, some (work.holding store), sent⟩
  error : ∀ kept work sent {error}, change work.transaction.current = .error error →
    ∃ store, procedure ⟨kept, some work, sent⟩ =
      .error (.refused error) ⟨kept, some (work.holding store), sent⟩

namespace Changes

variable {first second : Procedure Unit} {change next : Store → Except ReviewError Store}

theorem nothing : Changes (pure ()) .ok where
  ok kept work sent store done := by
    cases done
    rfl
  error _ _ _ _ failed := nomatch failed

/-- One change after the other. -/
theorem andThen (changes : Changes first change) (nexts : Changes second next) :
    Changes (first >>= fun _ => second) (fun store => change store >>= next) where
  ok kept work sent store done := by
    obtain ⟨middle, early, late⟩ := Except.bind_ok.mp done
    rw [bind_of_ok (changes.ok kept work sent early)]
    exact nexts.ok _ _ _ late
  error kept work sent error failed := by
    cases early : change work.transaction.current with
    | ok middle =>
      rw [early] at failed
      rw [bind_of_ok (changes.ok kept work sent early)]
      exact nexts.error _ _ _ failed
    | error cause =>
      rw [early] at failed
      cases failed
      obtain ⟨store, stops⟩ := changes.error kept work sent early
      exact ⟨store, bind_of_error stops⟩

/-- The same where the first one is never refused. -/
theorem andThen_plain {change : Store → Store} (changes : Changes first fun store => .ok (change store))
    (nexts : Changes second next) :
    Changes (first >>= fun _ => second) (fun store => next (change store)) :=
  changes.andThen nexts

/-- A change after a test of the store. -/
theorem afterCheck {test : Store → Except ReviewError Unit} (nexts : Changes second next) :
    Changes (check test >>= fun _ => second) (fun store => test store >>= fun _ => next store) where
  ok kept work sent store done := by
    obtain ⟨_, passed, late⟩ := Except.bind_ok.mp done
    rw [bind_of_ok (check_of_ok passed)]
    exact nexts.ok _ _ _ late
  error kept work sent error failed := by
    cases early : test work.transaction.current with
    | ok result =>
      rw [early] at failed
      rw [bind_of_ok (check_of_ok early)]
      exact nexts.error _ _ _ failed
    | error cause =>
      rw [early] at failed
      cases failed
      exact ⟨_, bind_of_error (check_of_error early)⟩

/-- A change that depends on what has been read. -/
theorem afterLook {read : Store → α} {then? : α → Procedure Unit}
    {change : α → Store → Except ReviewError Store}
    (changes : ∀ value, Changes (then? value) (change value)) :
    Changes (look read >>= then?) (fun store => change (read store) store) where
  ok _ _ _ _ done := (changes _).ok _ _ _ done
  error _ _ _ _ failed := (changes _).error _ _ _ failed

/-- Changes one after the other, by induction on what they are made for. -/
theorem forM {each : α → Procedure Unit} {change : Store → α → Except ReviewError Store}
    (changes : ∀ value, Changes (each value) (fun store => change store value)) (values : List α) :
    Changes (values.forM each) (fun store => values.foldlM change store) := by
  induction values with
  | nil => exact nothing
  | cons value rest hypothesis => exact (changes value).andThen hypothesis

/-- The same for changes that are never refused. -/
theorem forM_plain {each : α → Procedure Unit} {change : Store → α → Store}
    (changes : ∀ value, Changes (each value) (fun store => .ok (change store value)))
    (values : List α) :
    Changes (values.forM each) (fun store => .ok (values.foldl change store)) := by
  induction values with
  | nil => exact nothing
  | cons value rest hypothesis => exact (changes value).andThen hypothesis

end Changes

/-! ### Statements -/

section Statements

variable {statement : Statement} {store : Store} {cause : StoreError}

theorem perform_of_ok {answer : Statement.Answer} {next : Transaction}
    (performed : work.transaction.perform statement = .ok (answer, next)) :
    perform statement ⟨kept, some work, sent⟩ =
      .ok answer ⟨kept, some { work with transaction := next }, sent⟩ := by
  unfold perform
  dsimp only
  rw [performed]

theorem write_of_ok {answer : Statement.Answer} {next : Transaction}
    (performed : work.transaction.perform statement = .ok (answer, next)) :
    write statement ⟨kept, some work, sent⟩ =
      .ok () ⟨kept, some { work with transaction := next }, sent⟩ :=
  bind_of_ok (perform_of_ok performed)

theorem perform_of_error (refused : work.transaction.perform statement = .error cause) :
    perform statement ⟨kept, some work, sent⟩ =
      .error (.refused (.store cause)) ⟨kept, some work, sent⟩ := by
  unfold perform
  dsimp only
  rw [refused]

theorem lift_error {value : Except StoreError α} {error : ReviewError} :
    Store.lift value = .error error ↔ ∃ cause, value = .error cause ∧ error = .store cause := by
  cases value <;> simp [Store.lift, Except.mapError, eq_comm]

section Answering

variable {answer : α → Statement.Answer} {change : Store → Except StoreError (α × Store)}
  (performs : ∀ transaction : Transaction, transaction.perform statement =
    (fun result => (answer result.1, { transaction with current := result.2 })) <$>
      change transaction.current)

include performs

/-- A statement that the store allows. -/
theorem perform_allowed {value : α}
    (allowed : Store.lift (change work.transaction.current) = .ok (value, store)) :
    perform statement ⟨kept, some work, sent⟩ =
      .ok (answer value) ⟨kept, some (work.holding store), sent⟩ := by
  refine perform_of_ok ?_
  rw [performs, Store.lift_ok.mp allowed]
  rfl

/-- A statement that the store refuses. -/
theorem perform_refused {error : ReviewError}
    (failed : Store.lift (change work.transaction.current) = .error error) :
    perform statement ⟨kept, some work, sent⟩ = .error (.refused error) ⟨kept, some work, sent⟩ := by
  obtain ⟨cause, refused, rfl⟩ := lift_error.mp failed
  refine perform_of_error ?_
  rw [performs, refused]
  rfl

/-- A change that depends on what a statement answers. -/
theorem Changes.afterPerform {then? : Statement.Answer → Procedure Unit}
    {next : α × Store → Except ReviewError Store}
    (changes : ∀ value, Changes (then? (answer value)) (fun store => next (value, store))) :
    Changes (perform statement >>= then?) (fun store => Store.lift (change store) >>= next) where
  ok kept work sent store done := by
    obtain ⟨⟨value, middle⟩, allowed, late⟩ := Except.bind_ok.mp done
    rw [bind_of_ok (perform_allowed performs allowed)]
    exact (changes value).ok _ _ _ late
  error kept work sent error failed := by
    cases early : Store.lift (change work.transaction.current) with
    | ok result =>
      rw [early] at failed
      rw [bind_of_ok (perform_allowed performs early)]
      exact (changes result.1).error _ _ _ failed
    | error cause =>
      rw [early] at failed
      cases failed
      exact ⟨_, bind_of_error (perform_refused performs early)⟩

/-- What a statement comes to whose answer does not matter. -/
theorem Changes.write_answering :
    Changes (write statement) (fun store => (Store.lift (change store)).map Prod.snd) := by
  have same : (fun store => (Store.lift (change store)).map Prod.snd) =
      fun store => Store.lift (change store) >>= fun result => .ok result.2 := by
    funext store
    cases Store.lift (change store) <;> rfl
  rw [same]
  exact Changes.afterPerform performs fun _ => .nothing

end Answering

/-- What a statement comes to that only writes. -/
theorem Changes.write {change : Store → Except StoreError Store}
    (performs : ∀ transaction : Transaction,
      transaction.perform statement = transaction.write <$> change transaction.current) :
    Changes (write statement) (fun store => Store.lift (change store)) where
  ok kept work sent store done := by
    have performed : work.transaction.perform statement =
        .ok (.done, { work.transaction with current := store }) := by
      rw [performs, Store.lift_ok.mp done]
      rfl
    exact write_of_ok performed
  error kept work sent error failed := by
    obtain ⟨cause, refused, rfl⟩ := lift_error.mp failed
    refine ⟨work.transaction.current, bind_of_error (perform_of_error ?_)⟩
    rw [performs, refused]
    rfl

/-- What a statement comes to that is never refused. -/
theorem Changes.write_plain {change : Store → Store}
    (performs : ∀ transaction : Transaction, ∃ answer, transaction.perform statement =
      .ok (answer, { transaction with current := change transaction.current })) :
    Changes (Procedure.write statement) (fun store => .ok (change store)) where
  ok kept work sent store done := by
    cases done
    obtain ⟨answer, performed⟩ := performs work.transaction
    exact write_of_ok performed
  error _ _ _ _ failed := nomatch failed

end Statements

/-! ### Applications -/

section Applications

variable {kind : Kind} (id : EntityId) (now : Instant)

theorem touchEntity_changes :
    Changes (write (.touchEntity id now)) (fun store => .ok (store.touchEntity id now)) :=
  .write_plain fun _ => ⟨_, rfl⟩

theorem clearField_changes (key : String) :
    Changes (write (.clearField id key)) (fun store => .ok (store.clearField id key)) :=
  .write_plain fun _ => ⟨_, rfl⟩

theorem setField_changes (key : String) (value : Value) :
    Changes (write (.setField id key value))
      (fun store => Store.lift (store.setField id key value)) :=
  .write fun _ => rfl

theorem setCredit_changes (association : Association) (source target : EntityId)
    (credit : Option String) :
    Changes (write (.setCredit association source target credit))
      (fun store => .ok (store.setCredit association source target credit)) :=
  .write_plain fun _ => ⟨_, rfl⟩

theorem repointEdges_changes (association : Association) (origin destination : EntityId) :
    Changes (write (.repointEdges association origin destination))
      (fun store =>
        (Store.lift (store.repointEdges association origin destination)).map Prod.snd) :=
  .write_answering fun _ => rfl

theorem tombstoneEntity_changes :
    Changes (write (.tombstoneEntity id now))
      (fun store => Store.lift (store.tombstoneEntity id now)) :=
  .write fun _ => rfl

theorem writeScalars_changes (scalars : List (String × Value)) :
    Changes (writeScalars id scalars) (fun store => store.writeScalars id scalars) :=
  .forM (fun (key, value) => setField_changes id key value) scalars

theorem writeList_changes (key : String) (change : ListChange Value) :
    Changes (writeList id key change) (fun store => store.writeList id key change) :=
  (Changes.forM_plain (fun _ => .write_plain fun _ => ⟨_, rfl⟩) change.removed).andThen
    (.forM (fun _ => .write_answering fun _ => rfl) change.added)

theorem writeLists_changes (lists : List (String × ListChange Value)) :
    Changes (writeLists id lists) (fun store => store.writeLists id lists) :=
  .forM (fun (key, change) => writeList_changes id key change) lists

theorem linkPerformer_changes (scene : EntityId) (appearance : Appearance) :
    Changes (linkPerformer scene appearance)
      (fun store => store.linkPerformer scene appearance) := by
  unfold linkPerformer ask Store.linkPerformer
  rw [bind_assoc]
  refine Changes.afterPerform (fun _ => rfl) fun isNew => ?_
  cases isNew with
  | true => exact .nothing
  | false => exact setCredit_changes ..

theorem writeLinks_changes (scene : EntityId) (tags : ListChange EntityId)
    (performers : ListChange Appearance) :
    Changes (writeLinks scene tags performers)
      (fun store => store.writeLinks scene tags performers) :=
  (Changes.forM_plain (fun _ => .write_plain fun _ => ⟨_, rfl⟩) tags.removed).andThen <|
    (Changes.forM (fun _ => .write_answering fun _ => rfl) tags.added).andThen <|
      (Changes.forM_plain (fun _ => .write_plain fun _ => ⟨_, rfl⟩) performers.removed).andThen <|
        .forM (linkPerformer_changes scene) performers.added

theorem writeDetailLinks_changes (details : Details) :
    Changes (writeDetailLinks id details) (fun store => store.writeDetailLinks id details) := by
  obtain ⟨kind, change⟩ := details
  cases kind with
  | scene => exact writeLinks_changes id _ _
  | _ => exact .nothing

theorem createRecord_changes (kind : Kind) (details : Details) :
    Changes (createRecord id kind details now)
      (fun store => store.create id kind details now) :=
  .afterCheck <| (Changes.write fun _ => rfl).andThen <| (writeScalars_changes id _).andThen <|
    (writeLists_changes id _).andThen <| writeDetailLinks_changes id details

theorem clearDropped_changes (change : Change kind) :
    Changes (clearDropped id change) (fun store => .ok (store.clearDropped id change)) := by
  refine Changes.forM_plain (fun field => ?_) (Field.byKey kind)
  split
  · exact clearField_changes id field.key
  · exact .nothing

theorem creditOldNameOn_changes (performer : EntityId) (oldName newName : String) (edge : Edge) :
    Changes (creditOldNameOn performer oldName newName edge)
      (fun store => .ok (store.creditOldNameOn performer oldName newName edge)) := by
  unfold creditOldNameOn Store.creditOldNameOn
  cases edge.credit with
  | none => exact setCredit_changes ..
  | some credit =>
    dsimp only
    split
    · exact setCredit_changes ..
    · exact .nothing

theorem creditOldName_changes (change : Change .performer) :
    Changes (creditOldName id change) (fun store => .ok (store.creditOldName id change)) := by
  unfold creditOldName Store.creditOldName
  cases (change.old.scalar .performerName : Option String) with
  | none => exact .nothing
  | some oldName =>
    cases (change.new.scalar .performerName : Option String) with
    | none => exact .nothing
    | some newName =>
      dsimp only
      split
      · exact .nothing
      · exact .afterLook fun edges =>
          .forM_plain (creditOldNameOn_changes id oldName newName) edges

theorem keepCredits_changes (details : Details) :
    Changes (keepCredits id details) (fun store => .ok (store.keepCredits id details)) := by
  obtain ⟨kind, change⟩ := details
  cases kind with
  | performer =>
    unfold keepCredits Store.keepCredits
    dsimp only
    split
    · exact creditOldName_changes id change
    · exact .nothing
  | _ => exact .nothing

theorem modifyRecord_changes (kind : Kind) (details : Details) :
    Changes (modifyRecord id kind details now)
      (fun store => store.modify id kind details now) :=
  .afterCheck <| .afterCheck <| .afterCheck <| (writeScalars_changes id _).andThen <|
    (clearDropped_changes id _).andThen_plain <| (writeLists_changes id _).andThen <|
      (writeDetailLinks_changes id details).andThen <|
        (keepCredits_changes id details).andThen_plain (touchEntity_changes id now)

theorem detachReferrer_changes (key : String) (referrer : EntityId) :
    Changes (detachReferrer key now referrer)
      (fun store => .ok (store.detachReferrer key now referrer)) :=
  (clearField_changes referrer key).andThen_plain (touchEntity_changes referrer now)

theorem detachStudio_changes (studio : EntityId) :
    Changes (detachStudio studio now) (fun store => .ok (store.detachStudio studio now)) :=
  .forM_plain (fun key => .afterLook fun referrers =>
    .forM_plain (detachReferrer_changes now key) referrers) Store.studioKeys

theorem destroyRecord_changes (kind : Kind) :
    Changes (destroyRecord id kind now) (fun store => store.destroy id kind now) := by
  unfold destroyRecord Store.destroy
  refine .afterCheck ?_
  split
  · exact (detachStudio_changes now id).andThen_plain (tombstoneEntity_changes id now)
  · exact tombstoneEntity_changes id now

theorem creditSourceNameOn_changes (source : EntityId) (sourceName targetName : Option String)
    (edge : Edge) :
    Changes (creditSourceNameOn source sourceName targetName edge)
      (fun store => .ok (store.creditSourceNameOn source sourceName targetName edge)) := by
  unfold creditSourceNameOn Store.creditSourceNameOn
  cases edge.credit with
  | none => exact setCredit_changes ..
  | some credit =>
    dsimp only
    split
    · exact setCredit_changes ..
    · exact .nothing

theorem creditSourceName_changes (source target : EntityId) :
    Changes (creditSourceName source target)
      (fun store => .ok (store.creditSourceName source target)) :=
  .afterLook fun sourceName => .afterLook fun targetName => .afterLook fun edges =>
    .forM_plain (creditSourceNameOn_changes source sourceName targetName) edges

theorem redirectReferrer_changes (target : EntityId) (key : String) (referrer : EntityId) :
    Changes (redirectReferrer target key now referrer)
      (fun store => store.redirectReferrer target key now referrer) := by
  unfold redirectReferrer Store.redirectReferrer
  split
  · exact (clearField_changes referrer key).andThen_plain (touchEntity_changes referrer now)
  · exact (setField_changes referrer key _).andThen (touchEntity_changes referrer now)

theorem redirectStudio_changes (source target : EntityId) :
    Changes (redirectStudio source target now)
      (fun store => store.redirectStudio source target now) :=
  .forM (fun key => .afterLook fun referrers =>
    .forM (redirectReferrer_changes now target key) referrers) Store.studioKeys

theorem moveReferences_changes (source target : EntityId) (kind : Kind) (details : Details) :
    Changes (moveReferences source target kind details now)
      (fun store => store.moveReferences source target kind details now) := by
  cases kind with
  | tag => exact repointEdges_changes ..
  | performer =>
    unfold moveReferences Store.moveReferences
    dsimp only
    split
    · exact (creditSourceName_changes source target).andThen_plain (repointEdges_changes ..)
    · exact repointEdges_changes ..
  | studio => exact redirectStudio_changes now source target
  | scene => exact .nothing

theorem mergeSource_changes (source target : EntityId) (kind : Kind) (details : Details) :
    Changes (mergeSource source target kind details now)
      (fun store => store.mergeSource source target kind details now) :=
  .afterCheck <| (moveReferences_changes now source target kind details).andThen <|
    (tombstoneEntity_changes source now).andThen (.write fun _ => rfl)

theorem mergeRecords_changes (target : EntityId) (sources : List EntityId) (kind : Kind)
    (details : Details) :
    Changes (mergeRecords target sources kind details now)
      (fun store => store.merge target sources kind details now) :=
  (modifyRecord_changes target now kind details).andThen
    (.forM (fun source => mergeSource_changes now source target kind details) sources)

end Applications

/-! ### Edits -/

/-- What a procedure leaves that applies an edit, beside what the store becomes: no more than the store
of the transaction has changed, also where the edit cannot be applied. -/
inductive Applied (kept : Ledger) (work : Work) (sent : List Notice) :
    EStateM.Result Halt Connection α → Except ReviewError (α × Store) → Prop where
  | done (value : α) (store : Store) :
    Applied kept work sent (.ok value ⟨kept, some (work.holding store), sent⟩) (.ok (value, store))
  | refused (error : ReviewError) (store : Store) :
    Applied kept work sent (.error (.refused error) ⟨kept, some (work.holding store), sent⟩)
      (.error error)

theorem Changes.applied {first : Procedure Unit} {change : Store → Except ReviewError Store}
    (changes : Changes first change) (target : α) :
    Applied kept work sent ((first >>= fun _ => pure target) ⟨kept, some work, sent⟩)
      (change work.transaction.current >>= fun store => pure (target, store)) := by
  cases changed : change work.transaction.current with
  | ok store =>
    rw [bind_of_ok (changes.ok kept work sent changed)]
    exact .done target store
  | error error =>
    obtain ⟨store, stops⟩ := changes.error kept work sent changed
    rw [bind_of_error stops]
    exact .refused error store

theorem applied_ensure {test : Except ReviewError α} {next : α → Procedure β}
    {change : α → Except ReviewError (β × Store)}
    (applied : ∀ value, Applied kept work sent (next value ⟨kept, some work, sent⟩) (change value)) :
    Applied kept work sent ((ensure test >>= next) ⟨kept, some work, sent⟩) (test >>= change) := by
  cases test with
  | ok value => exact applied value
  | error error => exact .refused error work.transaction.current

/-- **The statements of an application come to what the application makes of the store.** -/
theorem applyEdit_applied (edit : Edit) (fresh : EntityId) (now : Instant) :
    Applied kept work sent (applyEdit edit fresh now ⟨kept, some work, sent⟩)
      (edit.apply fresh now work.transaction.current) := by
  unfold applyEdit Edit.apply
  cases edit.operation with
  | create => exact (createRecord_changes fresh now edit.kind edit.details).applied fresh
  | modify =>
    exact applied_ensure fun target =>
      (modifyRecord_changes target now edit.kind edit.details).applied target
  | destroy =>
    exact applied_ensure fun target => (destroyRecord_changes target now edit.kind).applied target
  | merge =>
    exact applied_ensure fun target =>
      (mergeRecords_changes now target edit.sources edit.kind edit.details).applied target

end Procedure

end Curation
