/-
**What the operations come to.** The statements of an operation, its commit and all that it does after
that come to what the desk makes of the ledger: the step is carried out as a whole and its effects
follow, or nothing is kept.

* `Procedure.Realizes`: within a transaction a procedure does what a step does;
* `Procedure.resolve_realizes`: the savepoint undoes all that a failed application has written;
* `Procedure.Concluded`: how an operation ends whose transaction is under way;
* `Procedure.Conducts`: what a procedure answers, leaves and sends is what an operation of the desk does;
* `Procedure.createEdit_conducts`, ...: the operations.
-/

import Curation.Procedure.Desk
import Curation.Proofs.Realization

namespace Curation

/-- What a procedure gives that has left an outcome behind; `sent` are the notices sent before. -/
def Outcome.reached {α : Type} (outcome : Outcome α) (sent : List Notice) :
    EStateM.Result Halt Connection α :=
  match outcome.result with
  | .ok result => .ok result ⟨outcome.ledger, none, sent ++ outcome.notices⟩
  | .error halt => .error halt ⟨outcome.ledger, none, sent ++ outcome.notices⟩

/-- What ends before any transaction has no consequence. -/
theorem Outcome.reached_idle {α : Type} (result : Except Halt α) (ledger : Ledger) (sent : List Notice) :
    (⟨result, ledger, []⟩ : Outcome α).reached sent =
      match result with
      | .ok value => .ok value ⟨ledger, none, sent⟩
      | .error halt => .error halt ⟨ledger, none, sent⟩ := by
  unfold Outcome.reached
  dsimp only
  rw [List.append_nil]

/-- Notices that were sent before belong to what is reached. -/
theorem Outcome.reached_append {α : Type} (outcome : Outcome α) (sent earlier : List Notice) :
    outcome.reached (sent ++ earlier) =
      ({ outcome with notices := earlier ++ outcome.notices } : Outcome α).reached sent := by
  unfold Outcome.reached
  rw [List.append_assoc]

namespace Procedure

variable {α β γ : Type} {desk : Desk} {now : Instant} {kept : Ledger} {work : Work}
  {sent : List Notice}

/-! ### Steps within a transaction -/

/-- What a procedure leaves within a transaction, beside what a step gives. One that is refused may have
written anything, but the beginning of the transaction and its savepoints are what they were. -/
inductive Realized (kept : Ledger) (work : Work) (sent : List Notice) :
    EStateM.Result Halt Connection α → Except ReviewError (α × Ledger) → Prop where
  | done (value : α) (after : Ledger) :
    Realized kept work sent (.ok value ⟨kept, some (work.moved after), sent⟩) (.ok (value, after))
  | refused (error : ReviewError) (after : Ledger) :
    Realized kept work sent (.error (.refused error) ⟨kept, some (work.moved after), sent⟩)
      (.error error)

/-- Within a transaction a procedure does what a step does. -/
def Realizes (procedure : Procedure α) (step : Step α) : Prop :=
  ∀ kept work sent, Realized kept work sent (procedure ⟨kept, some work, sent⟩) (step work.ledger)

theorem Realized.of_moved {middle : Ledger} {left : EStateM.Result Halt Connection α}
    {right : Except ReviewError (α × Ledger)}
    (realized : Realized kept (work.moved middle) sent left right) :
    Realized kept work sent left right := by
  cases realized with
  | done value after => exact .done value after
  | refused error after => exact .refused error after

/-- One after the other. -/
theorem Realizes.bind {first : Procedure α} {next : α → Procedure β} {step : Step α}
    {then? : α → Step β} (realizes : Realizes first step)
    (nexts : ∀ value, Realizes (next value) (then? value)) :
    Realizes (first >>= next) (step >>= then?) := by
  intro kept work sent
  have early := realizes kept work sent
  show Realized kept work sent _ (step work.ledger >>= fun pair => then? pair.1 pair.2)
  generalize ran : first ⟨kept, some work, sent⟩ = left at early
  generalize step work.ledger = right at early
  cases early with
  | done value after =>
    rw [bind_of_ok ran]
    exact (nexts value kept (work.moved after) sent).of_moved
  | refused error after =>
    rw [bind_of_error ran]
    exact .refused error after

theorem pure_realizes (value : α) : Realizes (pure value) (pure value) :=
  fun _ work _ => .done value work.ledger

theorem look_realizes (read : Store → α) : Realizes (look read) (Step.read read) :=
  fun _ work _ => .done _ work.ledger

theorem check_realizes (test : Store → Except ReviewError α) :
    Realizes (check test) (Step.check test) := by
  intro kept work sent
  show Realized kept work sent _
    ((test work.transaction.current).map fun result => (result, work.ledger))
  cases passed : test work.transaction.current with
  | ok result =>
    rw [check_of_ok passed]
    exact .done result work.ledger
  | error error =>
    rw [check_of_error passed]
    exact .refused error work.ledger

theorem ensure_realizes (test : Except ReviewError α) :
    Realizes (ensure test) (Step.check fun _ => test) :=
  check_realizes fun _ => test

theorem issue_realizes {subject : Id.Subject} (draw : Nat → Uuid) :
    Realizes (issue draw : Procedure (Id subject)) (Step.issue draw) :=
  fun _ work _ => .done _ ⟨work.ledger.store, work.issued + 1⟩

theorem Changes.realizes {procedure : Procedure Unit} {change : Store → Except StoreError Store}
    (changes : Changes procedure fun store => Store.lift (change store)) :
    Realizes procedure (Step.write change) := by
  intro kept work sent
  show Realized kept work sent _ ((Store.lift (change work.transaction.current)).map
    fun store => ((), { work.ledger with store }))
  cases changed : Store.lift (change work.transaction.current) with
  | ok store =>
    rw [changes.ok kept work sent changed]
    exact .done () ⟨store, work.issued⟩
  | error error =>
    obtain ⟨store, stops⟩ := changes.error kept work sent changed
    rw [stops]
    exact .refused error ⟨store, work.issued⟩

theorem write_realizes {statement : Statement} {change : Store → Except StoreError Store}
    (performs : ∀ transaction : Transaction,
      transaction.perform statement = transaction.write <$> change transaction.current) :
    Realizes (write statement) (Step.write change) :=
  (Changes.write performs).realizes

/-- A statement whose answer is read. -/
theorem answer_realizes {statement : Statement} {answer : α → Statement.Answer}
    {read : Statement.Answer → α} {change : Store → Except StoreError (α × Store)}
    (performs : ∀ transaction : Transaction, transaction.perform statement =
      (fun result => (answer result.1, { transaction with current := result.2 })) <$>
        change transaction.current) (reads : ∀ value, read (answer value) = value) :
    Realizes (perform statement >>= fun answered => pure (read answered)) (Step.writeWith change) := by
  intro kept work sent
  show Realized kept work sent _ ((Store.lift (change work.transaction.current)).map
    fun result => (result.1, { work.ledger with store := result.2 }))
  cases changed : Store.lift (change work.transaction.current) with
  | ok result =>
    rw [bind_of_ok (perform_allowed performs changed), reads]
    exact .done result.1 ⟨result.2, work.issued⟩
  | error error =>
    rw [bind_of_error (perform_refused performs changed)]
    exact .refused error work.ledger

theorem grantRole_asked (user : UserId) (role : Role) :
    Realizes (ask (.grantRole user role)) (Step.writeWith fun store => store.grantRole user role) :=
  answer_realizes (fun _ => rfl) fun _ => rfl

theorem clearVotes_counted (id : EditId) :
    Realizes (count (.clearVotes id)) (Step.writeWith fun store => .ok (store.clearVotes id)) :=
  answer_realizes (fun _ => rfl) fun _ => rfl

theorem deleteAuditsBefore_counted (cutoff : Instant) :
    Realizes (count (.deleteAuditsBefore cutoff))
      (Step.writeWith fun store => .ok (store.deleteAuditsBefore cutoff)) :=
  answer_realizes (fun _ => rfl) fun _ => rfl

/-- Something is done for one value after the other, by induction on the values. -/
theorem forIn_realizes {each : α → Procedure (ForInStep Unit)} {step : α → Step (ForInStep Unit)}
    (realizes : ∀ value, Realizes (each value) (step value)) {values : List α} :
    Realizes (forIn values () fun value _ => each value)
      (forIn values () fun value _ => step value) := by
  induction values with
  | nil => exact pure_realizes ()
  | cons value rest hypothesis =>
    rw [List.forIn_cons, List.forIn_cons]
    refine (realizes value).bind fun ended => ?_
    cases ended with
    | done result => exact pure_realizes result
    | yield result => exact hypothesis

/-! ### Parts of the operations -/

theorem addComment_realizes {edit : EditId} {author : Option UserId} {text : String} :
    Realizes (addComment desk edit author text now) (desk.addComment edit author text now) :=
  (issue_realizes desk.draw).bind fun _ =>
    (write_realizes fun _ => rfl).bind fun _ => pure_realizes _

theorem addRemark_realizes {edit : EditId} {author : UserId} {remark : Option String} :
    Realizes (addRemark desk edit author remark now) (desk.addRemark edit author remark now) := by
  unfold addRemark Desk.addRemark
  cases remark with
  | none => exact pure_realizes ()
  | some text =>
    dsimp only
    split
    · exact pure_realizes ()
    · exact addComment_realizes.bind fun _ => pure_realizes ()

theorem fileEdit_realizes {caller : UserId} {submission : Submission} :
    Realizes (fileEdit desk now caller submission) (desk.fileEdit now caller submission) :=
  (check_realizes _).bind fun _ => (ensure_realizes _).bind fun _ => (check_realizes _).bind fun _ =>
    (issue_realizes desk.draw).bind fun _ => (write_realizes fun _ => rfl).bind fun _ =>
      addRemark_realizes.bind fun _ => pure_realizes _

/-- An application that fails has changed the store of the transaction only, and has issued no
identifier. -/
inductive Attempted (kept : Ledger) (work : Work) (sent : List Notice) :
    EStateM.Result Halt Connection α → Except ReviewError (α × Ledger) → Prop where
  | done (value : α) (after : Ledger) :
    Attempted kept work sent (.ok value ⟨kept, some (work.moved after), sent⟩) (.ok (value, after))
  | refused (error : ReviewError) (store : Store) :
    Attempted kept work sent (.error (.refused error) ⟨kept, some (work.holding store), sent⟩)
      (.error error)

theorem applyToStore_attempted (desk : Desk) (edit : Edit) (now : Instant) (kept : Ledger) (work : Work)
    (sent : List Notice) :
    Attempted kept work sent (applyToStore desk edit now ⟨kept, some work, sent⟩)
      (desk.applyToStore edit now work.ledger) := by
  have applied : Applied kept work sent _
      (edit.apply ⟨desk.draw work.issued⟩ now work.transaction.current) := applyEdit_applied ..
  have begins : applyToStore desk edit now ⟨kept, some work, sent⟩ =
      (applyEdit edit ⟨desk.draw work.issued⟩ now >>= fun target => do
        let _ : EntityId ← issue desk.draw
        return { edit with target := some target }) ⟨kept, some work, sent⟩ := rfl
  rw [begins]
  unfold Desk.applyToStore
  generalize ran : applyEdit edit ⟨desk.draw work.issued⟩ now ⟨kept, some work, sent⟩ = left at applied
  change Attempted kept work sent _
    ((edit.apply ⟨desk.draw work.issued⟩ now work.transaction.current).map _)
  generalize edit.apply ⟨desk.draw work.issued⟩ now work.transaction.current = right at applied
  cases applied with
  | done target store =>
    rw [bind_of_ok ran]
    exact .done _ ⟨store, work.issued + 1⟩
  | refused error store =>
    rw [bind_of_error ran]
    exact .refused error store

theorem Attempted.realized {left : EStateM.Result Halt Connection α}
    {right : Except ReviewError (α × Ledger)} (attempted : Attempted kept work sent left right) :
    Realized kept work sent left right := by
  cases attempted with
  | done value after => exact .done value after
  | refused error store => exact .refused error ⟨store, work.issued⟩

theorem applyToStore_realizes {edit : Edit} :
    Realizes (applyToStore desk edit now) (desk.applyToStore edit now) :=
  fun kept work sent => (applyToStore_attempted desk edit now kept work sent).realized

theorem enact_realizes {edit : Edit} : Realizes (enact desk edit now) (desk.enact edit now) :=
  applyToStore_realizes.bind fun _ => (write_realizes fun _ => rfl).bind fun _ => pure_realizes _

theorem attempt_of_ok {procedure : Procedure α} {before after : Connection} {value : α}
    (done : procedure before = .ok value after) :
    attempt procedure before = .ok (.ok value) after := by
  unfold attempt
  rw [done]

theorem attempt_of_refused {procedure : Procedure α} {before after : Connection}
    {error : ReviewError} (refused : procedure before = .error (.refused error) after) :
    attempt procedure before = .ok (.error error) after := by
  unfold attempt
  rw [refused]

/-- **What an application that failed has written is undone**, and what remains is the record of the
failure. -/
theorem resolve_realizes {edit : Edit} {verdict : Verdict} :
    Realizes (resolve desk edit verdict now) (desk.resolve edit verdict now) := by
  cases verdict with
  | pending => exact pure_realizes _
  | reject => exact pure_realizes _
  | accept =>
    intro kept work sent
    let inner : Work := { work with transaction := work.transaction.savepoint .beforeApplying }
    have attempted : Attempted kept inner sent _ (desk.applyToStore edit now work.ledger) :=
      applyToStore_attempted desk edit now kept inner sent
    have set : write (.savepoint .beforeApplying) ⟨kept, some work, sent⟩ =
        .ok () ⟨kept, some inner, sent⟩ := rfl
    unfold resolve Desk.resolve
    dsimp only
    rw [bind_of_ok set]
    generalize ran : applyToStore desk edit now ⟨kept, some inner, sent⟩ = left at attempted
    generalize desk.applyToStore edit now work.ledger = right at attempted
    cases attempted with
    | done applied after =>
      have released : (inner.moved after).transaction.perform (.release .beforeApplying) =
          .ok (.done, (work.moved after).transaction) :=
        work.transaction.perform_release .beforeApplying after.store
      rw [bind_of_ok (attempt_of_ok ran)]
      dsimp only
      rw [bind_of_ok (write_of_ok released)]
      exact .done _ after
    | refused error store =>
      have back : (inner.holding store).transaction.perform (.rollbackTo .beforeApplying) =
          .ok (.done, work.transaction) :=
        work.transaction.perform_rollbackTo .beforeApplying store
      rw [bind_of_ok (attempt_of_refused ran)]
      dsimp only
      rw [bind_of_ok (write_of_ok back)]
      exact (addComment_realizes.bind fun _ => pure_realizes _) kept work sent

/-! ### Promotions -/

theorem grantVote_realizes {user : UserId} {threshold : UInt32} :
    Realizes (grantVote user threshold)
      (Step.writeWith fun store => store.promote user threshold) := by
  intro kept work sent
  have grants := grantRole_asked user .vote kept work sent
  have unchanged : Realized kept work sent (.ok false ⟨kept, some work, sent⟩)
      (.ok (false, work.ledger)) := .done false work.ledger
  unfold grantVote
  show Realized kept work sent
    ((if Role.barsPromotion (work.transaction.current.roles user) then pure false
      else look (fun store => store.countEdits user Status.counting) >>= fun counted =>
        if counted < threshold.toNat then pure false else ask (.grantRole user .vote))
      ⟨kept, some work, sent⟩)
    ((Store.lift (work.transaction.current.promote user threshold)).map _)
  unfold Store.promote
  split
  · exact unchanged
  · show Realized kept work sent
      ((if work.transaction.current.countEdits user Status.counting < threshold.toNat then pure false
        else ask (.grantRole user .vote)) ⟨kept, some work, sent⟩) _
    split
    · exact unchanged
    · exact grants

/-- A promotion that has not granted anything has changed nothing. -/
theorem promote_unchanged {store after : Store} {user : UserId} {threshold : UInt32}
    (promoted : store.promote user threshold = .ok (false, after)) : after = store := by
  unfold Store.promote Store.grantRole at promoted
  split at promoted
  · cases promoted
    rfl
  · split at promoted
    · cases promoted
      rfl
    · split at promoted
      · cases promoted
        rfl
      · split at promoted <;> cases promoted

theorem inTransaction_of_ok {body : Procedure α} {value : α} {after : Connection}
    (done : body ⟨kept, some (.begun kept), sent⟩ = .ok value after) :
    inTransaction body ⟨kept, none, sent⟩ = .ok value after.closed := by
  have opened : body (Connection.opened ⟨kept, none, sent⟩) = .ok value after := done
  unfold inTransaction
  dsimp only
  rw [opened]

theorem inTransaction_of_error {body : Procedure α} {halt : Halt} {after : Connection}
    (failed : body ⟨kept, some (.begun kept), sent⟩ = .error halt after) :
    inTransaction body ⟨kept, none, sent⟩ = .error halt after.closed := by
  have opened : body (Connection.opened ⟨kept, none, sent⟩) = .error halt after := failed
  unfold inTransaction
  dsimp only
  rw [opened]

/-- A promotion is kept if it has granted the role, and has no consequence otherwise. -/
theorem promote_attempted (desk : Desk) (user : UserId) (ledger : Ledger) (sent : List Notice) :
    ∃ result, attempt (promote desk user) ⟨ledger, none, sent⟩ =
      .ok result ⟨desk.promote user ledger, none, sent⟩ := by
  unfold promote Desk.promote
  cases desk.rules.promotionThreshold with
  | none => exact ⟨.ok (), rfl⟩
  | some threshold =>
    have granted : Realized ledger (.begun ledger) sent _
        ((Store.lift (ledger.store.promote user threshold)).map _) :=
      grantVote_realizes ledger (.begun ledger) sent
    let body : Procedure Unit := do
      if ← grantVote user threshold then commit
    dsimp only
    show ∃ result, attempt (inTransaction body) ⟨ledger, none, sent⟩ = _
    generalize ran : grantVote user threshold ⟨ledger, some (.begun ledger), sent⟩ = left at granted
    cases promoted : ledger.store.promote user threshold with
    | ok result =>
      obtain ⟨isNew, store⟩ := result
      rw [promoted] at granted
      cases granted
      cases isNew with
      | true =>
        have commits : body ⟨ledger, some (.begun ledger), sent⟩ =
            .ok () ⟨{ ledger with store }, none, sent⟩ := bind_of_ok ran
        exact ⟨_, attempt_of_ok (inTransaction_of_ok commits)⟩
      | false =>
        cases promote_unchanged promoted
        have ends : body ⟨ledger, some (.begun ledger), sent⟩ =
            .ok () ⟨ledger, some (.begun ledger), sent⟩ := bind_of_ok ran
        exact ⟨_, attempt_of_ok (inTransaction_of_ok ends)⟩
    | error cause =>
      rw [promoted] at granted
      cases granted
      have fails : body ⟨ledger, some (.begun ledger), sent⟩ = .error _ _ := bind_of_error ran
      exact ⟨_, attempt_of_refused (inTransaction_of_error fails)⟩

/-- What follows a transaction is what the desk lets follow, by induction on the effects. -/
theorem dispatch_follows (desk : Desk) (effects : List Effect) (ledger : Ledger) (sent : List Notice) :
    dispatch desk effects ⟨ledger, none, sent⟩ =
      .ok () ⟨(desk.follow effects ledger).1, none, sent ++ (desk.follow effects ledger).2⟩ := by
  unfold Desk.follow
  -- Some of the notices have been sent already.
  suffices general : ∀ before : List Notice, dispatch desk effects ⟨ledger, none, sent ++ before⟩ =
      .ok () ⟨(effects.foldl _ (ledger, before)).1, none,
        sent ++ (effects.foldl _ (ledger, before)).2⟩ by
    have all := general []
    rwa [List.append_nil] at all
  induction effects generalizing ledger with
  | nil => exact fun before => rfl
  | cons effect rest hypothesis =>
    intro before
    cases effect with
    | notify notice =>
      have next := hypothesis ledger (before ++ [notice])
      rw [← List.append_assoc] at next
      exact next
    | promote user =>
      obtain ⟨result, promoted⟩ := promote_attempted desk user ledger (sent ++ before)
      refine Eq.trans (bind_of_ok (bind_of_ok promoted)) ?_
      exact hypothesis (desk.promote user ledger) before

/-! ### How an operation ends -/

/-- What a procedure leaves whose transaction is under way, beside what a step gives: it has committed,
or has nothing to commit, and everything that is to follow has followed; or it is refused in the
transaction, before any of that. -/
inductive Concluded (ending : β → Ledger → Outcome α) (kept : Ledger) (work : Work)
    (sent : List Notice) :
    EStateM.Result Halt Connection α → Except ReviewError (β × Ledger) → Prop where
  | done (value : β) (after : Ledger) (result : α) (final : Connection)
    (ends : .ok result final.closed = (ending value after).reached sent) :
    Concluded ending kept work sent (.ok result final) (.ok (value, after))
  | refused (error : ReviewError) (after : Ledger) :
    Concluded ending kept work sent
      (.error (.refused error) ⟨kept, some (work.moved after), sent⟩) (.error error)

section Conclusions

variable {ending : β → Ledger → Outcome α}

theorem Concluded.of_moved {middle : Ledger} {left : EStateM.Result Halt Connection α}
    {right : Except ReviewError (β × Ledger)}
    (concluded : Concluded ending kept (work.moved middle) sent left right) :
    Concluded ending kept work sent left right := by
  cases concluded with
  | done value after result final ends => exact .done value after result final ends
  | refused error after => exact .refused error after

/-- What an operation does in its transaction before it ends. -/
theorem Realizes.concluded {first : Procedure γ} {next : γ → Procedure α} {step : Step γ}
    {then? : γ → Step β} (realizes : Realizes first step)
    (nexts : ∀ value after, Concluded ending kept (work.moved after) sent
      (next value ⟨kept, some (work.moved after), sent⟩) (then? value after)) :
    Concluded ending kept work sent ((first >>= next) ⟨kept, some work, sent⟩)
      ((step >>= then?) work.ledger) := by
  have early := realizes kept work sent
  show Concluded ending kept work sent _
    (step work.ledger >>= fun pair => then? pair.1 pair.2)
  generalize ran : first ⟨kept, some work, sent⟩ = left at early
  generalize step work.ledger = right at early
  cases early with
  | done value after =>
    rw [bind_of_ok ran]
    exact (nexts value after).of_moved
  | refused error after =>
    rw [bind_of_error ran]
    exact .refused error after

theorem Realizes.concludedLast {first : Procedure β} {next : β → Procedure α} {step : Step β}
    (realizes : Realizes first step)
    (nexts : ∀ value after, Concluded ending kept (work.moved after) sent
      (next value ⟨kept, some (work.moved after), sent⟩) ((pure value : Step β) after)) :
    Concluded ending kept work sent ((first >>= next) ⟨kept, some work, sent⟩) (step work.ledger) := by
  rw [← bind_pure step]
  exact realizes.concluded nexts

/-- A test leaves the transaction as it is. -/
theorem concluded_check {test : Store → Except ReviewError γ} {next : γ → Procedure α}
    {then? : γ → Step β}
    (nexts : ∀ value, Concluded ending kept work sent (next value ⟨kept, some work, sent⟩)
      (then? value work.ledger)) :
    Concluded ending kept work sent ((check test >>= next) ⟨kept, some work, sent⟩)
      ((Step.check test >>= then?) work.ledger) := by
  show Concluded ending kept work sent _
    ((test work.transaction.current).map (fun result => (result, work.ledger)) >>= fun pair =>
      then? pair.1 pair.2)
  cases passed : test work.transaction.current with
  | ok value =>
    rw [bind_of_ok (check_of_ok passed)]
    exact nexts value
  | error error =>
    rw [bind_of_error (check_of_error passed)]
    exact .refused error work.ledger

theorem concluded_ensure {test : Except ReviewError γ} {next : γ → Procedure α} {then? : γ → Step β}
    (nexts : ∀ value, Concluded ending kept work sent (next value ⟨kept, some work, sent⟩)
      (then? value work.ledger)) :
    Concluded ending kept work sent ((ensure test >>= next) ⟨kept, some work, sent⟩)
      ((Step.check (fun _ => test) >>= then?) work.ledger) := by
  have checked : Concluded ending kept work sent
      ((check (fun _ => test) >>= next) ⟨kept, some work, sent⟩)
      ((Step.check (fun _ => test) >>= then?) work.ledger) := concluded_check nexts
  exact checked

/-- So does a read. -/
theorem concluded_look {read : Store → γ} {next : γ → Procedure α} {then? : γ → Step β}
    (nexts : ∀ value, Concluded ending kept work sent (next value ⟨kept, some work, sent⟩)
      (then? value work.ledger)) :
    Concluded ending kept work sent ((look read >>= next) ⟨kept, some work, sent⟩)
      ((Step.read read >>= then?) work.ledger) :=
  nexts (read work.transaction.current)

/-- How an operation ends that has effects. -/
def withEffects (desk : Desk) (value : α × List Effect) (after : Ledger) : Outcome α :=
  desk.concluded value.1 value.2 after

/-- How an operation ends that has none. -/
def quietly (value : α) (after : Ledger) : Outcome α := ⟨.ok value, after, []⟩

/-- An operation commits, and then its effects follow. -/
theorem concluded_commit (result : α) (effects : List Effect) :
    Concluded (withEffects desk) kept work sent
      ((commit >>= fun _ => dispatch desk effects >>= fun _ => pure result) ⟨kept, some work, sent⟩)
      ((pure (result, effects) : Step (α × List Effect)) work.ledger) := by
  have committed : commit ⟨kept, some work, sent⟩ = .ok () ⟨work.ledger, none, sent⟩ := rfl
  rw [bind_of_ok committed, bind_of_ok (dispatch_follows desk effects work.ledger sent)]
  exact .done (result, effects) work.ledger result _ rfl

/-- An operation without effects commits. -/
theorem concluded_commitQuietly (result : α) :
    Concluded quietly kept work sent ((commit >>= fun _ => pure result) ⟨kept, some work, sent⟩)
      ((pure result : Step α) work.ledger) := by
  refine .done result work.ledger result ⟨work.ledger, none, sent⟩ ?_
  exact (Outcome.reached_idle (.ok result) work.ledger sent).symm

/-- An operation that has written nothing may end without committing. -/
theorem concluded_early {value : β} {result : α} (ends : ending value kept = quietly result kept) :
    Concluded ending kept (.begun kept) sent
      ((pure result : Procedure α) ⟨kept, some (.begun kept), sent⟩)
      ((pure value : Step β) kept) := by
  refine .done value kept result ⟨kept, some (.begun kept), sent⟩ ?_
  rw [ends]
  exact (Outcome.reached_idle (.ok result) kept sent).symm

end Conclusions

/-! ### Operations -/

/-- Where no transaction is under way, a procedure does what an operation of the desk does. -/
def Conducts (procedure : Procedure α) (operation : Ledger → Outcome α) : Prop :=
  ∀ ledger sent, procedure ⟨ledger, none, sent⟩ = (operation ledger).reached sent

theorem Conducts.outcome {procedure : Procedure α} {operation : Ledger → Outcome α}
    (conducts : Conducts procedure operation) (ledger : Ledger) :
    procedure.outcome ledger = operation ledger := by
  have reaches := conducts ledger []
  unfold Procedure.outcome Outcome.reached at *
  rw [reaches]
  generalize operation ledger = outcome
  obtain ⟨result, after, notices⟩ := outcome
  cases result <;> rfl

/-- **A transaction is kept as a whole, or nothing of it is.** -/
theorem inTransaction_conducts {body : Procedure α} {step : Step β}
    {ending : β → Ledger → Outcome α}
    (concludes : ∀ ledger sent, Concluded ending ledger (.begun ledger) sent
      (body ⟨ledger, some (.begun ledger), sent⟩) (step ledger)) :
    Conducts (inTransaction body) fun ledger =>
      match step ledger with
      | .ok (value, after) => ending value after
      | .error error => ⟨.error (.refused error), ledger, []⟩ := by
  intro ledger sent
  have concluded := concludes ledger sent
  dsimp only
  generalize ran : body ⟨ledger, some (.begun ledger), sent⟩ = left at concluded
  generalize step ledger = right at concluded
  cases concluded with
  | done value after result final ends =>
    rw [inTransaction_of_ok ran, ends]
  | refused error after =>
    rw [inTransaction_of_error ran]
    exact (Outcome.reached_idle (.error (.refused error)) ledger sent).symm

theorem carryOut_conducted {body : Procedure α} {step : Step (α × List Effect)}
    (concludes : ∀ ledger sent, Concluded (withEffects desk) ledger (.begun ledger) sent
      (body ⟨ledger, some (.begun ledger), sent⟩) (step ledger)) :
    Conducts (inTransaction body) (desk.carryOut step) := by
  intro ledger sent
  have conducted := inTransaction_conducts concludes ledger sent
  rw [conducted]
  unfold Desk.carryOut
  dsimp only
  cases step ledger <;> rfl

theorem carryOutQuietly_conducted {body : Procedure α} {step : Step α}
    (concludes : ∀ ledger sent, Concluded quietly ledger (.begun ledger) sent
      (body ⟨ledger, some (.begun ledger), sent⟩) (step ledger)) :
    Conducts (inTransaction body) (Desk.carryOutQuietly step) :=
  inTransaction_conducts concludes

theorem createEdit_conducts {caller : UserId} {submission : Submission} :
    Conducts (createEdit desk now caller submission) (desk.createEdit now caller submission) := by
  refine carryOut_conducted fun ledger sent => ?_
  refine fileEdit_realizes.concluded fun edit after => ?_
  dsimp only
  split
  · exact enact_realizes.concluded fun closed later => concluded_commit _ _
  · rw [pure_bind]
    exact concluded_commit _ _

theorem registerUser_conducts {name : String} {roles : List Role} :
    Conducts (registerUser desk now name roles) (desk.registerUser now name roles) := by
  refine carryOutQuietly_conducted fun ledger sent => ?_
  refine (issue_realizes desk.draw).concluded fun user _ => ?_
  refine (write_realizes fun _ => rfl).concluded fun _ _ => ?_
  have granted : ∀ role, Realizes
      (do
        let _ ← ask (.grantRole user role)
        return ForInStep.yield ())
      (do
        let _ ← Step.writeWith fun store => store.grantRole user role
        return ForInStep.yield ()) :=
    fun role => (grantRole_asked user role).bind fun _ => pure_realizes _
  exact (forIn_realizes granted).concluded fun _ _ => concluded_commitQuietly _

theorem grantRole_conducts {user : UserId} {role : Role} :
    Conducts (grantRole user role) (Desk.grantRole user role) :=
  carryOutQuietly_conducted fun _ _ => (check_realizes _).concluded fun _ _ =>
    (grantRole_asked user role).concludedLast fun _ _ => concluded_commitQuietly _

theorem updateEdit_conducts {caller : UserId} {id : EditId} {proposal : Proposal}
    {remark : Option String} :
    Conducts (updateEdit desk now caller id proposal remark)
      (desk.updateEdit now caller id proposal remark) := by
  refine carryOut_conducted fun ledger sent => ?_
  refine (check_realizes _).concluded fun _ _ => ?_
  refine (check_realizes _).concluded fun edit _ => ?_
  refine (ensure_realizes _).concluded fun _ _ => ?_
  refine (ensure_realizes _).concluded fun _ _ => ?_
  refine (ensure_realizes _).concluded fun _ _ => ?_
  refine (ensure_realizes _).concluded fun _ _ => ?_
  refine (ensure_realizes _).concluded fun _ _ => ?_
  refine (check_realizes _).concluded fun details _ => ?_
  refine (clearVotes_counted id).concluded fun _ _ => ?_
  refine (write_realizes fun _ => rfl).concluded fun _ _ => ?_
  exact addRemark_realizes.concluded fun _ _ => concluded_commit _ _

/-- What can be refused without the store is refused before the transaction begins. -/
theorem ensure_conducts {test : Except ReviewError Unit} {procedure : Procedure α}
    {step : Step (α × List Effect)} (conducts : Conducts procedure (desk.carryOut step)) :
    Conducts (ensure test >>= fun _ => procedure)
      (desk.carryOut (Step.check (fun _ => test) >>= fun _ => step)) := by
  cases test with
  | ok passed => exact conducts
  | error error =>
    exact fun ledger sent => (Outcome.reached_idle (.error (.refused error)) ledger sent).symm

theorem vote_conducts {caller : UserId} {id : EditId} {choice : Choice} :
    Conducts (vote desk now caller id choice) (desk.vote now caller id choice) := by
  refine ensure_conducts (carryOut_conducted fun ledger sent => ?_)
  refine (check_realizes _).concluded fun _ _ => ?_
  refine (ensure_realizes _).concluded fun _ _ => ?_
  refine (check_realizes _).concluded fun edit _ => ?_
  refine (ensure_realizes _).concluded fun _ _ => ?_
  refine (ensure_realizes _).concluded fun _ _ => ?_
  refine (write_realizes fun _ => rfl).concluded fun _ _ => ?_
  refine (look_realizes _).concluded fun tally _ => ?_
  refine resolve_realizes.concluded fun resolved _ => ?_
  exact (write_realizes fun _ => rfl).concluded fun _ _ => concluded_commit _ _

theorem comment_conducts {caller : UserId} {id : EditId} {text : String} :
    Conducts (comment desk now caller id text) (desk.comment now caller id text) := by
  refine ensure_conducts (carryOut_conducted fun ledger sent => ?_)
  refine (check_realizes _).concluded fun _ _ => ?_
  refine (ensure_realizes _).concluded fun _ _ => ?_
  refine (check_realizes _).concluded fun edit _ => ?_
  exact addComment_realizes.concluded fun _ _ => concluded_commit _ _

theorem cancel_conducts {caller : UserId} {id : EditId} :
    Conducts (cancel desk now caller id) (desk.cancel now caller id) := by
  refine carryOut_conducted fun ledger sent => ?_
  refine (check_realizes _).concluded fun roles _ => ?_
  refine (check_realizes _).concluded fun edit _ => ?_
  refine (ensure_realizes _).concluded fun _ _ => ?_
  refine (ensure_realizes _).concluded fun _ _ => ?_
  split
  · refine (write_realizes fun _ => rfl).concluded fun _ _ => ?_
    exact (write_realizes fun _ => rfl).concluded fun _ _ => concluded_commit _ _
  · exact (write_realizes fun _ => rfl).concluded fun _ _ => concluded_commit _ _

theorem apply_conducts {caller : UserId} {id : EditId} :
    Conducts (apply desk now caller id) (desk.apply now caller id) := by
  refine carryOut_conducted fun ledger sent => ?_
  refine (check_realizes _).concluded fun _ _ => ?_
  refine (ensure_realizes _).concluded fun _ _ => ?_
  refine (check_realizes _).concluded fun _ _ => ?_
  refine (ensure_realizes _).concluded fun _ _ => ?_
  refine (write_realizes fun _ => rfl).concluded fun _ _ => ?_
  exact enact_realizes.concluded fun _ _ => concluded_commit _ _

theorem closeIfDue_conducts {id : EditId} :
    Conducts (closeIfDue desk now id) (desk.carryOut (desk.closeIfDue now id)) := by
  refine carryOut_conducted fun ledger sent => concluded_look fun found => ?_
  cases found with
  | none => exact concluded_early rfl
  | some edit =>
    refine (look_realizes _).concluded fun tally _ => ?_
    refine resolve_realizes.concluded fun resolved _ => ?_
    exact (write_realizes fun _ => rfl).concluded fun _ _ => concluded_commit _ _

theorem insertAudit_changes (audit : Audit) :
    Changes (write (.insertAudit audit)) (fun store => Store.lift (store.insertAudit audit)) :=
  .write fun _ => rfl

theorem deleteEdit_changes (id : EditId) :
    Changes (write (.deleteEdit id)) (fun store => .ok (store.deleteEdit id).2) :=
  .write_plain fun _ => ⟨_, rfl⟩

theorem deleteWithAudit_realizes {audit : AuditId} {edit : Edit} {deletedBy : UserId}
    {reason : String} :
    Realizes (deleteWithAudit audit edit deletedBy reason now)
      (Step.write fun store => store.deleteWithAudit audit edit deletedBy reason now) := by
  refine Changes.realizes ?_
  have parts : (fun store : Store =>
        Store.lift (store.deleteWithAudit audit edit deletedBy reason now)) =
      fun store => Store.lift (store.insertAudit
        (Audit.ofDeletion audit (store.snapshot edit deletedBy now) reason)) >>= fun store =>
          .ok (store.deleteEdit edit.id).2 := by
    funext store
    unfold Store.deleteWithAudit
    dsimp only
    cases store.insertAudit (Audit.ofDeletion audit (store.snapshot edit deletedBy now) reason) <;> rfl
  rw [parts]
  exact .afterLook fun snapshot => (insertAudit_changes _).andThen (deleteEdit_changes edit.id)

theorem deleteEdit_conducts {caller : UserId} {id : EditId} {reason : String} :
    Conducts (deleteEdit desk now caller id reason) (desk.deleteEdit now caller id reason) := by
  refine carryOutQuietly_conducted fun ledger sent => ?_
  refine concluded_check fun roles => concluded_ensure fun _ => concluded_look fun found => ?_
  cases found with
  | none => exact concluded_early rfl
  | some edit =>
    refine (ensure_realizes _).concluded fun _ _ => ?_
    refine (issue_realizes desk.draw).concluded fun audit _ => ?_
    exact deleteWithAudit_realizes.concluded fun _ _ => concluded_commitQuietly _

theorem deleteExpiredAudits_conducts :
    Conducts (deleteExpiredAudits desk now) (desk.deleteExpiredAudits now) := by
  intro ledger sent
  unfold deleteExpiredAudits Desk.deleteExpiredAudits
  cases desk.rules.retentionCutoff now with
  | error halt => exact (Outcome.reached_idle (.error halt) ledger sent).symm
  | ok cutoff =>
    cases cutoff with
    | none => exact (Outcome.reached_idle (.ok 0) ledger sent).symm
    | some cutoff =>
      have drops : Conducts _ (Desk.carryOutQuietly (Step.writeWith fun store =>
          .ok (store.deleteAuditsBefore cutoff))) :=
        carryOutQuietly_conducted fun _ _ =>
          (deleteAuditsBefore_counted cutoff).concludedLast fun _ _ => concluded_commitQuietly _
      exact drops ledger sent

/-- A sweep is one transaction after the other, by induction on the edits that are due. -/
theorem closeEach_conducts (ids : List EditId) (closed : Nat) :
    Conducts (closeEach desk now ids closed) (desk.closeEach now ids closed) := by
  induction ids generalizing closed with
  | nil => exact fun ledger sent => (Outcome.reached_idle (.ok closed) ledger sent).symm
  | cons id rest hypothesis =>
    intro ledger sent
    have first : closeIfDue desk now id ⟨ledger, none, sent⟩ =
        (desk.carryOut (desk.closeIfDue now id) ledger).reached sent := closeIfDue_conducts ledger sent
    unfold closeEach Desk.closeEach
    dsimp only
    generalize desk.carryOut (desk.closeIfDue now id) ledger = outcome at first
    obtain ⟨result, after, notices⟩ := outcome
    cases result with
    | ok wasDue =>
      rw [bind_of_ok first]
      have others := hypothesis (if wasDue then closed + 1 else closed) after (sent ++ notices)
      exact others.trans (Outcome.reached_append _ sent notices)
    | error halt => exact bind_of_error first

theorem closeCompleted_conducts : Conducts (closeCompleted desk now) (desk.closeCompleted now) :=
  fun ledger sent => closeEach_conducts _ 0 ledger sent

end Procedure

end Curation
