/-
**What fails changes nothing.** A call writes rows before a later part of it can fail: an edit and a
comment before a record is made at once, a vote before an administrator's application, entities before
a source of a merge turns out to be gone. None of them remains when the call fails, as it has not
committed by then, and no listener has been told.

* `Procedure.ofCall`: a call as a procedure, and `Procedure.ofCall_conducts`: what it comes to;
* `Desk.connected`: the connection after some calls, which keeps what `Desk.run` leaves;
* `Desk.connected_failed`: a call that fails leaves the connection as it was.
-/

import Curation.Proofs.Failures
import Curation.Proofs.Procedures

namespace Curation

namespace Procedure

variable {α : Type} {desk : Desk} {now : Instant}

/-- A procedure whose result only tells whether it succeeded. -/
def forget (procedure : Procedure α) : Procedure Unit := do
  let _ ← procedure

/-- What is carried out for a call. -/
def ofCall (desk : Desk) (now : Instant) : Call → Procedure Unit
  | .registerUser name roles => (registerUser desk now name roles).forget
  | .grantRole user role => (grantRole user role).forget
  | .createEdit caller submission => (createEdit desk now caller submission).forget
  | .updateEdit caller id proposal remark => (updateEdit desk now caller id proposal remark).forget
  | .vote caller id choice => (vote desk now caller id choice).forget
  | .comment caller id text => (comment desk now caller id text).forget
  | .cancel caller id => (cancel desk now caller id).forget
  | .apply caller id => (apply desk now caller id).forget
  | .closeIfDue id => (closeIfDue desk now id).forget
  | .closeCompleted => (closeCompleted desk now).forget
  | .deleteEdit caller id reason => (deleteEdit desk now caller id reason).forget
  | .deleteExpiredAudits => (deleteExpiredAudits desk now).forget

theorem Conducts.forget {procedure : Procedure α} {operation : Ledger → Outcome α}
    (conducts : Conducts procedure operation) :
    Conducts procedure.forget fun ledger => (operation ledger).forget := by
  intro ledger sent
  have reaches := conducts ledger sent
  dsimp only
  generalize operation ledger = outcome at reaches
  obtain ⟨result, after, notices⟩ := outcome
  cases result with
  | ok value => exact bind_of_ok reaches
  | error halt => exact bind_of_error reaches

/-- **What is carried out for a call does what the desk answers, leaves and sends.** -/
theorem ofCall_conducts (desk : Desk) (now : Instant) (call : Call) :
    Conducts (ofCall desk now call) fun ledger => desk.answer now ledger call := by
  cases call with
  | registerUser name roles => exact registerUser_conducts.forget
  | grantRole user role => exact grantRole_conducts.forget
  | createEdit caller submission => exact createEdit_conducts.forget
  | updateEdit caller id proposal remark => exact updateEdit_conducts.forget
  | vote caller id choice => exact vote_conducts.forget
  | comment caller id text => exact comment_conducts.forget
  | cancel caller id => exact cancel_conducts.forget
  | apply caller id => exact apply_conducts.forget
  | closeIfDue id => exact closeIfDue_conducts.forget
  | closeCompleted => exact closeCompleted_conducts.forget
  | deleteEdit caller id reason => exact deleteEdit_conducts.forget
  | deleteExpiredAudits => exact deleteExpiredAudits_conducts.forget

/-- The connection that a procedure leaves, whether it succeeds or not. -/
def leaves (procedure : Procedure α) (connection : Connection) : Connection :=
  match procedure connection with
  | .ok _ after => after
  | .error _ after => after

end Procedure

theorem Outcome.reached_error {α : Type} {outcome : Outcome α} {sent : List Notice} {halt : Halt}
    {after : Connection} (reached : outcome.reached sent = .error halt after) :
    outcome.result = .error halt ∧ ⟨outcome.ledger, none, sent ++ outcome.notices⟩ = after := by
  obtain ⟨result, ledger, notices⟩ := outcome
  cases result with
  | ok value => cases reached
  | error cause =>
    cases reached
    exact ⟨rfl, rfl⟩

namespace Desk

/-- The connection after some calls, each at a time of its own, from an empty store on. -/
def connected (desk : Desk) (calls : List (Instant × Call)) : Connection :=
  calls.foldl (fun connection (now, call) => (Procedure.ofCall desk now call).leaves connection)
    ⟨.empty, none, []⟩

/-- A call leaves no transaction under way, and keeps what the desk leaves. -/
theorem ofCall_leaves (desk : Desk) (now : Instant) (ledger : Ledger) (call : Call)
    (sent : List Notice) : ∃ later,
      (Procedure.ofCall desk now call).leaves ⟨ledger, none, sent⟩ =
        ⟨desk.proceed now ledger call, none, later⟩ := by
  have reaches := Procedure.ofCall_conducts desk now call ledger sent
  rw [← answer_ledger]
  unfold Procedure.leaves
  rw [reaches]
  dsimp only
  generalize desk.answer now ledger call = outcome
  obtain ⟨result, after, notices⟩ := outcome
  cases result <;> exact ⟨_, rfl⟩

/-- **What the calls of a run keep is what the run leaves.** -/
theorem connected_kept (desk : Desk) (calls : List (Instant × Call)) :
    ∃ sent, desk.connected calls = ⟨desk.run calls, none, sent⟩ := by
  unfold connected run runFrom
  generalize Ledger.empty = start
  generalize ([] : List Notice) = sent
  induction calls generalizing start sent with
  | nil => exact ⟨sent, rfl⟩
  | cons entry rest hypothesis =>
    obtain ⟨later, leaves⟩ := desk.ofCall_leaves entry.1 start entry.2 sent
    rw [List.foldl_cons, List.foldl_cons]
    dsimp only
    rw [leaves]
    exact hypothesis _ later

/-- **A call that fails, after any run, leaves the connection as it was**: every table is what it was, no
transaction is under way, and no notice has been sent; and what is called later does what it would do if
the call had not been made. Only a sweep, which consists of many transactions, may fail after some of
them have been kept. -/
theorem connected_failed (desk : Desk) (calls : List (Instant × Call)) (now : Instant) {call : Call}
    (single : call.isSingle = true) {halt : Halt} {after : Connection}
    (failed : Procedure.ofCall desk now call (desk.connected calls) = .error halt after) :
    after = desk.connected calls ∧
      ∀ later, desk.connected (calls ++ (now, call) :: later) = desk.connected (calls ++ later) := by
  obtain ⟨sent, same⟩ := desk.connected_kept calls
  have unchanged : after = desk.connected calls := by
    rw [same] at failed ⊢
    have reached : (desk.answer now (desk.run calls) call).reached sent = .error halt after :=
      (Procedure.ofCall_conducts desk now call (desk.run calls) sent).symm.trans failed
    obtain ⟨result, rfl⟩ := Outcome.reached_error reached
    rw [answer_refuses single result]
    show (⟨desk.run calls, none, sent ++ []⟩ : Connection) = _
    rw [List.append_nil]
  have kept : (Procedure.ofCall desk now call).leaves (desk.connected calls) = desk.connected calls := by
    unfold Procedure.leaves
    rw [failed]
    exact unchanged
  refine ⟨unchanged, fun later => ?_⟩
  unfold connected at kept ⊢
  rw [List.foldl_append, List.foldl_append, List.foldl_cons]
  dsimp only
  rw [kept]

/-- The administrator's vote has been written when the second edit turns out to come too late. -/
theorem renamedTwice_failed : ∃ difference after,
    Procedure.ofCall swift (Clock.now ⟨3⟩) (.apply ⟨Uuid.serial 2⟩ ⟨Uuid.serial 6⟩)
        (swift.connected (timed renamedTwice)) = .error (.refused (.mismatch difference)) after ∧
      after = swift.connected (timed renamedTwice) := by
  have late : (match Procedure.ofCall swift (Clock.now ⟨3⟩) (.apply ⟨Uuid.serial 2⟩ ⟨Uuid.serial 6⟩)
      (swift.connected (timed renamedTwice)) with
    | .error (.refused (.mismatch _)) _ => true
    | _ => false) = true := by
    decide +kernel
  split at late
  next difference after failed =>
    exact ⟨difference, after, failed, (connected_failed swift _ _ rfl failed).1⟩
  · cases late

end Desk

end Curation
