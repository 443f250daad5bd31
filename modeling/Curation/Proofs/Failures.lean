/-
**Calls that fail.** A call answers, leaves a ledger and sends notices. Where it is a single step and
fails, it leaves the ledger that it found, and sends nothing.

* `Desk.answer`: what a call answers, leaves and sends;
* `Desk.answer_refuses`: a single step that fails has no effect;
* `Desk.carryOut_blocked`: a step that cannot succeed is refused.
-/

import Curation.Proofs.Runs

namespace Curation

/-- What an operation leaves behind, where its result only tells whether it succeeded. -/
def Outcome.forget {α : Type} (outcome : Outcome α) : Outcome Unit :=
  ⟨outcome.result.map fun _ => (), outcome.ledger, outcome.notices⟩

/-- An operation refuses when it fails with an error, leaves the ledger as it found it and sends no
notice. -/
def Outcome.Refuses {α : Type} (outcome : Outcome α) (found : Ledger) : Prop :=
  ∃ error, outcome = ⟨.error (.refused error), found, []⟩

theorem Outcome.forget_error {α : Type} {outcome : Outcome α} {halt : Halt} :
    outcome.forget.result = .error halt ↔ outcome.result = .error halt := by
  unfold forget
  cases outcome.result <;> simp [Except.map]

namespace Desk

variable {α : Type} {desk : Desk} {ledger : Ledger} {halt : Halt}

theorem carryOut_refuses {step : Step (α × List Effect)}
    (failed : (desk.carryOut step ledger).result = .error halt) :
    desk.carryOut step ledger = ⟨.error halt, ledger, []⟩ := by
  unfold carryOut at failed ⊢
  cases taken : step ledger with
  | ok value =>
    rw [taken] at failed
    cases failed
  | error cause =>
    rw [taken] at failed
    cases failed
    rfl

theorem carryOutQuietly_refuses {step : Step α}
    (failed : (carryOutQuietly step ledger).result = .error halt) :
    carryOutQuietly step ledger = ⟨.error halt, ledger, []⟩ := by
  unfold carryOutQuietly at failed ⊢
  cases taken : step ledger with
  | ok value =>
    rw [taken] at failed
    cases failed
  | error cause =>
    rw [taken] at failed
    cases failed
    rfl

/-- A step that cannot succeed is refused. -/
theorem carryOut_blocked {step : Step (α × List Effect)}
    (blocked : ∀ result after, step ledger ≠ .ok (result, after)) :
    (desk.carryOut step ledger).forget.Refuses ledger := by
  unfold carryOut
  cases taken : step ledger with
  | ok value => exact absurd taken (blocked value.1 value.2)
  | error cause => exact ⟨cause, rfl⟩

theorem carryOutQuietly_blocked {step : Step α}
    (blocked : ∀ result after, step ledger ≠ .ok (result, after)) :
    (carryOutQuietly step ledger).forget.Refuses ledger := by
  unfold carryOutQuietly
  cases taken : step ledger with
  | ok value => exact absurd taken (blocked value.1 value.2)
  | error cause => exact ⟨cause, rfl⟩

/-! ### Answers -/

/-- What a call answers, leaves and sends. -/
def answer (desk : Desk) (now : Instant) (ledger : Ledger) : Call → Outcome Unit
  | .registerUser name roles => (desk.registerUser now name roles ledger).forget
  | .grantRole user role => (Desk.grantRole user role ledger).forget
  | .createEdit caller submission => (desk.createEdit now caller submission ledger).forget
  | .updateEdit caller id proposal remark =>
    (desk.updateEdit now caller id proposal remark ledger).forget
  | .vote caller id choice => (desk.vote now caller id choice ledger).forget
  | .comment caller id text => (desk.comment now caller id text ledger).forget
  | .cancel caller id => (desk.cancel now caller id ledger).forget
  | .apply caller id => (desk.apply now caller id ledger).forget
  | .closeIfDue id => (desk.carryOut (desk.closeIfDue now id) ledger).forget
  | .closeCompleted => (desk.closeCompleted now ledger).forget
  | .deleteEdit caller id reason => (desk.deleteEdit now caller id reason ledger).forget
  | .deleteExpiredAudits => (desk.deleteExpiredAudits now ledger).forget

theorem answer_ledger (desk : Desk) (now : Instant) (ledger : Ledger) (call : Call) :
    (desk.answer now ledger call).ledger = desk.proceed now ledger call := by
  cases call <;> rfl

theorem deleteExpiredAudits_refuses {now : Instant}
    (failed : (desk.deleteExpiredAudits now ledger).result = .error halt) :
    desk.deleteExpiredAudits now ledger = ⟨.error halt, ledger, []⟩ := by
  rcases desk.deleteExpiredAudits_outcome now ledger with ⟨result, same⟩ | ⟨cutoff, same⟩
  · rw [same] at failed ⊢
    cases failed
    rfl
  · rw [same] at failed
    cases failed

/-- A call that is a single step leaves the ledger as it found it when it fails. -/
theorem answer_refuses {now : Instant} {call : Call} (single : call.isSingle = true)
    (failed : (desk.answer now ledger call).result = .error halt) :
    desk.answer now ledger call = ⟨.error halt, ledger, []⟩ := by
  cases call with
  | closeCompleted => cases single
  | registerUser | grantRole | deleteEdit =>
    exact congrArg Outcome.forget (carryOutQuietly_refuses (Outcome.forget_error.mp failed))
  | deleteExpiredAudits =>
    exact congrArg Outcome.forget (deleteExpiredAudits_refuses (Outcome.forget_error.mp failed))
  | _ => exact congrArg Outcome.forget (carryOut_refuses (Outcome.forget_error.mp failed))

/-- A tag is to be renamed by two edits, the first of which is accepted. -/
def renamedTwice : List (Clock × Call) :=
  staffed ++ [(⟨0⟩, .registerUser "administrator" [.admin])] ++
    accepted 1 3 (.create (.namedTag "outdoors")) ++
    [(⟨2⟩, .createEdit ⟨Uuid.serial 0⟩ (.modify ⟨Uuid.serial 4⟩ (.namedTag "open air")))] ++
    accepted 2 5 (.modify ⟨Uuid.serial 4⟩ (.namedTag "outside"))

end Desk

end Curation
