/-
**What a step that succeeds has done.** A step is put together from checks, reads, writes and issued
identifiers. Each of them is inverted here, so that a successful operation can be taken apart without
opening the definitions.

* `Except.foldlM_keeps`: what each write of a sequence keeps, the sequence keeps;
* `Step.bind_ok`, `Step.check_ok`, `Step.write_ok`, `Step.issue_ok`: the parts of a step;
* `Desk.carryOut_cases`: an operation leaves the ledger as it was, or its step has succeeded;
* `Desk.follow_store`: what follows a step changes nothing but what users hold.
-/

import Curation.Review.Desk
import Mathlib

namespace Curation

/-! ### Results -/

section Results

variable {ε δ α β : Type}

theorem Except.bind_ok {value : Except ε α} {next : α → Except ε β} {result : β} :
    value >>= next = .ok result ↔ ∃ input, value = .ok input ∧ next input = .ok result := by
  cases value <;> simp [bind, Except.bind]

theorem Except.map_ok {value : Except ε α} {image : α → β} {result : β} :
    value.map image = .ok result ↔ ∃ input, value = .ok input ∧ image input = result := by
  cases value <;> simp [Except.map]

theorem Except.map_error {value : Except ε α} {image : α → β} {error : ε} :
    value.map image = .error error ↔ value = .error error := by
  cases value <;> simp [Except.map]

theorem Except.forM_ok {check : α → Except ε Unit} {values : List α} {result : PUnit} :
    values.forM check = .ok result ↔ ∀ value ∈ values, check value = .ok () := by
  induction values with
  | nil => simp [pure, Except.pure]
  | cons value rest hypothesis =>
    show check value >>= (fun _ => rest.forM check) = _ ↔ _
    rw [Except.bind_ok, List.forall_mem_cons]
    constructor
    · rintro ⟨_, first, later⟩
      exact ⟨first, hypothesis.mp later⟩
    · rintro ⟨first, later⟩
      exact ⟨(), first, hypothesis.mpr later⟩

/-- A check of several values fails on one of them. -/
theorem Except.forM_error {check : α → Except ε Unit} {values : List α} {error : ε}
    (failed : values.forM check = .error error) : ∃ value ∈ values, check value = .error error := by
  induction values with
  | nil => cases failed
  | cons value rest hypothesis =>
    cases first : check value with
    | error cause =>
      change check value >>= (fun _ => rest.forM check) = _ at failed
      rw [first] at failed
      cases failed
      exact ⟨value, List.mem_cons_self, first⟩
    | ok result =>
      change check value >>= (fun _ => rest.forM check) = _ at failed
      rw [first] at failed
      obtain ⟨other, member, refused⟩ := hypothesis failed
      exact ⟨other, List.mem_cons_of_mem _ member, refused⟩

theorem Store.lift_ok {value : Except StoreError α} {result : α} :
    Store.lift value = .ok result ↔ value = .ok result := by
  cases value <;> simp [Store.lift, Except.mapError]

end Results

/-- What each step of a fold keeps, the fold keeps. -/
theorem Except.foldlM_keeps {ε α σ : Type} {write : σ → α → Except ε σ} (property : σ → Prop)
    (values : List α)
    (each : ∀ value ∈ values, ∀ state after, property state → write state value = .ok after →
      property after) {state after : σ} (holds : property state)
    (done : values.foldlM write state = .ok after) : property after := by
  induction values generalizing state with
  | nil =>
    cases done
    exact holds
  | cons value rest hypothesis =>
    obtain ⟨middle, first, later⟩ := Except.bind_ok.mp done
    exact hypothesis (fun value member => each value (List.mem_cons_of_mem _ member))
      (each value List.mem_cons_self state middle holds first) later

/-! ### Lists -/

section Lists

variable {α : Type} {change : α → α} {test : α → Bool}

/-- A change that a test does not see can be made after the test. -/
theorem List.filter_map_keeps (keeps : ∀ value, test (change value) = test value)
    (values : List α) : (values.map change).filter test = (values.filter test).map change := by
  have same : test ∘ change = test := funext keeps
  rw [List.filter_map, same]

theorem List.find?_map_keeps (keeps : ∀ value, test (change value) = test value)
    (values : List α) : (values.map change).find? test = (values.find? test).map change := by
  have same : test ∘ change = test := funext keeps
  rw [List.find?_map, same]

end Lists

/-! ### Steps -/

namespace Step

variable {α β : Type} {ledger after : Ledger}

theorem bind_ok {step : Step α} {next : α → Step β} {result : β} :
    (step >>= next) ledger = .ok (result, after) ↔
      ∃ value middle, step ledger = .ok (value, middle) ∧
        next value middle = .ok (result, after) := by
  show step ledger >>= (fun pair => next pair.1 pair.2) = _ ↔ _
  rw [Except.bind_ok, Prod.exists]

/-- A step goes on with the result of its first part. -/
theorem bind_of_ok {step : Step α} {next : α → Step β} {value : α} {middle : Ledger}
    (first : step ledger = .ok (value, middle)) : (step >>= next) ledger = next value middle := by
  show step ledger >>= (fun pair => next pair.1 pair.2) = _
  rw [first]
  rfl

theorem bind_of_error {step : Step α} {next : α → Step β} {error : ReviewError}
    (failed : step ledger = .error error) : (step >>= next) ledger = .error error := by
  show step ledger >>= (fun pair => next pair.1 pair.2) = _
  rw [failed]
  rfl

theorem pure_ok {value result : α} :
    (pure value : Step α) ledger = .ok (result, after) ↔ value = result ∧ ledger = after := by
  simp [pure, StateT.pure, Except.pure]

theorem read_ok {look : Store → α} {result : α} :
    read look ledger = .ok (result, after) ↔ look ledger.store = result ∧ ledger = after := by
  simp [read]

theorem check_ok {test : Store → Except ReviewError α} {result : α} :
    check test ledger = .ok (result, after) ↔
      test ledger.store = .ok result ∧ ledger = after := by
  rw [check, Except.map_ok]
  constructor
  · rintro ⟨value, passed, same⟩
    cases same
    exact ⟨passed, rfl⟩
  · rintro ⟨passed, rfl⟩
    exact ⟨result, passed, rfl⟩

theorem write_ok {change : Store → Except StoreError Store} {result : Unit} :
    write change ledger = .ok (result, after) ↔
      ∃ store, change ledger.store = .ok store ∧ after = { ledger with store } := by
  rw [write, Except.map_ok]
  constructor
  · rintro ⟨store, written, same⟩
    cases same
    exact ⟨store, Store.lift_ok.mp written, rfl⟩
  · rintro ⟨store, written, rfl⟩
    exact ⟨store, Store.lift_ok.mpr written, rfl⟩

theorem writeWith_ok {change : Store → Except StoreError (α × Store)} {result : α} :
    writeWith change ledger = .ok (result, after) ↔
      ∃ store, change ledger.store = .ok (result, store) ∧ after = { ledger with store } := by
  rw [writeWith, Except.map_ok]
  constructor
  · rintro ⟨⟨value, store⟩, written, same⟩
    cases same
    exact ⟨store, Store.lift_ok.mp written, rfl⟩
  · rintro ⟨store, written, rfl⟩
    exact ⟨(result, store), Store.lift_ok.mpr written, rfl⟩

theorem issue_ok {subject : Id.Subject} {draw : Nat → Uuid} {result : Id subject} :
    issue draw ledger = .ok (result, after) ↔
      result = ⟨draw ledger.issued⟩ ∧ after = { ledger with issued := ledger.issued + 1 } := by
  simp [issue, eq_comm]

end Step

/-! ### Operations -/

namespace Desk

variable {α : Type}

theorem require_ok {condition : Bool} {error : ReviewError} {result : Unit} :
    require condition error = .ok result ↔ condition = true := by
  unfold require
  split <;> simp_all

theorem loadEdit_ok {store : Store} {id : EditId} {edit : Edit} :
    loadEdit store id = .ok edit ↔ store.edit? id = some edit := by
  unfold loadEdit
  split <;> simp_all

theorem requirePending_ok {edit : Edit} {result : Unit} :
    requirePending edit = .ok result ↔ edit.isPending = true := by
  unfold requirePending
  split <;> simp_all

/-- What an operation leaves whose step has succeeded: its effects follow. -/
def concluded (desk : Desk) (result : α) (effects : List Effect) (after : Ledger) : Outcome α :=
  ⟨.ok result, (desk.follow effects after).1, (desk.follow effects after).2⟩

theorem carryOut_done {desk : Desk} {step : Step (α × List Effect)} {ledger after : Ledger}
    {result : α} {effects : List Effect} (done : step ledger = .ok ((result, effects), after)) :
    desk.carryOut step ledger = desk.concluded result effects after := by
  unfold carryOut
  rw [done]
  rfl

theorem carryOut_failed {desk : Desk} {step : Step (α × List Effect)} {ledger : Ledger}
    {error : ReviewError} (failed : step ledger = .error error) :
    desk.carryOut step ledger = ⟨.error (.refused error), ledger, []⟩ := by
  unfold carryOut
  rw [failed]

/-- **An operation leaves the ledger as it was, or its step has succeeded.** -/
theorem carryOut_cases (desk : Desk) (step : Step (α × List Effect)) (ledger : Ledger) :
    (desk.carryOut step ledger).ledger = ledger ∨
      ∃ result effects after, step ledger = .ok ((result, effects), after) ∧
        (desk.carryOut step ledger).result = .ok result ∧
        (desk.carryOut step ledger).ledger = (desk.follow effects after).1 := by
  unfold carryOut
  cases step ledger with
  | ok value =>
    obtain ⟨⟨result, effects⟩, after⟩ := value
    exact .inr ⟨result, effects, after, rfl, rfl, rfl⟩
  | error error => exact .inl rfl

theorem carryOut_ok {desk : Desk} {step : Step (α × List Effect)} {ledger : Ledger} {result : α}
    (done : (desk.carryOut step ledger).result = .ok result) :
    ∃ effects after, step ledger = .ok ((result, effects), after) ∧
      (desk.carryOut step ledger).ledger = (desk.follow effects after).1 := by
  unfold carryOut at done ⊢
  cases run : step ledger with
  | ok value =>
    obtain ⟨⟨given, effects⟩, after⟩ := value
    rw [run] at done
    cases done
    exact ⟨effects, after, rfl, rfl⟩
  | error error =>
    rw [run] at done
    cases done

/-- An operation that fails leaves the ledger as it was. -/
theorem carryOut_error {desk : Desk} {step : Step (α × List Effect)} {ledger : Ledger}
    {halt : Halt} (failed : (desk.carryOut step ledger).result = .error halt) :
    (desk.carryOut step ledger).ledger = ledger := by
  rcases desk.carryOut_cases step ledger with same | ⟨result, effects, after, -, done, -⟩
  · exact same
  · rw [done] at failed
    cases failed

theorem carryOutQuietly_cases (step : Step α) (ledger : Ledger) :
    (carryOutQuietly step ledger).ledger = ledger ∨
      ∃ result after, step ledger = .ok (result, after) ∧
        (carryOutQuietly step ledger).ledger = after := by
  unfold carryOutQuietly
  cases step ledger with
  | ok value => exact .inr ⟨value.1, value.2, rfl, rfl⟩
  | error error => exact .inl rfl

/-- Dropping old audits does nothing, or it drops those from before some instant and counts them. -/
theorem deleteExpiredAudits_outcome (desk : Desk) (now : Instant) (ledger : Ledger) :
    (∃ result, desk.deleteExpiredAudits now ledger = ⟨result, ledger, []⟩) ∨
      ∃ cutoff, desk.deleteExpiredAudits now ledger =
        ⟨.ok (ledger.store.deleteAuditsBefore cutoff).1,
          { ledger with store := (ledger.store.deleteAuditsBefore cutoff).2 }, []⟩ := by
  unfold deleteExpiredAudits
  cases desk.rules.retentionCutoff now with
  | error halt => exact .inl ⟨_, rfl⟩
  | ok cutoff =>
    cases cutoff with
    | none => exact .inl ⟨_, rfl⟩
    | some cutoff => exact .inr ⟨cutoff, rfl⟩

end Desk

theorem Edit.requireTarget_ok {edit : Edit} {target : EntityId} :
    edit.requireTarget = .ok target ↔ edit.target = some target := by
  unfold requireTarget
  split <;> simp_all

/-! ### What follows a step -/

theorem Store.grantRole_store {store after : Store} {user : UserId} {role : Role} {isNew : Bool}
    (granted : store.grantRole user role = .ok (isNew, after)) :
    after = { store with grants := after.grants } := by
  unfold Store.grantRole at granted
  split at granted
  · cases granted
    rfl
  · split at granted
    · cases granted
      rfl
    · cases granted

theorem Store.promote_store {store after : Store} {user : UserId} {threshold : UInt32}
    {isNew : Bool} (promoted : store.promote user threshold = .ok (isNew, after)) :
    after = { store with grants := after.grants } := by
  unfold Store.promote at promoted
  split at promoted
  · cases promoted
    rfl
  · split at promoted
    · cases promoted
      rfl
    · exact Store.grantRole_store promoted

namespace Desk

theorem promote_store (desk : Desk) (user : UserId) (ledger : Ledger) :
    ∃ grants, desk.promote user ledger = { ledger with store := { ledger.store with grants } } := by
  unfold promote
  split
  · exact ⟨_, rfl⟩
  · split
    next promoted =>
      exact ⟨_, congrArg (fun store => ({ ledger with store } : Ledger))
        (Store.promote_store promoted)⟩
    · exact ⟨_, rfl⟩

/-- **What follows a step changes nothing but what users hold.** -/
theorem follow_store (desk : Desk) (effects : List Effect) (ledger : Ledger) :
    ∃ grants,
      (desk.follow effects ledger).1 = { ledger with store := { ledger.store with grants } } := by
  unfold follow
  refine List.foldlRecOn effects _
    (motive := fun (pair : Ledger × List Notice) =>
      ∃ grants, pair.1 = { ledger with store := { ledger.store with grants } })
    ⟨_, rfl⟩ ?_
  rintro ⟨_, notices⟩ ⟨grants, rfl⟩ effect -
  cases effect with
  | notify notice => exact ⟨grants, rfl⟩
  | promote user =>
    exact desk.promote_store user { ledger with store := { ledger.store with grants } }

end Desk

end Curation
