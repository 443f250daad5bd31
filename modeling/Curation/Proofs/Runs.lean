/-
**Runs.** A run is a sequence of calls of the operations of a desk, each at some time, from the empty
ledger on. Whatever holds at the beginning and is kept by every transaction holds after every run.

* `Desk.run`: the ledger after a run;
* `Desk.transactions`: the transactions of a call, and `Desk.runFrom_transactions`: it does what they
  do, so that they reach every state by `Desk.run_singles`;
* `Desk.run_induction`: the induction on runs.
-/

import Curation.Clock
import Curation.Identity.Serial
import Curation.Proofs.Application

namespace Curation

/-- A call of one of the operations, with what it is given. The call `closeIfDue` is one of the
transactions that `closeCompleted` consists of. -/
inductive Call where
  | registerUser (name : String) (roles : List Role)
  | grantRole (user : UserId) (role : Role)
  | createEdit (caller : UserId) (submission : Submission)
  | updateEdit (caller : UserId) (id : EditId) (proposal : Proposal) (remark : Option String)
  | vote (caller : UserId) (id : EditId) (choice : Choice)
  | comment (caller : UserId) (id : EditId) (text : String)
  | cancel (caller : UserId) (id : EditId)
  | apply (caller : UserId) (id : EditId)
  | closeIfDue (id : EditId)
  | closeCompleted
  | deleteEdit (caller : UserId) (id : EditId) (reason : String)
  | deleteExpiredAudits

/-- Every call but the sweep is a single transaction. -/
def Call.isSingle : Call → Bool
  | .closeCompleted => false
  | _ => true

namespace Desk

/-- The ledger that a call leaves, whether it succeeds or not. -/
def proceed (desk : Desk) (now : Instant) (ledger : Ledger) : Call → Ledger
  | .registerUser name roles => (desk.registerUser now name roles ledger).ledger
  | .grantRole user role => (Desk.grantRole user role ledger).ledger
  | .createEdit caller submission => (desk.createEdit now caller submission ledger).ledger
  | .updateEdit caller id proposal remark =>
    (desk.updateEdit now caller id proposal remark ledger).ledger
  | .vote caller id choice => (desk.vote now caller id choice ledger).ledger
  | .comment caller id text => (desk.comment now caller id text ledger).ledger
  | .cancel caller id => (desk.cancel now caller id ledger).ledger
  | .apply caller id => (desk.apply now caller id ledger).ledger
  | .closeIfDue id => (desk.carryOut (desk.closeIfDue now id) ledger).ledger
  | .closeCompleted => (desk.closeCompleted now ledger).ledger
  | .deleteEdit caller id reason => (desk.deleteEdit now caller id reason ledger).ledger
  | .deleteExpiredAudits => (desk.deleteExpiredAudits now ledger).ledger

/-- The ledger that calls leave one after the other, each at a time of its own. -/
def runFrom (desk : Desk) (start : Ledger) (calls : List (Instant × Call)) : Ledger :=
  calls.foldl (fun ledger (now, call) => desk.proceed now ledger call) start

/-- The ledger after some calls. -/
def run (desk : Desk) (calls : List (Instant × Call)) : Ledger := desk.runFrom .empty calls

/-- Calls at the times that clocks show. -/
def timed (calls : List (Clock × Call)) : List (Instant × Call) :=
  calls.map fun (clock, call) => (clock.now, call)

theorem run_append (desk : Desk) (calls later : List (Instant × Call)) :
    desk.run (calls ++ later) = desk.runFrom (desk.run calls) later :=
  List.foldl_append

theorem run_concat (desk : Desk) (calls : List (Instant × Call)) (now : Instant) (call : Call) :
    desk.run (calls ++ [(now, call)]) = desk.proceed now (desk.run calls) call :=
  desk.run_append calls [(now, call)]

/-! ### Transactions -/

/-- Those among some edits that a sweep closes, which stops at the first failure. -/
def swept (desk : Desk) (now : Instant) : List EditId → Ledger → List EditId
  | [], _ => []
  | id :: rest, ledger =>
    let first := desk.carryOut (desk.closeIfDue now id) ledger
    match first.result with
    | .ok _ => id :: desk.swept now rest first.ledger
    | .error _ => [id]

/-- The transactions of which a call consists: a sweep closes edits one after the other, and any
other call is a transaction itself. -/
def transactions (desk : Desk) (now : Instant) (ledger : Ledger) : Call → List (Instant × Call)
  | .closeCompleted =>
    let due := ledger.store.pendingEdits.filter fun edit =>
      decide (desk.votingEnds ledger.store edit ≤ now)
    (desk.swept now (due.map Edit.id) ledger).map fun id => (now, .closeIfDue id)
  | call => [(now, call)]

theorem transactions_cases (desk : Desk) (now : Instant) (ledger : Ledger) (call : Call) :
    (call.isSingle = true ∧ desk.transactions now ledger call = [(now, call)]) ∨
      (call = .closeCompleted ∧ ∃ ids : List EditId,
        desk.transactions now ledger call = ids.map fun id => (now, .closeIfDue id)) := by
  cases call with
  | closeCompleted => exact .inr ⟨rfl, _, rfl⟩
  | _ => exact .inl ⟨rfl, rfl⟩

/-- A call that is not a sweep is its only transaction. -/
theorem transactions_single {desk : Desk} {now time : Instant} {ledger : Ledger} {call step : Call}
    {first rest : List (Instant × Call)} (single : call.isSingle = true)
    (performed : desk.transactions now ledger call = first ++ (time, step) :: rest) :
    first = [] ∧ step = call ∧ rest = [] := by
  rcases desk.transactions_cases now ledger call with ⟨-, alone⟩ | ⟨rfl, -⟩
  · rw [alone] at performed
    cases first with
    | nil =>
      cases performed
      exact ⟨rfl, rfl, rfl⟩
    | cons head others =>
      have longer := congrArg List.length performed
      simp at longer
  · cases single

theorem closeEach_ledger (desk : Desk) (now : Instant) (ids : List EditId) (closed : Nat)
    (ledger : Ledger) : (desk.closeEach now ids closed ledger).ledger =
      desk.runFrom ledger ((desk.swept now ids ledger).map fun id => (now, .closeIfDue id)) := by
  induction ids generalizing closed ledger with
  | nil => rfl
  | cons id rest hypothesis =>
    unfold closeEach swept
    dsimp only
    cases (desk.carryOut (desk.closeIfDue now id) ledger).result with
    | ok wasDue => exact hypothesis _ _
    | error error => rfl

/-- **A call does what its transactions do.** -/
theorem runFrom_transactions (desk : Desk) (now : Instant) (ledger : Ledger) (call : Call) :
    desk.runFrom ledger (desk.transactions now ledger call) = desk.proceed now ledger call := by
  cases call with
  | closeCompleted => exact (desk.closeEach_ledger now _ 0 ledger).symm
  | _ => rfl

/-- What the transactions of a call keep, the call keeps. -/
theorem proceed_keeps {property : Ledger → Prop} (desk : Desk) (now : Instant) {ledger : Ledger}
    (call : Call) (holds : property ledger)
    (keeps : ∀ state step, step.isSingle = true → (step = call ∨ ∃ id, step = .closeIfDue id) →
      property state → property (desk.proceed now state step)) :
    property (desk.proceed now ledger call) := by
  rcases desk.transactions_cases now ledger call with ⟨single, -⟩ | ⟨-, ids, same⟩
  · exact keeps ledger call single (.inl rfl) holds
  · rw [← runFrom_transactions, same, runFrom, List.foldl_map]
    refine List.foldlRecOn ids _ holds (fun state holds id _ => ?_)
    exact keeps state (.closeIfDue id) rfl (.inr ⟨id, rfl⟩) holds

/-- **Whatever is reached at all is reached by single transactions.** -/
theorem run_singles (desk : Desk) (calls : List (Instant × Call)) :
    ∃ singles : List (Instant × Call), (∀ entry ∈ singles, entry.2.isSingle = true) ∧
      desk.run singles = desk.run calls := by
  unfold run
  generalize Ledger.empty = start
  induction calls generalizing start with
  | nil => exact ⟨[], fun entry member => (nomatch member), rfl⟩
  | cons head rest hypothesis =>
    obtain ⟨now, call⟩ := head
    obtain ⟨later, single, same⟩ := hypothesis (desk.proceed now start call)
    refine ⟨desk.transactions now start call ++ later, fun entry member => ?_, ?_⟩
    · rcases List.mem_append.mp member with here | there
      · rcases desk.transactions_cases now start call with ⟨alone, parts⟩ | ⟨-, ids, parts⟩
        · rw [parts, List.mem_singleton] at here
          rw [here]
          exact alone
        · rw [parts] at here
          obtain ⟨id, -, rfl⟩ := List.mem_map.mp here
          rfl
      · exact single entry there
    · rw [runFrom, List.foldl_append]
      change desk.runFrom (desk.runFrom start _) later = _
      rw [runFrom_transactions, same]
      rfl

/-- **The induction on runs**: what holds of the empty ledger and is kept by every single
transaction holds after every run. -/
theorem run_induction {property : Ledger → Prop} (desk : Desk) (calls : List (Instant × Call))
    (empty : property .empty)
    (keeps : ∀ now ∈ calls.map Prod.fst, ∀ ledger call, call.isSingle = true →
      property ledger → property (desk.proceed now ledger call)) :
    property (desk.run calls) := by
  refine List.foldlRecOn calls _ empty (fun ledger holds entry member => ?_)
  refine desk.proceed_keeps entry.1 entry.2 holds fun state step single _ => ?_
  exact keeps entry.1 (List.mem_map_of_mem member) state step single

/-! ### A small desk -/

/-- A desk at which one vote settles an edit. -/
def swift : Desk :=
  ⟨{ Rules.standard with threshold := 1, appliesCreates := false }, .standard, Uuid.serial⟩

/-- One user may submit edits, and another may vote on them. -/
def staffed : List (Clock × Call) :=
  [(⟨0⟩, .registerUser "submitter" [.edit]), (⟨0⟩, .registerUser "voter" [.vote])]

/-- The first user submits an edit, and the second accepts the edit with a given number. -/
def accepted (millis : Int64) (number : Nat) (submission : Submission) : List (Clock × Call) :=
  [(⟨millis⟩, .createEdit ⟨Uuid.serial 0⟩ submission),
    (⟨millis⟩, .vote ⟨Uuid.serial 1⟩ ⟨Uuid.serial number⟩ .accept)]

end Desk

/-- The proposal of a tag with a name. -/
def Proposal.namedTag (name : String) : Proposal where
  kind := .tag
  input :=
    { Input.empty .tag with
      scalar := fun field => match field with
        | .tagName => .value name
        | _ => .untouched }

/-- The proposal of a scene with a title and one tag. -/
def Proposal.taggedScene (title : String) (tag : EntityId) : Proposal where
  kind := .scene
  input :=
    { Input.empty .scene with
      scalar := fun field => match field with
        | .sceneTitle => .value title
        | _ => .untouched
      links := fun link => match link with
        | .sceneTags => ⟨[tag], []⟩
        | .scenePerformers => .none }

end Curation
