/-
**The life of an edit.** An edit is filed, may be amended while it is pending, and is closed once.
From then on neither it nor the votes on it change, and comments are only added, until it is deleted
together with its votes and comments.

* `Store.Continues`: what an edit keeps between two states, and `Desk.runFrom_continues`: it does so
  throughout a run up to its deletion;
* `Desk.amendmentsIn`: the calls of a run that amend an edit, and `Desk.run_amendments`: the edit
  counts them;
* `Desk.run_lifecycle`: all of it together.
-/

import Curation.Proofs.Ballots
import Curation.Proofs.Verdicts

namespace Curation

/-! ### Regular edits -/

/-- An edit has a closing time exactly when it is not pending, counts as applied exactly when its
status says so, and has been amended no more often than the rules allow. -/
structure Edit.Regular (edit : Edit) (rules : Rules) : Prop where
  closed : edit.closed.isSome = true ↔ edit.isPending = false
  applied : edit.applied = edit.status.isApplied
  amendments : edit.amendments ≤ rules.amendmentLimit

theorem Edit.Regular.close {edit : Edit} {rules : Rules} (regular : edit.Regular rules)
    {status : Status} (settled : status.isPending = false) (target : Option EntityId)
    (score : Int32) (now : Instant) :
    ({ edit with target, score }.close status now).toMillisecond.Regular rules where
  closed := iff_of_true rfl settled
  applied := rfl
  amendments := regular.amendments

theorem Edit.Regular.stays {edit : Edit} {rules : Rules} (regular : edit.Regular rules)
    (score : Int32) (updated : Option Instant) (details : Details) {amendments : UInt32}
    (limit : amendments ≤ rules.amendmentLimit) :
    ({ edit with score, updated, details, amendments } : Edit).toMillisecond.Regular rules where
  closed := by
    show (edit.closed.map Instant.toMillisecond).isSome = true ↔ _
    rw [Option.isSome_map]
    exact regular.closed
  applied := regular.applied
  amendments := limit

/-- Where one more amendment is allowed, it is counted and does not exceed the limit. -/
theorem amendments_succ {amendments limit : UInt32} (allowed : amendments < limit) :
    (amendments + 1).toNat = amendments.toNat + 1 ∧ amendments + 1 ≤ limit := by
  have less := UInt32.lt_iff_toNat_lt.mp allowed
  have small := limit.toNat_lt
  have counted : (amendments + 1).toNat = amendments.toNat + 1 := by
    rw [UInt32.toNat_add, UInt32.toNat_one]
    omega
  refine ⟨counted, UInt32.le_iff_toNat_le.mpr ?_⟩
  omega

theorem Status.isApplied_iff {status : Status} :
    status.isApplied = true ↔ status = .accepted ∨ status = .immediateAccepted := by
  cases status <;> decide

/-! ### What an edit keeps -/

/-- Two states of one edit agree on who filed it, when, and what it is about. -/
structure Edit.SameFiling (first second : Edit) : Prop where
  id : second.id = first.id
  submitter : second.submitter = first.submitter
  operation : second.operation = first.operation
  kind : second.kind = first.kind
  sources : second.sources = first.sources
  bot : second.bot = first.bot
  created : second.created = first.created

theorem Edit.SameFiling.refl (edit : Edit) : edit.SameFiling edit := ⟨rfl, rfl, rfl, rfl, rfl, rfl, rfl⟩

theorem Edit.SameFiling.trans {first second third : Edit} (left : first.SameFiling second)
    (right : second.SameFiling third) : first.SameFiling third :=
  ⟨right.id.trans left.id, right.submitter.trans left.submitter,
    right.operation.trans left.operation, right.kind.trans left.kind,
    right.sources.trans left.sources, right.bot.trans left.bot, right.created.trans left.created⟩

namespace Store

variable {first middle last : Store} {edit : Edit}

/-- An edit is still stored as it was filed. If it was closed, it is the same still and so are the
votes on it. Comments on it have only been added. -/
structure Continues (first last : Store) (edit : Edit) : Prop where
  stored : ∃ standing, last.edit? edit.id = some standing ∧ edit.SameFiling standing ∧
    (edit.isPending = false → standing = edit)
  votes : edit.isPending = false → last.votesOn edit.id = first.votesOn edit.id
  comments : first.remarks edit.id <+: last.remarks edit.id

/-- How often an edit has been amended; not at all, if it is not stored. -/
def amendments (store : Store) (id : EditId) : Nat :=
  ((store.edit? id).map fun edit => edit.amendments.toNat).getD 0

/-- Every edit that is stored is regular. -/
def Regular (store : Store) (rules : Rules) : Prop :=
  ∀ id edit, store.edit? id = some edit → edit.Regular rules

/-- Nothing is stored of an edit. -/
structure Lacks (store : Store) (id : EditId) : Prop where
  edit : store.edit? id = none
  votes : store.votesOn id = []
  comments : store.commentsOn id = []

theorem Continues.refl (found : first.edit? edit.id = some edit) : first.Continues first edit where
  stored := ⟨edit, found, .refl edit, fun _ => rfl⟩
  votes _ := rfl
  comments := List.prefix_rfl

theorem Continues.trans (left : first.Continues middle edit)
    (right : ∀ standing, edit.SameFiling standing → middle.edit? standing.id = some standing →
      middle.Continues last standing) : first.Continues last edit := by
  obtain ⟨standing, found, filing, frozen⟩ := left.stored
  have next := right standing filing (filing.id ▸ found)
  obtain ⟨final, foundFinal, filingFinal, frozenFinal⟩ := next.stored
  rw [filing.id] at foundFinal
  refine ⟨⟨final, foundFinal, filing.trans filingFinal, fun settled => ?_⟩, fun settled => ?_, ?_⟩
  · have same := frozen settled
    rw [same] at frozenFinal
    exact frozenFinal settled
  · have same := frozen settled
    rw [← left.votes settled, ← filing.id]
    exact next.votes (same ▸ settled)
  · have grows := next.comments
    rw [filing.id] at grows
    exact left.comments.trans grows

/-- An edit that has been deleted has left nothing but audits. -/
theorem lacks_deleteEdit (store : Store) (id : EditId) (audits : List Audit) :
    Lacks { (store.deleteEdit id).2 with audits } id where
  edit := by
    have rest : ({ (store.deleteEdit id).2 with audits } : Store).edits =
        store.edits.filter fun stored => stored.id ≠ id := rfl
    cases found : edit? { (store.deleteEdit id).2 with audits } id with
    | none => rfl
    | some edit => exact absurd rfl (edit?_remove rest found).1
  votes := votesOn_eq_nil fun vote member => of_decide_eq_true (List.mem_filter.mp member).2
  comments := by
    unfold commentsOn deleteEdit
    rw [List.filter_filter, List.filter_eq_nil_iff.mpr fun comment _ => by simp]
    rfl

end Store

namespace Desk

variable {desk : Desk} {now : Instant} {call : Call} {before after : Store} {id : EditId}
  {edit : Edit}

/-- **A turn leaves regular edits.** -/
theorem Turn.regular (turn : desk.Turn now call before after) (regular : before.Regular desk.rules) :
    after.Regular desk.rules := by
  intro id edit found
  have unamended : (0 : UInt32) ≤ desk.rules.amendmentLimit :=
    UInt32.le_iff_toNat_le.mpr (Nat.zero_le _)
  cases edit?_id found
  cases turn.origin found with
  | kept found votes => exact regular _ edit found
  | submitted caller submission details unused checked same catalogue =>
    rw [same]
    exact ⟨iff_of_false Bool.false_ne_true (Bool.true_eq_false_eq_False), rfl, unamended⟩
  | enacted caller submission details number target store unused checked creates application
      catalogue same =>
    rw [same]
    exact ⟨iff_of_true rfl rfl, rfl, unamended⟩
  | handled earlier written looked pending handles same =>
    have wasRegular := regular _ earlier looked
    rw [same]
    cases handles with
    | amended caller proposal remark details called mayChange limit kind checked catalogue votes =>
      exact wasRegular.stays 0 (some now) details (amendments_succ limit).2
    | withdrawn catalogue votes => exact wasRegular.close rfl _ _ now
    | enforced caller voted number target store cast votes application catalogue =>
      exact wasRegular.close rfl _ _ now
    | decided tally verdict written counted decides settles =>
      cases settles with
      | pending catalogue =>
        exact wasRegular.stays tally.net earlier.updated earlier.details wasRegular.amendments
      | rejected catalogue => exact wasRegular.close rfl _ _ now
      | accepted number target store application catalogue => exact wasRegular.close rfl _ _ now
      | failed number error application catalogue => exact wasRegular.close rfl _ _ now

/-- **Every edit is regular**, after every run. -/
theorem run_regular (desk : Desk) (calls : List (Instant × Call)) :
    (desk.run calls).store.Regular desk.rules :=
  @run_keeps (fun store => store.Regular desk.rules) desk calls (fun _ _ found => (nomatch found))
    fun _ _ _ _ _ turn regular => turn.regular regular

/-! ### One call -/

/-- Handling an edit leaves it as it was filed. -/
theorem Handles.sameFiling {earlier written : Edit}
    (handles : desk.Handles now call before after earlier written)
    (found : before.edit? earlier.id = some earlier) : earlier.SameFiling written.toMillisecond := by
  have whole : earlier.created.toMillisecond = earlier.created :=
    congrArg Edit.created (Store.edit?_toMillisecond found)
  rw [← handles.overwrites]
  exact ⟨rfl, rfl, rfl, rfl, rfl, rfl, whole⟩

/-- An edit continues over a transaction that was not meant to delete it. -/
theorem Turn.continues (turn : desk.Turn now call before after)
    (found : before.edit? edit.id = some edit)
    (undeleted : ∀ caller reason, call ≠ .deleteEdit caller edit.id reason)
    (comments : before.remarks edit.id <+: after.remarks edit.id) :
    before.Continues after edit := by
  have stored : (after.edit? edit.id).isSome = true := by
    rw [Store.edit?_isSome]
    exact turn.keepsEdit (Store.hasEdit_of_edit? found) undeleted
  obtain ⟨standing, looked⟩ := Option.isSome_iff_exists.mp stored
  have sameId := edit?_id looked
  rw [← sameId] at found
  cases turn.origin looked with
  | kept kept votes =>
    cases kept.symm.trans found
    exact ⟨⟨edit, looked, .refl edit, fun _ => rfl⟩, fun _ => votes, comments⟩
  | submitted caller submission details unused checked same catalogue =>
    cases unused.symm.trans found
  | enacted caller submission details number target store unused checked creates application
      catalogue same =>
    cases unused.symm.trans found
  | handled earlier written earlierFound pending handles same =>
    have filing := handles.sameFiling earlierFound
    rw [← same] at filing
    rw [filing.id] at found
    cases earlierFound.symm.trans found
    have waiting : edit.isPending ≠ false := by simp [pending]
    exact ⟨⟨standing, looked, filing, fun settled => absurd settled waiting⟩,
      fun settled => absurd settled waiting, comments⟩

/-- A deletion leaves everything as it was, or it leaves nothing of the edit. -/
theorem deleteEdit_cases (desk : Desk) (now : Instant) (caller : UserId) (id : EditId)
    (reason : String) (ledger : Ledger) :
    (desk.deleteEdit now caller id reason ledger).ledger.store = ledger.store ∨
      ∃ audits, (desk.deleteEdit now caller id reason ledger).ledger.store =
        { (ledger.store.deleteEdit id).2 with audits } := by
  unfold deleteEdit
  rcases carryOutQuietly_cases _ ledger with same | ⟨result, after, done, same⟩
  · rw [same]
    exact .inl rfl
  · rw [same]
    simp only [Step.bind_ok, Step.check_ok, Step.read_ok] at done
    obtain ⟨roles, _, ⟨-, rfl⟩, -, _, ⟨-, rfl⟩, found, _, ⟨looked, rfl⟩, done⟩ := done
    cases found with
    | none =>
      obtain ⟨-, rfl⟩ := Step.pure_ok.mp done
      exact .inl rfl
    | some edit =>
      simp only [Step.bind_ok, Step.check_ok, Step.issue_ok, Step.write_ok, Step.pure_ok] at done
      obtain ⟨-, _, ⟨-, rfl⟩, audit, _, ⟨-, rfl⟩, -, _, ⟨store, deleted, rfl⟩, -, rfl⟩ := done
      cases edit?_id looked
      exact .inr ⟨_, Store.deleteWithAudit_frame deleted⟩

/-- **An edit continues over a call, or the call deletes it** and leaves nothing of it. -/
theorem proceed_continues (desk : Desk) (now : Instant) (call : Call) {ledger : Ledger}
    (found : ledger.store.edit? edit.id = some edit) :
    ledger.store.Continues (desk.proceed now ledger call).store edit ∨
      ∃ caller reason, call = .deleteEdit caller edit.id reason ∧
        (desk.proceed now ledger call).store.Lacks edit.id := by
  by_cases deletes : ∃ caller reason, call = .deleteEdit caller edit.id reason
  · obtain ⟨caller, reason, rfl⟩ := deletes
    rcases desk.deleteEdit_cases now caller edit.id reason ledger with same | ⟨audits, same⟩
    · left
      rw [proceed, same]
      exact .refl found
    · refine .inr ⟨caller, reason, rfl, ?_⟩
      rw [proceed, same]
      exact Store.lacks_deleteEdit ledger.store edit.id audits
  · left
    refine @proceed_keeps (fun state => ledger.store.Continues state.store edit) desk now ledger call
      (.refl found) fun state step single origin earlier => ?_
    refine earlier.trans fun standing filing stands => ?_
    have undeleted : ∀ caller reason, step ≠ .deleteEdit caller standing.id reason := by
      rintro caller reason rfl
      rcases origin with same | ⟨id, other⟩
      · exact deletes ⟨caller, reason, filing.id ▸ same.symm⟩
      · cases other
    exact (desk.turn now state single).continues stands undeleted
      ((desk.posts now state single).extends.comments standing.id undeleted)

/-! ### Amendments -/

/-- A call amends an edit. -/
def amends (desk : Desk) (now : Instant) (ledger : Ledger) (id : EditId) : Call → Bool
  | .updateEdit caller target proposal remark =>
    decide (target = id) && (desk.updateEdit now caller target proposal remark ledger).result.isOk
  | _ => false

/-- The number of calls, made one after the other, that amend an edit. -/
def amendmentsIn (desk : Desk) (id : EditId) : Ledger → List (Instant × Call) → Nat
  | _, [] => 0
  | ledger, (now, call) :: rest =>
    (desk.amends now ledger id call).toNat +
      desk.amendmentsIn id (desk.proceed now ledger call) rest

theorem amendmentsIn_append (desk : Desk) (id : EditId) (ledger : Ledger)
    (first rest : List (Instant × Call)) :
    desk.amendmentsIn id ledger (first ++ rest) =
      desk.amendmentsIn id ledger first + desk.amendmentsIn id (desk.runFrom ledger first) rest := by
  induction first generalizing ledger with
  | nil => exact (Nat.zero_add _).symm
  | cons head first hypothesis =>
    obtain ⟨now, call⟩ := head
    rw [List.cons_append, amendmentsIn, amendmentsIn, hypothesis, Nat.add_assoc]
    rfl

theorem amendments_of_found {store : Store} (found : store.edit? id = some edit) :
    store.amendments id = edit.amendments.toNat := by
  rw [Store.amendments, found]
  rfl

theorem amendments_of_none {store : Store} (unused : store.edit? id = none) :
    store.amendments id = 0 := by
  rw [Store.amendments, unused]
  rfl

/-- An amendment is counted, and a transaction that does not amend an edit leaves the count. -/
theorem step_amendments (desk : Desk) (now : Instant) {ledger : Ledger} (single : call.isSingle = true)
    (found : (desk.proceed now ledger call).store.edit? id = some edit) :
    edit.amendments.toNat =
      ledger.store.amendments id + (desk.amends now ledger id call).toNat := by
  by_cases asks : ∃ caller proposal remark, call = .updateEdit caller id proposal remark
  · obtain ⟨caller, proposal, remark, rfl⟩ := asks
    rw [amends, decide_eq_true rfl, Bool.true_and]
    cases outcome : (desk.updateEdit now caller id proposal remark ledger).result with
    | error error =>
      rw [proceed, updateEdit, carryOut_error outcome] at found
      rw [amendments_of_found found]
      rfl
    | ok result =>
      obtain ⟨earlier, amended, stored, rfl, -, limit, sameId, counted, -, edits⟩ :=
        updateEdit_handles outcome
      rw [amendments_of_found stored]
      rcases Store.edit?_editsWith edits found with ⟨other, -⟩ | ⟨-, row, -, rfl⟩
      · exact absurd sameId.symm other
      · show amended.amendments.toNat = earlier.amendments.toNat + 1
        rw [counted, (amendments_succ limit).1]
  · have unasked : desk.amends now ledger id call = false := by
      unfold amends
      split
      next caller target proposal remark =>
        have other : target ≠ id := by
          rintro rfl
          exact asks ⟨caller, proposal, remark, rfl⟩
        rw [decide_eq_false other, Bool.false_and]
      · rfl
    rw [unasked, Bool.toNat_false, Nat.add_zero]
    cases edit?_id found
    cases (desk.turn now ledger single).origin found with
    | kept stored votes => exact (amendments_of_found stored).symm
    | submitted caller submission details unused checked same catalogue =>
      rw [amendments_of_none unused, same]
      rfl
    | enacted caller submission details number target store unused checked creates application
        catalogue same =>
      rw [amendments_of_none unused, same]
      rfl
    | handled earlier written stored pending handles same =>
      have sameId : edit.id = earlier.id := by
        rw [same]
        exact handles.id_eq
      rw [sameId, amendments_of_found stored, same]
      cases handles with
      | amended caller proposal remark details called mayChange limit kind checked catalogue votes =>
        exact absurd ⟨caller, proposal, remark, sameId ▸ called⟩ asks
      | withdrawn catalogue votes => rfl
      | enforced caller voted number target store cast votes application catalogue => rfl
      | decided tally verdict written counted decides settles =>
        cases settles with
        | pending catalogue => rfl
        | rejected catalogue => rfl
        | accepted number target store application catalogue => rfl
        | failed number error application catalogue => rfl

/-- Closing an edit amends none. -/
theorem closeIfDue_amendments (desk : Desk) (now : Instant) (closed : EditId) (ledger : Ledger) :
    (desk.proceed now ledger (.closeIfDue closed)).store.amendments id =
      ledger.store.amendments id := by
  cases next : (desk.proceed now ledger (.closeIfDue closed)).store.edit? id with
  | some later =>
    rw [amendments_of_found next, desk.step_amendments now rfl next]
    rfl
  | none =>
    rw [amendments_of_none next]
    cases stored : ledger.store.edit? id with
    | none => exact (amendments_of_none stored).symm
    | some standing =>
      have turn : desk.Turn now (.closeIfDue closed) ledger.store
          (desk.proceed now ledger (.closeIfDue closed)).store := desk.turn now ledger rfl
      obtain ⟨later, looked⟩ := turn.edit?_isSome stored (Call.closeIfDue_revises? closed id)
      cases next.symm.trans looked

/-- **An edit that is stored after a call counts the amendments so far**, this call included. -/
theorem proceed_amendments (desk : Desk) (now : Instant) (call : Call) {ledger : Ledger}
    (found : (desk.proceed now ledger call).store.edit? id = some edit) :
    edit.amendments.toNat =
      ledger.store.amendments id + (desk.amends now ledger id call).toNat := by
  rcases desk.transactions_cases now ledger call with ⟨single, -⟩ | ⟨rfl, ids, parts⟩
  · exact desk.step_amendments now single found
  · rw [← amendments_of_found found, ← runFrom_transactions, parts, runFrom, List.foldl_map]
    exact List.foldlRecOn (motive := fun state : Ledger =>
      state.store.amendments id = ledger.store.amendments id) ids _ rfl
      fun state same closed _ => (desk.closeIfDue_amendments now closed state).trans same

/-- An edit was filed by the first call of the latter part of a run, and has been stored since. -/
structure Filed (desk : Desk) (calls : List (Instant × Call)) (id : EditId)
    (earlier since : List (Instant × Call)) : Prop where
  parts : calls = earlier ++ since
  unused : (desk.run earlier).store.edit? id = none
  stored : ∀ first, first <+: since → first ≠ [] →
    ((desk.run (earlier ++ first)).store.edit? id).isSome = true

/-- **An edit counts its amendments**: the successful ones among the calls since it was filed. -/
theorem run_amendments (desk : Desk) (calls : List (Instant × Call))
    (found : (desk.run calls).store.edit? id = some edit) :
    ∃ earlier since, desk.Filed calls id earlier since ∧
      edit.amendments.toNat = desk.amendmentsIn id (desk.run earlier) since := by
  induction calls using List.reverseRecOn generalizing edit with
  | nil => cases found
  | append_singleton calls entry hypothesis =>
    obtain ⟨now, call⟩ := entry
    have counted := found
    rw [run_concat] at counted
    have count := desk.proceed_amendments now call counted
    cases stored : (desk.run calls).store.edit? id with
    | none =>
      refine ⟨calls, [(now, call)], ⟨rfl, stored, fun first begins some => ?_⟩, ?_⟩
      · rcases List.prefix_cons_iff.mp begins with none | ⟨rest, rfl, ends⟩
        · exact absurd none some
        · rw [List.prefix_nil.mp ends, found]
          rfl
      · rw [count, amendments_of_none stored]
        show 0 + _ = _ + 0
        omega
    | some standing =>
      obtain ⟨earlier, since, ⟨rfl, unused, remains⟩, sum⟩ := hypothesis stored
      refine ⟨earlier, since ++ [(now, call)], ⟨(List.append_assoc ..), unused, ?_⟩, ?_⟩
      · intro first begins some
        rcases List.prefix_concat_iff.mp begins with rfl | shorter
        · rw [← List.append_assoc, found]
          rfl
        · exact remains first shorter some
      · rw [count, amendments_of_found stored, sum, amendmentsIn_append, ← run_append]
        rfl

/-! ### Runs -/

/-- **An edit continues throughout a run, or up to the call that deletes it.** -/
theorem runFrom_continues (desk : Desk) (calls later : List (Instant × Call))
    (found : (desk.run calls).store.edit? edit.id = some edit) :
    (desk.run calls).store.Continues (desk.run (calls ++ later)).store edit ∨
      ∃ first now caller reason rest,
        later = first ++ (now, .deleteEdit caller edit.id reason) :: rest ∧
        (desk.run calls).store.Continues (desk.run (calls ++ first)).store edit ∧
        (desk.run (calls ++ first ++ [(now, .deleteEdit caller edit.id reason)])).store.Lacks
          edit.id := by
  induction later using List.reverseRecOn with
  | nil =>
    rw [List.append_nil]
    exact .inl (.refl found)
  | append_singleton later entry hypothesis =>
    obtain ⟨now, call⟩ := entry
    rcases hypothesis with continues | ⟨first, time, caller, reason, rest, parts, continues, lacks⟩
    · obtain ⟨standing, stands, filing, frozen⟩ := continues.stored
      rw [← filing.id] at stands
      rcases desk.proceed_continues now call stands with next | ⟨caller, reason, rfl, lacks⟩
      · left
        rw [← List.append_assoc, run_concat]
        refine continues.trans fun other sameFiling looked => ?_
        rw [sameFiling.id, ← filing.id, stands] at looked
        cases looked
        exact next
      · refine .inr ⟨later, now, caller, reason, [], ?_, continues, ?_⟩
        · rw [filing.id]
        · rw [run_concat, ← filing.id]
          exact lacks
    · refine .inr ⟨first, time, caller, reason, rest ++ [(now, call)], ?_, continues, lacks⟩
      rw [parts, List.append_assoc, List.cons_append]

/-- **The life of an edit.** It has a closing time exactly when it is not pending, it counts as
applied exactly when it has been accepted, and it counts its amendments, which do not exceed the
limit. Who filed it, when, and what it is about never changes; once it is closed nothing about it
changes, nor do the votes on it, and comments on it are only ever added, up to a call that deletes
all of this together. -/
theorem run_lifecycle (desk : Desk) (calls : List (Instant × Call))
    (found : (desk.run calls).store.edit? id = some edit) :
    ((edit.closed.isSome = true ↔ edit.status ≠ .pending) ∧
      (edit.applied = true ↔ edit.status = .accepted ∨ edit.status = .immediateAccepted) ∧
      edit.amendments ≤ desk.rules.amendmentLimit ∧
      ∃ earlier since, desk.Filed calls id earlier since ∧
        edit.amendments.toNat = desk.amendmentsIn id (desk.run earlier) since) ∧
    ∀ later, (desk.run calls).store.Continues (desk.run (calls ++ later)).store edit ∨
      ∃ first now caller reason rest, later = first ++ (now, .deleteEdit caller id reason) :: rest ∧
        (desk.run calls).store.Continues (desk.run (calls ++ first)).store edit ∧
        (desk.run (calls ++ first ++ [(now, .deleteEdit caller id reason)])).store.Lacks id := by
  obtain ⟨closed, applied, limit⟩ := desk.run_regular calls id edit found
  have settled : edit.isPending = false ↔ edit.status ≠ .pending := decide_eq_false_iff_not
  refine ⟨⟨closed.trans settled, ?_, limit, desk.run_amendments calls found⟩, fun later => ?_⟩
  · rw [applied]
    exact Status.isApplied_iff
  · cases edit?_id found
    exact desk.runFrom_continues calls later found

/-- A tag is submitted, amended by its submitter, and accepted by another user. -/
def amendedTag : List (Clock × Call) :=
  staffed ++
    [(⟨1⟩, .createEdit ⟨Uuid.serial 0⟩ (.create (.namedTag "outdoors"))),
      (⟨2⟩, .updateEdit ⟨Uuid.serial 0⟩ ⟨Uuid.serial 2⟩ (.namedTag "open air") none),
      (⟨3⟩, .vote ⟨Uuid.serial 1⟩ ⟨Uuid.serial 2⟩ .accept)]

theorem amendedTag_lifecycle : ∃ edit,
    (swift.run (timed amendedTag)).store.edit? ⟨Uuid.serial 2⟩ = some edit ∧
      edit.status = .accepted ∧ edit.closed.isSome = true ∧ edit.applied = true ∧
      (∃ earlier since, swift.Filed (timed amendedTag) ⟨Uuid.serial 2⟩ earlier since ∧
        swift.amendmentsIn ⟨Uuid.serial 2⟩ (swift.run earlier) since = 1) ∧
      ∀ later, (swift.run (timed amendedTag)).store.Continues
          (swift.run (timed amendedTag ++ later)).store edit ∨
        ∃ first now caller reason rest,
          later = first ++ (now, .deleteEdit caller ⟨Uuid.serial 2⟩ reason) :: rest ∧
          (swift.run (timed amendedTag)).store.Continues
            (swift.run (timed amendedTag ++ first)).store edit ∧
          (swift.run (timed amendedTag ++ first ++
            [(now, .deleteEdit caller ⟨Uuid.serial 2⟩ reason)])).store.Lacks ⟨Uuid.serial 2⟩ := by
  have state : ((swift.run (timed amendedTag)).store.edit? ⟨Uuid.serial 2⟩).map
      (fun edit => (edit.status, edit.amendments)) = some (.accepted, 1) := by decide +kernel
  obtain ⟨edit, found, same⟩ := Option.map_eq_some_iff.mp state
  obtain ⟨accepted, amended⟩ := Prod.mk.inj same
  obtain ⟨⟨closed, applied, -, earlier, since, filed, counted⟩, continues⟩ :=
    run_lifecycle swift (timed amendedTag) found
  rw [amended] at counted
  refine ⟨edit, found, accepted, closed.mpr ?_, applied.mpr (.inl accepted),
    ⟨earlier, since, filed, counted.symm⟩, continues⟩
  rw [accepted]
  decide

end Desk

end Curation
