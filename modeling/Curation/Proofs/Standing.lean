/-
**Edits stand.** An edit that has been submitted stays stored, and while it is pending it asks for
what it was submitted for, until a call amends or deletes it.

* `Store.Stands`: an edit is stored and asks for the same as before;
* `Desk.run_stands`: it does so throughout a run that does not revise it;
* `Desk.run_application`: the transaction of a call by which an edit is applied, and
  `Desk.run_applies`: what that transaction does.
-/

import Curation.Proofs.Origins

namespace Curation

/-- The edit that a call may amend or delete. -/
def Call.revises? : Call → Option EditId
  | .updateEdit _ id _ _ => some id
  | .deleteEdit _ id _ => some id
  | _ => none

theorem Call.closeIfDue_revises? (closed id : EditId) :
    (Call.closeIfDue closed).revises? ≠ some id := by
  intro revised
  cases revised

/-- Two edits ask for the same change of the same record. -/
structure Edit.AsksSame (first second : Edit) : Prop where
  kind : second.kind = first.kind
  operation : second.operation = first.operation
  target : second.target = first.target
  sources : second.sources = first.sources
  details : second.details = first.details

theorem Edit.AsksSame.refl (edit : Edit) : edit.AsksSame edit := ⟨rfl, rfl, rfl, rfl, rfl⟩

theorem Edit.AsksSame.trans {first second third : Edit} (earlier : first.AsksSame second)
    (later : second.AsksSame third) : first.AsksSame third :=
  ⟨later.kind.trans earlier.kind, later.operation.trans earlier.operation,
    later.target.trans earlier.target, later.sources.trans earlier.sources,
    later.details.trans earlier.details⟩

namespace Store

variable {store : Store} {id : EditId} {edit : Edit}

theorem edit?_isSome : (store.edit? id).isSome = store.hasEdit id := by
  unfold edit? hasEdit
  rw [Option.isSome_map, Bool.eq_iff_iff, List.find?_isSome, List.any_eq_true]

theorem hasEdit_of_edit? (found : store.edit? id = some edit) : store.hasEdit id = true := by
  rw [← edit?_isSome, found]
  rfl

/-- An edit that was added is found. -/
theorem edit?_added {before after : Store} (edits : after.edits = before.edits ++ [edit])
    (unused : before.hasEdit edit.id = false) : after.edit? edit.id = some edit.toMillisecond := by
  have stored : (after.edit? edit.id).isSome = true := by
    rw [edit?_isSome, hasEdit, edits]
    simp
  obtain ⟨found, looked⟩ := Option.isSome_iff_exists.mp stored
  rcases edit?_append edits looked with earlier | ⟨-, rfl⟩
  · rw [edit?_unused unused] at earlier
    cases earlier
  · exact looked

/-- An edit is stored, and it is pending only if a given one is and then asks for the same. -/
def Stands (store : Store) (edit : Edit) : Prop :=
  ∃ standing, store.edit? edit.id = some standing ∧
    (standing.isPending = true → edit.isPending = true ∧ edit.AsksSame standing)

end Store

namespace Desk

variable {desk : Desk} {now : Instant} {call : Call} {before after : Store} {id : EditId}
  {edit : Edit}

/-- An edit is still stored after a turn that was not meant to delete it. -/
theorem Turn.keepsEdit (turn : desk.Turn now call before after) (stored : before.hasEdit id = true)
    (undeleted : ∀ caller reason, call ≠ .deleteEdit caller id reason) :
    after.hasEdit id = true := by
  unfold Store.hasEdit at stored ⊢
  cases turn with
  | idle catalogue edits votes => rwa [edits]
  | filed caller submission added files edits votes =>
    rw [edits, List.any_append, stored, Bool.true_or]
  | handled earlier written looked pending handles edits =>
    rw [edits, Store.editsWith, List.any_map]
    rw [List.any_eq_true] at stored ⊢
    obtain ⟨row, member, same⟩ := stored
    refine ⟨row, member, ?_⟩
    rw [Function.comp_apply]
    split <;> exact same
  | deleted removed caller reason called looked settled catalogue edits votes =>
    rw [List.any_eq_true] at stored ⊢
    obtain ⟨row, member, same⟩ := stored
    refine ⟨row, ?_, same⟩
    rw [edits, List.mem_filter]
    refine ⟨member, decide_eq_true fun clash => undeleted caller reason ?_⟩
    rw [called, ← clash, ← of_decide_eq_true same]

theorem Turn.hasEdit (turn : desk.Turn now call before after) (stored : before.hasEdit id = true)
    (unrevised : call.revises? ≠ some id) : after.hasEdit id = true := by
  refine turn.keepsEdit stored fun caller reason called => unrevised ?_
  rw [called]
  rfl

theorem Turn.edit?_isSome (turn : desk.Turn now call before after)
    (found : before.edit? id = some edit) (unrevised : call.revises? ≠ some id) :
    ∃ later, after.edit? id = some later := by
  rw [← Option.isSome_iff_exists, Store.edit?_isSome]
  exact turn.hasEdit (Store.hasEdit_of_edit? found) unrevised

/-- **An edit stands until it is amended or deleted.** -/
theorem Turn.stands (turn : desk.Turn now call before after) (stands : before.Stands edit)
    (unrevised : call.revises? ≠ some edit.id) : after.Stands edit := by
  obtain ⟨earlier, found, asks⟩ := stands
  obtain ⟨standing, looked⟩ := turn.edit?_isSome found unrevised
  refine ⟨standing, looked, fun pending => ?_⟩
  have sameId := edit?_id looked
  rw [← sameId] at found looked unrevised
  cases turn.origin looked with
  | kept kept votes =>
    rw [found] at kept
    cases kept
    exact asks pending
  | submitted caller submission details unused checked same catalogue =>
    rw [found] at unused
    cases unused
  | enacted caller submission details number target store unused checked creates application
      catalogue same =>
    rw [found] at unused
    cases unused
  | handled handled written handledFound handledPending handles same =>
    have handledId : standing.id = handled.id := by
      rw [same]
      exact handles.id_eq
    rw [handledId, handledFound] at found
    cases found
    obtain ⟨wasPending, asksSame⟩ := asks handledPending
    refine ⟨wasPending, asksSame.trans ?_⟩
    subst same
    cases handles with
    | amended caller proposal remark changed called mayChange limit kindKept checked catalogue votes =>
      rw [called, handledId] at unrevised
      exact absurd rfl unrevised
    | withdrawn catalogue votes => cases pending
    | enforced caller voted number given store cast votes application catalogue => cases pending
    | decided tally verdict written counted decides settles =>
      cases settles with
      | pending catalogue => exact ⟨rfl, rfl, rfl, rfl, rfl⟩
      | rejected catalogue => cases pending
      | accepted number given store application catalogue => cases pending
      | failed number error application catalogue => cases pending

/-- An edit that is no longer pending stays as it is until it is deleted. -/
theorem Turn.stays (turn : desk.Turn now call before after)
    (found : before.edit? id = some edit) (settled : edit.isPending = false)
    (unrevised : call.revises? ≠ some id) : after.edit? id = some edit := by
  obtain ⟨later, looked⟩ := turn.edit?_isSome found unrevised
  cases edit?_id looked
  cases turn.origin looked with
  | kept kept votes => rw [← found, kept, looked]
  | submitted caller submission details unused checked same catalogue =>
    rw [found] at unused
    cases unused
  | enacted caller submission details number target store unused checked creates application
      catalogue same =>
    rw [found] at unused
    cases unused
  | handled handled written handledFound pending handles same =>
    have handledId : later.id = handled.id := by
      rw [same]
      exact handles.id_eq
    rw [handledId, handledFound] at found
    cases found
    rw [settled] at pending
    cases pending

/-- An edit that has just been filed stands. -/
theorem Files.stands {caller : UserId} {submission : Submission}
    (files : Files desk now before after caller submission edit)
    (edits : after.edits = before.edits ++ [edit]) : after.Stands edit := by
  have unused : before.hasEdit edit.id = false := by
    cases files <;> assumption
  exact ⟨edit.toMillisecond, Store.edit?_added edits unused, fun pending =>
    ⟨pending, rfl, rfl, rfl, rfl, rfl⟩⟩

/-! ### Runs -/

/-- A call that does not revise an edit leaves it standing. -/
theorem proceed_stands (desk : Desk) (now : Instant) {ledger : Ledger} {call : Call}
    (stands : ledger.store.Stands edit) (unrevised : call.revises? ≠ some edit.id) :
    (desk.proceed now ledger call).store.Stands edit := by
  refine @proceed_keeps (fun ledger => ledger.store.Stands edit) desk now ledger call stands ?_
  rintro state step single (rfl | ⟨id, rfl⟩) standing
  · exact (desk.turn now state single).stands standing unrevised
  · exact (desk.turn now state single).stands standing (Call.closeIfDue_revises? id edit.id)

/-- **An edit stands throughout a run that neither amends nor deletes it.** -/
theorem run_stands (desk : Desk) {calls later : List (Instant × Call)}
    (stands : (desk.run calls).store.Stands edit)
    (unrevised : ∀ entry ∈ later, entry.2.revises? ≠ some edit.id) :
    (desk.run (calls ++ later)).store.Stands edit := by
  rw [run_append]
  refine List.foldlRecOn later _ (motive := fun ledger : Ledger => ledger.store.Stands edit) stands ?_
  rintro ledger standing ⟨now, call⟩ member
  exact desk.proceed_stands now standing (unrevised _ member)

/-- Among transactions that do not revise a pending edit and after which it has been applied, one
has applied it: the edit was pending still before this one, and it stayed as it was after it. -/
theorem runFrom_application (desk : Desk) (steps : List (Instant × Call)) {ledger : Ledger}
    {applied : Edit}
    (plain : ∀ entry ∈ steps, entry.2.isSingle = true ∧ entry.2.revises? ≠ some id)
    (found : ledger.store.edit? id = some edit) (pending : edit.isPending = true)
    (later : (desk.runFrom ledger steps).store.edit? id = some applied)
    (settled : applied.status.isApplied = true) :
    ∃ first step rest standing, steps = first ++ step :: rest ∧
      (desk.runFrom ledger first).store.edit? id = some standing ∧ standing.isPending = true ∧
      edit.AsksSame standing ∧
      (desk.runFrom ledger (first ++ [step])).store.edit? id = some applied := by
  induction steps generalizing ledger edit with
  | nil =>
    cases found.symm.trans later
    rw [Edit.not_isApplied_of_isPending pending] at settled
    cases settled
  | cons head rest hypothesis =>
    obtain ⟨⟨single, unrevised⟩, others⟩ := List.forall_mem_cons.mp plain
    have turn := desk.turn head.1 ledger single
    obtain ⟨next, looked⟩ := turn.edit?_isSome found unrevised
    by_cases waiting : next.isPending = true
    · cases edit?_id found
      obtain ⟨standing, stands, asks⟩ := turn.stands
        ⟨edit, found, fun _ => ⟨pending, .refl edit⟩⟩ unrevised
      cases looked.symm.trans stands
      obtain ⟨first, step, after, final, rfl, before?, waits, same, after?⟩ :=
        hypothesis others looked waiting later
      exact ⟨head :: first, step, after, final, rfl, before?, waits, (asks waiting).2.trans same,
        after?⟩
    · -- the edit has been closed by the first transaction, and the others leave it alone
      have stays : (desk.runFrom (desk.proceed head.1 ledger head.2) rest).store.edit? id =
          some next := by
        refine List.foldlRecOn rest _
          (motive := fun ledger : Ledger => ledger.store.edit? id = some next) looked ?_
        intro state same entry member
        obtain ⟨single, unrevised⟩ := others entry member
        exact (desk.turn entry.1 state single).stays same (Bool.eq_false_iff.mpr waiting) unrevised
      cases stays.symm.trans later
      exact ⟨[], head, rest, edit, rfl, found, pending, .refl edit, looked⟩

/-- **An edit that is applied during a call is applied by one of its transactions**, up to which it
was pending. -/
theorem run_application (desk : Desk) (calls : List (Instant × Call)) (now : Instant) (call : Call)
    {applied : Edit} (found : (desk.run calls).store.edit? id = some edit)
    (pending : edit.isPending = true)
    (later : (desk.run (calls ++ [(now, call)])).store.edit? id = some applied)
    (settled : applied.status.isApplied = true) :
    ∃ first step rest standing,
      desk.transactions now (desk.run calls) call = first ++ (now, step) :: rest ∧
      step.isSingle = true ∧
      (desk.run (calls ++ first)).store.edit? id = some standing ∧ standing.isPending = true ∧
      edit.AsksSame standing ∧
      (desk.run (calls ++ first ++ [(now, step)])).store.edit? id = some applied := by
  rcases desk.transactions_cases now (desk.run calls) call with ⟨single, parts⟩ | ⟨-, ids, parts⟩
  · refine ⟨[], call, [], edit, parts, single, ?_, pending, .refl edit, ?_⟩
    · rwa [List.append_nil]
    · rwa [List.append_nil]
  · have plain : ∀ entry ∈ desk.transactions now (desk.run calls) call,
        ∃ closed, entry = (now, .closeIfDue closed) := by
      intro entry member
      rw [parts] at member
      obtain ⟨closed, -, rfl⟩ := List.mem_map.mp member
      exact ⟨closed, rfl⟩
    rw [run_concat, ← runFrom_transactions] at later
    obtain ⟨first, step, rest, standing, performed, before?, waits, asks, after?⟩ :=
      desk.runFrom_application _ (fun entry member => by
        obtain ⟨closed, rfl⟩ := plain entry member
        exact ⟨rfl, Call.closeIfDue_revises? closed id⟩) found pending later settled
    obtain ⟨closed, rfl⟩ := plain step (performed ▸ List.mem_append_right _ List.mem_cons_self)
    refine ⟨first, .closeIfDue closed, rest, standing, performed, rfl, ?_, waits, asks, ?_⟩
    · rwa [run_append]
    · rwa [List.append_assoc, run_append]

/-- **What the transaction does by which an edit is applied**: it carries out the edit as it stands, and
the store that this gives is the catalogue after it. -/
theorem run_applies (desk : Desk) (calls : List (Instant × Call)) (now : Instant) (call : Call)
    {applied : Edit} (found : (desk.run calls).store.edit? id = some edit)
    (pending : edit.isPending = true)
    (later : (desk.run (calls ++ [(now, call)])).store.edit? id = some applied)
    (settled : applied.status.isApplied = true) :
    ∃ first step rest standing fresh target store,
      desk.transactions now (desk.run calls) call = first ++ (now, step) :: rest ∧
      (desk.run (calls ++ first)).store.edit? id = some standing ∧ standing.isPending = true ∧
      edit.AsksSame standing ∧
      standing.apply fresh now (desk.run (calls ++ first)).store = .ok (target, store) ∧
      store.SameCatalogue (desk.run (calls ++ first ++ [(now, step)])).store ∧
      applied.target = some target := by
  obtain ⟨first, step, rest, standing, performed, single, before?, waits, asks, after?⟩ :=
    desk.run_application calls now call found pending later settled
  rw [run_concat] at after?
  obtain ⟨fresh, target, store, applies, same, given⟩ :=
    (desk.turn now _ single).application before? waits after? settled
  rw [← run_concat] at same
  exact ⟨first, step, rest, standing, fresh, target, store, performed, before?, waits, asks, applies,
    same, given⟩

end Desk

end Curation
