/-
**Where a stored edit comes from.** An edit that is stored after a turn was stored before and has
kept its votes, or it was submitted in this turn, or it was pending and has been handled.

* `Desk.Origin`: the ways, and `Desk.Turn.origin`: there is no other;
* `Desk.Turn.application`: an edit that becomes applied has been applied to the catalogue;
* `Desk.Turn.catalogue`: the catalogue changes in no other way.
-/

import Curation.Proofs.Turns

namespace Curation

theorem Edit.not_isApplied_of_isPending {edit : Edit} (pending : edit.isPending = true) :
    edit.status.isApplied = false := by
  have status : edit.status = .pending := of_decide_eq_true pending
  rw [status]
  rfl

namespace Store

variable {before after : Store} {id : EditId} {edit : Edit}

/-! ### Looking an edit up after a write -/

theorem edit?_congr (edits : after.edits = before.edits) (id : EditId) :
    after.edit? id = before.edit? id := by
  unfold edit?
  rw [edits]

/-- An edit that is found was stored before, or it is the one that was added. -/
theorem edit?_append {added : Edit} (edits : after.edits = before.edits ++ [added])
    (found : after.edit? id = some edit) :
    before.edit? id = some edit ∨ (added.id = id ∧ edit = added.toMillisecond) := by
  unfold edit? at found ⊢
  rw [edits, List.find?_append] at found
  cases earlier : before.edits.find? fun stored => stored.id = id with
  | some stored =>
    rw [earlier] at found
    exact .inl found
  | none =>
    rw [earlier, Option.none_or, List.find?_singleton] at found
    split at found
    next same =>
      cases found
      exact .inr ⟨of_decide_eq_true same, rfl⟩
    · cases found

/-- An edit that is found was stored before, or it holds what was written. -/
theorem edit?_editsWith {written : Edit} (edits : after.edits = before.editsWith written)
    (found : after.edit? id = some edit) :
    (id ≠ written.id ∧ before.edit? id = some edit) ∨
      (id = written.id ∧ ∃ earlier, before.edit? id = some earlier ∧
        edit = (overwriteEdit earlier written).toMillisecond) := by
  unfold edit? at found ⊢
  unfold editsWith at edits
  rw [edits, List.find?_map_keeps fun stored => by split <;> rfl] at found
  cases looked : before.edits.find? fun stored => stored.id = id with
  | none =>
    rw [looked] at found
    cases found
  | some stored =>
    have storedId : stored.id = id := by simpa using List.find?_some looked
    rw [looked, Option.map_some, Option.map_some, storedId] at found
    by_cases same : id = written.id
    · rw [if_pos same] at found
      cases found
      refine .inr ⟨same, stored.toMillisecond, rfl, ?_⟩
      simp [overwriteEdit, Edit.toMillisecond]
    · rw [if_neg same] at found
      exact .inl ⟨same, found⟩

/-- An edit that is found after another was removed was stored before. -/
theorem edit?_remove {removed : EditId}
    (edits : after.edits = before.edits.filter fun stored => stored.id ≠ removed)
    (found : after.edit? id = some edit) : id ≠ removed ∧ before.edit? id = some edit := by
  unfold edit? at found ⊢
  rw [edits, List.find?_filter] at found
  obtain ⟨stored, looked, rfl⟩ := Option.map_eq_some_iff.mp found
  have picked := List.find?_some looked
  rw [decide_eq_true_eq, decide_eq_true_eq, decide_eq_true_eq] at picked
  obtain ⟨other, rfl⟩ := picked
  refine ⟨other, ?_⟩
  have samePick : (fun row : Edit => decide (decide (row.id ≠ removed) = true ∧
      decide (row.id = stored.id) = true)) = fun row => decide (row.id = stored.id) := by
    funext row
    by_cases this : row.id = stored.id
    · simp [this, other]
    · simp [this]
  rw [samePick] at looked
  rw [looked]
  rfl

theorem edit?_unused (unused : before.hasEdit id = false) : before.edit? id = none := by
  unfold edit?
  rw [Option.map_eq_none_iff, List.find?_eq_none]
  rw [hasEdit, List.any_eq_false] at unused
  exact unused

/-! ### The votes on an edit after a write -/

theorem votesOn_upsertVote {vote : Vote} (cast : before.upsertVote vote = .ok after)
    (other : id ≠ vote.edit) : after.votesOn id = before.votesOn id := by
  unfold upsertVote at cast
  split at cast
  · cases cast
  · split at cast
    · cases cast
      unfold votesOn
      congr 2
      have keepsEdit (row : Vote) :
          decide ((if row.edit = vote.edit ∧ row.voter = vote.voter then vote else row).edit = id) =
            decide (row.edit = id) := by
        split
        next same => rw [same.1]
        · rfl
      rw [List.filter_map_keeps keepsEdit]
      refine (List.map_congr_left fun row member => ?_).trans (List.map_id _)
      have rowEdit : row.edit = id := by simpa using (List.mem_filter.mp member).2
      rw [if_neg fun same => other (rowEdit.symm.trans same.1), id_eq]
    · cases cast
      unfold votesOn
      rw [List.filter_append, List.filter_cons_of_neg (by simpa using other.symm), List.filter_nil,
        List.append_nil]

theorem votesOn_remove {removed : EditId}
    (votes : after.votes = before.votes.filter fun vote => vote.edit ≠ removed)
    (other : id ≠ removed) : after.votesOn id = before.votesOn id := by
  unfold votesOn
  rw [votes, List.filter_filter]
  have samePick : (fun vote : Vote => decide (vote.edit = id) && decide (vote.edit ≠ removed)) =
      fun vote => decide (vote.edit = id) := by
    funext vote
    by_cases same : vote.edit = id
    · simp [same, other]
    · simp [same]
  rw [samePick]

end Store

namespace Desk

variable {desk : Desk} {now : Instant} {call : Call} {before after : Store} {id : EditId}
  {edit : Edit}

/-! ### Origins -/

/-- Where an edit that is stored after a turn comes from. -/
inductive Origin (desk : Desk) (now : Instant) (call : Call) (before after : Store) (edit : Edit) :
    Prop where
  | kept (found : before.edit? edit.id = some edit)
      (votes : after.votesOn edit.id = before.votesOn edit.id)
  | submitted (caller : UserId) (submission : Submission) (details : Details)
      (unused : before.edit? edit.id = none)
      (checked : submission.details before = .ok details)
      (same : edit = (submission.edit edit.id caller details now).toMillisecond)
      (catalogue : before.SameCatalogue after)
  | enacted (caller : UserId) (submission : Submission) (details : Details)
      (number : Nat) (target : EntityId) (store : Store)
      (unused : before.edit? edit.id = none)
      (checked : submission.details before = .ok details)
      (creates : submission.operation = .create)
      (application : (submission.edit edit.id caller details now).apply ⟨desk.draw number⟩ now before =
        .ok (target, store))
      (catalogue : store.SameCatalogue after)
      (same : edit = ({ submission.edit edit.id caller details now with
        target := some target }.close .immediateAccepted now).toMillisecond)
  | handled (earlier written : Edit) (found : before.edit? earlier.id = some earlier)
      (pending : earlier.isPending = true)
      (handles : desk.Handles now call before after earlier written)
      (same : edit = written.toMillisecond)

/-- Handling an edit leaves alone what writing its state would not change. -/
theorem Handles.overwrites {earlier written : Edit}
    (handles : desk.Handles now call before after earlier written) :
    Store.overwriteEdit earlier written = written := by
  cases handles with
  | amended caller proposal remark details called mayChange limit kind checked catalogue votes => rfl
  | withdrawn catalogue votes => rfl
  | enforced caller voted number target store cast votes application catalogue => rfl
  | decided tally verdict written counted decides settles =>
    cases settles with
    | pending catalogue => rfl
    | rejected catalogue => rfl
    | accepted number target store application catalogue => rfl
    | failed number error application catalogue => rfl

theorem Handles.id_eq {earlier written : Edit}
    (handles : desk.Handles now call before after earlier written) : written.id = earlier.id := by
  rw [← handles.overwrites]
  rfl

/-- Handling an edit leaves the votes on the others alone. -/
theorem Handles.votesOn {earlier written : Edit}
    (handles : desk.Handles now call before after earlier written) (other : id ≠ earlier.id) :
    after.votesOn id = before.votesOn id := by
  cases handles with
  | amended caller proposal remark details called mayChange limit kind checked catalogue votes =>
    exact Store.votesOn_remove votes other
  | withdrawn catalogue votes =>
    rcases votes with same | ⟨caller, voted, cast, same⟩
    · exact votesOn_congr same id
    · exact (votesOn_congr same id).trans (Store.votesOn_upsertVote cast other)
  | enforced caller voted number target store cast votes application catalogue =>
    exact (votesOn_congr votes id).trans (Store.votesOn_upsertVote cast other)
  | decided tally verdict written counted decides settles =>
    cases decides with
    | vote caller choice voted ballot notOwn cast votes =>
      exact (votesOn_congr votes id).trans (Store.votesOn_upsertVote cast other)
    | expiry ended votes => exact votesOn_congr votes id

/-- **Every edit that is stored after a turn has an origin.** -/
theorem Turn.origin (turn : desk.Turn now call before after) (found : after.edit? id = some edit) :
    desk.Origin now call before after edit := by
  cases edit?_id found
  cases turn with
  | idle catalogue edits votes =>
    rw [Store.edit?_congr edits] at found
    exact .kept found (votesOn_congr votes _)
  | filed caller submission added files edits votes =>
    rcases Store.edit?_append edits found with earlier | ⟨same, rfl⟩
    · exact .kept earlier (votesOn_congr votes _)
    · cases files with
      | pending id details unused checked catalogue =>
        exact .submitted caller submission details (Store.edit?_unused unused) checked rfl catalogue
      | enacted id details number target store unused checked creates application catalogue =>
        exact .enacted caller submission details number target store (Store.edit?_unused unused)
          checked creates application catalogue rfl
  | handled earlier written before? pending handles edits =>
    rcases Store.edit?_editsWith edits found with ⟨other, same⟩ | ⟨same, stored, looked, overwritten⟩
    · exact .kept same (handles.votesOn (handles.id_eq ▸ other))
    · rw [same, handles.id_eq, before?] at looked
      cases looked
      rw [handles.overwrites] at overwritten
      exact .handled earlier written before? pending handles overwritten
  | deleted removed caller reason called looked settled catalogue edits votes =>
    obtain ⟨other, same⟩ := Store.edit?_remove edits found
    exact .kept same (Store.votesOn_remove votes other)

/-! ### Applications -/

/-- The score of an edit has no part in its application. -/
theorem apply_counted (edit : Edit) (score : Int32) (fresh : EntityId) (now : Instant)
    (store : Store) : { edit with score }.apply fresh now store = edit.apply fresh now store := rfl

/-- An edit is applied to the catalogue when it is handled, or the catalogue stays as it was. -/
theorem Handles.catalogue {earlier written : Edit} (pending : earlier.isPending = true)
    (handles : desk.Handles now call before after earlier written) :
    (written.status.isApplied = false ∧ before.SameCatalogue after) ∨
      ∃ number target store,
        earlier.apply ⟨desk.draw number⟩ now before = .ok (target, store) ∧
        store.SameCatalogue after ∧ written.status.isApplied = true ∧
        written.target = some target ∧ written.details = earlier.details := by
  have unapplied := Edit.not_isApplied_of_isPending pending
  cases handles with
  | amended caller proposal remark details called mayChange limit kind checked catalogue votes =>
    exact .inl ⟨unapplied, catalogue⟩
  | withdrawn catalogue votes => exact .inl ⟨rfl, catalogue⟩
  | enforced caller voted number target store cast votes application catalogue =>
    exact .inr ⟨number, target, store, application, catalogue, rfl, rfl, rfl⟩
  | decided tally verdict written counted decides settles =>
    cases settles with
    | pending catalogue => exact .inl ⟨unapplied, catalogue⟩
    | rejected catalogue => exact .inl ⟨rfl, catalogue⟩
    | accepted number target store application catalogue =>
      rw [apply_counted] at application
      exact .inr ⟨number, target, store, application, catalogue, rfl, rfl, rfl⟩
    | failed number error application catalogue => exact .inl ⟨rfl, catalogue⟩

/-- **An edit that becomes applied has been applied to the catalogue.** -/
theorem Turn.application {applied : Edit} (turn : desk.Turn now call before after)
    (found : before.edit? id = some edit) (pending : edit.isPending = true)
    (later : after.edit? id = some applied) (settled : applied.status.isApplied = true) :
    ∃ fresh target store, edit.apply fresh now before = .ok (target, store) ∧
      store.SameCatalogue after ∧ applied.target = some target := by
  cases edit?_id later
  cases turn.origin later with
  | kept looked votes =>
    rw [looked] at found
    cases found
    rw [Edit.not_isApplied_of_isPending pending] at settled
    cases settled
  | submitted caller submission details unused checked same catalogue =>
    rw [unused] at found
    cases found
  | enacted caller submission details number target store unused checked creates application
      catalogue same =>
    rw [unused] at found
    cases found
  | handled earlier written looked earlierPending handles same =>
    have sameId : applied.id = earlier.id := by
      rw [same]
      exact handles.id_eq
    rw [sameId, looked] at found
    cases found
    rw [same] at settled ⊢
    rcases handles.catalogue pending with
      ⟨unapplied, -⟩ | ⟨number, target, store, application, catalogue, -, aimed, -⟩
    · exact absurd settled (Bool.eq_false_iff.mp unapplied)
    · exact ⟨_, target, store, application, catalogue, aimed⟩

/-- **The catalogue changes only by the application of an edit**, which is stored or has just been
submitted. -/
theorem Turn.catalogue (turn : desk.Turn now call before after) :
    before.SameCatalogue after ∨
      ∃ edit fresh target store, edit.apply fresh now before = .ok (target, store) ∧
        store.SameCatalogue after ∧
        ((before.edit? edit.id = some edit ∧ edit.isPending = true) ∨ ∃ id caller,
          ∃ (submission : Submission) (details : Details), submission.details before = .ok details ∧
            edit = submission.edit id caller details now) := by
  cases turn with
  | idle catalogue edits votes => exact .inl catalogue
  | filed caller submission edit files edits votes =>
    cases files with
    | pending id details unused checked catalogue => exact .inl catalogue
    | enacted id details number target store unused checked creates application catalogue =>
      exact .inr ⟨_, _, target, store, application, catalogue,
        .inr ⟨id, caller, submission, details, checked, rfl⟩⟩
  | handled edit written found pending handles edits =>
    rcases handles.catalogue pending with
      ⟨-, catalogue⟩ | ⟨number, target, store, application, catalogue, -⟩
    · exact .inl catalogue
    · exact .inr ⟨edit, _, target, store, application, catalogue, .inl ⟨found, pending⟩⟩
  | deleted edit caller reason called found settled catalogue edits votes => exact .inl catalogue

end Desk

end Curation
