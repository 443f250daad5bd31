/-
**The sweep is exact.** A sweep lists the edits on which voting has ended and closes them one after the
other, each in a transaction of its own that looks at the edit again. Closing one leaves the state of
the others and all votes alone, so that each is due still when its turn comes; a verdict at the end of
voting is never pending; and an edit that does not apply fails without stopping the sweep. The one thing
that could stop it is a comment whose identifier is taken.

* `Desk.dueEdits`: the edits that a sweep closes;
* `Desk.expiry_resolves`: what becomes of one that is due;
* `Store.Closes`: some edits have been closed and nothing else has happened to edits and votes, and
  `Desk.closeEach_closes`: closing due edits one after the other does that;
* `Desk.closeCompleted_exact`: a sweep closes what is due, and another one at the same time nothing.
-/

import Curation.Proofs.Conflicts

namespace Curation

namespace Store

variable {store before middle after : Store} {now : Instant} {edit : Edit} {ids later : List EditId}

/-- The pending edits are those that are found to be pending. -/
theorem mem_pendingEdits (distinct : (store.edits.map Edit.id).Nodup) :
    edit ∈ store.pendingEdits ↔ store.edit? edit.id = some edit ∧ edit.isPending = true := by
  unfold pendingEdits editsWhere
  rw [List.mem_map]
  constructor
  · rintro ⟨row, listed, rfl⟩
    obtain ⟨stored, pending⟩ := List.mem_filter.mp (mem_sortBy.mp listed)
    have isFound : (store.edits.find? fun other => other.id = row.id).isSome = true :=
      List.find?_isSome.mpr ⟨row, stored, decide_eq_true rfl⟩
    obtain ⟨other, found⟩ := Option.isSome_iff_exists.mp isFound
    have sameId : other.id = row.id := by simpa using List.find?_some found
    cases List.inj_on_of_nodup_map distinct (List.mem_of_find?_eq_some found) stored sameId
    exact ⟨congrArg (Option.map Edit.toMillisecond) found, pending⟩
  · rintro ⟨found, pending⟩
    obtain ⟨row, looked, same⟩ := Option.map_eq_some_iff.mp found
    have wasPending : row.isPending = true := by
      rw [← same] at pending
      exact pending
    exact ⟨row, mem_sortBy.mpr (List.mem_filter.mpr
      ⟨List.mem_of_find?_eq_some looked, wasPending⟩), same⟩

/-- Some edits have been closed at a time, each as accepted, rejected or failed. The other edits and
all votes are what they were. -/
structure Closes (before after : Store) (now : Instant) (ids : List EditId) : Prop where
  closed : ∀ id ∈ ids, ∃ edit, after.edit? id = some edit ∧ edit.IsDecided ∧
    edit.closed = some now.toMillisecond
  others : ∀ id, id ∉ ids → after.edit? id = before.edit? id
  votes : after.votes = before.votes

namespace Closes

theorem refl (store : Store) (now : Instant) : Closes store store now [] where
  closed _ member := nomatch member
  others _ _ := rfl
  votes := rfl

theorem trans (first : Closes before middle now ids) (second : Closes middle after now later)
    (apart : ∀ id ∈ ids, id ∉ later) : Closes before after now (ids ++ later) where
  closed id member := by
    rcases List.mem_append.mp member with here | there
    · rw [second.others id (apart id here)]
      exact first.closed id here
    · exact second.closed id there
  others id absent := by
    obtain ⟨notHere, notThere⟩ := not_or.mp (List.mem_append.not.mp absent)
    exact (second.others id notThere).trans (first.others id notHere)
  votes := second.votes.trans first.votes

end Closes

end Store

namespace Desk

variable {desk : Desk} {now : Instant} {ledger : Ledger} {edit : Edit} {id : EditId}

/-! ### What is due -/

/-- The pending edits on which voting has ended. -/
def dueEdits (desk : Desk) (store : Store) (now : Instant) : List Edit :=
  store.pendingEdits.filter fun edit => decide (desk.votingEnds store edit ≤ now)

/-- An edit is stored and due. -/
def Due (desk : Desk) (store : Store) (now : Instant) (id : EditId) : Prop :=
  ∃ edit, store.edit? id = some edit ∧ edit.isPending = true ∧ desk.votingEnds store edit ≤ now

theorem mem_dueEdits {store : Store} (distinct : (store.edits.map Edit.id).Nodup) :
    id ∈ (desk.dueEdits store now).map Edit.id ↔ desk.Due store now id := by
  rw [List.mem_map]
  constructor
  · rintro ⟨edit, listed, rfl⟩
    obtain ⟨waits, ended⟩ := List.mem_filter.mp listed
    obtain ⟨found, pending⟩ := (Store.mem_pendingEdits distinct).mp waits
    exact ⟨edit, found, pending, of_decide_eq_true ended⟩
  · rintro ⟨edit, found, pending, ended⟩
    have sameId := edit?_id found
    rw [← sameId] at found
    exact ⟨edit, List.mem_filter.mpr
      ⟨(Store.mem_pendingEdits distinct).mpr ⟨found, pending⟩, decide_eq_true ended⟩, sameId⟩

/-- An edit that stays as it is, with its votes, stays due or not due. -/
theorem due_congr {first second : Store} (edits : second.edit? id = first.edit? id)
    (votes : second.votes = first.votes) : desk.Due second now id ↔ desk.Due first now id := by
  unfold Due votingEnds
  rw [edits]
  refine exists_congr fun edit => and_congr_right fun _ => ?_
  rw [votesOn_congr votes]

/-! ### Closing one edit -/

/-- A verdict takes one identifier or none. -/
theorem resolve_issued {counted resolved : Edit} {verdict : Verdict} {effects : List Effect}
    {after : Ledger}
    (done : desk.resolve counted verdict now ledger = .ok ((resolved, effects), after)) :
    after.issued ≤ ledger.issued + 1 := by
  unfold resolve at done
  cases verdict with
  | pending =>
    obtain ⟨-, rfl⟩ := Step.pure_ok.mp done
    exact Nat.le_succ _
  | reject =>
    obtain ⟨-, rfl⟩ := Step.pure_ok.mp done
    exact Nat.le_succ _
  | accept =>
    dsimp only at done
    split at done
    next applied middle applies =>
      obtain ⟨target, store, -, rfl, rfl⟩ := applyToStore_ok.mp applies
      cases done
      exact le_rfl
    next error refused =>
      unfold addComment at done
      simp only [Step.bind_ok, Step.issue_ok, Step.write_ok, Step.pure_ok] at done
      obtain ⟨_, _, ⟨_, _, ⟨-, rfl⟩, _, _, ⟨store, -, rfl⟩, -, rfl⟩, -, rfl⟩ := done
      exact le_rfl

/-- **At the end of voting there is a verdict**, and it can be carried out, whether the edit applies or
not. -/
theorem expiry_resolves (found : ledger.store.edit? edit.id = some edit)
    (unused : ∀ comment ∈ ledger.store.comments, comment.id ≠ ⟨desk.draw ledger.issued⟩)
    (now : Instant) (tally : Tally) (destructive : Bool) :
    ∃ target status effects middle, status ∈ [Status.accepted, .rejected, .failed] ∧
      desk.resolve { edit with score := tally.net } (.onExpiry tally destructive) now ledger =
        .ok (({ edit with score := tally.net, target }.close status now, effects), middle) := by
  let counted : Edit := { edit with score := tally.net }
  cases verdict : Verdict.onExpiry tally destructive with
  | pending => exact absurd verdict Verdict.onExpiry_ne_pending
  | reject => exact ⟨edit.target, .rejected, [], ledger, by decide, rfl⟩
  | accept =>
    cases application : counted.apply ⟨desk.draw ledger.issued⟩ now ledger.store with
    | ok value =>
      obtain ⟨target, applied⟩ := value
      let accepted : Edit := { counted with target := some target }.close .accepted now
      have applies : desk.applyToStore counted now ledger =
          .ok ({ counted with target := some target }, ⟨applied, ledger.issued + 1⟩) :=
        applyToStore_ok.mpr ⟨target, applied, application, rfl, rfl⟩
      refine ⟨some target, .accepted, Effect.ofApplied accepted, ⟨applied, ledger.issued + 1⟩,
        by decide, ?_⟩
      show desk.resolve counted .accept now ledger = _
      unfold resolve
      dsimp only
      rw [applies]
    | error error =>
      have stored : ledger.store.hasEdit counted.id = true := Store.hasEdit_of_edit? found
      obtain ⟨commented, resolves, -⟩ := resolve_fails stored unused application
      exact ⟨edit.target, .failed, [], commented, by decide, resolves⟩

/-- **An edit that is due is closed**, and the other edits and all votes stay as they are. -/
theorem closeIfDue_closes (due : desk.Due ledger.store now id)
    (unused : ∀ comment ∈ ledger.store.comments, comment.id ≠ ⟨desk.draw ledger.issued⟩) :
    (desk.carryOut (desk.closeIfDue now id) ledger).result = .ok true ∧
      (desk.carryOut (desk.closeIfDue now id) ledger).ledger.issued ≤ ledger.issued + 1 ∧
      ledger.store.Closes (desk.carryOut (desk.closeIfDue now id) ledger).ledger.store now [id] := by
  obtain ⟨edit, found, pending, ended⟩ := due
  cases edit?_id found
  have isDue : desk.isDue ledger.store edit now = true :=
    Bool.and_eq_true_iff.mpr ⟨pending, decide_eq_true ended⟩
  let tally := Tally.ofVotes (ledger.store.votesOn edit.id)
  obtain ⟨target, status, effects, middle, listed, resolves⟩ :=
    expiry_resolves found unused now tally (desk.policy edit)
  let resolved : Edit := { edit with score := tally.net, target }.close status now
  obtain ⟨-, edits, votes⟩ := resolve_settles resolves
  have settled : status.isPending = false := by
    revert listed
    cases status <;> decide
  have closes : Store.closesRightly resolved = true := by
    show (status.isPending == false) = true
    rw [settled]
    rfl
  have stored : middle.store.hasEdit resolved.id = true :=
    Store.hasEdit_of_edit? ((Store.edit?_congr edits edit.id).trans found)
  obtain ⟨after, updated⟩ := Store.updateEdit_succeeds closes stored
  obtain ⟨-, afterVotes, afterEdits⟩ := updateEdit_frame updated
  obtain ⟨grants, followed⟩ := desk.follow_store effects ⟨after, middle.issued⟩
  rw [carryOut_done (closeIfDue_resolves found updated isDue resolves)]
  unfold concluded
  rw [followed]
  have issued : middle.issued ≤ ledger.issued + 1 := resolve_issued resolves
  have written : after.edits = ledger.store.editsWith resolved :=
    afterEdits.trans (editsWith_congr edits resolved)
  refine ⟨rfl, issued, fun id member => ?_, fun id absent => ?_,
    afterVotes.trans votes⟩
  · rw [List.mem_singleton.mp member]
    exact ⟨(Store.overwriteEdit edit resolved).toMillisecond,
      Store.edit?_written written found, listed, rfl⟩
  · exact Store.edit?_other written fun same => absent (List.mem_singleton.mpr same)

/-! ### Closing one edit after the other -/

/-- **Closing due edits one after the other closes all of them**, if the identifiers that it takes are
new. -/
theorem closeEach_closes (desk : Desk) (now : Instant) {ids : List EditId} (once : ids.Nodup)
    (closed : Nat) {ledger : Ledger} (due : ∀ id ∈ ids, desk.Due ledger.store now id)
    (numbered : desk.Numbered ledger)
    (distinct : Set.InjOn desk.draw {number | number < ledger.issued + ids.length}) :
    (desk.closeEach now ids closed ledger).result = .ok (closed + ids.length) ∧
      ledger.store.Closes (desk.closeEach now ids closed ledger).ledger.store now ids := by
  induction ids generalizing closed ledger with
  | nil => exact ⟨rfl, .refl _ now⟩
  | cons id rest hypothesis =>
    obtain ⟨absent, once⟩ := List.nodup_cons.mp once
    rw [List.length_cons] at distinct ⊢
    have unused : ∀ comment ∈ ledger.store.comments, comment.id ≠ ⟨desk.draw ledger.issued⟩ := by
      intro comment member same
      obtain ⟨number, less, drawn⟩ := numbered.comments comment member
      rw [same] at drawn
      have clash : ledger.issued = number := distinct (Nat.lt_add_of_pos_right (Nat.succ_pos _))
        (less.trans_le (Nat.le_add_right _ _)) drawn
      omega
    obtain ⟨result, issued, first⟩ := closeIfDue_closes (due id List.mem_cons_self) unused
    have posts : desk.Posts now (.closeIfDue id) ledger (desk.proceed now ledger (.closeIfDue id)) :=
      desk.posts now ledger rfl
    have next : desk.Numbered (desk.carryOut (desk.closeIfDue now id) ledger).ledger :=
      posts.numbered numbered
    -- the others are due still, as neither they nor their votes have changed
    have still : ∀ other ∈ rest,
        desk.Due (desk.carryOut (desk.closeIfDue now id) ledger).ledger.store now other := by
      intro other member
      have apart : other ∉ [id] := fun same => absent (List.mem_singleton.mp same ▸ member)
      exact (due_congr (first.others other apart) first.votes).mpr
        (due other (List.mem_cons_of_mem id member))
    have within : (desk.carryOut (desk.closeIfDue now id) ledger).ledger.issued + rest.length ≤
        ledger.issued + (rest.length + 1) := by omega
    have fewer : Set.InjOn desk.draw {number | number <
        (desk.carryOut (desk.closeIfDue now id) ledger).ledger.issued + rest.length} :=
      distinct.mono fun number less => lt_of_lt_of_le less within
    obtain ⟨count, others⟩ := hypothesis once (closed + 1) still next fewer
    unfold closeEach
    dsimp only
    rw [result]
    refine ⟨count.trans ?_, first.trans others fun other member => ?_⟩
    · rw [Nat.add_assoc, Nat.add_comm 1]
    · rw [List.mem_singleton.mp member]
      exact absent

theorem closeCompleted_eq (desk : Desk) (now : Instant) (ledger : Ledger) :
    desk.closeCompleted now ledger =
      desk.closeEach now ((desk.dueEdits ledger.store now).map Edit.id) 0 ledger := rfl

/-- A sweep finds nothing to do when nothing is due. -/
theorem closeCompleted_idle (distinct : (ledger.store.edits.map Edit.id).Nodup)
    (nothing : ∀ id, ¬ desk.Due ledger.store now id) :
    desk.closeCompleted now ledger = ⟨.ok 0, ledger, []⟩ := by
  have empty : (desk.dueEdits ledger.store now).map Edit.id = [] :=
    List.eq_nil_iff_forall_not_mem.mpr fun id member =>
      nothing id ((mem_dueEdits distinct).mp member)
  rw [closeCompleted_eq, empty]
  rfl

/-- An edit that is closed is not due. -/
theorem not_due_of_isDecided {store : Store} (found : store.edit? id = some edit)
    (decided : edit.IsDecided) : ¬ desk.Due store now id := by
  rintro ⟨other, looked, pending, -⟩
  cases found.symm.trans looked
  exact Edit.not_isDecided_of_isPending pending decided

/-- **The sweep is exact and idempotent.** After any run and at any instant, a sweep succeeds and counts
the pending edits on which voting has ended. Exactly these are closed, each as accepted, rejected or
failed, at that instant, of which whole milliseconds are read back; a `Clock` shows nothing finer. Every
other edit and all votes stay as they are; and another sweep at the same instant closes none and changes
nothing. This rests on the identifiers that the desk draws next being new. -/
theorem closeCompleted_exact (desk : Desk) (calls : List (Instant × Call)) (now : Instant)
    (distinct : Set.InjOn desk.draw {number | number <
      (desk.run calls).issued + (desk.dueEdits (desk.run calls).store now).length})
    {outcome : Outcome Nat} (sweep : outcome = desk.closeCompleted now (desk.run calls)) :
    outcome.result = .ok (desk.dueEdits (desk.run calls).store now).length ∧
      (∀ id, desk.Due (desk.run calls).store now id →
        ∃ edit, outcome.ledger.store.edit? id = some edit ∧
          edit.status ∈ [Status.accepted, .rejected, .failed] ∧ edit.closed = some now.toMillisecond) ∧
      (∀ id, ¬ desk.Due (desk.run calls).store now id →
        outcome.ledger.store.edit? id = (desk.run calls).store.edit? id) ∧
      outcome.ledger.store.votes = (desk.run calls).store.votes ∧
      desk.closeCompleted now outcome.ledger = ⟨.ok 0, outcome.ledger, []⟩ := by
  have apart := desk.run_distinct calls
  have listed (id : EditId) : id ∈ (desk.dueEdits (desk.run calls).store now).map Edit.id ↔
      desk.Due (desk.run calls).store now id := mem_dueEdits apart
  have once : ((desk.dueEdits (desk.run calls).store now).map Edit.id).Nodup :=
    (Store.nodup_pendingEdits apart).sublist (List.filter_sublist.map Edit.id)
  rw [closeCompleted_eq] at sweep
  obtain ⟨count, closes⟩ := desk.closeEach_closes now once 0
    (fun id member => (listed id).mp member) (desk.run_numbered calls)
    (by rwa [List.length_map])
  rw [← sweep, List.length_map, Nat.zero_add] at count
  rw [← sweep] at closes
  have reached : outcome.ledger = desk.run (calls ++ [(now, .closeCompleted)]) := by
    rw [sweep, run_concat]
    rfl
  refine ⟨count, fun id due => ?_, fun id waits => ?_, closes.votes, closeCompleted_idle ?_ ?_⟩
  · exact closes.closed id ((listed id).mpr due)
  · exact closes.others id fun member => waits ((listed id).mp member)
  · rw [reached]
    exact desk.run_distinct _
  · intro id due
    by_cases member : id ∈ (desk.dueEdits (desk.run calls).store now).map Edit.id
    · obtain ⟨edit, found, decided, -⟩ := closes.closed id member
      exact not_due_of_isDecided found decided due
    · exact member ((listed id).mpr
        ((due_congr (closes.others id member) closes.votes).mp due))

/-- Both tags are due, one sweep accepts them, and the next one finds nothing to do. -/
theorem pendingTags_swept : ∃ outcome : Outcome Nat,
    outcome = swift.closeCompleted (Clock.now ⟨400000000⟩) (swift.run (timed pendingTags)) ∧
      outcome.result = .ok 2 ∧
      (∃ edit, outcome.ledger.store.edit? ⟨Uuid.serial 3⟩ = some edit ∧
        edit.status ∈ [Status.accepted, .rejected, .failed] ∧
        edit.closed = some (Clock.now ⟨400000000⟩)) ∧
      swift.closeCompleted (Clock.now ⟨400000000⟩) outcome.ledger = ⟨.ok 0, outcome.ledger, []⟩ := by
  have two : (swift.dueEdits (swift.run (timed pendingTags)).store
      (Clock.now ⟨400000000⟩)).map Edit.id = [⟨Uuid.serial 2⟩, ⟨Uuid.serial 3⟩] := by
    decide +kernel
  have length := congrArg List.length two
  rw [List.length_map] at length
  have few : (swift.run (timed pendingTags)).issued + 2 < 1 <<< 62 := by decide +kernel
  obtain ⟨count, closes, -, -, again⟩ := closeCompleted_exact swift (timed pendingTags)
    (Clock.now ⟨400000000⟩) (by
      rw [length]
      exact fun _ first _ second same =>
        Uuid.serial_inj (lt_trans first few) (lt_trans second few) same) rfl
  have due : swift.Due (swift.run (timed pendingTags)).store (Clock.now ⟨400000000⟩)
      ⟨Uuid.serial 3⟩ :=
    (mem_dueEdits (swift.run_distinct _)).mp
      (two ▸ List.mem_cons_of_mem _ (List.mem_singleton.mpr rfl))
  obtain ⟨edit, found, decided, closed⟩ := closes _ due
  have whole : (Clock.now ⟨400000000⟩).toMillisecond = Clock.now ⟨400000000⟩ :=
    Instant.toMillisecond_ofMillis _
  exact ⟨_, rfl, count.trans (congrArg _ length),
    ⟨edit, found, decided, closed.trans (congrArg some whole)⟩, again⟩

end Desk

end Curation
