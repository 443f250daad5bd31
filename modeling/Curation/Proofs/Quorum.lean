/-
**No pending edit has the votes that would have closed it.** An edit that is not destructive is
closed by the first vote against it, and by the vote that completes the number in favour of it.
Amending it removes the votes, so that none is left over that was cast while it was destructive.

* `Store.Undecided`: the votes that such an edit may have, and `Desk.run_undecided`: it has no
  others;
* `Desk.sweep_spares`: a sweep does not reject it;
* `Desk.run_quorum`: both, after every run.
-/

import Curation.Proofs.Applications
import Curation.Proofs.Scores

namespace Curation

/-! ### Verdicts that leave an edit pending -/

theorem Verdict.onVote_pending {edit : Edit} {tally : Tally} {now : Instant} {rules : Rules}
    (voted : 0 < rules.threshold) :
    onVote edit tally false now rules = .pending ↔
      tally.rejects = 0 ∧ tally.accepts < rules.threshold.toNat := by
  unfold onVote
  rw [if_neg (UInt32.pos_iff_ne_zero.mp voted), if_neg Bool.false_ne_true]
  rcases Nat.eq_zero_or_pos tally.rejects with none | some
  · by_cases enough : rules.threshold.toNat ≤ tally.accepts
    · simp [none, enough]
    · simp [none, enough, Nat.not_le.mp enough]
  · simp [some, Nat.ne_of_gt some]

/-- The votes on an edit that is not destructive let it pass if there is none against it, and no
more in favour of it than a score can count. -/
theorem Verdict.onExpiry_passes {store : Store} {id : EditId}
    (unopposed : store.countVotes id .reject = 0) (few : store.countVotes id .accept < 2 ^ 31) :
    onExpiry (.ofVotes (store.votesOn id)) false = .accept := by
  rw [onExpiry_accept, Tally.net_ofVotes, if_neg Bool.false_ne_true, Int32.lt_iff_toInt_lt]
  unfold Store.net
  rw [unopposed, Int32.toInt_ofInt_of_le (by omega) (by omega), Int32.toInt_zero]
  omega

/-! ### The votes on pending edits -/

/-- The votes on a pending edit that is not destructive would not close it. -/
def Store.Undecided (store : Store) (desk : Desk) : Prop :=
  ∀ id edit, store.edit? id = some edit → edit.isPending = true → desk.policy edit = false →
    store.countVotes id .reject = 0 ∧ store.countVotes id .accept < desk.rules.threshold.toNat

namespace Desk

variable {desk : Desk} {now : Instant} {call : Call} {before after : Store} {id : EditId}
  {edit : Edit}

/-- **A turn leaves no votes on a pending edit that would have closed it.** -/
theorem Turn.undecided (turn : desk.Turn now call before after) (voted : 0 < desk.rules.threshold)
    (polled : before.Polled) (undecided : before.Undecided desk) : after.Undecided desk := by
  have positive : 0 < desk.rules.threshold.toNat := UInt32.lt_iff_toNat_lt.mp voted
  have ofNone (id : EditId) (none : after.votesOn id = []) : after.countVotes id .reject = 0 ∧
      after.countVotes id .accept < desk.rules.threshold.toNat := by
    rw [Store.countVotes_none none, Store.countVotes_none none]
    exact ⟨rfl, positive⟩
  intro id edit found pending harmless
  cases edit?_id found
  cases turn.origin found with
  | kept earlier votes =>
    rw [Store.countVotes_congr votes, Store.countVotes_congr votes]
    exact undecided _ edit earlier pending harmless
  | submitted caller submission details unused checked same catalogue =>
    exact ofNone _ (turn.votesOn_unused polled unused)
  | enacted caller submission details number target store unused checked creates application
      catalogue same =>
    rw [same] at pending
    cases pending
  | handled earlier written looked earlierPending handles same =>
    subst same
    cases handles with
    | amended caller proposal remark details called mayChange limit kind checked catalogue votes =>
      refine ofNone _ (Store.votesOn_eq_nil fun vote member => ?_)
      rw [votes] at member
      exact of_decide_eq_true (List.mem_filter.mp member).2
    | withdrawn catalogue votes => cases pending
    | enforced caller voted number target store cast votes application catalogue => cases pending
    | decided tally verdict written counted decides settles =>
      have waits : verdict = .pending ∧ written = { earlier with score := tally.net } := by
        rcases settles.status with waits | ⟨-, rfl⟩ | ⟨-, target, status, closing, rfl⟩
        · exact waits
        · cases pending
        · rcases closing with rfl | rfl <;> cases pending
      obtain ⟨rfl, rfl⟩ := waits
      have whole : { earlier with score := tally.net }.toMillisecond =
          { earlier with score := tally.net } :=
        congrArg (fun edit : Edit => { edit with score := tally.net })
          (Store.edit?_toMillisecond looked)
      rw [whole] at harmless ⊢
      generalize reached : Verdict.pending = verdict at decides
      cases decides with
      | vote caller choice ballots ballot other cast votes =>
        rw [harmless] at reached
        obtain ⟨unopposed, few⟩ := (Verdict.onVote_pending voted).mp reached.symm
        rw [counted, Tally.rejects_ofVotes] at unopposed
        rw [counted, Tally.accepts_ofVotes] at few
        exact ⟨unopposed, few⟩
      | expiry ended votes => exact absurd reached.symm Verdict.onExpiry_ne_pending

theorem run_undecided (desk : Desk) (voted : 0 < desk.rules.threshold)
    (calls : List (Instant × Call)) : (desk.run calls).store.Undecided desk := by
  refine (@run_keeps (fun store => store.Polled ∧ store.Undecided desk) desk calls ?_ ?_).2
  · exact ⟨⟨List.nodup_nil, fun vote member => (nomatch member)⟩,
      fun id edit found => (nomatch found)⟩
  · intro now _ call before after turn holds
    exact ⟨turn.polled holds.1, turn.undecided voted holds.1 holds.2⟩

/-! ### Sweeps -/

/-- An edit is as it was, or the application of it has been tried. -/
def PassedBy (edit later : Edit) : Prop :=
  later = edit ∨ later.status = .accepted ∨ later.status = .failed

/-- Closing an edit that is due does not reject one that the votes let pass. -/
theorem closeIfDue_spares (desk : Desk) (now : Instant) (closed : EditId) {ledger : Ledger}
    {later : Edit} (harmless : desk.policy edit = false)
    (passes : Verdict.onExpiry (.ofVotes (ledger.store.votesOn id)) false = .accept)
    (found : ledger.store.edit? id = some later) (passed : PassedBy edit later) :
    (desk.proceed now ledger (.closeIfDue closed)).store.votesOn id = ledger.store.votesOn id ∧
      ∃ next, (desk.proceed now ledger (.closeIfDue closed)).store.edit? id = some next ∧
        PassedBy edit next := by
  rcases desk.closeIfDue_settles now closed ledger with
    same | ⟨due, resolved, tally, looked, pending, counts, -, settles, edits, votes⟩
  · exact ⟨votesOn_congr same.votes id, later, (Store.edit?_congr same.edits id).trans found,
      passed⟩
  · refine ⟨votesOn_congr votes id, ?_⟩
    by_cases other : id = closed
    · subst other
      rw [found] at looked
      cases looked
      have waiting : later = edit := by
        rcases passed with same | status | status
        · exact same
        · rw [Edit.isPending, status] at pending
          cases pending
        · rw [Edit.isPending, status] at pending
          cases pending
      subst waiting
      rw [harmless, counts, passes] at settles
      obtain ⟨sameId, closing⟩ : resolved.id = later.id ∧
          (resolved.status = .accepted ∨ resolved.status = .failed) := by
        rcases settles.status with ⟨clash, -⟩ | ⟨clash, -⟩ | ⟨-, target, status, closing, rfl⟩
        · cases clash
        · cases clash
        · exact ⟨rfl, closing⟩
      have same : id = resolved.id := (edit?_id found).symm.trans sameId.symm
      subst same
      exact ⟨_, Store.edit?_written edits found, .inr closing⟩
    · exact ⟨later, (desk.closeIfDue_edit? now ledger other).trans found, passed⟩

/-- **A sweep does not reject an edit that the votes let pass**: the edit stays as it is, or the
sweep tries to apply it. -/
theorem sweep_spares (desk : Desk) (now : Instant) {ledger : Ledger}
    (found : ledger.store.edit? id = some edit) (harmless : desk.policy edit = false)
    (passes : Verdict.onExpiry (.ofVotes (ledger.store.votesOn id)) false = .accept) :
    ∃ later, (desk.proceed now ledger .closeCompleted).store.edit? id = some later ∧
      PassedBy edit later := by
  have every := @proceed_keeps (fun state => state.store.votesOn id = ledger.store.votesOn id ∧
      ∃ later, state.store.edit? id = some later ∧ PassedBy edit later)
    desk now ledger .closeCompleted ⟨rfl, edit, found, .inl rfl⟩ ?_
  · exact every.2
  · rintro state step single (rfl | ⟨closed, rfl⟩) ⟨votes, later, looked, passed⟩
    · cases single
    · rw [← votes] at passes ⊢
      exact desk.closeIfDue_spares now closed harmless passes looked passed

/-- **No pending edit has the votes that would have closed it**: one that is not destructive has no
vote against it and fewer in favour of it than settle it, whatever is done at a desk where votes
settle edits. So a sweep does not reject it, if a score can count as many votes as settle an edit or
as there are users. -/
theorem run_quorum (desk : Desk) (voted : 0 < desk.rules.threshold) (calls : List (Instant × Call))
    (found : (desk.run calls).store.edit? id = some edit) (pending : edit.isPending = true)
    (harmless : desk.policy edit = false) :
    (desk.run calls).store.countVotes id .reject = 0 ∧
      (desk.run calls).store.countVotes id .accept < desk.rules.threshold.toNat ∧
      (desk.rules.threshold.toNat ≤ 2 ^ 31 ∨ (desk.run calls).store.users.length < 2 ^ 31 →
        ∀ now, ∃ later, (desk.run (calls ++ [(now, .closeCompleted)])).store.edit? id = some later ∧
          (later = edit ∨ later.status = .accepted ∨ later.status = .failed)) := by
  obtain ⟨unopposed, fewer⟩ := desk.run_undecided voted calls id edit found pending harmless
  refine ⟨unopposed, fewer, fun countable now => ?_⟩
  have few : (desk.run calls).store.countVotes id .accept < 2 ^ 31 := by
    rcases countable with low | few
    · exact fewer.trans_le low
    · exact (List.countP_le_length.trans (desk.run_votesOn_le calls id)).trans_lt few
  rw [run_concat]
  exact desk.sweep_spares now found harmless (Verdict.onExpiry_passes unopposed few)

theorem waitingTag_quorum : ∃ edit,
    (patient.run (timed oneBallot)).store.edit? ⟨Uuid.serial 2⟩ = some edit ∧
      edit.isPending = true ∧ patient.policy edit = false ∧
      (patient.run (timed oneBallot)).store.countVotes ⟨Uuid.serial 2⟩ .accept < 3 ∧
      ∀ now, ∃ later, (patient.run (timed oneBallot ++ [(now, .closeCompleted)])).store.edit?
          ⟨Uuid.serial 2⟩ = some later ∧
        (later = edit ∨ later.status = .accepted ∨ later.status = .failed) := by
  have stored : (((patient.run (timed oneBallot)).store.edit? ⟨Uuid.serial 2⟩).filter fun edit =>
      edit.isPending && !patient.policy edit).isSome = true := by
    decide +kernel
  obtain ⟨edit, looked⟩ := Option.isSome_iff_exists.mp stored
  obtain ⟨found, waits⟩ := Option.filter_eq_some_iff.mp looked
  obtain ⟨pending, kind⟩ := Bool.and_eq_true_iff.mp waits
  have harmless : patient.policy edit = false := Bool.not_eq_true' _ ▸ kind
  obtain ⟨-, fewer, spared⟩ :=
    run_quorum patient (by decide) (timed oneBallot) found pending harmless
  exact ⟨edit, found, pending, harmless, fewer, spared (.inl (by decide))⟩

end Desk

end Curation
