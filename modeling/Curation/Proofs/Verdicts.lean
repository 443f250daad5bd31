/-
**Every verdict is justified by the votes on record.** Once an edit has been accepted or rejected, or
has failed, neither its votes nor what it proposes can change, so that anyone can count again.

* `Verdict.onVote_accept`, `Verdict.onVote_reject`, `Verdict.onExpiry_reject`: when there is a verdict;
* `Edit.Justified`: the votes on record justify how an edit was closed;
* `Desk.verdicts_justified`: they do so for every edit, after every run.
-/

import Curation.Proofs.Origins

namespace Curation

/-! ### When there is a verdict -/

namespace Verdict

variable {edit : Edit} {tally : Tally} {destructive : Bool} {now : Instant} {rules : Rules}

/-- An edit is old enough to be settled as destructive. -/
theorem tooYoung_eq_false :
    tooYoung edit rules now = false ↔
      rules.destructivePeriod * 1000000 < Instant.elapsed edit.created now := by
  unfold tooYoung
  rw [decide_eq_false_iff_not, Int.not_le]

theorem onVote_reject :
    onVote edit tally destructive now rules = .reject ↔
      0 < rules.threshold ∧
        ((destructive = true ∧
            rules.destructivePeriod * 1000000 < Instant.elapsed edit.created now ∧
            rules.threshold.toNat ≤ tally.decisive ∧ tally.accepts ≤ tally.rejects) ∨
          (destructive = false ∧ 0 < tally.rejects)) := by
  rw [← tooYoung_eq_false, UInt32.pos_iff_ne_zero]
  unfold onVote
  by_cases off : rules.threshold = 0
  · simp [off]
  · cases destructive with
    | true =>
      cases tooYoung edit rules now with
      | true => simp [off]
      | false =>
        rcases Nat.lt_or_ge tally.decisive rules.threshold.toNat with few | enough
        · simp [off, few, Nat.not_le.mpr few]
        · simp [off, enough, Nat.not_lt.mpr enough]
    | false =>
      rcases Nat.eq_zero_or_pos tally.rejects with none | some
      · by_cases enough : rules.threshold.toNat ≤ tally.accepts <;> simp [off, none, enough]
      · simp [off, some]

theorem onVote_accept :
    onVote edit tally destructive now rules = .accept ↔
      0 < rules.threshold ∧
        ((destructive = true ∧
            rules.destructivePeriod * 1000000 < Instant.elapsed edit.created now ∧
            rules.threshold.toNat ≤ tally.decisive ∧ tally.rejects < tally.accepts) ∨
          (destructive = false ∧ tally.rejects = 0 ∧ rules.threshold.toNat ≤ tally.accepts)) := by
  rw [← tooYoung_eq_false, UInt32.pos_iff_ne_zero]
  unfold onVote
  by_cases off : rules.threshold = 0
  · simp [off]
  · cases destructive with
    | true =>
      cases tooYoung edit rules now with
      | true => simp [off]
      | false =>
        rcases Nat.lt_or_ge tally.decisive rules.threshold.toNat with few | enough
        · simp [off, few, Nat.not_le.mpr few]
        · simp [off, enough, Nat.not_lt.mpr enough]
    | false =>
      rcases Nat.eq_zero_or_pos tally.rejects with none | some
      · simp [off, none]
      · simp [off, some, Nat.ne_of_gt some]

theorem onExpiry_reject :
    onExpiry tally destructive = .reject ↔ tally.net < if destructive then 1 else 0 := by
  unfold onExpiry
  cases destructive <;> simp

theorem onExpiry_accept :
    onExpiry tally destructive = .accept ↔ ¬ tally.net < if destructive then 1 else 0 := by
  rw [← onExpiry_reject]
  unfold onExpiry
  by_cases passes : if destructive = true then tally.net ≥ 1 else tally.net ≥ 0
  · simp [if_pos passes]
  · simp [if_neg passes]

theorem onExpiry_ne_pending : onExpiry tally destructive ≠ .pending := by
  unfold onExpiry
  by_cases passes : if destructive = true then tally.net ≥ 1 else tally.net ≥ 0
  · simp [if_pos passes]
  · simp [if_neg passes]

end Verdict

/-! ### Grounds -/

namespace Edit

/-- The votes on record settled an edit when it was closed. -/
def SettledByVotes (edit : Edit) (tally : Tally) (destructive : Bool) (rules : Rules)
    (closed : Instant) : Prop :=
  0 < rules.threshold ∧
    ((destructive = true ∧ rules.destructivePeriod * 1000000 < Instant.elapsed edit.created closed ∧
        rules.threshold.toNat ≤ tally.decisive ∧
        (edit.status = .rejected ↔ tally.accepts ≤ tally.rejects)) ∨
      (destructive = false ∧
        ((0 < tally.rejects ∧ edit.status = .rejected) ∨
          (tally.rejects = 0 ∧ rules.threshold.toNat ≤ tally.accepts ∧
            (edit.status = .accepted ∨ edit.status = .failed)))))

/-- Voting on an edit had ended when it was closed, and the votes on record settled it. -/
def SettledByExpiry (edit : Edit) (tally : Tally) (destructive : Bool) (rules : Rules)
    (closed : Instant) : Prop :=
  Verdict.votingEnds edit tally rules ≤ closed ∧
    (edit.status = .rejected ↔ tally.net < if destructive then 1 else 0)

/-- A tally justifies how an edit was closed. -/
structure Justified (edit : Edit) (tally : Tally) (rules : Rules) : Prop where
  counted : edit.score = tally.net
  grounds : ∃ closed, edit.closed = some closed ∧
    (edit.SettledByVotes tally (Policy.standard edit) rules closed ∨
      edit.SettledByExpiry tally (Policy.standard edit) rules closed)

/-- A verdict closed an edit, so that it was neither withdrawn nor enforced. -/
def IsDecided (edit : Edit) : Prop := edit.status ∈ [Status.accepted, .rejected, .failed]

theorem not_isDecided_of_isPending {edit : Edit} (pending : edit.isPending = true) :
    ¬ edit.IsDecided := by
  have status : edit.status = .pending := of_decide_eq_true pending
  unfold IsDecided
  rw [status]
  decide

theorem not_isDecided_of_immediate {edit : Edit}
    (immediate : edit.status = .immediateAccepted ∨ edit.status = .immediateRejected) :
    ¬ edit.IsDecided := by
  unfold IsDecided
  rcases immediate with status | status <;> rw [status] <;> decide

/-- Closing an edit as it is stored loses nothing of it. -/
theorem toMillisecond_close {edit : Edit} {now : Instant} (whole : edit.toMillisecond = edit)
    (nowWhole : now.toMillisecond = now) (status : Status) :
    (edit.close status now).toMillisecond = edit.close status now := by
  show { edit.toMillisecond with
    status := status, applied := status.isApplied, closed := some now.toMillisecond } = _
  rw [whole, nowWhole]
  rfl

end Edit

namespace Store

theorem edit?_toMillisecond {store : Store} {id : EditId} {edit : Edit}
    (found : store.edit? id = some edit) : edit.toMillisecond = edit := by
  obtain ⟨row, -, rfl⟩ := Option.map_eq_some_iff.mp found
  exact row.toMillisecond_toMillisecond

/-- The votes on record justify every verdict. -/
def VerdictsJustified (store : Store) (rules : Rules) : Prop :=
  ∀ id edit, store.edit? id = some edit → edit.IsDecided →
    edit.Justified (.ofVotes (store.votesOn id)) rules

end Store

/-! ### Runs -/

namespace Desk

variable {desk : Desk} {now : Instant} {call : Call} {before after : Store} {earlier written : Edit}

/-- How a verdict closes an edit. -/
theorem Settles.status {counted : Edit} {verdict : Verdict}
    (settles : Settles desk now before after counted verdict written) :
    (verdict = .pending ∧ written = counted) ∨
      (verdict = .reject ∧ written = counted.close .rejected now) ∨
      (verdict = .accept ∧ ∃ target status, (status = .accepted ∨ status = .failed) ∧
        written = { counted with target }.close status now) := by
  cases settles with
  | pending catalogue => exact .inl ⟨rfl, rfl⟩
  | rejected catalogue => exact .inr (.inl ⟨rfl, rfl⟩)
  | accepted number target store application catalogue =>
    exact .inr (.inr ⟨rfl, some target, .accepted, .inl rfl, rfl⟩)
  | failed number error application catalogue =>
    exact .inr (.inr ⟨rfl, counted.target, .failed, .inr rfl, rfl⟩)

/-- What a tally settles by vote is what the status says. -/
theorem settledByVotes {counted : Edit} {tally : Tally} {verdict : Verdict} {destructive : Bool}
    {rules : Rules} (reached : Verdict.onVote counted tally destructive now rules = verdict)
    (settles : Settles desk now before after counted verdict written)
    (pending : counted.isPending = true) (decided : written.IsDecided) :
    written.SettledByVotes tally destructive rules now := by
  rcases settles.status with ⟨-, rfl⟩ | ⟨rfl, rfl⟩ | ⟨rfl, target, status, closing, rfl⟩
  · exact absurd decided (Edit.not_isDecided_of_isPending pending)
  · obtain ⟨positive, ⟨destroys, old, enough, fewer⟩ | ⟨harmless, against⟩⟩ :=
      Verdict.onVote_reject.mp reached
    · exact ⟨positive, .inl ⟨destroys, old, enough, fun _ => fewer, fun _ => rfl⟩⟩
    · exact ⟨positive, .inr ⟨harmless, .inl ⟨against, rfl⟩⟩⟩
  · obtain ⟨positive, ⟨destroys, old, enough, more⟩ | ⟨harmless, unopposed, enough⟩⟩ :=
      Verdict.onVote_accept.mp reached
    · refine ⟨positive, .inl ⟨destroys, old, enough, fun rejected => ?_, fun fewer => ?_⟩⟩
      · rcases closing with rfl | rfl <;> cases rejected
      · exact absurd more (Nat.not_lt.mpr fewer)
    · exact ⟨positive, .inr ⟨harmless, .inr ⟨unopposed, enough, closing⟩⟩⟩

/-- What a tally settles when voting has ended is what the status says. -/
theorem settledByExpiry {counted : Edit} {tally : Tally} {verdict : Verdict} {destructive : Bool}
    {rules : Rules} (reached : Verdict.onExpiry tally destructive = verdict)
    (ended : Verdict.votingEnds counted tally rules ≤ now)
    (settles : Settles desk now before after counted verdict written) :
    written.SettledByExpiry tally destructive rules now := by
  rcases settles.status with ⟨rfl, -⟩ | ⟨rfl, rfl⟩ | ⟨rfl, target, status, closing, rfl⟩
  · exact absurd reached Verdict.onExpiry_ne_pending
  · exact ⟨ended, fun _ => Verdict.onExpiry_reject.mp reached, fun _ => rfl⟩
  · refine ⟨ended, fun rejected => ?_, fun fewer => ?_⟩
    · rcases closing with rfl | rfl <;> cases rejected
    · exact absurd fewer (Verdict.onExpiry_accept.mp reached)

/-- Carrying out a verdict leaves alone what decides whether an edit is destructive. -/
theorem Settles.standard {counted : Edit} {verdict : Verdict}
    (settles : Settles desk now before after counted verdict written) :
    Policy.standard written = Policy.standard counted := by
  rcases settles.status with ⟨-, rfl⟩ | ⟨-, rfl⟩ | ⟨-, target, status, -, rfl⟩ <;> rfl

/-- **A verdict that is carried out is justified by the tally that it was reached with.** -/
theorem Decides.justifies {tally : Tally} {verdict : Verdict} (usual : desk.policy = .standard)
    (decides :
      Decides desk now before after earlier { earlier with score := tally.net } tally verdict)
    (settles : Settles desk now before after { earlier with score := tally.net } verdict written)
    (pending : earlier.isPending = true) (decided : written.IsDecided) :
    written.Justified tally desk.rules := by
  have closed : written.closed = some now ∧ written.score = tally.net := by
    rcases settles.status with ⟨-, rfl⟩ | ⟨-, rfl⟩ | ⟨-, target, status, -, rfl⟩
    · exact absurd decided (Edit.not_isDecided_of_isPending pending)
    · exact ⟨rfl, rfl⟩
    · exact ⟨rfl, rfl⟩
  refine ⟨closed.2, now, closed.1, ?_⟩
  rw [settles.standard]
  cases decides with
  | vote caller choice voted ballot other cast votes =>
    rw [← usual]
    exact .inl (settledByVotes rfl settles pending decided)
  | expiry ended votes =>
    have same : Policy.standard { earlier with score := tally.net } = desk.policy earlier := by
      rw [usual]
      rfl
    have endedCounted :
        Verdict.votingEnds { earlier with score := tally.net } tally desk.rules ≤ now := ended
    rw [same]
    exact .inr (settledByExpiry rfl endedCounted settles)

/-- A turn keeps every verdict justified. -/
theorem Turn.verdictsJustified (usual : desk.policy = .standard)
    (whole : now.toMillisecond = now) (turn : desk.Turn now call before after)
    (justified : before.VerdictsJustified desk.rules) : after.VerdictsJustified desk.rules := by
  intro id edit found decided
  cases edit?_id found
  cases turn.origin found with
  | kept earlier votes =>
    rw [votes]
    exact justified _ edit earlier decided
  | submitted caller submission details unused checked same catalogue =>
    rw [same] at decided
    exact absurd decided (Edit.not_isDecided_of_isPending rfl)
  | enacted caller submission details number target store unused checked creates application
      catalogue same =>
    rw [same] at decided
    exact absurd decided (Edit.not_isDecided_of_immediate (.inl rfl))
  | handled earlier written looked pending handles same =>
    have earlierWhole := Store.edit?_toMillisecond looked
    cases handles with
    | amended caller proposal remark details called mayChange limit kind checked catalogue votes =>
      rw [same] at decided
      exact absurd decided (Edit.not_isDecided_of_isPending pending)
    | withdrawn catalogue votes =>
      rw [same] at decided
      exact absurd decided (Edit.not_isDecided_of_immediate (.inr rfl))
    | enforced caller voted number target store cast votes application catalogue =>
      rw [same] at decided
      exact absurd decided (Edit.not_isDecided_of_immediate (.inl rfl))
    | decided tally verdict written counted decides settles =>
      have stored : written.toMillisecond = written := by
        have countedWhole : { earlier with score := tally.net }.toMillisecond =
            { earlier with score := tally.net } :=
          congrArg (fun edit : Edit => { edit with score := tally.net }) earlierWhole
        rcases settles.status with ⟨-, rfl⟩ | ⟨-, rfl⟩ | ⟨-, target, status, -, rfl⟩
        · exact countedWhole
        · exact Edit.toMillisecond_close countedWhole whole _
        · refine Edit.toMillisecond_close ?_ whole _
          exact congrArg (fun edit : Edit => { edit with target }) countedWhole
      have sameId : written.id = earlier.id := by
        rcases settles.status with ⟨-, rfl⟩ | ⟨-, rfl⟩ | ⟨-, target, status, -, rfl⟩ <;> rfl
      rw [stored] at same
      cases same
      rw [sameId, ← counted]
      exact decides.justifies usual settles pending decided

/-- **Every verdict is justified by the votes on record**, whatever is done at a desk that follows
the standard policy, and whenever. The times are the readings of a `Clock`, in whole milliseconds: of a
finer time less would be read back than the verdict was based on. -/
theorem verdicts_justified (desk : Desk) (usual : desk.policy = .standard)
    (calls : List (Clock × Call)) {id : EditId} {edit : Edit}
    (found : (desk.run (timed calls)).store.edit? id = some edit)
    (decided : edit.status ∈ [Status.accepted, .rejected, .failed]) :
    edit.Justified (.ofVotes ((desk.run (timed calls)).store.votesOn id)) desk.rules := by
  have every : (desk.run (timed calls)).store.VerdictsJustified desk.rules := by
    refine @run_keeps (fun store => store.VerdictsJustified desk.rules) desk _ ?_ ?_
    · intro id edit found
      cases found
    · intro now member call before after turn justified
      obtain ⟨call, readings, rfl⟩ := List.mem_map.mp member
      obtain ⟨reading, -, rfl⟩ := List.mem_map.mp readings
      exact turn.verdictsJustified usual (Instant.toMillisecond_ofMillis _) justified
  exact every id edit found decided

/-- The first tag is submitted, and accepted by one vote. -/
def firstTag : List (Clock × Call) :=
  staffed ++ accepted 1 2 (.create (.namedTag "outdoors"))

theorem firstTag_justified : ∃ edit,
    (swift.run (timed firstTag)).store.edit? ⟨Uuid.serial 2⟩ = some edit ∧ edit.status = .accepted ∧
      edit.Justified (.ofVotes ((swift.run (timed firstTag)).store.votesOn ⟨Uuid.serial 2⟩))
        swift.rules := by
  have status : ((swift.run (timed firstTag)).store.edit? ⟨Uuid.serial 2⟩).map Edit.status =
      some .accepted := by decide +kernel
  obtain ⟨edit, found, accepted⟩ := Option.map_eq_some_iff.mp status
  refine ⟨edit, found, accepted, verdicts_justified swift rfl firstTag found ?_⟩
  rw [accepted]
  decide

end Desk

end Curation
