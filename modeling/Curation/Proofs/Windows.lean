/-
**How long destructive edits wait for votes.** Votes settle a destructive edit only after the least
time since it was created. Voting on it ends, for the sweep, that time after it was last amended: for
an edit that was never amended the two agree, and an amendment moves the end but not what votes wait
for.

* `Instant.plusMillis?_reached`: when more time than a period has passed, its end is reached;
* `Verdict.onVote_waits`: a destructive edit is settled by votes only after the time that the sweep
  would wait if it had never been amended.
-/

import Curation.Proofs.Verdicts

namespace Curation

namespace Instant

/-- An end is not past an instant, up to the second after a leap second in which the instant lies. -/
def Reached (finish now : Instant) : Prop :=
  finish ≤ now ∨ (now.isLeap = true ∧ finish.second = now.second + 1)

/-- A count of nanoseconds that has been passed gives an end that is reached, also where it is cut
off at the latest instant. -/
theorem plain?_reached {second nanos : Int} {now : Instant} (first : firstSecond ≤ second)
    (forward : 0 ≤ nanos) (passed : second * 1000000000 + nanos < now.toNanos) :
    ((plain? second nanos).getD latest).Reached now := by
  obtain ⟨-, bounded, precise⟩ := now.valid
  unfold toNanos at passed
  unfold Reached plain? of?
  simp only [le_iff, isLeap, decide_eq_true_eq]
  split
  next valid =>
    simp only [Option.getD_some]
    omega
  next invalid =>
    simp only [Option.getD_none, latest]
    unfold Valid at invalid
    unfold lastSecond firstSecond at *
    omega

/-- The time that has passed is at most the difference of the counts, with one second more for a leap
second that was left. -/
theorem elapsed_cases (start finish : Instant) :
    (start.isLeap = true ∧ start.second ≠ finish.second ∧
        elapsed start finish = finish.toNanos - start.toNanos + 1000000000) ∨
      elapsed start finish ≤ finish.toNanos - start.toNanos := by
  unfold elapsed
  dsimp only
  split
  next left =>
    refine .inl ⟨left.1, fun same => ?_, rfl⟩
    have later := left.2
    unfold secondOfDay at later
    rw [same] at later
    exact absurd later (lt_irrefl _)
  next => split <;> exact .inr (by omega)

/-- **When more time than a period has passed since an instant, the end of the period is reached.** -/
theorem plusMillis?_reached {start now : Instant} {period : Int} (forward : 0 ≤ period)
    (passed : period * 1000000 < elapsed start now) :
    ((start.plusMillis? period).getD latest).Reached now := by
  obtain ⟨first, -, precise⟩ := start.valid
  obtain ⟨-, -, nowPrecise⟩ := now.valid
  cases leap : start.isLeap with
  | false =>
    have ends : start.plusMillis? period =
        plain? start.second (start.nanosecond + period * 1000000) := by
      simp [plusMillis?, leap]
    rw [ends]
    refine plain?_reached first (by omega) ?_
    rcases elapsed_cases start now with ⟨left, -⟩ | passes
    · rw [leap] at left
      cases left
    · unfold toNanos at passes ⊢
      omega
  | true =>
    have within : 1000000000 ≤ start.nanosecond := of_decide_eq_true leap
    by_cases short : start.nanosecond + period * 1000000 < 2000000000
    · -- the period ends before the leap second does
      have valid : Valid start.second (start.nanosecond + period * 1000000).toNat := by
        obtain ⟨-, bounded, -⟩ := start.valid
        exact ⟨first, bounded, .inr (by omega)⟩
      have ends : start.plusMillis? period = some ⟨_, _, valid⟩ := by
        unfold plusMillis? of?
        rw [leap, if_neg (by simp; omega), if_pos short, dif_pos valid]
      rw [ends, Option.getD_some]
      refine .inl (le_iff.mpr ?_)
      dsimp only
      rcases elapsed_cases start now with ⟨-, other, passes⟩ | passes <;>
        unfold toNanos at passes <;> omega
    · have ends : start.plusMillis? period =
          plain? start.second (start.nanosecond + period * 1000000 - 1000000000) := by
        unfold plusMillis?
        rw [leap, if_neg (by simp; omega), if_neg short]
      rw [ends]
      refine plain?_reached first (by omega) ?_
      rcases elapsed_cases start now with ⟨-, -, passes⟩ | passes <;>
        unfold toNanos at passes ⊢ <;> omega

end Instant

theorem Rules.destructivePeriod_nonneg (rules : Rules) : 0 ≤ rules.destructivePeriod := by
  unfold destructivePeriod periodMillis periodMillis?
  split
  · rw [Option.getD_some]
    omega
  · decide

namespace Verdict

variable {edit : Edit} {tally : Tally} {now : Instant} {rules : Rules}

/-- Votes settle a destructive edit when there are enough of them and it is old enough. -/
theorem onVote_decided (decided : onVote edit tally true now rules ≠ .pending) :
    votingPeriod tally rules = rules.destructivePeriod ∧
      rules.destructivePeriod * 1000000 < Instant.elapsed edit.created now := by
  have grounds : 0 < rules.threshold ∧ rules.threshold.toNat ≤ tally.decisive ∧
      rules.destructivePeriod * 1000000 < Instant.elapsed edit.created now := by
    cases verdict : onVote edit tally true now rules with
    | pending => exact absurd verdict decided
    | accept =>
      obtain ⟨positive, ⟨-, old, enough, -⟩ | ⟨harmless, -⟩⟩ := onVote_accept.mp verdict
      · exact ⟨positive, enough, old⟩
      · cases harmless
    | reject =>
      obtain ⟨positive, ⟨-, old, enough, -⟩ | ⟨harmless, -⟩⟩ := onVote_reject.mp verdict
      · exact ⟨positive, enough, old⟩
      · cases harmless
  obtain ⟨positive, enough, old⟩ := grounds
  exact ⟨if_pos ⟨positive, enough⟩, old⟩

/-- **Votes settle a destructive edit only when the period for it since its creation is over**, which
is when voting on it would end for the sweep if it had never been amended; only in a leap second may
this be up to a second early. -/
theorem onVote_waits (decided : onVote edit tally true now rules ≠ .pending) :
    (votingEnds { edit with updated := none } tally rules).Reached now := by
  obtain ⟨period, old⟩ := onVote_decided decided
  unfold votingEnds
  rw [period]
  exact Instant.plusMillis?_reached rules.destructivePeriod_nonneg old

/-- A merge of two tags that was submitted at the epoch. -/
def mergeOfTags : Edit :=
  (Submission.merge ⟨Uuid.serial 0⟩ [⟨Uuid.serial 1⟩] (.empty .tag)).edit ⟨Uuid.serial 2⟩
    ⟨Uuid.serial 3⟩ (.empty .tag) .epoch

/-- The third day after the epoch. -/
def thirdDay : Instant := .ofMillis 259200000

theorem mergeOfTags_waits :
    onVote mergeOfTags ⟨3, 0, 0⟩ true thirdDay .standard ≠ .pending ∧
      (votingEnds { mergeOfTags with updated := none } ⟨3, 0, 0⟩ .standard).Reached thirdDay := by
  have decided : onVote mergeOfTags ⟨3, 0, 0⟩ true thirdDay .standard ≠ .pending := by decide
  exact ⟨decided, onVote_waits decided⟩

/-- An amendment on the third day can be accepted at once, though voting on it has just begun. -/
theorem mergeOfTags_early :
    onVote { mergeOfTags with updated := some thirdDay } ⟨3, 0, 0⟩ true thirdDay .standard = .accept ∧
      thirdDay <
        votingEnds { mergeOfTags with updated := some thirdDay } ⟨3, 0, 0⟩ .standard := by
  decide

end Verdict

end Curation
