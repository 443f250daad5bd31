/-
**Deadlines are exact.** Whether voting has ended, and whether an edit is too young, is what unbounded
integers say of the milliseconds and of the configured seconds: cutting a period off at the longest that
can be measured, and the end of voting at the latest instant, never turns a comparison round, because no
two instants are that far apart.

* `Instant.plusMillis?_whole`, `Instant.elapsed_whole`: instants that are told by their milliseconds are
  added to and compared like integers;
* `Rules.periodMillis_le`, `Rules.le_periodMillis`: a period that is cut off compares like the whole one;
* `Verdict.windows_exact`: both questions, and that nothing on the way is out of range.
-/

import Curation.Store
import Curation.Verdict
import Mathlib

namespace Curation

namespace Instant

variable {instant start finish now : Instant}

/-- An instant that is told by its milliseconds has none but whole ones, and is in no leap second. -/
theorem whole_nanosecond (whole : instant.toMillisecond = instant) :
    instant.nanosecond < 1000000000 ∧ instant.nanosecond % 1000000 = 0 := by
  rw [toMillisecond, ofMillis] at whole
  cases found : ofMillis? instant.toMillis with
  | none =>
    rw [found, Option.getD_none] at whole
    rw [← whole]
    decide
  | some same =>
    rw [found, Option.getD_some] at whole
    subst whole
    unfold ofMillis? of? at found
    split at found
    · have nanosecond := congrArg Instant.nanosecond (Option.some.inj found)
      dsimp only at nanosecond
      omega
    · cases found

theorem whole_plain (whole : instant.toMillisecond = instant) : instant.isLeap = false :=
  decide_eq_false (Nat.not_le.mpr (whole_nanosecond whole).1)

theorem ofMillis?_whole {millis : Int} (found : ofMillis? millis = some instant) :
    instant.toMillisecond = instant := by
  rw [toMillisecond, toMillis_of_ofMillis? found, ofMillis, found, Option.getD_some]

/-- Within the years that instants reach, every count of milliseconds is an instant. -/
theorem exists_ofMillis? {millis : Int} (first : firstSecond * 1000 ≤ millis)
    (last : millis < (lastSecond + 1) * 1000) : ∃ instant, ofMillis? millis = some instant := by
  have valid : Valid (millis / 1000) ((millis % 1000).toNat * 1000000) :=
    ⟨by omega, by omega, .inl (by omega)⟩
  exact ⟨⟨_, _, valid⟩, dif_pos valid⟩

/-- Instants stand in the order of their milliseconds. -/
theorem le_iff_toMillis (first : start.toMillisecond = start) (last : finish.toMillisecond = finish) :
    start ≤ finish ↔ start.toMillis ≤ finish.toMillis := by
  have startPrecise := whole_nanosecond first
  have finishPrecise := whole_nanosecond last
  rw [le_iff, toMillis, toMillis]
  omega

/-- Milliseconds are added as integers. -/
theorem plusMillis?_whole (whole : start.toMillisecond = start) (period : Int) :
    start.plusMillis? period = ofMillis? (start.toMillis + period) := by
  obtain ⟨-, precise⟩ := whole_nanosecond whole
  rw [plusMillis?, whole_plain whole, Bool.not_false, Bool.true_or, if_pos rfl, plain?, ofMillis?,
    toMillis]
  congr 1 <;> omega

/-- So is the time between two instants counted. -/
theorem elapsed_whole (first : start.toMillisecond = start)
    (last : finish.toMillisecond = finish) :
    elapsed start finish = (finish.toMillis - start.toMillis) * 1000000 := by
  have startPrecise := whole_nanosecond first
  have finishPrecise := whole_nanosecond last
  rw [elapsed, whole_plain first, whole_plain last, if_neg (by simp), if_neg (by simp)]
  unfold toNanos toMillis
  omega

/-- The milliseconds of instants are within the years that instants reach. -/
theorem toMillis_range (whole : instant.toMillisecond = instant) :
    firstSecond * 1000 ≤ instant.toMillis ∧ instant.toMillis < (lastSecond + 1) * 1000 := by
  obtain ⟨first, last, -⟩ := instant.valid
  have precise := (whole_nanosecond whole).1
  unfold toMillis
  omega

/-- No two instants are as far apart as the longest period. -/
theorem toMillis_sub_lt (first : start.toMillisecond = start) (last : finish.toMillisecond = finish) :
    finish.toMillis - start.toMillis < Rules.longestPeriod := by
  have startRange := toMillis_range first
  have finishRange := toMillis_range last
  unfold firstSecond at startRange
  unfold lastSecond at finishRange
  unfold Rules.longestPeriod
  omega

/-- **The end of a period is reached when the milliseconds say so**, also where it is cut off at the
latest instant. -/
theorem plusMillis?_le_iff (first : start.toMillisecond = start) (last : now.toMillisecond = now)
    {period : Int} (forward : 0 ≤ period) :
    (start.plusMillis? period).getD latest ≤ now ↔ start.toMillis + period ≤ now.toMillis := by
  rw [plusMillis?_whole first]
  cases found : ofMillis? (start.toMillis + period) with
  | some finish =>
    rw [Option.getD_some, le_iff_toMillis (ofMillis?_whole found) last, toMillis_of_ofMillis? found]
  | none =>
    -- No instant is as late as that, and none in whole milliseconds comes after the latest one.
    have startRange := toMillis_range first
    have nowRange := toMillis_range last
    have precise := whole_nanosecond last
    obtain ⟨-, bounded, -⟩ := now.valid
    have late : (lastSecond + 1) * 1000 ≤ start.toMillis + period :=
      Int.not_lt.mp fun within => by
        obtain ⟨finish, same⟩ := exists_ofMillis? (by omega) within
        rw [found] at same
        cases same
    rw [Option.getD_none, le_iff]
    simp only [latest]
    omega

/-- A number of nanoseconds is no longer than the longest period, forwards or backwards. -/
def Measurable (nanos : Int) : Prop :=
  -(Rules.longestPeriod * 1000000) ≤ nanos ∧ nanos ≤ Rules.longestPeriod * 1000000

/-- The time between any two instants can be measured. -/
theorem elapsed_measurable (start finish : Instant) : Measurable (elapsed start finish) := by
  obtain ⟨startFirst, startLast, startPrecise⟩ := start.valid
  obtain ⟨finishFirst, finishLast, finishPrecise⟩ := finish.valid
  unfold Measurable elapsed toNanos Rules.longestPeriod
  unfold firstSecond at startFirst finishFirst
  unfold lastSecond at startLast finishLast
  dsimp only
  split
  · omega
  · split <;> omega

end Instant

/-! ### Periods -/

namespace Rules

variable {seconds : UInt64} {time : Int}

/-- A period is kept as it is, or cut off because it is longer than the longest. -/
theorem periodMillis_cases (seconds : UInt64) :
    (periodMillis seconds = 1000 * seconds.toNat ∧ 1000 * seconds.toNat ≤ longestPeriod) ∨
      periodMillis seconds = longestPeriod ∧ longestPeriod < 1000 * seconds.toNat := by
  unfold periodMillis periodMillis? longestPeriod
  split
  · exact .inl ⟨rfl, by omega⟩
  · exact .inr ⟨rfl, by omega⟩

/-- A time that is shorter than the longest period has reached a period when it has reached the whole
of it. -/
theorem periodMillis_le (short : time < longestPeriod) :
    periodMillis seconds ≤ time ↔ 1000 * (seconds.toNat : Int) ≤ time := by
  rcases periodMillis_cases seconds with ⟨whole, -⟩ | ⟨cut, beyond⟩ <;> omega

/-- A time that can be measured is within a period when it is within the whole of it. -/
theorem le_periodMillis (measured : time ≤ longestPeriod) :
    time ≤ periodMillis seconds ↔ time ≤ 1000 * (seconds.toNat : Int) := by
  rcases periodMillis_cases seconds with ⟨whole, -⟩ | ⟨cut, beyond⟩ <;> omega

theorem periodMillis_measurable (seconds : UInt64) :
    0 ≤ periodMillis seconds ∧ Instant.Measurable (periodMillis seconds * 1000000) := by
  unfold Instant.Measurable
  have longest : 0 < longestPeriod := by decide
  rcases periodMillis_cases seconds with ⟨whole, short⟩ | ⟨cut, -⟩ <;> omega

end Rules

/-! ### Verdicts -/

namespace Verdict

variable {edit : Edit} {tally : Tally} {rules : Rules} {now : Instant}

/-- The seconds for which voting on an edit lasts. -/
def windowSeconds (tally : Tally) (rules : Rules) : UInt64 :=
  if 0 < rules.threshold.toNat ∧ rules.threshold.toNat ≤ tally.accepts + tally.rejects then
    rules.destructiveSeconds
  else rules.votingSeconds

theorem votingPeriod_eq (tally : Tally) (rules : Rules) :
    votingPeriod tally rules = Rules.periodMillis (windowSeconds tally rules) := by
  have positive : rules.threshold > 0 ↔ 0 < rules.threshold.toNat := UInt32.lt_iff_toNat_lt
  unfold votingPeriod windowSeconds Tally.decisive
  simp only [positive, ge_iff_le]
  split <;> rfl

/-- Voting has ended when the seconds of its window have passed since it started. -/
theorem votingEnds_le_iff (started : edit.votingStarted.toMillisecond = edit.votingStarted)
    (whole : now.toMillisecond = now) :
    votingEnds edit tally rules ≤ now ↔
      edit.votingStarted.toMillis + 1000 * (windowSeconds tally rules).toNat ≤ now.toMillis := by
  have reached : Rules.periodMillis (windowSeconds tally rules) ≤ _ ↔ _ :=
    Rules.periodMillis_le (Instant.toMillis_sub_lt started whole)
  have forward := (Rules.periodMillis_measurable (windowSeconds tally rules)).1
  rw [votingEnds, votingPeriod_eq, Instant.plusMillis?_le_iff started whole forward]
  omega

/-- An edit is too young while no more than the least period has passed since it was created. -/
theorem tooYoung_iff (created : edit.created.toMillisecond = edit.created)
    (whole : now.toMillisecond = now) :
    tooYoung edit rules now = true ↔
      now.toMillis - edit.created.toMillis ≤ 1000 * rules.destructiveSeconds.toNat := by
  have measured : now.toMillis - edit.created.toMillis ≤ Rules.longestPeriod :=
    Int.le_of_lt (Instant.toMillis_sub_lt created whole)
  rw [← Rules.le_periodMillis measured, tooYoung, decide_eq_true_iff,
    Instant.elapsed_whole created whole, Rules.destructivePeriod]
  omega

/-- What the votes on a destructive edit settle, and when they settle nothing. -/
theorem onVote_destructive (edit : Edit) (tally : Tally) (now : Instant) (rules : Rules) :
    onVote edit tally true now rules =
      if rules.threshold.toNat = 0 ∨ tooYoung edit rules now = true ∨
          tally.decisive < rules.threshold.toNat then .pending
      else if tally.rejects < tally.accepts then .accept
      else .reject := by
  have off : rules.threshold = 0 ↔ rules.threshold.toNat = 0 := UInt32.toNat_inj.symm
  unfold onVote
  by_cases zero : rules.threshold.toNat = 0
  · rw [if_pos (off.mpr zero), if_pos (.inl zero)]
  · rw [if_neg (mt off.mp zero), if_pos rfl]
    cases tooYoung edit rules now with
    | true => rw [if_pos rfl, if_pos (.inr (.inl rfl))]
    | false =>
      rw [if_neg Bool.false_ne_true]
      by_cases few : tally.decisive < rules.threshold.toNat
      · rw [if_pos few, if_pos (.inr (.inr few))]
      · have waits : ¬ (rules.threshold.toNat = 0 ∨ false = true ∨
            tally.decisive < rules.threshold.toNat) := by simp [zero, few]
        rw [if_neg few, if_neg waits]

/-- **Deadlines are exact.** For every edit and instant that are told by their milliseconds and any rules,
voting has ended just when the seconds of its window have passed since the last amendment, or else the
submission; and a destructive edit is left pending as too young just while no more than the least period
has passed since it was submitted. The votes are counted in 32 bits without a carry, and every period and
time that is compared can be measured. -/
theorem windows_exact (edit : Edit) (tally : Tally) (rules : Rules) (now : Instant)
    (told : edit.toMillisecond = edit) (whole : now.toMillisecond = now)
    (countable : tally.accepts + tally.rejects < 2 ^ 32) :
    (votingEnds edit tally rules ≤ now ↔
      (edit.updated.getD edit.created).toMillis + 1000 * (windowSeconds tally rules).toNat ≤
        now.toMillis) ∧
    (tooYoung edit rules now = true ↔
      now.toMillis - edit.created.toMillis ≤ 1000 * rules.destructiveSeconds.toNat) ∧
    (onVote edit tally true now rules =
      if rules.threshold.toNat = 0 ∨
          now.toMillis - edit.created.toMillis ≤ 1000 * rules.destructiveSeconds.toNat ∨
          tally.accepts + tally.rejects < rules.threshold.toNat then .pending
      else if tally.rejects < tally.accepts then .accept
      else .reject) ∧
    (UInt32.ofNat tally.accepts + UInt32.ofNat tally.rejects).toNat = tally.decisive ∧
    Instant.Measurable (Instant.elapsed edit.created now) ∧
    Instant.Measurable (rules.destructivePeriod * 1000000) ∧
    Instant.Measurable (votingPeriod tally rules * 1000000) := by
  have created : edit.created.toMillisecond = edit.created := congrArg Edit.created told
  have started : edit.votingStarted.toMillisecond = edit.votingStarted := by
    have updated : edit.updated.map Instant.toMillisecond = edit.updated :=
      congrArg Edit.updated told
    unfold Edit.votingStarted
    cases amended : edit.updated with
    | none => exact created
    | some instant =>
      rw [amended] at updated
      exact Option.some.inj updated
  have young : tooYoung edit rules now = true ↔ _ := tooYoung_iff created whole
  refine ⟨votingEnds_le_iff started whole, young, ?_, ?_, Instant.elapsed_measurable _ _,
    (Rules.periodMillis_measurable _).2, ?_⟩
  · rw [onVote_destructive]
    simp only [young, Tally.decisive]
  · rw [UInt32.toNat_add, UInt32.toNat_ofNat', UInt32.toNat_ofNat']
    unfold Tally.decisive
    omega
  · rw [votingPeriod_eq]
    exact (Rules.periodMillis_measurable _).2

/-- An edit that was submitted at the epoch, amended a minute later, and would be put off for as long as
64 bits can say. -/
def amendedAtOnce : Edit := { (default : Edit) with created := .epoch, updated := some (.ofMillis 60000) }

/-- Rules with periods that no calendar reaches. -/
def unhurried : Rules :=
  { Rules.standard with votingSeconds := 18446744073709551615, destructiveSeconds := 9223372036854776 }

theorem amendedAtOnce_exact :
    amendedAtOnce.toMillisecond = amendedAtOnce ∧
    Instant.latest.toMillisecond.toMillisecond = Instant.latest.toMillisecond ∧
    1 + 1 < 2 ^ 32 ∧
    ¬ votingEnds amendedAtOnce ⟨1, 1, 0⟩ unhurried ≤ Instant.latest.toMillisecond ∧
    tooYoung amendedAtOnce unhurried Instant.latest.toMillisecond = true := by
  have told : amendedAtOnce.toMillisecond = amendedAtOnce := by decide
  have whole : Instant.latest.toMillisecond.toMillisecond = Instant.latest.toMillisecond := by decide
  obtain ⟨ends, young, -⟩ := windows_exact amendedAtOnce ⟨1, 1, 0⟩ unhurried
    Instant.latest.toMillisecond told whole (by decide)
  refine ⟨told, whole, by decide, ?_, ?_⟩
  · rw [ends]
    decide
  · rw [young]
    decide

end Verdict

end Curation
