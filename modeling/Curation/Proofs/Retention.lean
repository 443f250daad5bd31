/-
**Audits expire after their days.** Just those audits are dropped that were made more than the days of
the rules ago, counted in whole milliseconds, and nothing else is touched. Where the days reach back
before the first instant no audit is that old, and none is dropped; but then there is no instant to ask
the store with, and the call breaks off instead of telling that it dropped none.

* `Instant.plusMillis?_back`: going back in time is exact, out of a leap second too, or leaves the
  calendar;
* `Rules.retentionCutoff_cases`: from which instant audits are kept;
* `Desk.deleteExpiredAudits_exact`: what the call leaves, and what it answers;
* `Desk.hoarder_fails`: days that mean "for ever" make it break off.
-/

import Curation.Identity.Serial
import Curation.Review.Desk

namespace Curation

namespace Instant

/-- The first instant, in milliseconds. -/
def firstMillis : Int := firstSecond * 1000

theorem firstMillis_le (instant : Instant) : firstMillis ≤ instant.toMillis := by
  have first := instant.valid.1
  unfold firstMillis toMillis
  omega

theorem exists_plain? (second nanos : Int) (first : firstSecond ≤ second + nanos / 1000000000)
    (last : second + nanos / 1000000000 ≤ lastSecond) :
    ∃ instant, plain? second nanos = some instant ∧
      instant.toMillis = second * 1000 + nanos / 1000000 := by
  have valid : Valid (second + nanos / 1000000000) (nanos % 1000000000).toNat :=
    ⟨first, last, .inl (by omega)⟩
  refine ⟨⟨_, _, valid⟩, dif_pos valid, ?_⟩
  unfold toMillis
  dsimp only
  omega

/-- **Going back in time is exact.** A second or more before an instant there is one that many
milliseconds earlier, unless that is before the first of all. -/
theorem plusMillis?_back (start : Instant) {period : Int} (back : period ≤ -1000) :
    (start.toMillis + period < firstMillis ∧ start.plusMillis? period = none) ∨
      firstMillis ≤ start.toMillis + period ∧
        ∃ earlier, start.plusMillis? period = some earlier ∧
          earlier.toMillis = start.toMillis + period := by
  obtain ⟨-, last, precise⟩ := start.valid
  -- A leap second in which the way begins is left.
  have direct : start.plusMillis? period =
      plain? start.second (start.nanosecond + period * 1000000) := by
    have out : (start.nanosecond + period * 1000000 : Int) < 1000000000 := by omega
    rw [plusMillis?, decide_eq_true out, Bool.or_true, if_pos rfl]
  have counted : start.toMillis + period =
      start.second * 1000 + (start.nanosecond + period * 1000000) / 1000000 := by
    unfold toMillis
    omega
  rw [direct, counted]
  unfold firstMillis
  by_cases early : start.second * 1000 + (start.nanosecond + period * 1000000) / 1000000 <
      firstSecond * 1000
  · refine .inl ⟨early, dif_neg fun valid => ?_⟩
    have first := valid.1
    omega
  · exact .inr ⟨Int.not_lt.mp early, exists_plain? _ _ (by omega) (by omega)⟩

end Instant

namespace Rules

variable {rules : Rules} {now : Instant}

/-- The milliseconds of the time before which audits are dropped, whether there is such an instant or
not. -/
def expiryMillis (rules : Rules) (now : Instant) : Int :=
  now.toMillis - rules.retentionDays.toNat * 86400000

/-- An audit is older than the rules keep it. -/
def expires (rules : Rules) (now : Instant) (audit : Audit) : Bool :=
  rules.retentionDays ≠ 0 && decide (audit.created.toMillis < rules.expiryMillis now)

/-- The days for which audits are kept reach back before the first instant. -/
def outlastsTime (rules : Rules) (now : Instant) : Bool :=
  rules.retentionDays ≠ 0 && decide (rules.expiryMillis now < Instant.firstMillis)

/-- No audit is older than the first instant. -/
theorem expires_eq_false (outlasts : rules.outlastsTime now = true) (audit : Audit) :
    rules.expires now audit = false := by
  unfold outlastsTime at outlasts
  have first := audit.created.firstMillis_le
  have early := of_decide_eq_true (Bool.and_eq_true_iff.mp outlasts).2
  unfold expires
  rw [Bool.and_eq_false_iff, decide_eq_false_iff_not (p := _ < _)]
  exact .inr (by omega)

/-- **From which instant audits are kept.** -/
theorem retentionCutoff_cases (rules : Rules) (now : Instant) :
    (rules.retentionDays = 0 ∧ rules.retentionCutoff now = .ok none) ∨
      (rules.outlastsTime now = true ∧ rules.retentionCutoff now = .error .brokenOff) ∨
      rules.outlastsTime now = false ∧ rules.retentionDays ≠ 0 ∧
        ∃ cutoff, rules.retentionCutoff now = .ok (some cutoff) ∧
          cutoff.toMillis = rules.expiryMillis now := by
  by_cases kept : rules.retentionDays = 0
  · exact .inl ⟨kept, if_pos kept⟩
  · have positive : 0 < rules.retentionDays.toNat :=
      Nat.pos_of_ne_zero fun zero => kept (UInt32.toNat_inj.mp zero)
    have days : -((rules.retentionDays.toNat : Int) * dayMillis) ≤ -1000 := by
      unfold dayMillis
      omega
    have difference : now.toMillis + -((rules.retentionDays.toNat : Int) * dayMillis) =
        rules.expiryMillis now := rfl
    unfold outlastsTime retentionCutoff
    rw [if_neg kept]
    rcases now.plusMillis?_back days with ⟨early, none⟩ | ⟨within, cutoff, found, millis⟩
    · rw [difference] at early
      rw [none]
      exact .inr (.inl ⟨by simp [kept, early], rfl⟩)
    · rw [difference] at within millis
      rw [found]
      exact .inr (.inr ⟨by simp [within], kept, cutoff, rfl, millis⟩)

end Rules

namespace Desk

variable {desk : Desk} {now : Instant}

/-- The call is settled by the instant from which audits are kept. -/
theorem deleteExpiredAudits_eq (desk : Desk) (now : Instant) (ledger : Ledger) :
    desk.deleteExpiredAudits now ledger =
      match desk.rules.retentionCutoff now with
      | .error error => ⟨.error error, ledger, []⟩
      | .ok none => ⟨.ok 0, ledger, []⟩
      | .ok (some cutoff) => ⟨.ok (ledger.store.deleteAuditsBefore cutoff).1,
          { ledger with store := (ledger.store.deleteAuditsBefore cutoff).2 }, []⟩ := by
  unfold deleteExpiredAudits
  cases desk.rules.retentionCutoff now with
  | error error => rfl
  | ok cutoff => cases cutoff <;> rfl

/-- Where no audit expires all are kept. -/
theorem filter_unexpired (audits : List Audit)
    (none : ∀ audit, desk.rules.expires now audit = false) :
    (audits.filter fun audit => !desk.rules.expires now audit) = audits ∧
      audits.countP (desk.rules.expires now) = 0 :=
  ⟨List.filter_eq_self.mpr fun audit _ => by rw [none audit, Bool.not_false],
    List.countP_eq_zero.mpr fun audit _ => by rw [none audit]; exact Bool.false_ne_true⟩

/-- **Just the audits that have expired are dropped**, whatever the rules, the time and the audits on
record are, and everything else stays. The call tells how many they were; but where the days reach back
before the first instant it breaks off, though no audit is that old. -/
theorem deleteExpiredAudits_exact (desk : Desk) (now : Instant) (ledger : Ledger) :
    desk.deleteExpiredAudits now ledger =
      ⟨if desk.rules.outlastsTime now then .error .brokenOff
        else .ok (ledger.store.audits.countP (desk.rules.expires now)),
        { ledger with store := { ledger.store with
            audits := ledger.store.audits.filter fun audit => !desk.rules.expires now audit } },
        []⟩ ∧
    (desk.rules.outlastsTime now && ledger.store.audits.any (desk.rules.expires now)) = false := by
  rcases desk.rules.retentionCutoff_cases now with ⟨off, kept⟩ | ⟨outlasts, failed⟩ |
    ⟨reaches, on, cutoff, found, millis⟩
  · have none : ∀ audit, desk.rules.expires now audit = false := fun audit => by
      simp [Rules.expires, off]
    have within : desk.rules.outlastsTime now = false := by simp [Rules.outlastsTime, off]
    obtain ⟨same, zero⟩ := filter_unexpired ledger.store.audits none
    rw [deleteExpiredAudits_eq, kept, within, same, zero]
    exact ⟨rfl, rfl⟩
  · have none := Rules.expires_eq_false outlasts
    obtain ⟨same, -⟩ := filter_unexpired ledger.store.audits none
    rw [deleteExpiredAudits_eq, failed, outlasts, same]
    exact ⟨rfl, List.any_eq_false.mpr fun audit _ => by rw [none audit]; exact Bool.false_ne_true⟩
  · have late : ∀ audit, Store.noLater cutoff audit.created = !desk.rules.expires now audit := by
      intro audit
      rw [Store.noLater, Rules.expires, millis, decide_eq_true on, Bool.true_and, ← decide_not]
      exact decide_eq_decide.mpr Int.not_lt.symm
    rw [deleteExpiredAudits_eq, found, reaches]
    dsimp only
    rw [Store.deleteAuditsBefore]
    simp only [late, Bool.not_not]
    exact ⟨rfl, rfl⟩

/-- A desk that keeps audits for as many days as 32 bits can say. -/
def hoarder : Desk := ⟨{ Rules.standard with retentionDays := 4294967295 }, .standard, Uuid.serial⟩

/-- Keeping audits for that long is no way to keep them for ever: on the first of March 2024 the call
that drops the others does not complete, though there is nothing to drop. -/
theorem hoarder_fails :
    (hoarder.deleteExpiredAudits (.ofMillis 1709294400000) .empty).result = .error .brokenOff ∧
    ¬ ∃ count, (hoarder.deleteExpiredAudits (.ofMillis 1709294400000) .empty).result = .ok count := by
  have fails :
      (hoarder.deleteExpiredAudits (.ofMillis 1709294400000) .empty).result = .error .brokenOff := rfl
  refine ⟨fails, fun ⟨count, answers⟩ => ?_⟩
  rw [fails] at answers
  cases answers

end Desk

end Curation
