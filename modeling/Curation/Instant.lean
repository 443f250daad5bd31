/-
**Instants.** An instant is a number of seconds since 1970-01-01T00:00:00Z and a number of
nanoseconds past that second. The instants reach from the first second of the year -262143 to the
last of the year 262142; in the last second of a minute the nanoseconds may run on into a leap
second.

* `Instant.ofMillis`: a count of milliseconds beyond either end stands for 1970-01-01T00:00:00Z;
* `Instant.plusMillis?`: moving past either end gives no instant, and out of a leap second takes as
  long as it lasts;
* `Instant.toMillisecond`: what is left of an instant that is kept in milliseconds;
* `Instant.toMillisecond_toMillisecond`: nothing more is lost later.
-/

namespace Curation

/-- The seconds of the first instant. -/
def Instant.firstSecond : Int := -8334601228800

/-- The seconds of the last instant. -/
def Instant.lastSecond : Int := 8210266876799

/-- The numbers of seconds and nanoseconds that make an instant. -/
def Instant.Valid (second : Int) (nanosecond : Nat) : Prop :=
  Instant.firstSecond ≤ second ∧ second ≤ Instant.lastSecond ∧
    (nanosecond < 1000000000 ∨ (nanosecond < 2000000000 ∧ second % 60 = 59))

instance (second : Int) (nanosecond : Nat) : Decidable (Instant.Valid second nanosecond) := by
  unfold Instant.Valid; infer_instance

/-- A point of time. -/
structure Instant where
  second : Int
  nanosecond : Nat
  valid : Instant.Valid second nanosecond
deriving DecidableEq

namespace Instant

/-- The instant with the given seconds and nanoseconds, if there is one. -/
def of? (second : Int) (nanosecond : Nat) : Option Instant :=
  if valid : Valid second nanosecond then some ⟨second, nanosecond, valid⟩ else none

/-- 1970-01-01T00:00:00Z. -/
def epoch : Instant := ⟨0, 0, by decide⟩

/-- The last nanosecond that is an instant. -/
def latest : Instant := ⟨lastSecond, 999999999, by decide⟩

instance : Inhabited Instant := ⟨epoch⟩

instance : LE Instant :=
  ⟨fun first last => first.second < last.second ∨
    (first.second = last.second ∧ first.nanosecond ≤ last.nanosecond)⟩

instance : LT Instant :=
  ⟨fun first last => first.second < last.second ∨
    (first.second = last.second ∧ first.nanosecond < last.nanosecond)⟩

instance (first last : Instant) : Decidable (first ≤ last) :=
  inferInstanceAs (Decidable (_ ∨ _))

instance (first last : Instant) : Decidable (first < last) :=
  inferInstanceAs (Decidable (_ ∨ _))

/-- The instant a number of milliseconds after the epoch, if there is one. -/
def ofMillis? (millis : Int) : Option Instant :=
  of? (millis / 1000) ((millis % 1000).toNat * 1000000)

/-- The instant a number of milliseconds after the epoch; the epoch itself where there is none. -/
def ofMillis (millis : Int) : Instant := (ofMillis? millis).getD epoch

/-- The whole milliseconds from the epoch to an instant. -/
def toMillis (instant : Instant) : Int := instant.second * 1000 + instant.nanosecond / 1000000

/-- The nanoseconds from the epoch to an instant. -/
def toNanos (instant : Instant) : Int := instant.second * 1000000000 + instant.nanosecond

/-- An instant is within a leap second. -/
def isLeap (instant : Instant) : Bool := 1000000000 ≤ instant.nanosecond

/-- The seconds that have passed since the day began. -/
def secondOfDay (instant : Instant) : Int := instant.second % 86400

/-- The nanoseconds from one instant to another. A leap second in which the way begins or ends counts
as a second of its own where the time of day at the other end lies past it. -/
def elapsed (start finish : Instant) : Int :=
  let nanos := finish.toNanos - start.toNanos
  if start.isLeap ∧ start.secondOfDay < finish.secondOfDay then nanos + 1000000000
  else if finish.isLeap ∧ finish.secondOfDay < start.secondOfDay then nanos - 1000000000
  else nanos

/-- The instant a number of nanoseconds past a second, if there is one; no leap second is met. -/
def plain? (second nanos : Int) : Option Instant :=
  of? (second + nanos / 1000000000) (nanos % 1000000000).toNat

/-- The instant a number of milliseconds later, if there is one. A leap second in which the way
begins counts as a second of its own; no other leap second is met. -/
def plusMillis? (instant : Instant) (millis : Int) : Option Instant :=
  let nanos : Int := instant.nanosecond + millis * 1000000
  if !instant.isLeap || nanos < 1000000000 then plain? instant.second nanos
  else if nanos < 2000000000 then of? instant.second nanos.toNat
  else plain? instant.second (nanos - 1000000000)

/-- What an instant becomes when only its milliseconds are kept: a leap second runs into the second
after it, and the epoch stands for it if there is none. -/
def toMillisecond (instant : Instant) : Instant := ofMillis instant.toMillis

theorem le_iff {first last : Instant} : first ≤ last ↔ first.second < last.second ∨
    (first.second = last.second ∧ first.nanosecond ≤ last.nanosecond) := Iff.rfl

theorem lt_iff {first last : Instant} : first < last ↔ first.second < last.second ∨
    (first.second = last.second ∧ first.nanosecond < last.nanosecond) := Iff.rfl

theorem not_le {first last : Instant} : ¬ first ≤ last ↔ last < first := by
  rw [le_iff, lt_iff]; omega

theorem toMillis_of_ofMillis? {millis : Int} {instant : Instant}
    (found : ofMillis? millis = some instant) : instant.toMillis = millis := by
  unfold ofMillis? of? at found
  split at found
  · cases found
    simp only [toMillis]
    omega
  · cases found

/-- An instant that is kept in milliseconds loses nothing more. -/
@[simp] theorem toMillisecond_ofMillis (millis : Int) :
    (ofMillis millis).toMillisecond = ofMillis millis := by
  cases found : ofMillis? millis with
  | some instant =>
    have same : ofMillis millis = instant := by rw [ofMillis, found, Option.getD_some]
    rw [toMillisecond, same, toMillis_of_ofMillis? found, same]
  | none =>
    have same : ofMillis millis = epoch := by rw [ofMillis, found, Option.getD_none]
    rw [same]
    decide

@[simp] theorem toMillisecond_toMillisecond (instant : Instant) :
    instant.toMillisecond.toMillisecond = instant.toMillisecond :=
  toMillisecond_ofMillis instant.toMillis

example : (of? 59 1500000000).bind (·.plusMillis? 1000) = of? 60 500000000 := by decide
example : (of? 59 1500000000).bind (·.plusMillis? (-1000)) = of? 59 500000000 := by decide
example : (of? 59 1500000000).map toMillisecond = of? 60 500000000 := by decide

end Instant

end Curation
