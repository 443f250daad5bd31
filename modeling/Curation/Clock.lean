/-
**A clock that is moved by hand.** The clock counts milliseconds in 64 bits, and goes round when it is
moved too far. A count that is no instant shows the epoch.
-/

import Curation.Instant

namespace Curation

/-- A clock that is moved by hand. -/
structure Clock where
  millis : Int64
deriving DecidableEq

namespace Clock

/-- A clock that shows an instant. -/
def start (instant : Instant) : Clock := ⟨Int64.ofInt instant.toMillis⟩

/-- The clock moved by some milliseconds. -/
def advance (clock : Clock) (millis : Int64) : Clock := ⟨clock.millis + millis⟩

/-- The clock set to an instant. -/
def set (_ : Clock) (instant : Instant) : Clock := start instant

/-- The instant that a clock shows. -/
def now (clock : Clock) : Instant := Instant.ofMillis clock.millis.toInt

end Clock

end Curation
