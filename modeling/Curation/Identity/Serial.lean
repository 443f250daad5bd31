/-
**Identifiers in series.** Identifiers are issued in increasing order, so that of two the lesser is
the older.

* `Uuid.serial_lt_serial`: the series increases, and `Uuid.serial_inj`: it does not repeat itself.
-/

import Curation.Identity.Uuid

namespace Curation.Uuid

/-- The first identifier of the series. -/
def seriesStart : Nat := 0x018df9e8c20070008000000000000000

/-- The identifier with a number in the series. -/
def serial (number : Nat) : Uuid := ⟨BitVec.ofNat 128 (seriesStart + number)⟩

theorem serial_lt_serial {first last : Nat} (increases : first < last) (small : last < 1 <<< 62) :
    serial first < serial last := by
  show BitVec.ofNat 128 _ < BitVec.ofNat 128 _
  rw [BitVec.lt_def, BitVec.toNat_ofNat, BitVec.toNat_ofNat, seriesStart, Nat.mod_eq_of_lt (by omega),
    Nat.mod_eq_of_lt (by omega)]
  omega

theorem serial_inj {first last : Nat} (firstSmall : first < 1 <<< 62) (lastSmall : last < 1 <<< 62)
    (same : serial first = serial last) : first = last := by
  rcases Nat.lt_trichotomy first last with increases | equal | decreases
  · exact absurd (same ▸ serial_lt_serial increases lastSmall) (BitVec.lt_irrefl _)
  · exact equal
  · exact absurd (same ▸ serial_lt_serial decreases firstSmall) (BitVec.lt_irrefl _)

end Curation.Uuid
