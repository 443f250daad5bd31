/-
**Numbers of a fixed width, most significant byte first.**

* `decode_encode`: a number that fits the width is read back.
-/

namespace Curation.Bytes.BigEndian

/-- How many numbers a width in bytes has room for. -/
def capacity : Nat → Nat
  | 0 => 1
  | width + 1 => capacity width * 256

/-- The last `width` bytes of a number, most significant first. -/
def encode : Nat → Nat → List UInt8
  | 0, _ => []
  | width + 1, number => UInt8.ofNat (number / capacity width) :: encode width number

/-- The number that some bytes spell. -/
def decode : List UInt8 → Nat
  | [] => 0
  | byte :: rest => byte.toNat * capacity rest.length + decode rest

theorem capacity_pos (width : Nat) : 0 < capacity width := by
  induction width with
  | zero => decide
  | succ width hypothesis => exact Nat.mul_pos hypothesis (by decide)

@[simp] theorem length_encode (width number : Nat) : (encode width number).length = width := by
  induction width with
  | zero => rfl
  | succ width hypothesis => simp [encode, hypothesis]

theorem decode_encode_mod (width number : Nat) :
    decode (encode width number) = number % capacity width := by
  induction width with
  | zero => simp [encode, decode, capacity, Nat.mod_one]
  | succ width hypothesis =>
    rw [capacity, Nat.mod_mul, encode, decode, length_encode, hypothesis, UInt8.toNat_ofNat',
      Nat.mul_comm, Nat.add_comm]

theorem decode_encode {width number : Nat} (fits : number < capacity width) :
    decode (encode width number) = number := by
  rw [decode_encode_mod, Nat.mod_eq_of_lt fits]

end Curation.Bytes.BigEndian
