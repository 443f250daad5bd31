/-
**Hexadecimal text of bytes.** Each byte is written as two lower-case digits; digits of either case
are read.

* `decode_encode`: reading the text of some bytes gives the bytes back.
-/

namespace Curation.Text.Hex

/-- The digit for a number below sixteen. -/
def digit (value : Nat) : Char :=
  if value < 10 then Char.ofNat (48 + value) else Char.ofNat (87 + value)

/-- The value of a digit of either case. -/
def value? (character : Char) : Option Nat :=
  let code := character.toNat
  if 48 ≤ code ∧ code ≤ 57 then some (code - 48)
  else if 97 ≤ code ∧ code ≤ 102 then some (code - 87)
  else if 65 ≤ code ∧ code ≤ 70 then some (code - 55)
  else none

/-- The digits of some bytes, two for each. -/
def encode : List UInt8 → List Char
  | [] => []
  | byte :: rest => digit (byte.toNat / 16) :: digit (byte.toNat % 16) :: encode rest

/-- The bytes that an even number of digits spells. -/
def decode? : List Char → Option (List UInt8)
  | [] => some []
  | [_] => none
  | high :: low :: rest => do
    let upper ← value? high
    let lower ← value? low
    let bytes ← decode? rest
    return UInt8.ofNat (16 * upper + lower) :: bytes

theorem value_digit {value : Nat} (small : value < 16) : value? (digit value) = some value := by
  have checked : ∀ index : Fin 16, value? (digit index.val) = some index.val := by decide
  exact checked ⟨value, small⟩

theorem decode_encode (bytes : List UInt8) : decode? (encode bytes) = some bytes := by
  induction bytes with
  | nil => rfl
  | cons byte rest hypothesis =>
    have bounded := byte.toNat_lt
    have split : 16 * (byte.toNat / 16) + byte.toNat % 16 = byte.toNat := Nat.div_add_mod _ _
    have upper := value_digit (show byte.toNat / 16 < 16 by omega)
    have lower := value_digit (show byte.toNat % 16 < 16 by omega)
    rw [encode, decode?, upper, lower, hypothesis]
    show some (UInt8.ofNat (16 * (byte.toNat / 16) + byte.toNat % 16) :: rest) = _
    rw [split, UInt8.ofNat_toNat]

theorem length_encode (bytes : List UInt8) : (encode bytes).length = 2 * bytes.length := by
  induction bytes with
  | nil => rfl
  | cons byte rest hypothesis => simp [encode, hypothesis]; omega

end Curation.Text.Hex
