/-
**Decimal numerals.** Numbers are written without needless digits, or padded with zeros to a width;
a numeral is read as the longest run of digits that its place allows.

* `value_padded`: padding does not change the value;
* `value_digits`: the numeral of a number has that value.
-/

namespace Curation.Text.Decimal

/-- The numeral of a number, without leading zeros. -/
def digits (number : Nat) : List Char := Nat.toDigits 10 number

/-- The numeral of a number, with leading zeros up to a width. -/
def padded (width number : Nat) : List Char :=
  List.replicate (width - (digits number).length) '0' ++ digits number

/-- The numeral of an integer, with a sign only when it is negative. -/
def signed (number : Int) : List Char :=
  if number < 0 then '-' :: digits number.natAbs else digits number.natAbs

/-- The value of a run of digits. -/
def value (numeral : List Char) : Nat := Nat.ofDigitChars 10 numeral 0

/-- Takes between `least` and `most` digits from the front, as many as there are. -/
def take? (least most : Nat) (characters : List Char) : Option (Nat × List Char) :=
  let numeral := (characters.take most).takeWhile Char.isDigit
  if numeral.length < least then none
  else some (value numeral, characters.drop numeral.length)

theorem value_digits (number : Nat) : value (digits number) = number :=
  Nat.ofDigitChars_ten_toDigits

theorem value_padded (width number : Nat) : value (padded width number) = number := by
  rw [value, padded, Nat.ofDigitChars_append, Nat.ofDigitChars_replicate_zero, Nat.mul_zero]
  exact Nat.ofDigitChars_ten_toDigits

theorem isDigit_of_mem_digits {number : Nat} {character : Char}
    (member : character ∈ digits number) : character.isDigit = true :=
  Nat.isDigit_of_mem_toDigits (by decide) (by decide) member

theorem isDigit_of_mem_padded {width number : Nat} {character : Char}
    (member : character ∈ padded width number) : character.isDigit = true := by
  rcases List.mem_append.mp member with zero | digit
  · rw [List.eq_of_mem_replicate zero]
    decide
  · exact isDigit_of_mem_digits digit

end Curation.Text.Decimal
