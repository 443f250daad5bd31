/-
**What is a date of some precision.** A text is one when it is spelt as one: four digits for a year, and
perhaps a hyphen and two digits for a month of it, and perhaps another hyphen and two digits for a day
of that month. The recognizer takes the text apart at its hyphens; the spelling is put together from
digits, and the months have their lengths from a table.

* `Calendar.monthLength_eq`: the length of a month by the rule and by the table;
* `FuzzyDate.pieces_cases`, `FuzzyDate.pieces_append`: what lies between the hyphens of a text;
* `FuzzyDate.digits_iff`, `FuzzyDate.number?_eq_some`: a piece is read as a number when it is spelt with as many digits;
* `FuzzyDate.isDate_iff`: the recognizer accepts just the spellings.
-/

import Curation.Catalogue.FuzzyDate

namespace Curation

/-! ### The months -/

namespace Calendar

/-- A leap year can be divided by four, and by four hundred if by a hundred. -/
def LeapYear (year : Nat) : Prop := 4 ∣ year ∧ (100 ∣ year → 400 ∣ year)

instance (year : Nat) : Decidable (LeapYear year) := by unfold LeapYear; infer_instance

/-- The days of each month; there are none in a month that does not exist. -/
def daysOfMonth (year : Nat) : Nat → Nat
  | 1 | 3 | 5 | 7 | 8 | 10 | 12 => 31
  | 4 | 6 | 9 | 11 => 30
  | 2 => if LeapYear year then 29 else 28
  | _ => 0

theorem isLeap_iff (year : Nat) : isLeap year = true ↔ LeapYear year := by
  unfold isLeap LeapYear
  simp only [Bool.and_eq_true, Bool.or_eq_true, beq_iff_eq, bne_iff_ne]
  omega

/-- A month has the length that the table gives. -/
theorem monthLength_eq (year : Nat) {month : Nat} (first : 1 ≤ month) (last : month ≤ 12) :
    monthLength year month = daysOfMonth year month := by
  have leap := isLeap_iff year
  match month, first, last with
  | 2, _, _ => simp only [monthLength, daysOfMonth, leap, if_true]
  | 1, _, _ | 3, _, _ | 4, _, _ | 5, _, _ | 6, _, _ | 7, _, _ | 8, _, _ | 9, _, _ | 10, _, _
  | 11, _, _ | 12, _, _ => rfl

/-- Only months that exist have days. -/
theorem month_of_day {year month : Nat} (some : 0 < daysOfMonth year month) :
    1 ≤ month ∧ month ≤ 12 := by
  unfold daysOfMonth at some
  split at some
  all_goals omega

/-- A date is valid when its month has its day. -/
theorem valid_iff (year month day : Nat) :
    (⟨year, month, day⟩ : Date).Valid ↔ 1 ≤ day ∧ day ≤ daysOfMonth year month := by
  constructor
  · rintro ⟨first, last, positive, fits⟩
    rw [monthLength_eq year first last] at fits
    exact ⟨positive, fits⟩
  · rintro ⟨positive, fits⟩
    have present : 0 < daysOfMonth year month := by omega
    obtain ⟨first, last⟩ := month_of_day present
    refine ⟨first, last, positive, ?_⟩
    rw [monthLength_eq year first last]
    exact fits

/-- Every month that exists begins with a first day. -/
theorem valid_first_iff (year month : Nat) :
    (⟨year, month, 1⟩ : Date).Valid ↔ 1 ≤ month ∧ month ≤ 12 := by
  refine ⟨fun valid => ⟨valid.1, valid.2.1⟩, fun ⟨first, last⟩ => ⟨first, last, Nat.le_refl 1, ?_⟩⟩
  show 1 ≤ monthLength year month
  unfold monthLength
  split
  · split <;> omega
  · split <;> omega

end Calendar

namespace FuzzyDate

open Calendar Text

/-! ### Spelling -/

/-- The digit for a number below ten. -/
def digit (number : Fin 10) : Char := Char.ofNat (48 + number)

/-- The characters of some digits. -/
def numeral (digits : List (Fin 10)) : List Char := digits.map digit

/-- The number that some digits stand for, the highest first. -/
def number (digits : List (Fin 10)) : Nat :=
  digits.foldl (fun value (digit : Fin 10) => 10 * value + digit.val) 0

/-- How dates are spelt. -/
inductive Spelt : List Char → Prop where
  | year {year : List (Fin 10)} (four : year.length = 4) : Spelt (numeral year)
  | month {year month : List (Fin 10)} (four : year.length = 4) (two : month.length = 2)
      (first : 1 ≤ number month) (last : number month ≤ 12) :
      Spelt (numeral year ++ '-' :: numeral month)
  | day {year month day : List (Fin 10)} (four : year.length = 4) (two : month.length = 2)
      (also : day.length = 2) (first : 1 ≤ number day)
      (last : number day ≤ daysOfMonth (number year) (number month)) :
      Spelt (numeral year ++ '-' :: (numeral month ++ '-' :: numeral day))

theorem isDigit_digit : ∀ number, (digit number).isDigit = true := by decide

theorem toNat_digit : ∀ number, (digit number).toNat = 48 + number := by decide

theorem exists_digit {character : Char} (isDigit : character.isDigit = true) :
    ∃ number, character = digit number := by
  obtain ⟨least, most⟩ := Char.isDigit_iff_toNat.mp isDigit
  change 48 ≤ character.toNat at least
  change character.toNat ≤ 57 at most
  refine ⟨⟨character.toNat - 48, by omega⟩, ?_⟩
  rw [digit, Nat.add_sub_cancel' least, Char.ofNat_toNat]

theorem exists_numeral {piece : List Char} (digits : ∀ character ∈ piece, character.isDigit = true) :
    ∃ numbers, piece = numeral numbers := by
  induction piece with
  | nil => exact ⟨[], rfl⟩
  | cons first rest hypothesis =>
    obtain ⟨head, tail⟩ := List.forall_mem_cons.mp digits
    obtain ⟨number, rfl⟩ := exists_digit head
    obtain ⟨numbers, rfl⟩ := hypothesis tail
    exact ⟨number :: numbers, rfl⟩

theorem isDigit_of_mem_numeral {digits : List (Fin 10)} {character : Char}
    (member : character ∈ numeral digits) : character.isDigit = true := by
  obtain ⟨number, -, rfl⟩ := List.mem_map.mp member
  exact isDigit_digit number

theorem hyphen_not_mem_numeral (digits : List (Fin 10)) : '-' ∉ numeral digits := fun member => by
  have digit := isDigit_of_mem_numeral member
  revert digit
  decide

/-- A numeral has the value of its digits. -/
theorem value_numeral (digits : List (Fin 10)) : Decimal.value (numeral digits) = number digits := by
  -- The induction has to know what stands before the digits.
  have folded : ∀ before, Nat.ofDigitChars 10 (numeral digits) before =
      digits.foldl (fun value (digit : Fin 10) => 10 * value + digit.val) before := by
    induction digits with
    | nil => exact fun _ => rfl
    | cons first rest hypothesis =>
      intro before
      have code : (digit first).toNat - '0'.toNat = first.val := by
        rw [toNat_digit]
        exact Nat.add_sub_cancel_left (n := 48) (m := first.val)
      rw [List.foldl_cons, ← hypothesis, numeral, List.map_cons, Nat.ofDigitChars_cons, code]
      rfl
  exact folded 0

/-- Some characters are digits with a value just when they are a numeral of it. -/
theorem digits_iff {piece : List Char} {value : Nat} :
    piece.all Char.isDigit = true ∧ Decimal.value piece = value ↔
      ∃ digits, piece = numeral digits ∧ number digits = value := by
  constructor
  · rintro ⟨all, rfl⟩
    obtain ⟨digits, rfl⟩ := exists_numeral (List.all_eq_true.mp all)
    exact ⟨digits, rfl, (value_numeral digits).symm⟩
  · rintro ⟨digits, rfl, rfl⟩
    exact ⟨List.all_eq_true.mpr fun _ => isDigit_of_mem_numeral, value_numeral digits⟩

/-- A piece is read as a number when it is spelt with as many digits as it must have. -/
theorem number?_eq_some {width value : Nat} {piece : List Char} :
    number? width piece = some value ↔
      ∃ digits, digits.length = width ∧ piece = numeral digits ∧ number digits = value := by
  rw [number?, Option.ite_none_right_eq_some, Option.some.injEq, and_assoc, digits_iff]
  constructor
  · rintro ⟨length, digits, rfl, same⟩
    rw [numeral, List.length_map] at length
    exact ⟨digits, length, rfl, same⟩
  · rintro ⟨digits, length, rfl, same⟩
    refine ⟨?_, digits, rfl, same⟩
    rw [numeral, List.length_map, length]

/-! ### Pieces -/

theorem pieces_ne_nil (text : List Char) : pieces text ≠ [] := by
  cases text with
  | nil => exact List.cons_ne_nil _ _
  | cons character rest =>
    unfold pieces
    split
    · exact List.cons_ne_nil _ _
    · split <;> exact List.cons_ne_nil _ _

theorem pieces_hyphen (rest : List Char) : pieces ('-' :: rest) = [] :: pieces rest := by
  rw [pieces, if_pos rfl]

/-- Another character belongs to the first piece. -/
theorem pieces_cons {character : Char} {rest first : List Char} {others : List (List Char)}
    (plain : character ≠ '-') (split : pieces rest = first :: others) :
    pieces (character :: rest) = (character :: first) :: others := by
  rw [pieces, if_neg plain, split]

/-- A text without a hyphen is one piece; otherwise the first piece ends at a hyphen. -/
theorem pieces_cases (text : List Char) :
    pieces text = [text] ∨
      ∃ piece rest, text = piece ++ '-' :: rest ∧ pieces text = piece :: pieces rest := by
  induction text with
  | nil => exact .inl rfl
  | cons character rest hypothesis =>
    by_cases hyphen : character = '-'
    · subst hyphen
      exact .inr ⟨[], rest, rfl, pieces_hyphen rest⟩
    · rcases hypothesis with whole | ⟨piece, others, rfl, split⟩
      · exact .inl (pieces_cons hyphen whole)
      · exact .inr ⟨character :: piece, others, rfl, pieces_cons hyphen split⟩

theorem eq_of_pieces_singleton {text piece : List Char} (split : pieces text = [piece]) :
    text = piece := by
  rcases pieces_cases text with whole | ⟨first, rest, -, several⟩
  · exact (List.cons.inj (whole.symm.trans split)).1
  · exact absurd (List.cons.inj (several.symm.trans split)).2 (pieces_ne_nil rest)

theorem eq_of_pieces_cons {text piece next : List Char} {others : List (List Char)}
    (split : pieces text = piece :: next :: others) :
    ∃ rest, text = piece ++ '-' :: rest ∧ pieces rest = next :: others := by
  rcases pieces_cases text with whole | ⟨first, rest, rfl, several⟩
  · exact absurd (List.cons.inj (whole.symm.trans split)).2.symm (List.cons_ne_nil _ _)
  · obtain ⟨rfl, same⟩ := List.cons.inj (several.symm.trans split)
    exact ⟨rest, rfl, same⟩

/-- A piece without a hyphen is taken off at the hyphen after it. -/
theorem pieces_append {piece : List Char} (plain : '-' ∉ piece) (rest : List Char) :
    pieces (piece ++ '-' :: rest) = piece :: pieces rest := by
  induction piece with
  | nil => exact pieces_hyphen rest
  | cons first others hypothesis =>
    obtain ⟨differs, differ⟩ := not_or.mp (mt List.mem_cons.mpr plain)
    exact pieces_cons (Ne.symm differs) (hypothesis differ)

theorem pieces_plain {piece : List Char} (plain : '-' ∉ piece) : pieces piece = [piece] := by
  rcases pieces_cases piece with whole | ⟨first, rest, rfl, -⟩
  · exact whole
  · exact absurd (List.mem_append.mpr (.inr List.mem_cons_self)) plain

/-! ### Dates -/

theorem isDate_eq_true {text : String} :
    isDate text = true ↔ ∃ date, date? (pieces text.toList) = some date ∧ date.Valid := by
  unfold isDate
  cases date? (pieces text.toList) with
  | none => simp
  | some date => simp

/-- What is read as a valid date is spelt like one. -/
theorem spelt_of_date? {text : List Char} {date : Date} (read : date? (pieces text) = some date)
    (valid : date.Valid) : Spelt text := by
  unfold date? at read
  split at read
  next year split =>
    rw [eq_of_pieces_singleton split]
    obtain ⟨value, whole, -⟩ := Option.bind_eq_some_iff.mp read
    obtain ⟨digits, four, rfl, -⟩ := number?_eq_some.mp whole
    exact .year four
  next year month split =>
    obtain ⟨rest, rfl, last⟩ := eq_of_pieces_cons split
    rw [eq_of_pieces_singleton last]
    obtain ⟨years, whole, later⟩ := Option.bind_eq_some_iff.mp read
    obtain ⟨months, part, same⟩ := Option.bind_eq_some_iff.mp later
    obtain ⟨digits, four, rfl, rfl⟩ := number?_eq_some.mp whole
    obtain ⟨others, two, rfl, rfl⟩ := number?_eq_some.mp part
    cases same
    obtain ⟨first, most⟩ := (valid_first_iff _ _).mp valid
    exact .month four two first most
  next year month day split =>
    obtain ⟨rest, rfl, more⟩ := eq_of_pieces_cons split
    obtain ⟨rest, rfl, last⟩ := eq_of_pieces_cons more
    rw [eq_of_pieces_singleton last]
    obtain ⟨years, whole, later⟩ := Option.bind_eq_some_iff.mp read
    obtain ⟨months, part, still⟩ := Option.bind_eq_some_iff.mp later
    obtain ⟨days, least, same⟩ := Option.bind_eq_some_iff.mp still
    obtain ⟨digits, four, rfl, rfl⟩ := number?_eq_some.mp whole
    obtain ⟨others, two, rfl, rfl⟩ := number?_eq_some.mp part
    obtain ⟨finer, also, rfl, rfl⟩ := number?_eq_some.mp least
    cases same
    obtain ⟨first, most⟩ := (valid_iff _ _ _).mp valid
    exact .day four two also first most
  · cases read

/-- What is spelt like a date is read as a valid one. -/
theorem date?_of_spelt {text : List Char} (spelt : Spelt text) :
    ∃ date, date? (pieces text) = some date ∧ date.Valid := by
  have read : ∀ {width : Nat} {digits : List (Fin 10)}, digits.length = width →
      number? width (numeral digits) = some (number digits) := fun length =>
    number?_eq_some.mpr ⟨_, length, rfl, rfl⟩
  have whole : ∀ digits, pieces (numeral digits) = [numeral digits] := fun digits =>
    pieces_plain (hyphen_not_mem_numeral digits)
  have first : ∀ digits rest, pieces (numeral digits ++ '-' :: rest) =
      numeral digits :: pieces rest := fun digits => pieces_append (hyphen_not_mem_numeral digits)
  cases spelt with
  | @year year four =>
    refine ⟨⟨number year, 1, 1⟩, ?_, (valid_first_iff _ _).mpr ⟨by omega, by omega⟩⟩
    rw [whole]
    simp [date?, read four]
  | @month year month four two least most =>
    refine ⟨⟨number year, number month, 1⟩, ?_, (valid_first_iff _ _).mpr ⟨least, most⟩⟩
    rw [first, whole]
    simp [date?, read four, read two]
  | @day year month day four two also least most =>
    refine ⟨⟨number year, number month, number day⟩, ?_, (valid_iff _ _ _).mpr ⟨least, most⟩⟩
    rw [first, first, whole]
    simp [date?, read four, read two, read also]

/-- **A text is a date of some precision just when it is spelt like one**, whatever else texts may
hold. -/
theorem isDate_iff (text : String) : isDate text = true ↔ Spelt text.toList := by
  rw [isDate_eq_true]
  constructor
  · rintro ⟨date, read, valid⟩
    exact spelt_of_date? read valid
  · exact date?_of_spelt

end FuzzyDate

end Curation
