/-
**Dates and instants are read back.** A day of a cycle of 400 years is counted off in centuries, then in
fours of years, then in years; only the last of four years can be a day longer, and only in the last
century does the last four of years have all its days. So the number of a day gives its date, and an
instant that is written as a date and a time of day is read back, also within a leap second.

* `Date.dayNumber_ofDayNumber`, `Date.ofDayNumber_valid`: the date with a given day number;
* `Instant.ofText?_toText`: the text of an instant is read as that instant.
-/

import Curation.Instant.Text

namespace Curation

namespace Calendar

/-! ### The days of a cycle -/

/-- A day of a cycle, counted from a first of March: the centuries, fours of years and years that have
passed, and the days since the last of those years began. -/
structure CycleDay where
  centuries : Int
  fours : Int
  years : Int
  days : Int
  centuries_le : 0 ≤ centuries ∧ centuries ≤ 3
  fours_le : 0 ≤ fours ∧ fours ≤ 24
  years_le : 0 ≤ years ∧ years ≤ 3
  days_le : 0 ≤ days ∧ days ≤ 365
  /-- Only the last of four years has a leap day, and not if it ends a century before the last. -/
  leap : days = 365 → years = 3 ∧ (fours = 24 → centuries = 3)

namespace CycleDay

/-- The number of a day within its cycle. -/
def number (day : CycleDay) : Int :=
  36524 * day.centuries + 1461 * day.fours + 365 * day.years + day.days

/-- The number of its year within the cycle. -/
def year (day : CycleDay) : Int := 100 * day.centuries + 4 * day.fours + day.years

/-- Every day of a cycle is counted off like that. -/
theorem exists_number {dayOfCycle : Int} (first : 0 ≤ dayOfCycle) (last : dayOfCycle < cycleDays) :
    ∃ day : CycleDay, day.number = dayOfCycle := by
  unfold cycleDays at last
  let centuries := min (dayOfCycle / 36524) 3
  let ofCentury := dayOfCycle - 36524 * centuries
  let ofFour := ofCentury % 1461
  let years := min (ofFour / 365) 3
  refine ⟨⟨centuries, ofCentury / 1461, years, ofFour - 365 * years, ?_, ?_, ?_, ?_, ?_⟩, ?_⟩
  all_goals simp only [number, centuries, ofCentury, ofFour, years]
  all_goals omega

variable (day : CycleDay)

/-- The year is computed from the number of the day. -/
theorem year_eq : (day.number - day.number / 1460 + day.number / 36524 - day.number / 146096) / 365 =
    day.year := by
  obtain ⟨centuries, fours, years, days, _, _, _, _, leap⟩ := day
  simp only [number, year]
  have ofCenturies : (36524 * centuries + 1461 * fours + 365 * years + days) / 36524 -
      (36524 * centuries + 1461 * fours + 365 * years + days) / 146096 = centuries := by
    by_cases last : 36524 * centuries + 1461 * fours + 365 * years + days = 146096
    · omega
    · have early : (36524 * centuries + 1461 * fours + 365 * years + days) / 146096 = 0 := by omega
      omega
  -- a day is lost for each four of years, and one more at the end of the last of them
  obtain ⟨carry, ofFours, small⟩ : ∃ carry,
      (36524 * centuries + 1461 * fours + 365 * years + days) / 1460 =
        25 * centuries + fours + carry ∧ 0 ≤ days - carry ∧ days - carry < 365 := by
    refine ⟨(24 * centuries + fours + 365 * years + days) / 1460, ?_, ?_, ?_⟩ <;> omega
  omega

/-- What a year of the cycle has in leap days before it. -/
theorem year_parts : day.year / 4 = 25 * day.centuries + day.fours ∧
    day.year / 100 = day.centuries ∧ 0 ≤ day.year ∧ day.year < 400 := by
  obtain ⟨centuries, fours, years, days, _, _, _, _, leap⟩ := day
  simp only [year]
  omega

/-- The month of a day, counted from March. -/
def month : Int := (5 * day.days + 2) / 153

theorem month_bounds : 0 ≤ day.month ∧ day.month ≤ 11 := by
  obtain ⟨least, most⟩ := day.days_le
  unfold month
  omega

/-- The date of a day in a cycle with a given number. -/
def date (cycle : Int) : Date :=
  let month := if day.month < 10 then day.month + 3 else day.month - 9
  let year := day.year + cycle * 400
  ⟨if month ≤ 2 then year + 1 else year, month.toNat,
    (day.days - (153 * day.month + 2) / 5 + 1).toNat⟩

theorem ofDayNumber_eq {number : Int}
    (ofCycle : day.number = (number + marchOfYearZero) % cycleDays) :
    Date.ofDayNumber number = day.date ((number + marchOfYearZero) / cycleDays) := by
  obtain ⟨fours, centuries, -, -⟩ := day.year_parts
  have days : day.number - (365 * day.year + day.year / 4 - day.year / 100) = day.days := by
    rw [fours, centuries]
    simp only [CycleDay.number, year]
    omega
  unfold Date.ofDayNumber date month
  simp only [← ofCycle, year_eq, days]

theorem dayNumber_date (cycle : Int) :
    (day.date cycle).dayNumber = cycle * cycleDays + day.number - marchOfYearZero := by
  obtain ⟨fours, centuries, least, most⟩ := day.year_parts
  obtain ⟨first, last⟩ := day.month_bounds
  have year : (if (day.date cycle).month ≤ 2 then (day.date cycle).year - 1
      else (day.date cycle).year) = day.year + cycle * 400 := by
    simp only [date]
    split <;> split <;> omega
  have month : ((((day.date cycle).month + 9) % 12 : Nat) : Int) = day.month := by
    simp only [date]
    split <;> omega
  have days : (153 * day.month + 2) / 5 + ((day.date cycle).day : Int) - 1 = day.days := by
    obtain ⟨_, _⟩ := day.days_le
    simp only [date, CycleDay.month]
    omega
  unfold Date.dayNumber
  simp only [year, month, days]
  rw [show (day.year + cycle * 400) % 400 = day.year by omega,
    show (day.year + cycle * 400) / 400 = cycle by omega, fours, centuries]
  simp only [number, CycleDay.year]
  omega

/-- The leap day is the last of a year whose number within the calendar is that of a leap year. -/
theorem isLeap_of_days (cycle : Int) (leap : day.days = 365) :
    isLeap (day.year + cycle * 400 + 1) = true := by
  obtain ⟨years, last⟩ := day.leap leap
  obtain ⟨_, _⟩ := day.fours_le
  obtain ⟨_, _⟩ := day.centuries_le
  simp only [isLeap, year, Bool.and_eq_true, Bool.or_eq_true, beq_iff_eq, bne_iff_ne, years]
  by_cases ends : day.fours = 24
  · have century := last ends
    omega
  · omega

/-- Where a month, counted from March, begins within the year. -/
theorem month_days : (153 * day.month + 2) / 5 ≤ day.days ∧
    (day.month = 11 ∨ day.days < (153 * (day.month + 1) + 2) / 5) := by
  obtain ⟨least, most⟩ := day.days_le
  unfold month
  omega

/-- Each month but February, the last, has as many days as there are up to the next. -/
theorem monthLength_of_month (notLast : day.month ≠ 11) (year : Int) :
    (monthLength year (if day.month < 10 then day.month + 3 else day.month - 9).toNat : Int) =
      (153 * (day.month + 1) + 2) / 5 - (153 * day.month + 2) / 5 := by
  have checked : ∀ index : Fin 11, ∀ month : Nat,
      month = (if (index.val : Int) < 10 then (index.val : Int) + 3 else index.val - 9).toNat →
        month ≠ 2 ∧ (monthLength 0 month : Int) =
          (153 * ((index.val : Int) + 1) + 2) / 5 - (153 * (index.val : Int) + 2) / 5 := by
    rintro index month rfl
    revert index
    decide
  obtain ⟨first, last⟩ := day.month_bounds
  have natural : ((day.month.toNat : Nat) : Int) = day.month := Int.toNat_of_nonneg first
  obtain ⟨other, length⟩ := checked ⟨day.month.toNat, by omega⟩ _ rfl
  simp only [natural] at other length
  rw [← length, monthLength, if_neg other, monthLength, if_neg other]

theorem date_valid (cycle : Int) : (day.date cycle).Valid := by
  obtain ⟨begins, ends⟩ := day.month_days
  obtain ⟨first, last⟩ := day.month_bounds
  obtain ⟨-, most⟩ := day.days_le
  have months : 1 ≤ (day.date cycle).month ∧ (day.date cycle).month ≤ 12 := by
    simp only [date]
    split <;> omega
  have days : ((day.date cycle).day : Int) = day.days - (153 * day.month + 2) / 5 + 1 := by
    simp only [date]
    omega
  have length : ((day.date cycle).day : Int) ≤
      monthLength (day.date cycle).year (day.date cycle).month := by
    rw [days]
    by_cases february : day.month = 11
    · have date : (day.date cycle).month = 2 ∧
          (day.date cycle).year = day.year + cycle * 400 + 1 := by
        unfold date
        rw [february]
        exact ⟨rfl, rfl⟩
      rw [date.1, date.2, monthLength, if_pos rfl, february]
      by_cases leap : day.days = 365
      · rw [if_pos (day.isLeap_of_days cycle leap), leap]
        decide
      · split <;> omega
    · have known := day.monthLength_of_month february (day.date cycle).year
      have next := ends.resolve_left february
      simp only [date] at known ⊢
      omega
  exact ⟨months.1, months.2, by omega, by omega⟩

/-- The years of the days that have instants. -/
theorem date_year {number : Int}
    (ofCycle : day.number = (number + marchOfYearZero) % cycleDays)
    (least : -96465292 ≤ number) (most : number ≤ 95026236) :
    -262143 ≤ (day.date ((number + marchOfYearZero) / cycleDays)).year ∧
      (day.date ((number + marchOfYearZero) / cycleDays)).year ≤ 262142 := by
  obtain ⟨centuries, fours, years, days, _, _, _, _, leap⟩ := day
  simp only [date, CycleDay.number, year, month, marchOfYearZero, cycleDays] at ofCycle ⊢
  omega

end CycleDay

namespace Date

/-- The day of the cycle that a day number falls on. -/
theorem exists_cycleDay (number : Int) :
    ∃ day : CycleDay, day.number = (number + marchOfYearZero) % cycleDays :=
  CycleDay.exists_number (Int.emod_nonneg _ (by decide)) (Int.emod_lt_of_pos _ (by decide))

/-- **The date with a day number has that day number**, -/
theorem dayNumber_ofDayNumber (number : Int) : (Date.ofDayNumber number).dayNumber = number := by
  obtain ⟨day, ofCycle⟩ := exists_cycleDay number
  rw [day.ofDayNumber_eq ofCycle, day.dayNumber_date, ofCycle, Int.mul_comm, Int.mul_ediv_add_emod]
  omega

/-- and it exists. -/
theorem ofDayNumber_valid (number : Int) : (Date.ofDayNumber number).Valid := by
  obtain ⟨day, ofCycle⟩ := exists_cycleDay number
  rw [day.ofDayNumber_eq ofCycle]
  exact day.date_valid _

/-- The days that have instants fall into the years that have instants. -/
theorem ofDayNumber_year (number : Int) (least : -96465292 ≤ number) (most : number ≤ 95026236) :
    -262143 ≤ (Date.ofDayNumber number).year ∧ (Date.ofDayNumber number).year ≤ 262142 := by
  obtain ⟨day, ofCycle⟩ := exists_cycleDay number
  rw [day.ofDayNumber_eq ofCycle]
  exact day.date_year ofCycle least most

end Date

end Calendar

/-! ### Numerals within a text -/

namespace Text

theorem isBlank_of_isDigit {character : Char} (digit : character.isDigit = true) :
    isBlank character = false := by
  have code : 48 ≤ character.toNat ∧ character.toNat ≤ 57 := Char.isDigit_iff_toNat.mp digit
  unfold isBlank isBlankCode
  simp only [Bool.or_eq_false_iff, Bool.and_eq_false_iff, decide_eq_false_iff_not,
    beq_eq_false_iff_ne]
  omega

theorem dropBlanks_cons {character : Char} {rest : List Char} (mark : isBlank character = false) :
    dropBlanks (character :: rest) = character :: rest :=
  List.dropWhile_cons_of_neg (by rw [mark]; exact Bool.false_ne_true)

namespace Decimal

theorem length_padded {width number : Nat} (positive : 0 < width)
    (fits : number < Nat.pow 10 width) :
    (padded width number).length = width := by
  have short := (Nat.length_toDigits_le_iff (by decide) positive).mpr fits
  rw [padded, List.length_append, List.length_replicate, digits]
  omega

/-- A numeral that something else than a digit follows is all the digits at the front. -/
theorem takeWhile_numeral {numeral : List Char} {mark : Char} {rest : List Char} {most : Nat}
    (digits : ∀ character ∈ numeral, character.isDigit = true) (ends : mark.isDigit = false)
    (fits : numeral.length ≤ most) :
    ((numeral ++ mark :: rest).take most).takeWhile Char.isDigit = numeral := by
  rw [List.take_append, List.take_of_length_le fits, List.takeWhile_append_of_pos digits]
  cases most - numeral.length with
  | zero => exact List.append_nil _
  | succ more =>
    rw [List.take_succ_cons, List.takeWhile_cons_of_neg (by rw [ends]; exact Bool.false_ne_true),
      List.append_nil]

/-- It is taken whole if that is allowed. -/
theorem take?_numeral {numeral : List Char} {mark : Char} {rest : List Char} {least most : Nat}
    (digits : ∀ character ∈ numeral, character.isDigit = true) (ends : mark.isDigit = false)
    (enough : least ≤ numeral.length) (fits : numeral.length ≤ most) :
    take? least most (numeral ++ mark :: rest) = some (value numeral, mark :: rest) := by
  rw [take?, takeWhile_numeral digits ends fits, if_neg (Nat.not_lt.mpr enough), List.drop_left]

end Decimal

end Text

/-! ### Instants -/

namespace Instant

open Calendar Text

/-- A condition that holds is passed. -/
theorem guard_ok {condition : Prop} [Decidable condition] (holds : condition) :
    (guard condition : Option Unit) = some () := if_pos holds

/-- A numeral is nothing or begins with a digit, which is no blank. -/
theorem dropBlanks_numeral {numeral rest : List Char} (some : 0 < numeral.length)
    (digits : ∀ character ∈ numeral, character.isDigit = true) :
    dropBlanks (numeral ++ rest) = numeral ++ rest := by
  cases numeral with
  | nil => cases some
  | cons first others =>
    exact dropBlanks_cons (isBlank_of_isDigit (digits first List.mem_cons_self))

/-- Two digits are read as the number that they were written for. -/
theorem twoDigits?_padded {number : Nat} (fits : number < 100) {mark : Char} (rest : List Char)
    (ends : mark.isDigit = false) :
    twoDigits? (Decimal.padded 2 number ++ mark :: rest) = some (number, mark :: rest) := by
  have length : (Decimal.padded 2 number).length = 2 := Decimal.length_padded (by decide) fits
  have digits : ∀ character ∈ Decimal.padded 2 number, character.isDigit = true :=
    fun _ => Decimal.isDigit_of_mem_padded
  rw [twoDigits?, dropBlanks_numeral (by omega) digits,
    Decimal.take?_numeral digits ends (by omega) (by omega), Decimal.value_padded]

/-- A year of four digits is read without a sign. -/
theorem year?_digits {numeral rest : List Char} (length : numeral.length = 4)
    (digits : ∀ character ∈ numeral, character.isDigit = true) :
    year? (numeral ++ '-' :: rest) = some ((Decimal.value numeral : Int), '-' :: rest) := by
  have taken : Decimal.take? 1 4 (numeral ++ '-' :: rest) =
      some (Decimal.value numeral, '-' :: rest) :=
    Decimal.take?_numeral digits (by decide) (by omega) (by omega)
  have unsigned : ∀ sign : Char, sign.isDigit = false → ∀ others,
      numeral ++ '-' :: rest ≠ sign :: others := by
    intro sign noDigit others same
    cases numeral with
    | nil => cases length
    | cons first tail =>
      have digit := digits first List.mem_cons_self
      rw [(List.cons.inj same).1, noDigit] at digit
      cases digit
  rw [year?, dropBlanks_numeral (by omega) digits]
  split
  next others same => exact absurd same (unsigned '-' (by decide) others)
  next others same => exact absurd same (unsigned '+' (by decide) others)
  next => rw [taken]; rfl

/-- A year is read back, with its sign. -/
theorem year?_yearChars (year : Int) (rest : List Char) :
    year? (yearChars year ++ '-' :: rest) = some (year, '-' :: rest) := by
  have digits : ∀ character ∈ Decimal.padded 4 year.natAbs, character.isDigit = true :=
    fun _ => Decimal.isDigit_of_mem_padded
  have taken : Decimal.take? 1 (Decimal.padded 4 year.natAbs ++ '-' :: rest).length
      (Decimal.padded 4 year.natAbs ++ '-' :: rest) = some (year.natAbs, '-' :: rest) := by
    have size : 0 < (Decimal.digits year.natAbs).length := List.length_pos_iff.mpr Nat.toDigits_ne_nil
    have longer : 1 ≤ (Decimal.padded 4 year.natAbs).length := by
      rw [Decimal.padded, List.length_append]
      omega
    rw [Decimal.take?_numeral digits (by decide) longer (by rw [List.length_append]; omega),
      Decimal.value_padded]
  unfold yearChars
  split
  next negative =>
    show (Decimal.take? 1 (Decimal.padded 4 year.natAbs ++ '-' :: rest).length
      (Decimal.padded 4 year.natAbs ++ '-' :: rest)).map _ = _
    rw [taken]
    show some (-(year.natAbs : Int), _) = _
    rw [show (-(year.natAbs : Int)) = year by omega]
  next positive =>
    split
    next small =>
      have length : (Decimal.padded 4 year.natAbs).length = 4 :=
        Decimal.length_padded (by decide) (show year.natAbs < 10000 by omega)
      rw [year?_digits length digits, Decimal.value_padded,
        show ((year.natAbs : Nat) : Int) = year by omega]
    next large =>
      show (Decimal.take? 1 (Decimal.padded 4 year.natAbs ++ '-' :: rest).length
        (Decimal.padded 4 year.natAbs ++ '-' :: rest)).map _ = _
      rw [taken]
      show some ((year.natAbs : Int), _) = _
      rw [show ((year.natAbs : Nat) : Int) = year by omega]

theorem date?_chars (date : Date) (valid : date.Valid) (rest : List Char) :
    date? (yearChars date.year ++ '-' :: (Decimal.padded 2 date.month ++
      '-' :: (Decimal.padded 2 date.day ++ 'T' :: rest))) = some (date, 'T' :: rest) := by
  obtain ⟨-, month, -, day⟩ := valid
  have short : monthLength date.year date.month ≤ 31 := by
    unfold monthLength
    split
    · split <;> decide
    · split <;> decide
  have pass : ∀ rest, pass? '-' (dropBlanks ('-' :: rest)) = some rest := fun _ => rfl
  rw [date?, year?_yearChars]
  simp only [Option.bind_eq_bind, Option.bind_some, pass]
  rw [twoDigits?_padded (by omega) _ (by decide)]
  simp only [Option.bind_some, pass]
  rw [twoDigits?_padded (by omega) _ (by decide)]
  rfl

/-- A point and up to nine digits are read as a fraction of a second. -/
theorem fraction?_padded {width number : Nat} (positive : 0 < width) (most : width ≤ 9)
    (fits : number < Nat.pow 10 width) :
    fraction? ('.' :: (Decimal.padded width number ++ ['Z'])) =
      some (number * Nat.pow 10 (9 - width), ['Z']) := by
  have length := Decimal.length_padded positive fits
  have taken : ((Decimal.padded width number ++ ['Z']).take 9).takeWhile Char.isDigit =
      Decimal.padded width number :=
    Decimal.takeWhile_numeral (fun _ => Decimal.isDigit_of_mem_padded) (by decide) (by omega)
  have longer : 1 ≤ (((Decimal.padded width number ++ ['Z']).take 9).takeWhile
      Char.isDigit).length := by
    rw [taken, length]
    exact positive
  refine Option.bind_eq_some_iff.mpr ⟨(), guard_ok longer, ?_⟩
  rw [taken, length, List.drop_left' length, Decimal.value_padded]
  rfl

/-- A fraction of a second is read back. -/
theorem fraction?_fractionChars {nanos : Nat} (fits : nanos < 1000000000) :
    fraction? (fractionChars nanos ++ ['Z']) = some (nanos, ['Z']) := by
  unfold fractionChars
  split
  next none => rw [none]; rfl
  split
  next millis =>
    rw [List.cons_append, fraction?_padded (by decide) (by decide)
      (show nanos / 1000000 < 1000 by omega)]
    show some (nanos / 1000000 * 1000000, _) = _
    rw [show nanos / 1000000 * 1000000 = nanos by omega]
  split
  next micros =>
    rw [List.cons_append, fraction?_padded (by decide) (by decide)
      (show nanos / 1000 < 1000000 by omega)]
    show some (nanos / 1000 * 1000, _) = _
    rw [show nanos / 1000 * 1000 = nanos by omega]
  next =>
    rw [List.cons_append, fraction?_padded (by decide) (by decide) fits]
    exact congrArg (fun nanos => some (nanos, ['Z'])) (Nat.mul_one nanos)

/-- The fraction is over where the offset begins. -/
theorem head_fractionChars (nanos : Nat) : ∃ mark others, mark.isDigit = false ∧
    fractionChars nanos ++ ['Z'] = mark :: others := by
  unfold fractionChars
  split
  · exact ⟨'Z', [], by decide, rfl⟩
  split
  · exact ⟨'.', _, by decide, rfl⟩
  split
  · exact ⟨'.', _, by decide, rfl⟩
  · exact ⟨'.', _, by decide, rfl⟩

/-- The time of day and the day of an instant make that instant again, with a leap second where it is
written with a sixtieth second. -/
theorem ofLocal?_instant (instant : Instant) :
    ofLocal? (Date.ofDayNumber (instant.second / 86400))
      ((instant.second % 86400).toNat / 3600) ((instant.second % 86400).toNat / 60 % 60)
      ((instant.second % 86400).toNat % 60 + if instant.nanosecond < 1000000000 then 0 else 1)
      (instant.nanosecond % 1000000000) 0 = some instant := by
  obtain ⟨second, nanosecond, valid⟩ := instant
  obtain ⟨least, most, whole⟩ := id valid
  dsimp only
  unfold firstSecond at least
  unfold lastSecond at most
  obtain ⟨first, last⟩ := Date.ofDayNumber_year (second / 86400) (by omega) (by omega)
  have covered : coveredYear (Date.ofDayNumber (second / 86400)).year = true := by
    unfold coveredYear
    rw [decide_eq_true first, decide_eq_true last, Bool.and_self]
  -- the sixtieth second is written exactly for a leap second, which follows the last of a minute
  obtain ⟨leap, written, nanos, sixty⟩ : ∃ leap : Nat,
      (if nanosecond < 1000000000 then 0 else 1) = leap ∧
        nanosecond % 1000000000 + leap * 1000000000 = nanosecond ∧
        (if (second % 86400).toNat % 60 + leap = 60 then 1 else 0) = leap := by
    split
    next plain => exact ⟨0, rfl, by omega, if_neg (by omega)⟩
    next long => exact ⟨1, rfl, by omega, if_pos (by omega)⟩
  have found : ∀ moment, moment = second →
      of? moment (nanosecond % 1000000000 + leap * 1000000000) =
        some ⟨second, nanosecond, valid⟩ := by
    rintro moment rfl
    rw [of?]
    simp only [nanos]
    rw [dif_pos valid]
  rw [written, ofLocal?, Date.dayNumber_ofDayNumber]
  rw [guard_ok ⟨covered, Date.ofDayNumber_valid _⟩, guard_ok (by omega), guard_ok (by omega)]
  simp only [sixty]
  exact found _ (by omega)

/-- **The text of an instant is read as that instant.** -/
theorem ofText?_toText (instant : Instant) : ofText? instant.toText = some instant := by
  have valid := Date.ofDayNumber_valid (instant.second / 86400)
  obtain ⟨mark, others, ends, written⟩ := head_fractionChars (instant.nanosecond % 1000000000)
  have fraction :=
    fraction?_fractionChars (show instant.nanosecond % 1000000000 < 1000000000 by omega)
  rw [ofText?, toText, String.toList_ofList, toChars]
  simp only [List.append_assoc, List.cons_append]
  rw [written] at fraction ⊢
  refine Option.bind_eq_some_iff.mpr ⟨_, date?_chars _ valid _, ?_⟩
  refine Option.bind_eq_some_iff.mpr ⟨_, rfl, ?_⟩
  refine Option.bind_eq_some_iff.mpr ⟨_, twoDigits?_padded (by omega) _ (by decide), ?_⟩
  refine Option.bind_eq_some_iff.mpr ⟨_, rfl, ?_⟩
  refine Option.bind_eq_some_iff.mpr ⟨_, twoDigits?_padded (by omega) _ (by decide), ?_⟩
  refine Option.bind_eq_some_iff.mpr ⟨_, rfl, ?_⟩
  refine Option.bind_eq_some_iff.mpr ⟨_, twoDigits?_padded (by split <;> omega) _ ends, ?_⟩
  refine Option.bind_eq_some_iff.mpr ⟨_, fraction, ?_⟩
  refine Option.bind_eq_some_iff.mpr ⟨_, rfl, ?_⟩
  exact Option.bind_eq_some_iff.mpr ⟨(), guard_ok rfl, ofLocal?_instant instant⟩

end Instant

end Curation
