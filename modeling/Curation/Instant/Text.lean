/-
**The text of instants.** An instant is written in UTC as `YYYY-MM-DDTHH:MM:SS`, a fraction of
three, six or nine digits where it has one, and `Z`. Years outside 0000 to 9999 carry a sign.

The reader is more lenient than the writer. Blanks may stand before any number and around the
marks between them; the date may be parted from the time by `T`, `t` or a space; and the time may
be given with an offset from UTC, from which the instant follows.
-/

import Curation.Calendar
import Curation.Instant
import Curation.Text.Blank
import Curation.Text.Decimal

namespace Curation.Instant

open Curation.Calendar Curation.Text

/-! ### Writing -/

/-- A year: four digits, or a sign and at least four digits outside 0000 to 9999. -/
def yearChars (year : Int) : List Char :=
  if year < 0 then '-' :: Decimal.padded 4 year.natAbs
  else if year ≤ 9999 then Decimal.padded 4 year.natAbs
  else '+' :: Decimal.padded 4 year.natAbs

/-- The fraction of a second: nothing, milliseconds, microseconds or nanoseconds. -/
def fractionChars (nanos : Nat) : List Char :=
  if nanos = 0 then []
  else if nanos % 1000000 = 0 then '.' :: Decimal.padded 3 (nanos / 1000000)
  else if nanos % 1000 = 0 then '.' :: Decimal.padded 6 (nanos / 1000)
  else '.' :: Decimal.padded 9 nanos

/-- The written form of an instant. -/
def toChars (instant : Instant) : List Char :=
  let date := Date.ofDayNumber (instant.second / 86400)
  let secondOfDay := (instant.second % 86400).toNat
  let leap := if instant.nanosecond < 1000000000 then 0 else 1
  yearChars date.year ++ '-' :: Decimal.padded 2 date.month ++ '-' :: Decimal.padded 2 date.day ++
    'T' :: Decimal.padded 2 (secondOfDay / 3600) ++
    ':' :: Decimal.padded 2 (secondOfDay / 60 % 60) ++
    ':' :: Decimal.padded 2 (secondOfDay % 60 + leap) ++
    fractionChars (instant.nanosecond % 1000000000) ++ ['Z']

/-- The written form of an instant, as a string. -/
def toText (instant : Instant) : String := String.ofList instant.toChars

/-! ### Reading -/

/-- Passes a given character. -/
def pass? (expected : Char) : List Char → Option (List Char)
  | character :: rest => if character = expected then some rest else none
  | [] => none

/-- A number of one or two digits after any blanks. -/
def twoDigits? (characters : List Char) : Option (Nat × List Char) :=
  Decimal.take? 1 2 (dropBlanks characters)

/-- A year after any blanks: up to four digits, or any number of digits after a sign. -/
def year? (characters : List Char) : Option (Int × List Char) :=
  match dropBlanks characters with
  | '-' :: rest => (Decimal.take? 1 rest.length rest).map fun (value, rest) => (-(value : Int), rest)
  | '+' :: rest => (Decimal.take? 1 rest.length rest).map fun (value, rest) => ((value : Int), rest)
  | rest => (Decimal.take? 1 4 rest).map fun (value, rest) => ((value : Int), rest)

/-- A date: year, month and day with hyphens between them. -/
def date? (characters : List Char) : Option (Date × List Char) := do
  let (year, rest) ← year? characters
  let rest ← pass? '-' (dropBlanks rest)
  let (month, rest) ← twoDigits? rest
  let rest ← pass? '-' (dropBlanks rest)
  let (day, rest) ← twoDigits? rest
  return (⟨year, month, day⟩, rest)

/-- The separator between date and time. -/
def separator? : List Char → Option (List Char)
  | character :: rest =>
    if character = 'T' ∨ character = 't' ∨ character = ' ' then some rest else none
  | [] => none

/-- A fraction of a second in nanoseconds; digits after the ninth do not count. -/
def fraction? : List Char → Option (Nat × List Char)
  | '.' :: rest => do
    let numeral := (rest.take 9).takeWhile Char.isDigit
    guard (1 ≤ numeral.length)
    let nanos := Decimal.value numeral * Nat.pow 10 (9 - numeral.length)
    return (nanos, (rest.drop numeral.length).dropWhile Char.isDigit)
  | rest => some (0, rest)

/-- The seconds of an offset from UTC: `Z`, `UTC`, or a sign with hours and minutes. -/
def offset? (characters : List Char) : Option (Int × List Char) :=
  match characters with
  | 'Z' :: rest => some (0, rest)
  | 'z' :: rest => some (0, rest)
  | first :: rest =>
    if ((first :: rest).take 3).map Char.toUpper = ['U', 'T', 'C'] then some (0, rest.drop 2)
    else if first = '+' then (amount? rest).map fun (seconds, rest) => ((seconds : Int), rest)
    else if first = '-' ∨ first = '\u2212' then
      (amount? rest).map fun (seconds, rest) => (-(seconds : Int), rest)
    else none
  | [] => none
where
  /-- Two digits of hours and two of minutes, with any colons and blanks between them. -/
  amount? (characters : List Char) : Option (Nat × List Char) := do
    let (hours, rest) ← Decimal.take? 2 2 characters
    let rest := rest.dropWhile fun character => character = ':' || isBlank character
    let (minutes, rest) ← Decimal.take? 2 2 rest
    guard (minutes < 60)
    return (hours * 3600 + minutes * 60, rest)

/-- The years that have instants in UTC. -/
def coveredYear (year : Int) : Bool := -262143 ≤ year && year ≤ 262142

/-- The instant of a date, a time of day and an offset, if they exist. -/
def ofLocal? (date : Date) (hour minute second nanos : Nat) (offset : Int) : Option Instant := do
  guard (coveredYear date.year ∧ date.Valid)
  guard (hour < 24 ∧ minute < 60 ∧ second ≤ 60)
  guard (-86400 < offset ∧ offset < 86400)
  let leap : Nat := if second = 60 then 1 else 0
  of? (date.dayNumber * 86400 + hour * 3600 + minute * 60 + (second : Int) - leap - offset)
    (nanos + leap * 1000000000)

/-- Reads the text of an instant. -/
def ofChars? (characters : List Char) : Option Instant := do
  let (date, rest) ← date? characters
  let rest ← separator? rest
  let (hour, rest) ← twoDigits? rest
  let rest ← pass? ':' (dropBlanks rest)
  let (minute, rest) ← twoDigits? rest
  let rest ← pass? ':' (dropBlanks rest)
  let (second, rest) ← twoDigits? rest
  let (nanos, rest) ← fraction? rest
  let (offset, rest) ← offset? (dropBlanks rest)
  guard (dropBlanks rest = [])
  ofLocal? date hour minute second nanos offset

/-- Reads the text of an instant. -/
def ofText? (text : String) : Option Instant := ofChars? text.toList

example : (ofMillis 1709294400007).toText = "2024-03-01T12:00:00.007Z" := by decide
example : (ofMillis (-1)).toText = "1969-12-31T23:59:59.999Z" := by decide
example : ofText? "2024-03-01T00:30:00+05:45" = some (ofMillis 1709232300000) := by decide

end Curation.Instant
