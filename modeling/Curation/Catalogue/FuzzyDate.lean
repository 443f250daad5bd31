/-
**Dates of lesser precision.** A birthdate or release date may name a year, a month or a day:
`2001`, `2001-02` or `2001-02-28`. The month or day must exist in the calendar.
-/

import Curation.Calendar
import Curation.Text.Decimal

namespace Curation.FuzzyDate

open Curation.Calendar Curation.Text

/-- The pieces of a text between its hyphens. -/
def pieces : List Char → List (List Char)
  | [] => [[]]
  | character :: rest =>
    if character = '-' then [] :: pieces rest
    else
      match pieces rest with
      | [] => [[character]]
      | first :: others => (character :: first) :: others

/-- The number written with exactly `width` digits. -/
def number? (width : Nat) (piece : List Char) : Option Nat :=
  if piece.length = width ∧ piece.all Char.isDigit then some (Decimal.value piece) else none

/-- The date that a year, a month and perhaps a day stand for; a month stands for its first day. -/
def date? (pieces : List (List Char)) : Option Date :=
  match pieces with
  | [year] => do
    let year ← number? 4 year
    return ⟨year, 1, 1⟩
  | [year, month] => do
    let year ← number? 4 year
    let month ← number? 2 month
    return ⟨year, month, 1⟩
  | [year, month, day] => do
    let year ← number? 4 year
    let month ← number? 2 month
    let day ← number? 2 day
    return ⟨year, month, day⟩
  | _ => none

/-- A text is a date of some precision when its pieces stand for a valid date. -/
def isDate (text : String) : Bool :=
  match date? (pieces text.toList) with
  | some date => decide date.Valid
  | none => false

example : isDate "2000-02-29" = true := by decide
example : isDate "1900-02-29" = false := by decide
example : isDate "2001-13" = false := by decide
example : isDate "2001-1-01" = false := by decide

end Curation.FuzzyDate
