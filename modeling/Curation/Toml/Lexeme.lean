/-
**The words of TOML.** Blanks, comments, names, texts, numbers and moments at the front of a text,
each given with the rest of the text.
-/

import Curation.Calendar
import Curation.Toml
import Curation.Text.Decimal
import Curation.Text.Hex

namespace Curation.Toml

open Curation.Text

/-! ### Blanks and comments -/

/-- The blanks within a line. -/
def isSpace (character : Char) : Bool := character = ' ' || character = '\x09'

/-- The characters after leading blanks. -/
def skipSpaces (characters : List Char) : List Char := characters.dropWhile isSpace

/-- The characters that comments and texts may hold: no control characters but the tab. -/
def isPlain (character : Char) : Bool :=
  character = '\x09' || (character.toNat ≥ 32 && character.toNat ≠ 127)

/-- The rest after the end of a line. -/
def newline? : List Char → Option (List Char)
  | '\x0a' :: rest => some rest
  | '\x0d' :: '\x0a' :: rest => some rest
  | _ => none

/-- The rest after a comment, if there is one. -/
def skipComment : List Char → List Char
  | '#' :: rest => rest.dropWhile isPlain
  | rest => rest

/-- The rest after what may still follow on a line. -/
def lineEnd? (characters : List Char) : Option (List Char) :=
  match skipComment (skipSpaces characters) with
  | [] => some []
  | rest => newline? rest

/-- The rest after blanks and ends of lines. -/
def skipLines : List Char → List Char
  | '\x0a' :: rest => skipLines rest
  | '\x0d' :: '\x0a' :: rest => skipLines rest
  | character :: rest => if isSpace character then skipLines rest else character :: rest
  | [] => []

/-- The rest after blanks, ends of lines and comments, of which one may be under way. -/
def skipGaps : Bool → List Char → List Char
  | _, '\x0a' :: rest => skipGaps false rest
  | _, '\x0d' :: '\x0a' :: rest => skipGaps false rest
  | true, character :: rest => if isPlain character then skipGaps true rest else character :: rest
  | false, character :: rest =>
    if isSpace character then skipGaps false rest
    else if character = '#' then skipGaps true rest
    else character :: rest
  | _, [] => []

/-! ### Texts -/

/-- The character that some hexadecimal digits name. -/
def scalar? (width : Nat) (characters : List Char) : Option (Char × List Char) := do
  let numeral := characters.take width
  guard (numeral.length = width)
  let values ← numeral.mapM Hex.value?
  let code := values.foldl (fun code value => 16 * code + value) 0
  guard (code < 0xD800 ∨ (0xE000 ≤ code ∧ code < 0x110000))
  return (Char.ofNat code, characters.drop width)

/-- The character that is written after a backslash. -/
def escaped? : List Char → Option (Char × List Char)
  | 'b' :: rest => some ('\x08', rest)
  | 't' :: rest => some ('\x09', rest)
  | 'n' :: rest => some ('\x0a', rest)
  | 'f' :: rest => some ('\x0c', rest)
  | 'r' :: rest => some ('\x0d', rest)
  | '\x22' :: rest => some ('\x22', rest)
  | '\x5c' :: rest => some ('\x5c', rest)
  | 'u' :: rest => scalar? 4 rest
  | 'U' :: rest => scalar? 8 rest
  | _ => none

/-- The rest of a text on one line after its opening mark; in a text with quotation marks a backslash
begins an escape. -/
def lineText? (mark : Char) : Nat → List Char → Option (List Char × List Char)
  | 0, _ => none
  | _ + 1, [] => none
  | fuel + 1, character :: rest =>
    if character = mark then some ([], rest)
    else if character = '\x5c' && mark = '\x22' then do
      let (character, rest) ← escaped? rest
      let (content, rest) ← lineText? mark fuel rest
      return (character :: content, rest)
    else if isPlain character then do
      let (content, rest) ← lineText? mark fuel rest
      return (character :: content, rest)
    else none

/-- The rest of a text on several lines after its three opening marks; up to two marks may stand
before the three that close it, and a backslash at the end of a line joins it to the next text. -/
def blockText? (mark : Char) : Nat → List Char → Option (List Char × List Char)
  | 0, _ => none
  | _ + 1, [] => none
  | fuel + 1, character :: rest =>
    if character = mark && rest.take 2 = [mark, mark] then
      let extra := ((rest.drop 2).take 2).takeWhile (· = mark)
      some (extra, rest.drop (2 + extra.length))
    else if character = '\x5c' && mark = '\x22' then
      match newline? (skipSpaces rest) with
      | some rest => blockText? mark fuel (skipLines rest)
      | none => do
        let (character, rest) ← escaped? rest
        let (content, rest) ← blockText? mark fuel rest
        return (character :: content, rest)
    else
      match newline? (character :: rest) with
      | some rest => do
        let (content, rest) ← blockText? mark fuel rest
        return ('\x0a' :: content, rest)
      | none =>
        if isPlain character then do
          let (content, rest) ← blockText? mark fuel rest
          return (character :: content, rest)
        else none

/-- The text on one line after its opening mark. -/
def line? (mark : Char) (characters : List Char) : Option (String × List Char) := do
  let (content, rest) ← lineText? mark (characters.length + 1) characters
  return (String.ofList content, rest)

/-- The text after an opening mark: three marks open a text on several lines. -/
def text? (mark : Char) (characters : List Char) : Option (String × List Char) :=
  if characters.take 2 = [mark, mark] then do
    let block := characters.drop 2
    let (content, rest) ← blockText? mark (block.length + 1) ((newline? block).getD block)
    return (String.ofList content, rest)
  else line? mark characters

/-! ### Names -/

/-- The characters of a name without marks. -/
def isBare (character : Char) : Bool := character.isAlphanum || character = '_' || character = '-'

/-- A part of a name. -/
def part? : List Char → Option (String × List Char)
  | '\x22' :: rest => line? '\x22' rest
  | '\x27' :: rest => line? '\x27' rest
  | characters =>
    let bare := characters.takeWhile isBare
    if bare.isEmpty then none else some (String.ofList bare, characters.dropWhile isBare)

/-- The parts of a name, with points between them. -/
def parts? : Nat → List Char → Option (List String × String × List Char)
  | 0, _ => none
  | fuel + 1, characters => do
    let (first, rest) ← part? (skipSpaces characters)
    match skipSpaces rest with
    | '.' :: rest => do
      let (path, last, rest) ← parts? fuel rest
      return (first :: path, last, rest)
    | rest => return ([], first, rest)

/-- The most parts of a name. -/
def longestName : Nat := 79

/-- A name and the blanks around it. -/
def name? (characters : List Char) : Option (Name × List Char) := do
  let (path, last, rest) ← parts? longestName characters
  return (⟨path, last⟩, rest)

/-! ### Numbers -/

/-- The digits at the front, single underscores between them dropped. -/
def moreDigits? (isDigit : Char → Bool) : List Char → Option (List Char × List Char)
  | '_' :: character :: rest =>
    if isDigit character then do
      let (numeral, rest) ← moreDigits? isDigit rest
      return (character :: numeral, rest)
    else none
  | ['_'] => none
  | character :: rest =>
    if isDigit character then do
      let (numeral, rest) ← moreDigits? isDigit rest
      return (character :: numeral, rest)
    else some ([], character :: rest)
  | [] => some ([], [])

/-- At least one digit, and those that follow. -/
def digits? (isDigit : Char → Bool) : List Char → Option (List Char × List Char)
  | character :: rest =>
    if isDigit character then do
      let (numeral, rest) ← moreDigits? isDigit rest
      return (character :: numeral, rest)
    else none
  | [] => none

/-- The integral part of a decimal number: zero, or digits that do not begin with zero. -/
def integral? : List Char → Option (List Char × List Char)
  | '0' :: rest => some (['0'], rest)
  | characters => digits? Char.isDigit characters

/-- An integer must fit into 64 bits. -/
def fits (value : Int) : Bool := -9223372036854775808 ≤ value && value ≤ 9223372036854775807

/-- A digit of the base that is a power of two. -/
def isDigitOf (bits : Nat) (character : Char) : Bool :=
  match Hex.value? character with
  | some value => value < 1 <<< bits
  | none => false

/-- An integer in base two, eight or sixteen, after the letter of the base. -/
def based? (bits : Nat) (characters : List Char) : Option (Toml × List Char) := do
  let (numeral, rest) ← digits? (isDigitOf bits) characters
  let values ← numeral.mapM Hex.value?
  let value : Nat := values.foldl (fun value digit => (value <<< bits) + digit) 0
  guard (fits value)
  return (.integer value, rest)

/-- The exponent of a float, after its letter. -/
def exponent? (characters : List Char) : Option (Int × List Char) :=
  match characters with
  | '-' :: rest => do
    let (numeral, rest) ← digits? Char.isDigit rest
    return (-(Decimal.value numeral : Int), rest)
  | '+' :: rest => do
    let (numeral, rest) ← digits? Char.isDigit rest
    return (Decimal.value numeral, rest)
  | rest => do
    let (numeral, rest) ← digits? Char.isDigit rest
    return (Decimal.value numeral, rest)

/-- The least number that is nearer to the power of two above the floats than to any float. -/
def aboveFloats : Nat := (1 <<< 1024) - (1 <<< 970)

/-- A mantissa times a power of ten is above all floats. -/
def isAboveFloats (mantissa : Nat) (exponent : Int) : Bool :=
  let size : Int := (Decimal.digits mantissa).length + exponent
  mantissa ≠ 0 && (size > 310 ||
    (size > 300 &&
      mantissa * Nat.pow 10 exponent.toNat ≥ aboveFloats * Nat.pow 10 (-exponent).toNat))

/-- The exponent after a mantissa, if there is one. -/
def scaling? : List Char → Option (Int × List Char)
  | 'e' :: rest => exponent? rest
  | 'E' :: rest => exponent? rest
  | rest => some (0, rest)

/-- A letter that begins an exponent is at the front. -/
def isScaled : List Char → Bool
  | 'e' :: _ => true
  | 'E' :: _ => true
  | _ => false

/-- A decimal number after its sign. -/
def decimal? (negative : Bool) (characters : List Char) : Option (Toml × List Char) := do
  let (numeral, rest) ← integral? characters
  let float (fraction : List Char) (rest : List Char) : Option (Toml × List Char) := do
    let (exponent, rest) ← scaling? rest
    guard (negative || !isAboveFloats (Decimal.value (numeral ++ fraction)) (exponent - fraction.length))
    return (.float (String.ofList (characters.take (characters.length - rest.length))), rest)
  match rest with
  | '.' :: rest => do
    let (fraction, rest) ← digits? Char.isDigit rest
    float fraction rest
  | rest =>
    if isScaled rest then float [] rest
    else
      let value : Int := if negative then -(Decimal.value numeral : Int) else Decimal.value numeral
      if fits value then some (.integer value, rest) else none

/-- A number after its sign: infinity, none, or a decimal number. -/
def unsigned? (negative : Bool) : List Char → Option (Toml × List Char)
  | 'i' :: 'n' :: 'f' :: rest => some (.float "inf", rest)
  | 'n' :: 'a' :: 'n' :: rest => some (.float "nan", rest)
  | characters => decimal? negative characters

/-- A number; only one without sign may name its base. -/
def number? : List Char → Option (Toml × List Char)
  | '+' :: rest => unsigned? false rest
  | '-' :: rest => unsigned? true rest
  | '0' :: 'x' :: rest => based? 4 rest
  | '0' :: 'o' :: rest => based? 3 rest
  | '0' :: 'b' :: rest => based? 1 rest
  | characters => unsigned? false characters

/-! ### Moments -/

/-- Exactly two digits with a value within bounds. -/
def pair? (least most : Nat) (characters : List Char) : Option (List Char) := do
  let (value, rest) ← Decimal.take? 2 2 characters
  guard (least ≤ value ∧ value ≤ most)
  return rest

/-- The rest after a character. -/
def expect? (wanted : Char) : List Char → Option (List Char)
  | character :: rest => if character = wanted then some rest else none
  | [] => none

/-- The rest after a date that exists. -/
def date? (characters : List Char) : Option (List Char) := do
  let (year, rest) ← Decimal.take? 4 4 characters
  let rest ← expect? '-' rest
  let (month, rest) ← Decimal.take? 2 2 rest
  let rest ← expect? '-' rest
  let (day, rest) ← Decimal.take? 2 2 rest
  guard (⟨year, month, day⟩ : Calendar.Date).Valid
  return rest

/-- The rest after a time of day, whose last minute may have a leap second. -/
def time? (characters : List Char) : Option (List Char) := do
  let rest ← pair? 0 23 characters
  let rest ← expect? ':' rest
  let rest ← pair? 0 59 rest
  let rest ← expect? ':' rest
  let rest ← pair? 0 60 rest
  match rest with
  | '.' :: fraction =>
    if (fraction.takeWhile Char.isDigit).isEmpty then none
    else some (fraction.dropWhile Char.isDigit)
  | rest => some rest

/-- The rest after the distance from universal time, if it is given. -/
def offset? : List Char → Option (List Char)
  | 'Z' :: rest => some rest
  | 'z' :: rest => some rest
  | '+' :: rest => distance? rest
  | '-' :: rest => distance? rest
  | rest => some rest
where
  /-- The rest after hours and minutes. -/
  distance? (characters : List Char) : Option (List Char) := do
    let rest ← pair? 0 23 characters
    let rest ← expect? ':' rest
    pair? 0 59 rest

/-- The rest after the time that may follow a date. -/
def timeOfDate? (characters : List Char) : Option (List Char) :=
  match characters with
  | [] => some []
  | separator :: rest =>
    if separator = 'T' ∨ separator = 't' ∨ separator = ' ' then
      match time? rest with
      | some rest => offset? rest
      | none => some characters
    else some characters

/-- A date, a time of day, or both. -/
def moment? (characters : List Char) : Option (Toml × List Char) := do
  let rest ← (date? characters >>= timeOfDate?) <|> time? characters
  return (.moment (String.ofList (characters.take (characters.length - rest.length))), rest)

end Curation.Toml
