/-
**Reading JSON.** The grammar is the standard one: no comments, no trailing commas, no leading zeros
and no control characters in texts. Blanks are the space, the tab, the line feed and the carriage
return, and nothing but blanks may follow the document.
-/

import Curation.Json
import Curation.Text.Decimal
import Curation.Text.Hex

namespace Curation.Json

open Curation.Text

/-- The characters that may stand between the parts of a document. -/
def isSpace (character : Char) : Bool :=
  character = ' ' || character = '\x09' || character = '\x0a' || character = '\x0d'

/-- The characters after leading blanks. -/
def skipSpaces (characters : List Char) : List Char := characters.dropWhile isSpace

/-! ### Texts -/

/-- The code unit that four hexadecimal digits spell. -/
def codeUnit? : List Char → Option (Nat × List Char)
  | first :: second :: third :: fourth :: rest => do
    let first ← Hex.value? first
    let second ← Hex.value? second
    let third ← Hex.value? third
    let fourth ← Hex.value? fourth
    return (((first * 16 + second) * 16 + third) * 16 + fourth, rest)
  | _ => none

/-- A code unit that begins a surrogate pair. -/
def isLeading (unit : Nat) : Bool := 0xD800 ≤ unit && unit < 0xDC00

/-- A code unit that ends a surrogate pair. -/
def isTrailing (unit : Nat) : Bool := 0xDC00 ≤ unit && unit < 0xE000

/-- The character of a surrogate pair. -/
def ofPair (leading trailing : Nat) : Char :=
  Char.ofNat (0x10000 + (leading - 0xD800) * 1024 + (trailing - 0xDC00))

/-- The character that a letter after a backslash stands for. -/
def escaped? (letter : Char) : Option Char :=
  if letter = '\x22' then some '\x22'
  else if letter = '\x5c' then some '\x5c'
  else if letter = '/' then some '/'
  else if letter = 'b' then some '\x08'
  else if letter = 'f' then some '\x0c'
  else if letter = 'n' then some '\x0a'
  else if letter = 'r' then some '\x0d'
  else if letter = 't' then some '\x09'
  else none

/-- The trailing half of a surrogate pair at the front. -/
def trailing? : List Char → Option (Nat × List Char)
  | '\x5c' :: 'u' :: rest => do
    let (unit, rest) ← codeUnit? rest
    guard (isTrailing unit)
    return (unit, rest)
  | _ => none

/-- The rest of a text after its opening quotation mark. The text has no characters if one of its
surrogates has no partner. -/
def content? : Nat → List Char → Option (Option (List Char) × List Char)
  | 0, _ => none
  | _ + 1, [] => none
  | fuel + 1, character :: rest =>
    if character = '\x22' then some (some [], rest)
    else if character = '\x5c' then
      match rest with
      | 'u' :: digits => do
        let (unit, rest) ← codeUnit? digits
        if isLeading unit then
          match trailing? rest with
          | some (partner, rest) => do
            let (content, rest) ← content? fuel rest
            return (content.map (ofPair unit partner :: ·), rest)
          | none => do
            let (_, rest) ← content? fuel rest
            return (none, rest)
        else do
          let (content, rest) ← content? fuel rest
          return (if isTrailing unit then none else content.map (Char.ofNat unit :: ·), rest)
      | letter :: rest => do
        let character ← escaped? letter
        let (content, rest) ← content? fuel rest
        return (content.map (character :: ·), rest)
      | [] => none
    else if character.toNat < 32 then none
    else do
      let (content, rest) ← content? fuel rest
      return (content.map (character :: ·), rest)

/-- The rest of a text after its opening quotation mark, as a string. -/
def string? (characters : List Char) : Option (Option String × List Char) := do
  let (content, rest) ← content? (characters.length + 1) characters
  return (content.map String.ofList, rest)

/-! ### Numbers -/

/-- The integral part of a number: zero, or digits that do not begin with zero. -/
def integral? (characters : List Char) : Option (List Char × List Char) :=
  match characters with
  | '0' :: rest =>
    if (rest.head?.map Char.isDigit).getD false then none else some (['0'], rest)
  | _ =>
    let numeral := characters.takeWhile Char.isDigit
    if numeral.isEmpty then none else some (numeral, characters.dropWhile Char.isDigit)

/-- The fraction of a number, if it has one, with its point. -/
def fraction? : List Char → Option (List Char × List Char)
  | '.' :: rest =>
    let numeral := rest.takeWhile Char.isDigit
    if numeral.isEmpty then none else some ('.' :: numeral, rest.dropWhile Char.isDigit)
  | rest => some ([], rest)

/-- The exponent of a number, if it has one, with its letter. -/
def exponent? : List Char → Option (List Char × List Char)
  | letter :: rest =>
    if letter = 'e' ∨ letter = 'E' then
      let (sign, rest) : List Char × List Char :=
        match rest with
        | '+' :: rest => (['+'], rest)
        | '-' :: rest => (['-'], rest)
        | rest => ([], rest)
      let numeral := rest.takeWhile Char.isDigit
      if numeral.isEmpty then none
      else some (letter :: sign ++ numeral, rest.dropWhile Char.isDigit)
    else some ([], letter :: rest)
  | [] => some ([], [])

/-- A number: an integer if it has neither fraction nor exponent and is not minus zero. -/
def number? (characters : List Char) : Option (Json × List Char) := do
  let (sign, rest) : List Char × List Char :=
    match characters with
    | '-' :: rest => (['-'], rest)
    | rest => ([], rest)
  let (numeral, rest) ← integral? rest
  let (fraction, rest) ← fraction? rest
  let (exponent, rest) ← exponent? rest
  if fraction.isEmpty && exponent.isEmpty && (sign.isEmpty || numeral != ['0']) then
    let magnitude : Int := Decimal.value numeral
    return (.integer (if sign.isEmpty then magnitude else -magnitude), rest)
  else
    return (.number (String.ofList (sign ++ numeral ++ fraction ++ exponent)), rest)

/-! ### Documents -/

mutual

/-- A document at the front, after any blanks. -/
def value? : Nat → List Char → Option (Json × List Char)
  | 0, _ => none
  | fuel + 1, characters =>
    match skipSpaces characters with
    | '[' :: rest =>
      match skipSpaces rest with
      | ']' :: rest => some (.array [], rest)
      | rest => do
        let (elements, rest) ← elements? fuel rest
        return (.array elements, rest)
    | '\x7b' :: rest =>
      match skipSpaces rest with
      | '\x7d' :: rest => some (.object [], rest)
      | rest => do
        let (members, rest) ← members? fuel rest
        return (.object members, rest)
    | '\x22' :: rest => do
      let (content, rest) ← string? rest
      return (.string content, rest)
    | 'n' :: 'u' :: 'l' :: 'l' :: rest => some (.null, rest)
    | 't' :: 'r' :: 'u' :: 'e' :: rest => some (.bool true, rest)
    | 'f' :: 'a' :: 'l' :: 's' :: 'e' :: rest => some (.bool false, rest)
    | rest => number? rest

/-- The elements of an array and its closing bracket. -/
def elements? : Nat → List Char → Option (List Json × List Char)
  | 0, _ => none
  | fuel + 1, characters => do
    let (first, rest) ← value? fuel characters
    match skipSpaces rest with
    | ',' :: rest => do
      let (others, rest) ← elements? fuel rest
      return (first :: others, rest)
    | ']' :: rest => some ([first], rest)
    | _ => none

/-- The members of an object and its closing brace. -/
def members? : Nat → List Char → Option (List (Option String × Json) × List Char)
  | 0, _ => none
  | fuel + 1, characters =>
    match skipSpaces characters with
    | '\x22' :: rest => do
      let (name, rest) ← string? rest
      match skipSpaces rest with
      | ':' :: rest => do
        let (value, rest) ← value? fuel rest
        match skipSpaces rest with
        | ',' :: rest => do
          let (others, rest) ← members? fuel rest
          return ((name, value) :: others, rest)
        | '\x7d' :: rest => some ([(name, value)], rest)
        | _ => none
      | _ => none
    | _ => none

end

/-- Reads a document. -/
def ofChars? (characters : List Char) : Option Json := do
  let (json, rest) ← value? (2 * characters.length + 2) characters
  guard (skipSpaces rest = [])
  return json

/-- Reads a document. -/
def ofText? (written : String) : Option Json := ofChars? written.toList

end Curation.Json
