/-
**Writing JSON.** Documents are written without blanks. In a text only the quotation mark, the
backslash and the control characters below U+0020 are escaped, five of them by a letter.
-/

import Curation.Json
import Curation.Text.Decimal
import Curation.Text.Hex

namespace Curation.Json

open Curation.Text

/-- How a character is written in a text. -/
def escape (character : Char) : List Char :=
  if character = '\x22' then ['\x5c', '\x22']
  else if character = '\x5c' then ['\x5c', '\x5c']
  else if character = '\x08' then ['\x5c', 'b']
  else if character = '\x0c' then ['\x5c', 'f']
  else if character = '\x0a' then ['\x5c', 'n']
  else if character = '\x0d' then ['\x5c', 'r']
  else if character = '\x09' then ['\x5c', 't']
  else if character.toNat < 32 then
    ['\x5c', 'u', '0', '0', Hex.digit (character.toNat / 16), Hex.digit (character.toNat % 16)]
  else [character]

/-- A text between quotation marks. -/
def quoted (content : List Char) : List Char :=
  '\x22' :: content.flatMap escape ++ ['\x22']

/-- A text that may have no characters between quotation marks. -/
def quotedText (content : Option String) : List Char := quoted (content.getD "").toList

mutual

/-- The characters of a document. -/
def print : Json → List Char
  | .null => ['n', 'u', 'l', 'l']
  | .bool true => ['t', 'r', 'u', 'e']
  | .bool false => ['f', 'a', 'l', 's', 'e']
  | .integer value => Decimal.signed value
  | .number written => written.toList
  | .string content => quotedText content
  | .array [] => ['[', ']']
  | .array (first :: rest) => '[' :: print first ++ printElements rest
  | .object [] => ['\x7b', '\x7d']
  | .object ((name, value) :: rest) =>
    '\x7b' :: quotedText name ++ ':' :: print value ++ printMembers rest

/-- The characters of the elements after the first, and of the closing bracket. -/
def printElements : List Json → List Char
  | [] => [']']
  | first :: rest => ',' :: print first ++ printElements rest

/-- The characters of the members after the first, and of the closing brace. -/
def printMembers : List (Option String × Json) → List Char
  | [] => ['\x7d']
  | (name, value) :: rest => ',' :: quotedText name ++ ':' :: print value ++ printMembers rest

end

/-- The text of a document. -/
def toText (json : Json) : String := String.ofList json.print

end Curation.Json
