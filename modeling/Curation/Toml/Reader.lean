/-
**Reading TOML.** The grammar is version 1.0 of the format. Arrays and tables in braces lie at most
`deepest` deep in each other, and nothing is said twice about the same name.
-/

import Curation.Toml.Lexeme

namespace Curation.Toml

/-- How deep arrays and tables in braces may lie in each other. -/
def deepest : Nat := 79

mutual

/-- A value at the front, with the depth that is left for what is in it. -/
def value? : Nat → Nat → List Char → Option (Toml × List Char)
  | 0, _, _ => none
  | fuel + 1, depth, characters =>
    match characters with
    | '\x22' :: rest => do
      let (content, rest) ← text? '\x22' rest
      return (.text content, rest)
    | '\x27' :: rest => do
      let (content, rest) ← text? '\x27' rest
      return (.text content, rest)
    | '[' :: rest =>
      match depth with
      | 0 => none
      | depth + 1 => do
        let (elements, rest) ← elements? fuel depth (skipGaps false rest)
        return (.array elements, rest)
    | '\x7b' :: rest =>
      match depth with
      | 0 => none
      | depth + 1 =>
        match skipSpaces rest with
        | '\x7d' :: rest => some (.inline [], rest)
        | rest => do
          let (members, rest) ← members? fuel depth rest
          let table ← assembleInline? members
          return (.inline table, rest)
    | 't' :: 'r' :: 'u' :: 'e' :: rest => some (.bool true, rest)
    | 'f' :: 'a' :: 'l' :: 's' :: 'e' :: rest => some (.bool false, rest)
    | characters => moment? characters <|> number? characters

/-- The elements of an array and its closing bracket; a comma may follow the last one. -/
def elements? : Nat → Nat → List Char → Option (List Toml × List Char)
  | 0, _, _ => none
  | fuel + 1, depth, characters =>
    match characters with
    | ']' :: rest => some ([], rest)
    | characters => do
      let (first, rest) ← value? fuel depth characters
      match skipGaps false rest with
      | ',' :: rest => do
        let (others, rest) ← elements? fuel depth (skipGaps false rest)
        return (first :: others, rest)
      | ']' :: rest => some ([first], rest)
      | _ => none

/-- The members of a table in braces and its closing brace, all on one line. -/
def members? : Nat → Nat → List Char → Option (List (Name × Toml) × List Char)
  | 0, _, _ => none
  | fuel + 1, depth, characters => do
    let (name, rest) ← name? characters
    let rest ← expect? '=' rest
    let (value, rest) ← value? fuel depth (skipSpaces rest)
    match skipSpaces rest with
    | ',' :: rest => do
      let (others, rest) ← members? fuel depth rest
      return ((name, value) :: others, rest)
    | '\x7d' :: rest => some ([(name, value)], rest)
    | _ => none

end

/-- A member on a line of its own. -/
def memberLine? (characters : List Char) : Option (Line × List Char) := do
  let (name, rest) ← name? characters
  let rest ← expect? '=' rest
  let (value, rest) ← value? (2 * rest.length + 2) deepest (skipSpaces rest)
  return (.member name value, rest)

/-- A line that says something, up to what may follow on it. -/
def statement? : List Char → Option (Line × List Char)
  | '[' :: '[' :: rest => do
    let (name, rest) ← name? rest
    let rest ← expect? ']' rest
    let rest ← expect? ']' rest
    return (.element name, rest)
  | '[' :: rest => do
    let (name, rest) ← name? rest
    let rest ← expect? ']' rest
    return (.header name, rest)
  | characters => memberLine? characters

/-- The lines of a document that say something. -/
def lines? : Nat → List Char → Option (List Line)
  | 0, _ => none
  | fuel + 1, characters =>
    match skipComment (skipSpaces characters) with
    | [] => some []
    | rest =>
      match newline? rest with
      | some rest => lines? fuel rest
      | none => do
        let (first, rest) ← statement? (skipSpaces characters)
        let rest ← lineEnd? rest
        let others ← lines? fuel rest
        return first :: others

/-- Reads a document; a byte order mark may stand in front. -/
def ofText? (written : String) : Option Table := do
  let characters :=
    match written.toList with
    | '\ufeff' :: rest => rest
    | characters => characters
  let lines ← lines? (characters.length + 1) characters
  assemble? lines

end Curation.Toml
