/-
**Names of savepoints.** A savepoint is named by a text, which stands as it is in the commands that set
it, release it and go back to it. A text is one name if it is a word that is not reserved, or if it
stands between quotation marks; blanks around it do not count. A comment may follow the name: it takes
in all that comes after it on the line, and so the rest of the commands.

* `SavepointName`: a text that is one name, with the name that it stands for;
* `SavepointName.Mention`: a name by itself, or with a comment.

What a text makes of a command that is neither is not said here.
-/

namespace Curation

namespace SavepointName

/-- The blanks that may stand around a name. -/
def isGap (character : Char) : Bool :=
  character = ' ' || character = '\x09' || character = '\x0a' || character = '\x0c' ||
    character = '\x0d'

/-- The mark that closes what a mark opens. -/
def closing? (mark : Char) : Option Char :=
  if mark = '[' then some ']'
  else if mark = '\x22' ∨ mark = '\x27' ∨ mark = '\x60' then some mark
  else none

/-- The characters before a closing mark, which comes last. Between marks that are alike two of them
stand for one. -/
def quoted? (mark : Char) : List Char → Option (List Char)
  | [] => none
  | [last] => if last = mark then some [] else none
  | first :: second :: rest =>
    if first = mark then
      if second = mark ∧ mark ≠ ']' then (quoted? mark rest).map fun others => mark :: others
      else none
    else if first = '\x00' then none
    else (quoted? mark (second :: rest)).map fun others => first :: others

/-- The words that are no names. The last is one where a savepoint is set, but not where it is released
or gone back to: there it is read as a part of the command. -/
def reserved : List String :=
  ["ADD", "ALL", "ALTER", "AND", "AS", "AUTOINCREMENT", "BETWEEN", "CASE", "CHECK", "COLLATE",
    "COMMIT", "CONSTRAINT", "CREATE", "DEFAULT", "DEFERRABLE", "DELETE", "DISTINCT", "DROP", "ELSE",
    "ESCAPE", "EXCEPT", "EXISTS", "FOREIGN", "FROM", "GROUP", "HAVING", "IN", "INDEX", "INSERT",
    "INTERSECT", "INTO", "IS", "ISNULL", "JOIN", "LIMIT", "NOT", "NOTHING", "NOTNULL", "NULL", "ON",
    "OR", "ORDER", "PRIMARY", "REFERENCES", "RETURNING", "SELECT", "SET", "TABLE", "THEN", "TO",
    "TRANSACTION", "UNION", "UNIQUE", "UPDATE", "USING", "VALUES", "WHEN", "WHERE", "SAVEPOINT"]

/-- A word is reserved, in letters of either case. -/
def isReserved (word : List Char) : Bool :=
  reserved.any fun kept => kept.toList = word.map Char.toUpper

/-- A word may begin with a character; a byte order mark there would be a blank. -/
def startsWord (character : Char) : Bool :=
  character.isAlpha || character = '_' || (0x80 ≤ character.toNat && character ≠ '\ufeff')

/-- A word may go on with a character. -/
def continuesWord (character : Char) : Bool :=
  character.isAlphanum || character = '_' || character = '$' || 0x80 ≤ character.toNat

/-- Some characters are a word that is not reserved. -/
def isWord : List Char → Bool
  | [] => false
  | first :: rest => startsWord first && rest.all continuesWord && !isReserved (first :: rest)

/-- The name that a text stands for, if it is one name. -/
def nameOf? (written : String) : Option String :=
  match ((written.toList.dropWhile isGap).reverse.dropWhile isGap).reverse with
  | [] => none
  | first :: rest =>
    match closing? first with
    | some mark => (quoted? mark rest).map String.ofList
    | none => if isWord (first :: rest) then some (String.ofList (first :: rest)) else none

end SavepointName

/-- A text that is one name, and that name. -/
structure SavepointName where
  written : String
  name : String
  reads : SavepointName.nameOf? written = some name
deriving DecidableEq

namespace SavepointName

/-- The name that a text is known to be. -/
def of (written : String) (reads : (nameOf? written).isSome = true) : SavepointName :=
  ⟨written, (nameOf? written).get reads, (Option.some_get reads).symm⟩

/-- Reads a text as one name. -/
def ofText? (written : String) : Option SavepointName :=
  match reads : nameOf? written with
  | some name => some ⟨written, name, reads⟩
  | none => none

theorem ofText?_written (name : SavepointName) : ofText? name.written = some name := by
  obtain ⟨written, spelt, reads⟩ := name
  unfold ofText?
  split
  next other same =>
    cases Option.some.inj (same.symm.trans reads)
    rfl
  next missing => cases missing.symm.trans reads

example : nameOf? " \x22a \x22\x22 b\x22 " = some "a \x22 b" := by decide
example : nameOf? "select" = none := by decide

/-- What a text says of a savepoint: its name, by itself or with a comment. -/
inductive Mention where
  | alone (name : SavepointName)
  | withComment (name : SavepointName)

/-- The name that is mentioned. -/
def Mention.name : Mention → SavepointName
  | .alone name => name
  | .withComment name => name

/-- Where a comment ends: a text with such a character is not read as a name and a comment. -/
def endsComment (character : Char) : Bool := character = '\x0a' || character = '\x00'

/-- The name that stands before a comment without an end; `seen` are the characters before the others,
the last of them first. -/
def beforeComment? (seen : List Char) : List Char → Option SavepointName
  | [] => none
  | first :: rest =>
    if first = '-' ∧ rest.head? = some '-' then
      match ofText? (String.ofList seen.reverse) with
      | some name => if (seen ++ rest).any endsComment then none else some name
      | none => beforeComment? (first :: seen) rest
    else beforeComment? (first :: seen) rest

/-- Reads what a text says of a savepoint. -/
def Mention.ofText? (written : String) : Option Mention :=
  match SavepointName.ofText? written with
  | some name => some (.alone name)
  | none => (beforeComment? [] written.toList).map .withComment

theorem Mention.ofText?_written (name : SavepointName) :
    Mention.ofText? name.written = some (.alone name) := by
  rw [Mention.ofText?, SavepointName.ofText?_written]

end SavepointName

end Curation
