/-
**TOML documents.** A document is a table of named values. Tables come from headers, from dotted
names and from values in braces, and which of them may still be added to depends on where they come
from.

* `Toml.Table.insert?`: a line adds a member, and no member is given twice;
* `Toml.Table.openTable?`, `Toml.Table.openElement?`: a header opens a table or the next table of a
  list of tables.
-/

namespace Curation

/-- Where a table comes from. -/
inductive Toml.Origin where
  /-- A header of its own, which may appear only once. -/
  | header
  /-- The header of a table inside it; it may still get a header of its own. -/
  | implied
  /-- A dotted name; other dotted names may add to it. -/
  | dotted
deriving DecidableEq

/-- A value. Floats and moments are kept as they are written; `inline` is a table in braces. -/
inductive Toml where
  | text (content : String)
  | integer (value : Int)
  | float (written : String)
  | bool (value : Bool)
  | moment (written : String)
  | array (elements : List Toml)
  | inline (members : List (String × Toml))
  | table (origin : Toml.Origin) (members : List (String × Toml))
  | tables (elements : List (List (String × Toml)))

namespace Toml

/-- The members of a table, in the order in which they were added. -/
abbrev Table := List (String × Toml)

/-- A name with the names of the tables that it is in. -/
structure Name where
  path : List String
  last : String
deriving DecidableEq

namespace Table

/-- The member of a table with a name. -/
def find? (name : String) (members : Table) : Option Toml :=
  (List.find? (fun member => member.1 = name) members).map Prod.snd

/-- Gives a member another value. -/
def replace (name : String) (value : Toml) (members : Table) : Table :=
  members.map fun member => if member.1 = name then (name, value) else member

/-- Adds a member below some dotted names. Only tables that dotted names made take members from
them, and only tables that have no header lie on the way. -/
def insertBelow? (name : String) (value : Toml) : List String → Bool → Table → Option Table
  | [], writable, members =>
    if writable && (members.find? name).isNone then some (members ++ [(name, value)]) else none
  | first :: path, _, members =>
    match members.find? first with
    | none => do
      let inner ← insertBelow? name value path true []
      return members ++ [(first, .table .dotted inner)]
    | some (.table origin inner) =>
      if origin = .header then none
      else do
        let inner ← insertBelow? name value path (origin = .dotted) inner
        return members.replace first (.table origin inner)
    | some (.tables elements) => do
      let inner ← insertBelow? name value path false (elements.getLastD [])
      return members.replace first (.tables (elements.dropLast ++ [inner]))
    | some _ => none

/-- Adds a member of a table. -/
def insert? (name : Name) (value : Toml) (members : Table) : Option Table :=
  insertBelow? name.last value name.path true members

/-- Changes the table that the names in a header lead to; the tables that are missing are implied,
and a list of tables leads to its last one. -/
def changeAt? (change : Table → Option Table) : List String → Table → Option Table
  | [], members => change members
  | first :: path, members =>
    match members.find? first with
    | none => do
      let inner ← changeAt? change path []
      return members ++ [(first, .table .implied inner)]
    | some (.table origin inner) => do
      let inner ← changeAt? change path inner
      return members.replace first (.table origin inner)
    | some (.tables elements) => do
      let inner ← changeAt? change path (elements.getLastD [])
      return members.replace first (.tables (elements.dropLast ++ [inner]))
    | some _ => none

/-- Opens the table of a header: a new one, or one that was only implied. -/
def openTable? (name : Name) (members : Table) : Option Table :=
  members.changeAt? (fun members =>
    match members.find? name.last with
    | none => some (members ++ [(name.last, .table .header [])])
    | some (.table .implied inner) => some (members.replace name.last (.table .header inner))
    | some _ => none) name.path

/-- Opens the next table of a list of tables. -/
def openElement? (name : Name) (members : Table) : Option Table :=
  members.changeAt? (fun members =>
    match members.find? name.last with
    | none => some (members ++ [(name.last, .tables [[]])])
    | some (.tables elements) => some (members.replace name.last (.tables (elements ++ [[]])))
    | some _ => none) name.path

end Table

/-- A line of a document that says something. -/
inductive Line where
  | member (name : Name) (value : Toml)
  | header (name : Name)
  | element (name : Name)

/-- Adds what the lines say, the first ones below the table with the given names. -/
def assembleBelow? : List String → List Line → Table → Option Table
  | _, [], document => some document
  | place, .member name value :: lines, document => do
    let document ← document.changeAt? (Table.insert? name value) place
    assembleBelow? place lines document
  | _, .header name :: lines, document => do
    let document ← document.openTable? name
    assembleBelow? (name.path ++ [name.last]) lines document
  | _, .element name :: lines, document => do
    let document ← document.openElement? name
    assembleBelow? (name.path ++ [name.last]) lines document

/-- The table that some lines describe. -/
def assemble? (lines : List Line) : Option Table := assembleBelow? [] lines []

/-- The table that the members in braces describe. -/
def assembleInline? (members : List (Name × Toml)) : Option Table :=
  members.foldlM (fun members (name, value) => Table.insert? name value members) []

end Toml

end Curation
