/-
**JSON documents.** A document is a tree. A number that is no plain integer keeps its text, and a
text that escapes half of a surrogate pair has no characters; the members of an object stay in the
order in which they were written, repeated names included.
-/

namespace Curation

/-- A JSON document. -/
inductive Json where
  | null
  | bool (value : Bool)
  | integer (value : Int)
  | number (written : String)
  | string (content : Option String)
  | array (elements : List Json)
  | object (members : List (Option String × Json))

namespace Json

instance : Inhabited Json := ⟨.null⟩

/-- The document of a text. -/
def text (content : String) : Json := .string (some content)

/-- The document of an object whose names are texts. -/
def record (members : List (String × Json)) : Json :=
  .object (members.map fun (name, value) => (some name, value))

/-- The text that a document is. -/
def text? : Json → Option String
  | .string content => content
  | _ => none

/-- The integer that a document is. -/
def integer? : Json → Option Int
  | .integer value => some value
  | _ => none

/-- The truth value that a document is. -/
def bool? : Json → Option Bool
  | .bool value => some value
  | _ => none

/-- The elements of an array. -/
def array? : Json → Option (List Json)
  | .array elements => some elements
  | _ => none

/-- The first member of an object with a name. -/
def member? (name : String) : Json → Option Json
  | .object members => (members.find? fun member => member.1 = some name).map Prod.snd
  | _ => none

/-- The first member of an object with a name, unless it is null. -/
def given? (name : String) (json : Json) : Option Json :=
  match json.member? name with
  | some .null => none
  | found => found

end Json

end Curation
