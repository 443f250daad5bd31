/-
**Changing documents.** A document can be laid over another, its members can be put into the order of
their names, and its texts can be exchanged.
-/

import Curation.Json
import Curation.Ordering

namespace Curation.Json

/-! ### Laying one document over another -/

mutual

/-- The first document with what the second gives in its place; an object keeps its own members, and
takes no others. -/
def overlay : Json → Json → Json
  | .object members, .object others => .object (overlayMembers members others)
  | .object _, given => given
  | .null, given => given
  | .bool _, given => given
  | .integer _, given => given
  | .number _, given => given
  | .string _, given => given
  | .array _, given => given

/-- The members of an object with what others of the same names give in their place. -/
def overlayMembers : List (Option String × Json) → List (Option String × Json) →
    List (Option String × Json)
  | [], _ => []
  | (name, base) :: rest, others =>
    match others.find? fun other => other.1 = name with
    | some (_, given) => (name, overlay base given) :: overlayMembers rest others
    | none => (name, base) :: overlayMembers rest others

end

/-! ### The order of members -/

/-- The members of an object, ordered by their names. -/
def sortMembers (members : List (Option String × Json)) : List (Option String × Json) :=
  sortBy (fun first second => first.1.getD "" ≤ second.1.getD "") members

mutual

/-- A document with the members of all its objects ordered by their names. -/
def sorted : Json → Json
  | .array elements => .array (sortedElements elements)
  | .object members => .object (sortMembers (sortedMembers members))
  | .null => .null
  | .bool value => .bool value
  | .integer value => .integer value
  | .number written => .number written
  | .string content => .string content

/-- Some documents with ordered members. -/
def sortedElements : List Json → List Json
  | [] => []
  | first :: rest => sorted first :: sortedElements rest

/-- Some members with documents whose members are ordered. -/
def sortedMembers : List (Option String × Json) → List (Option String × Json)
  | [] => []
  | (name, json) :: rest => (name, sorted json) :: sortedMembers rest

end

/-! ### The texts of a document -/

variable {m : Type → Type} [Monad m]

mutual

/-- Exchanges the texts of a document, from the first to the last; names are kept. -/
def mapTexts (change : String → m String) : Json → m Json
  | .string (some content) => do return .text (← change content)
  | .array elements => do return .array (← mapElements change elements)
  | .object members => do return .object (← mapMembers change members)
  | .string none => pure (.string none)
  | .null => pure .null
  | .bool value => pure (.bool value)
  | .integer value => pure (.integer value)
  | .number written => pure (.number written)

/-- Exchanges the texts of some documents. -/
def mapElements (change : String → m String) : List Json → m (List Json)
  | [] => pure []
  | first :: rest => do
    let first ← mapTexts change first
    return first :: (← mapElements change rest)

/-- Exchanges the texts in some members. -/
def mapMembers (change : String → m String) :
    List (Option String × Json) → m (List (Option String × Json))
  | [] => pure []
  | (name, json) :: rest => do
    let json ← mapTexts change json
    return (name, json) :: (← mapMembers change rest)

end

end Curation.Json
