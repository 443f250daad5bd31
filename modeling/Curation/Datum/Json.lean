/-
**Portable data in JSON.** Records are objects, alternatives with nothing attached are texts, and
others are objects with one member. Identifiers and instants are written as texts.

The reader is more lenient than the writer: the members of a record may come in any order or, in an
array, by position; unknown members are ignored; and an alternative with nothing attached may be
given as an object with the member null.
-/

import Curation.Datum
import Curation.Instant.Text
import Curation.Json.Printer
import Curation.Json.Reader

namespace Curation

/-! ### Writing -/

mutual

/-- The document of a datum. -/
def Datum.toJson : Datum → Json
  | .null => .null
  | .bool value => .bool value
  | .integer value => .integer value
  | .text content => .text content
  | .id uuid => .text uuid.toText
  | .instant moment => .text moment.toText
  | .list elements => .array (Datum.elementsToJson elements)
  | .record members => .object (Datum.membersToJson members)
  | .word name => .text name
  | .variant name payload => .object [(some name, payload.toJson)]

/-- The documents of some data. -/
def Datum.elementsToJson : List Datum → List Json
  | [] => []
  | first :: rest => first.toJson :: Datum.elementsToJson rest

/-- The members of a record's document. -/
def Datum.membersToJson : List (String × Datum) → List (Option String × Json)
  | [] => []
  | (name, value) :: rest => (some name, value.toJson) :: Datum.membersToJson rest

end

/-! ### Reading -/

/-- The members of an object may be those of a record: every name is a text, and no known name comes
twice. -/
def Fields.allow (fields : Fields) (members : List (Option String × Json)) : Bool :=
  members.all (fun member => member.1.isSome) &&
    fields.names.all fun name => members.countP (fun member => member.1 = some name) ≤ 1

mutual

/-- Reads a datum of a shape from a document. -/
def Shape.ofJson? : Shape → Json → Option Datum
  | .bool, .bool value => some (.bool value)
  | .integer least most, .integer value =>
    if least ≤ value ∧ value ≤ most then some (.integer value) else none
  | .text, .string (some content) => some (.text content)
  | .id, .string (some content) => (Uuid.ofText? content).map .id
  | .instant, .string (some content) => (Instant.ofText? content).map .instant
  | .optional _, .null => some .null
  | .optional inner, json => inner.ofJson? json
  | .list element, .array elements => (elements.mapM element.ofJson?).map .list
  | .record _ fields, .object members =>
    if fields.allow members then (fields.ofMembers? members).map .record else none
  | .record mayBeShort fields, .array elements =>
    (fields.ofElements? mayBeShort elements).map .record
  | .choice cases, .string (some name) => cases.ofName? name
  | .choice cases, .object [(some name, payload)] => cases.ofMember? name payload
  | _, _ => none

/-- Reads the members of a record from those of an object. -/
def Fields.ofMembers? : Fields → List (Option String × Json) → Option (List (String × Datum))
  | .nil, _ => some []
  | .cons name shape absent rest, members => do
    let value ←
      match members.find? fun member => member.1 = some name with
      | some (_, json) => shape.ofJson? json
      | none => absent
    let others ← rest.ofMembers? members
    return (name, value) :: others

/-- Reads the members of a record by position. -/
def Fields.ofElements? (mayBeShort : Bool) : Fields → List Json → Option (List (String × Datum))
  | .nil, [] => some []
  | .nil, _ :: _ => none
  | .cons name shape _ rest, json :: elements => do
    let value ← shape.ofJson? json
    let others ← rest.ofElements? mayBeShort elements
    return (name, value) :: others
  | .cons name _ absent rest, [] => do
    guard mayBeShort
    let value ← absent
    let others ← rest.ofElements? mayBeShort []
    return (name, value) :: others

/-- The alternative of a name that has nothing attached. -/
def Cases.ofName? : Cases → String → Option Datum
  | .nil, _ => none
  | .word name rest, given => if name = given then some (.word name) else rest.ofName? given
  | .variant name _ rest, given => if name = given then none else rest.ofName? given

/-- The alternative of a name, given with what is attached. -/
def Cases.ofMember? : Cases → String → Json → Option Datum
  | .nil, _, _ => none
  | .word name rest, given, json =>
    if name = given then
      match json with
      | .null => some (.word name)
      | _ => none
    else rest.ofMember? given json
  | .variant name payload rest, given, json =>
    if name = given then (payload.ofJson? json).map (.variant name) else rest.ofMember? given json

end

/-! ### Portable types -/

namespace Portable

variable {α : Type} [Portable α]

/-- The document of a value. -/
def toJson (value : α) : Json := (toDatum value).toJson

/-- The JSON text of a value. -/
def toJsonText (value : α) : String := (toJson value).toText

/-- The value of a document. -/
def ofJson? (json : Json) : Option α := ((shape α).ofJson? json).bind ofDatum?

/-- The value of a JSON text. -/
def ofJsonText? (written : String) : Option α := (Json.ofText? written).bind ofJson?

end Portable

end Curation
