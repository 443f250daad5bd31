/-
**Portable data.** What is stored or sent is first made into a datum, which knows nothing of the
format it will be written in. A shape tells which data are expected, so that one reader for each
format serves every type.

* `Datum`: the data;
* `Shape`: what is expected, with the values of members that may be left out.
-/

import Curation.Identity.Uuid
import Curation.Instant

namespace Curation

/-- Portable data. -/
inductive Datum where
  | null
  | bool (value : Bool)
  | integer (value : Int)
  | text (content : String)
  | id (uuid : Uuid)
  | instant (instant : Instant)
  | list (elements : List Datum)
  /-- The members of a record in the order of its declaration. -/
  | record (members : List (String × Datum))
  /-- One of several alternatives, without anything attached. -/
  | word (name : String)
  /-- One of several alternatives, with what is attached to it. -/
  | variant (name : String) (payload : Datum)

instance : Inhabited Datum := ⟨.null⟩

mutual

/-- What is expected of a datum. -/
inductive Shape where
  | bool
  | integer (least most : Int)
  | text
  | id
  | instant
  | optional (inner : Shape)
  | list (element : Shape)
  /-- A record; one that may be short can be cut off after any member when read by position. -/
  | record (mayBeShort : Bool) (fields : Fields)
  | choice (cases : Cases)

/-- The members of a record, each with its name, its shape and its value when it is left out. -/
inductive Fields where
  | nil
  | cons (name : String) (shape : Shape) (absent : Option Datum) (rest : Fields)

/-- The alternatives of a choice, with or without something attached. -/
inductive Cases where
  | nil
  | word (name : String) (rest : Cases)
  | variant (name : String) (payload : Shape) (rest : Cases)

end

namespace Fields

/-- A member that must be there. -/
def required (name : String) (shape : Shape) (rest : Fields) : Fields := .cons name shape none rest

/-- A member that may be null, and is null when it is left out. -/
def possible (name : String) (inner : Shape) (rest : Fields) : Fields :=
  .cons name (.optional inner) (some .null) rest

/-- The names of the members. -/
def names : Fields → List String
  | .nil => []
  | .cons name _ _ rest => name :: rest.names

/-- The fields that a list stands for, in its order. -/
def ofList : List (String × Shape × Option Datum) → Fields
  | [] => .nil
  | (name, shape, absent) :: rest => .cons name shape absent (ofList rest)

/-- The fields of two lists, one after the other. -/
def append : Fields → Fields → Fields
  | .nil, others => others
  | .cons name shape absent rest, others => .cons name shape absent (rest.append others)

end Fields

namespace Cases

/-- The names of the alternatives. -/
def names : Cases → List String
  | .nil => []
  | .word name rest => name :: rest.names
  | .variant name _ rest => name :: rest.names

/-- Alternatives with nothing attached. -/
def ofWords : List String → Cases
  | [] => .nil
  | name :: rest => .word name (ofWords rest)

end Cases

/-- A type whose values are portable. -/
class Portable (α : Type) where
  shape : Shape
  toDatum : α → Datum
  ofDatum? : Datum → Option α

end Curation
