/-
**What a submitter asks for.** A request leaves a field untouched, clears it or gives it a value.
Measured against the record as it stands, the requests become the two sides of an edit.

* `Request.compare`: the value found and the value proposed, both absent where nothing changes;
* `Input.diff`: the change that an input asks for.
-/

import Curation.Proposal.Change

namespace Curation

/-- What is asked for one field. -/
inductive Request (α : Type) where
  | untouched
  | cleared
  | value (wanted : α)
deriving DecidableEq

namespace Request

variable {α : Type}

/-- The value that is asked for, if one is. -/
def value? : Request α → Option α
  | .value wanted => some wanted
  | _ => none

/-- A request for a value that is not admitted asks for nothing. -/
def admitted (admits : α → Bool) : Request α → Request α
  | .value wanted => if admits wanted then .value wanted else .untouched
  | request => request

/-- The value found and the value proposed; both are absent where nothing changes. -/
def difference [DecidableEq α] (request : Request α) (current : Option α) :
    Option α × Option α :=
  match request with
  | .untouched => (none, none)
  | .cleared => (current, none)
  | .value wanted => if current = some wanted then (none, none) else (current, some wanted)

/-- The difference where values that are not admitted count as absent. -/
def compare [DecidableEq α] (admits : α → Bool) (request : Request α) (current : Option α) :
    Option α × Option α :=
  (request.admitted admits).difference (current.filter admits)

end Request

/-- The values that a field admits: any, unless its words are fixed. -/
def Field.admits {kind : Kind} (field : Field kind) : field.Carrier → Bool :=
  match field with
  | .gender => within .gender
  | .ethnicity => within .ethnicity
  | .eyeColor => within .eyeColor
  | .hairColor => within .hairColor
  | _ => fun _ => true
where
  /-- A text is one of the words of a field. -/
  within (field : Field .performer) (text : String) : Bool :=
    (field.words?.getD []).contains text

/-- What a submitter asks for a record of a kind; the two flags concern performers only. -/
structure Input (kind : Kind) where
  scalar : (field : Field kind) → Request field.Carrier
  members : (collection : Collection kind) → ListChange collection.Carrier
  links : (link : Link kind) → ListChange link.Carrier
  modifyAliases : Bool
  mergeAliases : Bool

namespace Input

variable {kind : Kind}

/-- The input that asks for nothing. -/
def empty (kind : Kind) : Input kind :=
  ⟨fun _ => .untouched, fun _ => .none, fun _ => .none, false, false⟩

/-- The value found and the value proposed for a field. -/
def compare (input : Input kind) (current : Option (Contents kind)) (field : Field kind) :
    Option field.Carrier × Option field.Carrier :=
  (input.scalar field).compare field.admits (current.bind fun contents => contents.scalar field)

/-- The change that an input asks for against what a record holds, if there is a record. -/
def diff (input : Input kind) (current : Option (Contents kind)) : Change kind where
  new := ⟨fun field => (input.compare current field).2, input.members, input.links⟩
  old := ⟨fun field => (input.compare current field).1, fun _ => .none, fun _ => .none⟩
  modifyAliases := decide (kind = .performer) && input.modifyAliases
  mergeAliases := decide (kind = .performer) && input.mergeAliases

end Input

/-- What a submitter asks for, with the kind of record. -/
structure Proposal where
  kind : Kind
  input : Input kind

/-- The proposal that asks for nothing. -/
def Proposal.empty (kind : Kind) : Proposal := ⟨kind, .empty kind⟩

end Curation
