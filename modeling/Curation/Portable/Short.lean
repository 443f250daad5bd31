/-
**Short forms.** People who write documents by hand leave out what goes without saying. In a short form
the kind of record is a member `type` beside the others; a field that is left out of a proposal is left
untouched, and one that is null is cleared; a value that is left out of details or of a record is
absent, and a list that is left out is empty.

* `Short.proposal?`, `Short.details?`, `Short.contents?`: what a short form means.
-/

import Curation.Datum.Json
import Curation.Json.Transform
import Curation.Portable.Records

namespace Curation.Short

open Portable

/-- The only member of an object. -/
def payload : Json → Json
  | .object [(_, json)] => json
  | json => json

/-- The kind of record that a short form names. -/
def kind? (json : Json) : Option Kind := json.member? "type" >>= Json.text? >>= Word.ofText?

/-- The request that a member of a short form makes in place of another document. -/
def request (base given : Json) : Json :=
  if base.text? = some "Untouched" then
    match given with
    | .null => .text "Cleared"
    | value => .record [("Value", value)]
  else base.overlay given

/-- The members of a proposal with the requests of a short form. -/
def fill (base given : Json) : Json :=
  match base with
  | .object members =>
    .object (members.map fun (name, base) =>
      (name, ((name.bind given.member?).map (request base)).getD base))
  | _ => given

/-- The proposal that a short form means. -/
def proposal? (json : Json) : Option Proposal := do
  let kind ← kind? json
  ofJson? (.record [(kind.title, fill (payload (toJson (Proposal.empty kind))) json)])

/-- The details that a short form means. -/
def details? (json : Json) : Option Details := do
  let kind ← kind? json
  ofJson? (.record [(kind.title, (payload (toJson (Details.empty kind))).overlay json)])

/-- The contents of a record of a kind that a short form means. -/
def contents? (kind : Kind) (json : Json) : Option (Contents kind) := do
  let blank : Record kind := ⟨⟨default, .epoch, .epoch, false⟩, .blank kind⟩
  let record : Record kind ← ofJson? ((toJson blank).overlay json)
  return record.contents

end Curation.Short
