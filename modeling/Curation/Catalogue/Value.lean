/-
**Values of records.** A stored value is a text, a whole number, a reference to another record, a web
address, a body modification or an image.

* `Value.toText`: how a value is shown to people;
* `Value.shown`: an absent value is shown as `_blank_`.
-/

import Curation.Identity.Id
import Curation.Text.Decimal

namespace Curation

/-- A web address and the site it belongs to. -/
structure Url where
  address : String
  site : String
deriving DecidableEq

/-- A tattoo or piercing. -/
structure BodyModification where
  location : String
  description : Option String
deriving DecidableEq

/-- A performer credited on a scene, perhaps under another name. -/
structure Appearance where
  performer : EntityId
  creditedAs : Option String
deriving DecidableEq

/-- A stored value. -/
inductive Value where
  | text (text : String)
  | integer (number : Int64)
  | reference (target : EntityId)
  | url (url : Url)
  | modification (modification : BodyModification)
  | image (image : ImageId)
deriving DecidableEq

namespace Value

/-- The text of a textual value. -/
def text? : Value → Option String
  | .text content => some content
  | _ => none

/-- The number of a numeric value. -/
def integer? : Value → Option Int64
  | .integer number => some number
  | _ => none

/-- The target of a reference. -/
def reference? : Value → Option EntityId
  | .reference target => some target
  | _ => none

/-- The address in a value. -/
def url? : Value → Option Url
  | .url address => some address
  | _ => none

/-- The body modification in a value. -/
def modification? : Value → Option BodyModification
  | .modification change => some change
  | _ => none

/-- The image in a value. -/
def image? : Value → Option ImageId
  | .image picture => some picture
  | _ => none

/-- How a value is shown to people. -/
def toText : Value → String
  | .text content => content
  | .integer number => String.ofList (Text.Decimal.signed number.toInt)
  | .reference target => target.toText
  | .url ⟨address, site⟩ => address ++ " (" ++ site ++ ")"
  | .modification ⟨location, some description⟩ => location ++ ": " ++ description
  | .modification ⟨location, none⟩ => location
  | .image picture => "image " ++ picture.toText

/-- How a value that may be absent is shown to people. -/
def shown : Option Value → String
  | some value => value.toText
  | none => "_blank_"

end Value

end Curation
