/-
**What can be wrong with data.** A fault of the data is invalid content, a form that cannot be read,
or unusable settings. Each cause belongs to one of the three classes and has its own wording.
-/

import Curation.Identity.Id
import Curation.Word
import Curation.Text.Decimal

namespace Curation

/-- The classes of fault. -/
inductive Fault.Class where
  | invalid
  | unreadable
  | settings
deriving DecidableEq

/-- How messages about a class of fault begin. -/
def Fault.Class.title : Fault.Class → String
  | .invalid => "invalid data"
  | .unreadable => "serialization error"
  | .settings => "config error"

/-- The causes of a fault. -/
inductive Fault where
  | unknownWord (vocabulary written : String)
  | malformedId (subject : Id.Subject)
  | unreadable
  | settingsUnreadable
  | outOfRange (setting : String) (seconds : UInt64)
  | inFile (path : String) (cause : Fault)
  | stated (kind : Fault.Class) (reason : String)
deriving DecidableEq

namespace Fault

/-- The class of a fault. -/
def kind : Fault → Class
  | .unknownWord _ _ => .invalid
  | .malformedId _ => .invalid
  | .unreadable => .unreadable
  | .settingsUnreadable => .settings
  | .outOfRange _ _ => .settings
  | .inFile _ _ => .settings
  | .stated kind _ => kind

/-- The message of a fault. -/
def message : Fault → String
  | .unknownWord vocabulary written =>
    Class.invalid.title ++ ": unknown " ++ vocabulary ++ ": " ++ written
  | .malformedId subject => Class.invalid.title ++ ": invalid " ++ subject.title
  | .unreadable => Class.unreadable.title
  | .settingsUnreadable => Class.settings.title
  | .outOfRange setting seconds =>
    Class.settings.title ++ ": " ++ setting ++ " out of range: " ++
      String.ofList (Text.Decimal.digits seconds.toNat)
  | .inFile path cause =>
    Class.settings.title ++ ": failed to parse " ++ path ++ ": " ++ cause.message
  | .stated kind reason => kind.title ++ ": " ++ reason

end Fault

/-- Reads a word of a vocabulary. -/
def Word.read {α : Type} [Word α] (written : String) : Except Fault α :=
  match Word.ofText? written with
  | some word => .ok word
  | none => .error (.unknownWord (Word.title α) written)

/-- Reads an identifier of things of a kind. -/
def Id.read {subject : Id.Subject} (written : String) : Except Fault (Id subject) :=
  match Id.ofText? written with
  | some id => .ok id
  | none => .error (.malformedId subject)

end Curation
