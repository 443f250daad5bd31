/-
**Identifiers of the six kinds of thing.** Entities, edits, users, comments, audits and images are
named by identifiers that cannot be mistaken for one another.
-/

import Curation.Identity.Uuid

namespace Curation

/-- What an identifier names. -/
inductive Id.Subject where
  | entity
  | edit
  | user
  | comment
  | audit
  | image
deriving DecidableEq

/-- The name of the identifiers of a subject. -/
def Id.Subject.title : Id.Subject → String
  | .entity => "EntityId"
  | .edit => "EditId"
  | .user => "UserId"
  | .comment => "CommentId"
  | .audit => "AuditId"
  | .image => "ImageId"

/-- An identifier of a thing of the given subject. -/
structure Id (subject : Id.Subject) where
  uuid : Uuid
deriving DecidableEq

abbrev EntityId := Id .entity
abbrev EditId := Id .edit
abbrev UserId := Id .user
abbrev CommentId := Id .comment
abbrev AuditId := Id .audit
abbrev ImageId := Id .image

namespace Id

variable {subject : Id.Subject}

instance : Inhabited (Id subject) := ⟨⟨Uuid.zero⟩⟩

/-- The written form of an identifier. -/
def toText (id : Id subject) : String := id.uuid.toText

/-- Reads an identifier. -/
def ofText? (text : String) : Option (Id subject) := (Uuid.ofText? text).map Id.mk

/-- The kind of an identifier and its first eight digits. -/
def summary (id : Id subject) : String :=
  subject.title ++ "(" ++ String.ofList (id.uuid.toChars.take 8) ++ ")"

end Id

end Curation
