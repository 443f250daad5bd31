/-
**Labels.** A transcript of a rehearsal names what was made in it by labels instead of identifiers, so
that it reads the same whatever identifiers are issued. A label begins with a dollar sign. What an
edit brings along is labelled after the edit: its target, and its comments in the order in which they
were made. The first label of an identifier is the one that is shown.

* `Labels.refresh`: labels what has come into being;
* `Labels.inText`: a text with labels in place of identifiers.
-/

import Curation.Ordering
import Curation.Rehearsal

namespace Curation

/-- An edit with a label, and the number of its comments that have labels. -/
structure LabelledEdit where
  label : String
  id : EditId
  comments : Nat
deriving DecidableEq

/-- The labels that have been given, and what each stands for. -/
structure Labels where
  given : List (String × String)
  edits : List LabelledEdit
deriving DecidableEq

namespace Labels

/-- What a label stands for. -/
def meaning? (labels : Labels) (label : String) : Option String :=
  (labels.given.find? fun pair => pair.1 = label).map Prod.snd

/-- The label that is shown for an identifier. -/
def labelOf? (labels : Labels) (id : String) : Option String :=
  (labels.given.find? fun pair => pair.2 = id).map Prod.fst

/-- Gives a label to an identifier. -/
def give (labels : Labels) (label id : String) : Labels :=
  { labels with given := labels.given ++ [(label, id)] }

/-- Gives a label to an identifier that has none yet. -/
def giveNew (labels : Labels) (label id : String) : Labels :=
  if (labels.labelOf? id).isSome then labels else labels.give label id

/-- Gives a label to an edit, after which what it brings along is to be labelled. -/
def giveEdit (labels : Labels) (label : String) (id : EditId) : Labels :=
  { labels.give label id.toText with edits := labels.edits ++ [⟨label, id, 0⟩] }

/-- The labels of the users of a rehearsal. -/
def ofUsers (rehearsal : Rehearsal) : Labels :=
  let voters := rehearsal.voters.zipIdx.map fun (voter, index) =>
    ("$voter" ++ String.ofList (Text.Decimal.digits (index + 1)), voter.toText)
  ⟨("$admin", rehearsal.admin.toText) :: ("$editor", rehearsal.editor.toText) :: voters, []⟩

/-! ### What has come into being -/

/-- Labels the target of an edit. -/
def giveTarget (store : Store) (labels : Labels) (edit : LabelledEdit) : Labels :=
  match store.edit? edit.id >>= Edit.target with
  | some target => labels.giveNew (edit.label ++ ".target") target.toText
  | none => labels

/-- Labels one comment on an edit. -/
def giveComment (labels : Labels) (edit : LabelledEdit) (comment : Comment) :
    Labels × LabelledEdit :=
  if (labels.labelOf? comment.id.toText).isSome then (labels, edit)
  else
    let number := edit.comments + 1
    let label := edit.label ++ ".c" ++ String.ofList (Text.Decimal.digits number)
    (labels.give label comment.id.toText, { edit with comments := number })

/-- The comments on an edit in the order in which they were made. -/
def commentsMade (store : Store) (id : EditId) : List Comment :=
  sortBy (fun first second => first.id.uuid ≤ second.id.uuid)
    (store.comments.filter fun comment => comment.edit = id)

/-- Labels the comments on an edit. -/
def giveComments (store : Store) (labels : Labels) (edit : LabelledEdit) :
    Labels × LabelledEdit :=
  (commentsMade store edit.id).foldl (fun (labels, edit) comment => labels.giveComment edit comment)
    (labels, edit)

/-- Labels what the edits with labels have brought along. -/
def refresh (store : Store) (labels : Labels) : Labels :=
  let (labels, edits) := labels.edits.foldl
    (fun (labels, edits) edit =>
      let (labels, edit) := (labels.giveTarget store edit).giveComments store edit
      (labels, edits ++ [edit]))
    (labels, [])
  { labels with edits }

/-! ### Texts with labels -/

/-- The number of characters of an identifier. -/
def idLength : Nat := 36

/-- The label of the identifier at the front of a text. -/
def atFront? (labels : Labels) (characters : List Char) : Option String :=
  if (characters.drop 8).head? = some '-' then
    labels.labelOf? (String.ofList (characters.take idLength))
  else none

/-- Puts labels in place of identifiers, once some characters of one already replaced are dropped. -/
def inChars (labels : Labels) : Nat → List Char → List Char
  | _, [] => []
  | dropped + 1, _ :: rest => inChars labels dropped rest
  | 0, character :: rest =>
    match labels.atFront? (character :: rest) with
    | some label => label.toList ++ inChars labels (idLength - 1) rest
    | none => character :: inChars labels 0 rest

/-- A text with labels in place of identifiers. -/
def inText (labels : Labels) (written : String) : String :=
  String.ofList (labels.inChars 0 written.toList)

/-- What a text stands for: a label stands for its identifier, and any other text for itself. -/
def resolve (labels : Labels) (written : String) : Except String String :=
  if written.toList.head? = some '$' then
    match labels.meaning? written with
    | some id => .ok id
    | none => .error written
  else .ok written

end Labels

end Curation
