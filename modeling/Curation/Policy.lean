/-
**Which edits are destructive.** A destructive edit is settled by votes only after a while.

* `Policy.standard`: removing and merging records is destructive, and so is renaming a performer
  without keeping the old name on scenes.
-/

import Curation.Edit
import Curation.Text.Blank

namespace Curation

/-- A policy tells which edits are destructive. -/
abbrev Policy := Edit → Bool

namespace Policy

/-- A change gives a performer another name, blanks around the old one apart, and leaves the credits
on scenes as they are. -/
def dropsName (change : Change .performer) : Bool :=
  match change.new.scalar .performerName with
  | some name =>
    let oldName := ((change.old.scalar .performerName).map Text.trim).getD ""
    oldName != name && !change.modifyAliases
  | none => false

/-- The usual policy. -/
def standard : Policy := fun edit =>
  match edit.operation with
  | .destroy => true
  | .merge => true
  | .create => false
  | .modify =>
    match edit.details with
    | ⟨.performer, change⟩ => dropsName change
    | _ => false

/-- The policy that calls every edit, or none, destructive. -/
def constant (verdict : Bool) : Policy := fun _ => verdict

end Policy

end Curation
