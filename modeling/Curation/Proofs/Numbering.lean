/-
**Identifiers are new.** Records, edits and comments get the identifiers that the desk draws, one after
the other. Those that it has yet to draw therefore belong to nothing, as long as it draws none twice.

* `Desk.Numbered`: records and comments have identifiers that were drawn before;
* `Desk.run_numbered`: that holds after every run, as `Desk.run_issues` does of edits;
* `Desk.Unused`, `Desk.run_unused`: the identifiers that come next are in use nowhere.
-/

import Curation.Proofs.Conditions
import Curation.Proofs.Postings

namespace Curation.Desk

variable {desk : Desk} {now : Instant} {call : Call} {before ledger after : Ledger}

/-- An identifier is among the first that a desk draws. -/
def Draws (desk : Desk) (count : Nat) (uuid : Uuid) : Prop :=
  ∃ number, number < count ∧ uuid = desk.draw number

theorem Draws.mono {first second : Nat} {uuid : Uuid} (drawn : desk.Draws first uuid)
    (more : first ≤ second) : desk.Draws second uuid :=
  let ⟨number, less, same⟩ := drawn
  ⟨number, less.trans_le more, same⟩

/-- Records and comments have identifiers that were drawn before. -/
structure Numbered (desk : Desk) (ledger : Ledger) : Prop where
  entities : ∀ id, ledger.store.hasEntity id = true → desk.Draws ledger.issued id.uuid
  comments : ∀ comment ∈ ledger.store.comments, desk.Draws ledger.issued comment.id.uuid

/-- A write that makes neither records nor comments. -/
theorem Numbered.of_less (numbered : desk.Numbered ledger) (issued : ledger.issued ≤ after.issued)
    (entities : after.store.entities = ledger.store.entities)
    (comments : ∀ comment ∈ after.store.comments, comment ∈ ledger.store.comments) :
    desk.Numbered after where
  entities id known := by
    unfold Store.hasEntity at known
    rw [entities] at known
    exact (numbered.entities id known).mono issued
  comments comment member := (numbered.comments comment (comments comment member)).mono issued

/-- **What a transaction posts is numbered.** -/
theorem Posts.numbered (posts : desk.Posts now call before after) (start : desk.Numbered before) :
    desk.Numbered after := by
  induction posts with
  | nothing => exact start
  | user name _ done earlier =>
    rw [Store.insertUser_ok done]
    exact earlier.of_less (Nat.le_succ _) rfl fun _ member => member
  | grant user role _ done earlier =>
    rw [Store.grantRole_store done]
    exact earlier.of_less le_rfl rfl fun _ member => member
  | filing edit _ drawn done earlier =>
    rw [(insertEdit_ok done).2]
    exact earlier.of_less (Nat.le_succ _) rfl fun _ member => member
  | state edit _ done earlier =>
    rw [updateEdit_ok done]
    exact earlier.of_less le_rfl rfl fun _ member => member
  | vote vote _ called known done earlier =>
    rw [upsertVote_frame done]
    exact earlier.of_less le_rfl rfl fun _ member => member
  | unvote id _ earlier => exact earlier.of_less le_rfl rfl fun _ member => member
  | comment comment _ drawn done earlier =>
    rw [Store.insertComment_ok done]
    refine ⟨fun id known => (earlier.entities id known).mono (Nat.le_succ _), fun row member => ?_⟩
    rcases List.mem_append.mp member with stored | added
    · exact (earlier.comments row stored).mono (Nat.le_succ _)
    · rw [List.mem_singleton.mp added, drawn]
      exact ⟨_, Nat.lt_succ_self _, rfl⟩
  | application edit target _ done earlier =>
    refine ⟨fun id known => ?_, fun comment member => ?_⟩
    · rcases Edit.apply_hasEntity done known with made | stored
      · rw [made]
        exact ⟨_, Nat.lt_succ_self _, rfl⟩
      · exact (earlier.entities id stored).mono (Nat.le_succ _)
    · rw [Edit.apply_frame done] at member
      exact (earlier.comments comment member).mono (Nat.le_succ _)
  | removal edit caller reason _ called done earlier =>
    rw [Store.deleteWithAudit_frame done]
    exact earlier.of_less (Nat.le_succ _) rfl fun comment member => (List.mem_filter.mp member).1
  | expiry cutoff _ called earlier => exact earlier.of_less le_rfl rfl fun _ member => member

/-- **Whatever record or comment is stored after a run has an identifier that was drawn in it.** -/
theorem run_numbered (desk : Desk) (calls : List (Instant × Call)) :
    desk.Numbered (desk.run calls) := by
  refine run_induction desk calls ?_ fun now _ ledger call single numbered =>
    (desk.posts now ledger single).numbered numbered
  exact ⟨fun id known => (nomatch known), fun comment member => (nomatch member)⟩

/-- An identifier belongs to no record, edit or comment of a store. -/
structure Unused (store : Store) (uuid : Uuid) : Prop where
  entity : store.hasEntity ⟨uuid⟩ = false
  edit : store.hasEdit ⟨uuid⟩ = false
  comment : ∀ comment ∈ store.comments, comment.id ≠ ⟨uuid⟩

/-- **The identifiers that come next are in use nowhere** if none of them was drawn before. -/
theorem run_unused (desk : Desk) (calls : List (Instant × Call)) {bound number : Nat}
    (distinct : Set.InjOn desk.draw {number | number ≤ bound})
    (later : (desk.run calls).issued ≤ number) (within : number ≤ bound) :
    Unused (desk.run calls).store (desk.draw number) := by
  have undrawn : ¬ desk.Draws (desk.run calls).issued (desk.draw number) := by
    rintro ⟨earlier, less, same⟩
    have clash : number = earlier :=
      distinct within ((less.le.trans later).trans within) same
    omega
  have numbered := desk.run_numbered calls
  have issues : desk.Issues .empty (desk.run calls) := desk.run_issues List.nil_prefix
  refine ⟨Bool.eq_false_iff.mpr fun known => undrawn (numbered.entities _ known),
    Bool.eq_false_iff.mpr fun stored => ?_, fun comment member same => ?_⟩
  · obtain ⟨earlier, -, less, drawn⟩ := (issues.hasEdit stored).resolve_left Bool.false_ne_true
    exact undrawn ⟨earlier, less, congrArg Id.uuid drawn⟩
  · have drawn := numbered.comments comment member
    rw [same] at drawn
    exact undrawn drawn

end Curation.Desk
