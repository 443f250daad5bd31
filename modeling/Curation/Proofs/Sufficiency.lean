/-
**Checks suffice.** A submission that passes its checks makes an edit that applies to the store on
which it was checked. Two parts look at the same record there: the submission is compared with what is
read of it, where values of other sorts are passed over and words that are not admitted count as
absent, and the edit with what is stored of it. In a sound and typed store both see the same.

* `Store.checkFound_diff`: a record still holds what a comparison with it has found;
* `Submission.applies`: the edit of a submission that passed its checks applies.
-/

import Curation.Proofs.Readback
import Curation.Proofs.Successes
import Curation.Proofs.Typing

namespace Curation

namespace Store

variable {store : Store} {id : EntityId} {kind : Kind}

/-- What the check of a change makes sure of: fields that it touches hold what it found. -/
theorem checkFound_ok {change : Change kind} :
    store.checkFound id change = .ok () ↔
      ∀ field, (change.old.value? field = none ∧ change.new.value? field = none) ∨
        store.field? id field.key = change.old.value? field := by
  unfold checkFound
  rw [Except.forM_ok]
  refine ⟨fun checked field => ?_, fun found field _ => ?_⟩
  · have passed := checked field (Field.mem_byKey field)
    dsimp only at passed
    split at passed
    next untouched =>
      rw [Bool.and_eq_true, Option.isNone_iff_eq_none, Option.isNone_iff_eq_none] at untouched
      exact .inl untouched
    next =>
      split at passed
      next holds => exact .inr holds
      · cases passed
  · dsimp only
    rcases found field with ⟨nothing, proposed⟩ | holds
    · rw [nothing, proposed]
      rfl
    · rw [if_pos holds, ite_self]

/-- **A record holds what a comparison with what it reads has found.** -/
theorem checkFound_diff (sound : store.Sound) (typed : store.Typed) (live : store.IsLive id kind)
    (input : Input kind) :
    store.checkFound id (input.diff (some (store.contents kind id))) = .ok () := by
  refine checkFound_ok.mpr fun field => ?_
  have known : ((store.contents kind id).scalar field).filter field.admits =
      (store.contents kind id).scalar field := sound.admitted field
  rcases (input.scalar field).compare_cases known with ⟨same, -⟩ | changed
  · have nothing : input.compare (some (store.contents kind id)) field = (none, none) := same
    refine .inl ⟨?_, ?_⟩
    · exact congrArg (fun sides => sides.1.map field.sort.value) nothing
    · exact congrArg (fun sides => sides.2.map field.sort.value) nothing
  · refine .inr ((typed.field?_eq live field).trans ?_)
    exact (congrArg (fun sides => sides.1.map field.sort.value) changed).symm

end Store

namespace Submission

variable {submission : Submission} {store : Store} {details : Details} {edit : Edit} {id : EditId}
  {caller : UserId} {filedAt : Instant}

/-- A submission that asks for more than a removal has details with what it asks for. -/
theorem details_change (checked : submission.details store = .ok details)
    (other : submission.operation ≠ .destroy) :
    details = ⟨submission.proposal.kind, submission.change store⟩ ∧
      (submission.change store).checkReferences store submission.target = .ok () := by
  obtain ⟨-, -, ⟨destroys, -⟩ | ⟨-, referred, same⟩⟩ := details_ok checked
  · exact absurd destroys other
  · exact ⟨same, referred⟩

/-- The target of an edit that has just been submitted is there, and unless the edit removes it, it
holds what the submission found. -/
theorem target_stands (sound : store.Sound) (typed : store.Typed)
    (checked : submission.details store = .ok details)
    (asks : (submission.edit id caller details filedAt).AsksSame edit)
    (needs : submission.operation.needsTarget = true) :
    ∃ target, edit.requireTarget = .ok target ∧ store.IsLive target edit.kind ∧
      (submission.operation ≠ .destroy →
        store.checkFound target edit.details.change = .ok () ∧
          edit.details.change.checkReferences store (some target) = .ok ()) := by
  have target? := checkTarget_ok (details_ok checked).1
  rw [if_pos needs] at target?
  obtain ⟨target, given, live⟩ := target?
  refine ⟨target, Edit.requireTarget_ok.mpr (asks.target.trans given), ?_, fun other => ?_⟩
  · rw [asks.kind]
    exact live
  · obtain ⟨same, referred⟩ := details_change checked other
    rw [given] at referred
    rw [asks.details.trans same]
    refine ⟨?_, referred⟩
    rw [change_eq given live]
    exact Store.checkFound_diff sound typed live submission.proposal.input

/-- **What was submitted can be applied** to the catalogue on which it was checked. A new record needs
an identifier that is not in use. -/
theorem applies (sound : store.Sound) (tidy : store.Tidy) (typed : store.Typed)
    (checked : submission.details store = .ok details)
    (asks : (submission.edit id caller details filedAt).AsksSame edit) {fresh : EntityId}
    (unused : edit.operation = .create → store.hasEntity fresh = false) (now : Instant) :
    ∃ target after, edit.apply fresh now store = .ok (target, after) := by
  have aims := target_stands sound typed checked asks
  have operation : edit.operation = submission.operation := asks.operation
  unfold Edit.apply
  cases named : submission.operation with
  | create =>
    have target? := checkTarget_ok (details_ok checked).1
    obtain ⟨same, referred⟩ := details_change checked (by rw [named]; decide)
    rw [operation, named] at unused ⊢
    rw [named] at target?
    have created : edit.details.change.checkReferences store none = .ok () := by
      rw [asks.details.trans same]
      exact target? ▸ referred
    obtain ⟨after, done⟩ := Store.create_succeeds (unused rfl) created edit.kind now
    exact ⟨fresh, after, Except.bind_ok.mpr ⟨after, done, rfl⟩⟩
  | modify =>
    obtain ⟨target, required, live, holds⟩ := aims (by rw [named]; rfl)
    obtain ⟨found, referred⟩ := holds (by rw [named]; decide)
    obtain ⟨after, done, -⟩ := Store.modify_yields live found referred now
    rw [operation, named]
    exact ⟨target, after,
      Except.bind_ok.mpr ⟨target, required, Except.bind_ok.mpr ⟨after, done, rfl⟩⟩⟩
  | destroy =>
    obtain ⟨target, required, live, -⟩ := aims (by rw [named]; rfl)
    obtain ⟨after, done⟩ := Store.destroy_succeeds live now
    rw [operation, named]
    exact ⟨target, after,
      Except.bind_ok.mpr ⟨target, required, Except.bind_ok.mpr ⟨after, done, rfl⟩⟩⟩
  | merge =>
    obtain ⟨target, required, live, holds⟩ := aims (by rw [named]; rfl)
    obtain ⟨found, referred⟩ := holds (by rw [named]; decide)
    obtain ⟨once, -, there⟩ := checkMerge_ok (details_ok checked).2.1
    obtain ⟨after, done⟩ := Store.merge_succeeds tidy live found referred once
      (asks.kind ▸ there) now
    rw [operation, named, asks.sources]
    exact ⟨target, after,
      Except.bind_ok.mpr ⟨target, required, Except.bind_ok.mpr ⟨after, done, rfl⟩⟩⟩

end Submission

end Curation
