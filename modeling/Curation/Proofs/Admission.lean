/-
**What was admitted goes through.** Once a submission has passed its checks nothing is left to refuse
it: it is stored, a new record is made at once where the rules say so, and an administrator who goes on
to apply a pending edit succeeds. What the desk writes along the way asks only that edits are stored
and that identifiers are new.

* `Desk.fileEdit_succeeds`, `Desk.enact_succeeds`: the parts of the operations;
* `Desk.vote_resolves`, `Desk.closeIfDue_resolves`: what a verdict makes of an edit is stored;
* `Desk.createEdit_succeeds`, `Desk.apply_succeeds`: the operations;
* `Desk.checks_suffice`: both together, after any run.
-/

import Curation.Proofs.Numbering
import Curation.Proofs.Permissions
import Curation.Proofs.Sufficiency

namespace Curation

/-! ### Writes to the review -/

namespace Store

variable {store : Store}

theorem insertEdit_succeeds {edit : Edit} (closes : closesRightly edit = true)
    (unused : store.hasEdit edit.id = false) : ∃ after, store.insertEdit edit = .ok after := by
  unfold insertEdit
  rw [closes, unused]
  exact ⟨_, rfl⟩

theorem updateEdit_succeeds {edit : Edit} (closes : closesRightly edit = true)
    (stored : store.hasEdit edit.id = true) : ∃ after, store.updateEdit edit = .ok after := by
  unfold updateEdit
  rw [stored, closes]
  exact ⟨_, rfl⟩

theorem upsertVote_succeeds {vote : Vote} (stored : store.hasEdit vote.edit = true) :
    ∃ after, store.upsertVote vote = .ok after := by
  unfold upsertVote
  rw [stored, Bool.not_true, if_neg Bool.false_ne_true]
  split <;> exact ⟨_, rfl⟩

theorem insertComment_succeeds {comment : Comment}
    (unused : ∀ row ∈ store.comments, row.id ≠ comment.id)
    (stored : store.hasEdit comment.edit = true) :
    ∃ after, store.insertComment comment = .ok after := by
  have new : (store.comments.any fun row => row.id = comment.id) = false := by
    rw [List.any_eq_false]
    exact fun row member => decide_eq_true_iff.not.mpr (unused row member)
  unfold insertComment
  rw [new, stored]
  exact ⟨_, rfl⟩

end Store

namespace Desk

variable {desk : Desk} {now : Instant} {ledger : Ledger} {caller : UserId} {edit : Edit}

/-! ### Parts of the operations -/

theorem carryOut_result {α : Type} {step : Step (α × List Effect)} {result : α}
    (succeeds : ∃ effects after, step ledger = .ok ((result, effects), after)) :
    (desk.carryOut step ledger).result = .ok result := by
  obtain ⟨effects, after, done⟩ := succeeds
  rw [carryOut_done done]
  rfl

/-- An edit that applies to a catalogue does so beside any review. -/
theorem applies_rebase {fresh : EntityId} {first second : Store} (same : first.SameCatalogue second)
    (applies : ∃ target after, edit.apply fresh now first = .ok (target, after)) :
    ∃ target after, edit.apply fresh now second = .ok (target, after) := by
  obtain ⟨target, after, application⟩ := applies
  rw [same, Edit.apply_graft, application]
  exact ⟨target, _, rfl⟩

/-- **A stored edit is enacted** if it applies. -/
theorem enact_succeeds (stored : ledger.store.hasEdit edit.id = true)
    (applies : ∃ target after,
      edit.apply ⟨desk.draw ledger.issued⟩ now ledger.store = .ok (target, after)) :
    ∃ closed after, desk.enact edit now ledger = .ok (closed, after) := by
  obtain ⟨target, applied, application⟩ := applies
  have still : applied.hasEdit edit.id = true := by
    rw [Edit.apply_frame application]
    exact stored
  let closed := { edit with target := some target }.close .immediateAccepted now
  obtain ⟨after, updated⟩ : ∃ after, applied.updateEdit closed = .ok after :=
    Store.updateEdit_succeeds rfl still
  refine ⟨closed, ⟨after, ledger.issued + 1⟩, ?_⟩
  unfold enact
  simp only [Step.bind_ok, Step.write_ok, Step.pure_ok, applyToStore_ok]
  exact ⟨_, _, ⟨target, applied, application, rfl, rfl⟩, (), _, ⟨after, updated, rfl⟩, rfl, rfl⟩

/-- A remark is added to a stored edit. -/
theorem addRemark_succeeds {id : EditId} (stored : ledger.store.hasEdit id = true)
    (unused : ∀ comment ∈ ledger.store.comments, comment.id ≠ ⟨desk.draw ledger.issued⟩)
    (author : UserId) (remark : Option String) (now : Instant) :
    ∃ after, desk.addRemark id author remark now ledger = .ok ((), after) := by
  cases remark with
  | none => exact ⟨ledger, rfl⟩
  | some text =>
    by_cases void : Text.isVoid text = true
    · exact ⟨ledger, congrFun (if_pos void) ledger⟩
    · obtain ⟨after, inserted⟩ : ∃ after, ledger.store.insertComment
          ⟨⟨desk.draw ledger.issued⟩, id, some author, text, now⟩ = .ok after :=
        Store.insertComment_succeeds unused stored
      refine ⟨⟨after, ledger.issued + 1⟩, (congrFun (if_neg void) ledger).trans ?_⟩
      unfold addComment
      simp only [Step.bind_ok, Step.issue_ok, Step.write_ok, Step.pure_ok]
      exact ⟨_, _, ⟨_, _, ⟨rfl, rfl⟩, (), _, ⟨after, inserted, rfl⟩, rfl, rfl⟩, trivial, rfl⟩

/-- A remark takes one identifier or none. -/
theorem addRemark_issued {id : EditId} {author : UserId} {remark : Option String} {after : Ledger}
    {result : Unit} (done : desk.addRemark id author remark now ledger = .ok (result, after)) :
    ledger.issued ≤ after.issued ∧ after.issued ≤ ledger.issued + 1 := by
  unfold addRemark at done
  split at done
  · obtain ⟨-, rfl⟩ := Step.pure_ok.mp done
    exact ⟨le_rfl, Nat.le_succ _⟩
  · split at done
    · obtain ⟨-, rfl⟩ := Step.pure_ok.mp done
      exact ⟨le_rfl, Nat.le_succ _⟩
    · unfold addComment at done
      simp only [Step.bind_ok, Step.issue_ok, Step.write_ok, Step.pure_ok] at done
      obtain ⟨_, _, ⟨_, _, ⟨-, rfl⟩, _, _, ⟨store, -, rfl⟩, -, rfl⟩, -, rfl⟩ := done
      exact ⟨Nat.le_succ _, le_rfl⟩

/-- **A submission that passes its checks is stored**, under an identifier of its own. -/
theorem fileEdit_succeeds {submission : Submission} {roles : List Role} {details : Details}
    (given : rolesOf ledger.store caller = .ok roles)
    (allowed : desk.requireFiling roles submission = .ok ())
    (checked : submission.details ledger.store = .ok details)
    (unused : Unused ledger.store (desk.draw ledger.issued))
    (next : Unused ledger.store (desk.draw (ledger.issued + 1))) (now : Instant) :
    ∃ edit after, desk.fileEdit now caller submission ledger = .ok (edit, after) := by
  let edit := submission.edit ⟨desk.draw ledger.issued⟩ caller details now
  obtain ⟨filed, inserted⟩ : ∃ filed, ledger.store.insertEdit edit = .ok filed :=
    Store.insertEdit_succeeds rfl unused.edit
  have frame := (insertEdit_ok inserted).2
  have stored : filed.hasEdit edit.id = true := by
    rw [frame]
    exact hasEdit_of_mem (List.mem_append_right _ (List.mem_singleton.mpr rfl))
  have new : ∀ comment ∈ filed.comments, comment.id ≠ ⟨desk.draw (ledger.issued + 1)⟩ := by
    rw [frame]
    exact next.comment
  obtain ⟨after, remarked⟩ : ∃ after, desk.addRemark edit.id caller submission.comment now
      ⟨filed, ledger.issued + 1⟩ = .ok ((), after) :=
    addRemark_succeeds stored new caller submission.comment now
  refine ⟨edit, after, ?_⟩
  unfold fileEdit
  simp only [Step.bind_ok, Step.check_ok, Step.issue_ok, Step.write_ok, Step.pure_ok]
  exact ⟨roles, ledger, ⟨given, rfl⟩, (), ledger, ⟨allowed, rfl⟩, details, ledger, ⟨checked, rfl⟩,
    _, _, ⟨rfl, rfl⟩, (), _, ⟨filed, inserted, rfl⟩, (), after, remarked, rfl, rfl⟩

/-- A submission takes one identifier or two. -/
theorem fileEdit_issued {submission : Submission} {after : Ledger}
    (done : desk.fileEdit now caller submission ledger = .ok (edit, after)) :
    ledger.issued < after.issued ∧ after.issued ≤ ledger.issued + 2 := by
  unfold fileEdit at done
  simp only [Step.bind_ok, Step.check_ok, Step.issue_ok, Step.write_ok, Step.pure_ok] at done
  obtain ⟨roles, _, ⟨-, rfl⟩, _, _, ⟨-, rfl⟩, details, _, ⟨-, rfl⟩, id, _, ⟨-, rfl⟩, _, _,
    ⟨store, -, rfl⟩, _, _, remarked, -, rfl⟩ := done
  exact addRemark_issued remarked

theorem createEdit_issued {submission : Submission}
    (accepted : (desk.createEdit now caller submission ledger).result = .ok edit)
    (pending : edit.isPending = true) :
    ledger.issued ≤ (desk.createEdit now caller submission ledger).ledger.issued ∧
      (desk.createEdit now caller submission ledger).ledger.issued ≤ ledger.issued + 2 := by
  obtain ⟨effects, after, done, same⟩ := carryOut_ok accepted
  obtain ⟨grants, followed⟩ := desk.follow_store effects after
  obtain ⟨filed, middle, filing, rest⟩ := Step.bind_ok.mp done
  obtain ⟨least, most⟩ := fileEdit_issued filing
  unfold createEdit
  rw [same, followed]
  split at rest
  · obtain ⟨closed, _, enacted, finish⟩ := Step.bind_ok.mp rest
    obtain ⟨result, -⟩ := Step.pure_ok.mp finish
    cases result
    obtain ⟨target, store, rfl, -⟩ := enact_ok enacted
    cases pending
  · obtain ⟨-, rfl⟩ := Step.pure_ok.mp rest
    exact ⟨least.le, most⟩

/-! ### Verdicts -/

/-- A user is registered and has a role that grants the required one. -/
def Permits (store : Store) (caller : UserId) (required : Role) : Prop :=
  ∃ roles, rolesOf store caller = .ok roles ∧ requireRole roles required = .ok ()

/-- What the votes on record settle of a pending edit when one is cast. -/
def verdictOn (desk : Desk) (store : Store) (edit : Edit) (now : Instant) : Verdict :=
  let tally := Tally.ofVotes (store.votesOn edit.id)
  let counted := { edit with score := tally.net }
  .onVote counted tally (desk.policy counted) now desk.rules

section Resolved

variable {resolved : Edit} {effects : List Effect} {middle : Ledger} {stored : Store}
  (found : ledger.store.edit? edit.id = some edit)
  (updated : middle.store.updateEdit resolved = .ok stored)

include found updated

/-- **A ballot is counted**, and what its verdict makes of the edit is stored. -/
theorem vote_resolves {choice : Choice} {voted : Store} (pending : edit.isPending = true)
    (ballot : choice.isBallot = true) (permitted : Permits ledger.store caller .vote)
    (other : edit.submitter ≠ some caller)
    (cast : ledger.store.upsertVote ⟨edit.id, caller, choice, now⟩ = .ok voted)
    (resolves : desk.resolve { edit with score := (Tally.ofVotes (voted.votesOn edit.id)).net }
      (desk.verdictOn voted edit now) now ⟨voted, ledger.issued⟩ =
        .ok ((resolved, effects), middle)) :
    desk.vote now caller edit.id choice ledger = desk.concluded resolved
      (effects ++ if choice = .reject then [.notify (.downvoted resolved)] else [])
      ⟨stored, middle.issued⟩ := by
  obtain ⟨roles, given, allowed⟩ := permitted
  refine carryOut_done ?_
  simp only [Step.bind_ok, Step.check_ok, Step.write_ok, Step.read_ok, Step.pure_ok, require_ok,
    requirePending_ok, loadEdit_ok]
  exact ⟨(), ledger, ⟨ballot, rfl⟩, roles, ledger, ⟨given, rfl⟩, (), ledger, ⟨allowed, rfl⟩, edit,
    ledger, ⟨found, rfl⟩, (), ledger, ⟨pending, rfl⟩, (), ledger, ⟨decide_eq_true other, rfl⟩, (),
    _, ⟨voted, cast, rfl⟩, _, _, ⟨rfl, rfl⟩, (resolved, effects), middle, resolves, (), _,
    ⟨stored, updated, rfl⟩, rfl, rfl⟩

/-- **An edit that is due is closed**, and what its verdict makes of it is stored. -/
theorem closeIfDue_resolves (due : desk.isDue ledger.store edit now = true)
    (resolves : desk.resolve { edit with score := (Tally.ofVotes (ledger.store.votesOn edit.id)).net }
      (.onExpiry (.ofVotes (ledger.store.votesOn edit.id)) (desk.policy edit)) now ledger =
        .ok ((resolved, effects), middle)) :
    desk.closeIfDue now edit.id ledger = .ok ((true, effects), ⟨stored, middle.issued⟩) := by
  have looked : (ledger.store.edit? edit.id).filter (fun edit => desk.isDue ledger.store edit now) =
      some edit := by
    rw [found]
    exact Option.filter_some_pos due
  unfold closeIfDue
  refine Step.bind_ok.mpr ⟨some edit, ledger, Step.read_ok.mpr ⟨looked, rfl⟩, ?_⟩
  simp only [Step.bind_ok, Step.write_ok, Step.read_ok, Step.pure_ok]
  exact ⟨_, ledger, ⟨rfl, rfl⟩, _, middle, resolves, (), _, ⟨stored, updated, rfl⟩, rfl, rfl⟩

end Resolved

/-! ### The operations -/

/-- **An administrator applies a pending edit** that can be applied. -/
theorem apply_succeeds (found : ledger.store.edit? edit.id = some edit)
    (pending : edit.isPending = true)
    (applies : ∃ target after,
      edit.apply ⟨desk.draw ledger.issued⟩ now ledger.store = .ok (target, after))
    (known : ledger.store.hasUser caller = true) (granted : .admin ∈ ledger.store.roles caller)
    (free : .readOnly ∉ ledger.store.roles caller) :
    ∃ applied, (desk.apply now caller edit.id ledger).result = .ok applied ∧
      applied.id = edit.id ∧ applied.status = .immediateAccepted := by
  have given : rolesOf ledger.store caller = .ok (ledger.store.roles caller) := if_pos known
  have allowed : requireRole (ledger.store.roles caller) .admin = .ok () :=
    requireRole_ok.mpr ⟨fun _ => free, List.any_eq_true.mpr ⟨.admin, granted, rfl⟩⟩
  have stored := Store.hasEdit_of_edit? found
  obtain ⟨voted, cast⟩ : ∃ voted, ledger.store.upsertVote
      ⟨edit.id, caller, .immediateAccept, now⟩ = .ok voted := Store.upsertVote_succeeds stored
  have votedStored : voted.hasEdit edit.id = true := by
    rw [upsertVote_frame cast]
    exact stored
  obtain ⟨closed, after, enacted⟩ : ∃ closed after,
      desk.enact edit now ⟨voted, ledger.issued⟩ = .ok (closed, after) :=
    enact_succeeds votedStored (applies_rebase (upsertVote_sameCatalogue cast).1 applies)
  obtain ⟨target, store, same, -⟩ := enact_ok enacted
  refine ⟨closed, carryOut_result ⟨Effect.ofApplied closed, after, ?_⟩, ?_, ?_⟩
  · simp only [Step.bind_ok, Step.check_ok, Step.write_ok, Step.pure_ok, requirePending_ok,
      loadEdit_ok]
    exact ⟨_, ledger, ⟨given, rfl⟩, (), ledger, ⟨allowed, rfl⟩, edit, ledger, ⟨found, rfl⟩, (),
      ledger, ⟨pending, rfl⟩, (), _, ⟨voted, cast, rfl⟩, closed, after, enacted, rfl, rfl⟩
  · rw [same]
    rfl
  · rw [same]
    rfl

section Runs

variable {calls : List (Instant × Call)} {submission : Submission}
  (distinct : Set.InjOn desk.draw {number | number ≤ (desk.run calls).issued + 2})

include distinct

/-- **A submission is accepted once it has passed its checks**, also if a new record is made of it at
once. -/
theorem createEdit_succeeds {roles : List Role} {details : Details}
    (given : rolesOf (desk.run calls).store caller = .ok roles)
    (allowed : desk.requireFiling roles submission = .ok ())
    (checked : submission.details (desk.run calls).store = .ok details) (now : Instant) :
    ∃ edit, (desk.createEdit now caller submission (desk.run calls)).result = .ok edit := by
  have unused (number : Nat) (later : (desk.run calls).issued ≤ number)
      (within : number ≤ (desk.run calls).issued + 2) :
      Unused (desk.run calls).store (desk.draw number) := desk.run_unused calls distinct later within
  obtain ⟨edit, middle, filing⟩ := fileEdit_succeeds given allowed checked
    (unused _ le_rfl (Nat.le_add_right _ 2)) (unused _ (Nat.le_succ _) (Nat.le_succ _)) now
  obtain ⟨least, most⟩ := fileEdit_issued filing
  by_cases immediate : desk.isImmediate edit = true
  · obtain ⟨id, filed, store, rfl, -, passed, inserted, remarked⟩ := fileEdit_ok filing
    have sameFiled : (desk.run calls).store.SameCatalogue middle.store := by
      refine .trans ?_ remarked.catalogue
      rw [inserted]
      rfl
    have listed : submission.edit id caller filed now ∈ middle.store.edits := by
      rw [remarked.edits, inserted]
      exact List.mem_append_right _ (List.mem_singleton.mpr rfl)
    have applies : ∃ target after, (submission.edit id caller filed now).apply
        ⟨desk.draw middle.issued⟩ now (desk.run calls).store = .ok (target, after) :=
      Submission.applies (desk.run_sound calls) (desk.run_tidy calls) (desk.run_typed calls) passed
        (.refl _) (fun _ => (unused _ least.le most).entity) now
    obtain ⟨closed, after, enacted⟩ := enact_succeeds (hasEdit_of_mem listed)
      (applies_rebase sameFiled applies)
    refine ⟨closed, carryOut_result ⟨.notify (.created closed) :: Effect.ofApplied closed, after,
      Step.bind_ok.mpr ⟨_, middle, filing, ?_⟩⟩⟩
    rw [if_pos immediate]
    exact Step.bind_ok.mpr ⟨closed, after, enacted, rfl⟩
  · refine ⟨edit, carryOut_result ⟨[.notify (.created edit)], middle,
      Step.bind_ok.mpr ⟨edit, middle, filing, ?_⟩⟩⟩
    rw [if_neg immediate]
    rfl

/-- **An edit that was just accepted can be applied**: nothing has happened since it was checked. -/
theorem createEdit_applies {filedAt : Instant}
    (accepted : (desk.createEdit filedAt caller submission (desk.run calls)).result = .ok edit)
    (pending : edit.isPending = true) (now : Instant) {filed : Ledger}
    (filing : filed = (desk.createEdit filedAt caller submission (desk.run calls)).ledger) :
    filed.store.edit? edit.id = some edit.toMillisecond ∧ ∃ target after,
      edit.toMillisecond.apply ⟨desk.draw filed.issued⟩ now filed.store = .ok (target, after) := by
  obtain ⟨files, edits, -⟩ := createEdit_files accepted
  obtain ⟨least, most⟩ := createEdit_issued accepted pending
  rw [← filing] at files edits least most
  cases files with
  | pending id details unused checked catalogue =>
    refine ⟨Store.edit?_added edits unused, applies_rebase catalogue ?_⟩
    exact Submission.applies (desk.run_sound calls) (desk.run_tidy calls) (desk.run_typed calls)
      checked ⟨rfl, rfl, rfl, rfl, rfl⟩ (fun _ => (desk.run_unused calls distinct least most).entity) now
  | enacted id details number target store unused checked creates application catalogue =>
    cases pending

end Runs

/-- **Passing the checks suffices.** After any run, if a submission becomes a pending edit, then an
administrator who may do more than read can apply it as long as nothing happens in between; and a
submission that passes its checks is accepted, also where the rules have new records made at once. Both
rest on the identifiers that the desk draws next being new. -/
theorem checks_suffice (desk : Desk) (calls : List (Instant × Call)) (filedAt : Instant)
    (caller : UserId) (submission : Submission)
    (distinct : Set.InjOn desk.draw {number | number ≤ (desk.run calls).issued + 2}) :
    (∀ edit filed, (desk.createEdit filedAt caller submission (desk.run calls)).result = .ok edit →
      edit.isPending = true →
      filed = desk.run (calls ++ [(filedAt, .createEdit caller submission)]) →
      ∀ now admin, filed.store.hasUser admin = true → .admin ∈ filed.store.roles admin →
        .readOnly ∉ filed.store.roles admin →
        ∃ applied, (desk.apply now admin edit.id filed).result = .ok applied ∧
          applied.id = edit.id ∧ applied.status = .immediateAccepted) ∧
    ∀ roles details, rolesOf (desk.run calls).store caller = .ok roles →
      desk.requireFiling roles submission = .ok () →
      submission.details (desk.run calls).store = .ok details →
      ∃ edit, (desk.createEdit filedAt caller submission (desk.run calls)).result = .ok edit := by
  refine ⟨fun edit filed accepted pending filing now admin known granted free => ?_,
    fun roles details given allowed checked =>
      createEdit_succeeds distinct given allowed checked filedAt⟩
  rw [run_concat] at filing
  obtain ⟨found, applies⟩ := createEdit_applies distinct accepted pending now filing
  have stands : filed.store.edit? edit.toMillisecond.id = some edit.toMillisecond := found
  have goes := apply_succeeds stands pending applies known granted free
  exact goes

/-- There are two tags for the same. -/
def sameTwice : List (Clock × Call) :=
  staffed ++ [(⟨0⟩, .registerUser "administrator" [.admin])] ++
    accepted 1 3 (.create (.namedTag "outdoors")) ++ accepted 2 5 (.create (.namedTag "open air"))

/-- They are to be one, under a new name. -/
def underOneName : Submission :=
  .merge ⟨Uuid.serial 4⟩ [⟨Uuid.serial 6⟩] (.namedTag "outside")

theorem underOneName_suffices : ∃ edit applied,
    (swift.createEdit (Clock.now ⟨3⟩) ⟨Uuid.serial 0⟩ underOneName
      (swift.run (timed sameTwice))).result = .ok edit ∧
    (swift.apply (Clock.now ⟨4⟩) ⟨Uuid.serial 2⟩ edit.id (swift.run (timed sameTwice ++
      [(Clock.now ⟨3⟩, .createEdit ⟨Uuid.serial 0⟩ underOneName)]))).result = .ok applied := by
  have few : (swift.run (timed sameTwice)).issued + 2 < 1 <<< 62 := by decide +kernel
  have distinct : Set.InjOn swift.draw {number | number ≤ (swift.run (timed sameTwice)).issued + 2} :=
    fun _ first _ second same =>
      Uuid.serial_inj (lt_of_le_of_lt first few) (lt_of_le_of_lt second few) same
  obtain ⟨applies, accepts⟩ := checks_suffice swift (timed sameTwice) (Clock.now ⟨3⟩)
    ⟨Uuid.serial 0⟩ underOneName distinct
  have passed : (underOneName.details (swift.run (timed sameTwice)).store).map
      (fun details => details.kind) = .ok .tag := by
    decide +kernel
  have waits : (swift.createEdit (Clock.now ⟨3⟩) ⟨Uuid.serial 0⟩ underOneName
      (swift.run (timed sameTwice))).result.map Edit.isPending = .ok true := by
    decide +kernel
  obtain ⟨details, checked, -⟩ := Except.map_ok.mp passed
  obtain ⟨edit, accepted⟩ := accepts [.edit] details (by decide +kernel) (by decide +kernel) checked
  rw [accepted] at waits
  obtain ⟨applied, done, -⟩ := applies edit _ accepted (Except.ok.inj waits) rfl (Clock.now ⟨4⟩)
    ⟨Uuid.serial 2⟩ (by decide +kernel) (by decide +kernel) (by decide +kernel)
  exact ⟨edit, applied, accepted, done⟩

end Desk

end Curation
