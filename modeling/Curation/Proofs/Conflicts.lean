/-
**No update is lost.** An edit is made for the values that its target held, and it is applied to
these only. Once another edit that was made for the same value of a field has been applied, the
field holds what that one proposed, which is another value. Whoever comes to accept the edit after
that, by a vote, at the end of voting or as an administrator, finds the mismatch, and the record
stays as it is.

* `Edit.DraftedIn`: where an edit found its values; `Desk.run_drafted`: every pending edit did;
* `Desk.Overtakes`: an edit has been applied while another one for the same value waits;
* `Desk.resolve_fails`: what becomes of an edit that is accepted and cannot be applied;
* `Desk.run_conflicts`: what becomes of an edit that has been overtaken.
-/

import Curation.Proofs.Admission
import Curation.Proofs.Applications
import Curation.Proofs.Footprint

namespace Curation

/-! ### What an edit was made for -/

/-- A difference that shows anything shows what was found, and proposes something else. -/
theorem Request.compare_changes {α : Type} [DecidableEq α] {admits : α → Bool} {current : Option α}
    (known : current.filter admits = current) (request : Request α)
    (shows : (request.compare admits current).1.isSome = true ∨
      (request.compare admits current).2.isSome = true) :
    (request.compare admits current).1 = current ∧
      (request.compare admits current).2 ≠ current := by
  unfold compare at shows ⊢
  rw [known] at shows ⊢
  generalize request.admitted admits = granted at shows ⊢
  cases granted with
  | untouched => simp [difference] at shows
  | cleared =>
    cases current with
    | none => simp [difference] at shows
    | some found => exact ⟨rfl, nofun⟩
  | value wanted =>
    unfold difference at shows ⊢
    dsimp only at shows ⊢
    split at shows
    · simp at shows
    next differs =>
      rw [if_neg differs]
      exact ⟨rfl, fun same => differs same.symm⟩

theorem Scalar.value_injective (sort : Scalar) : Function.Injective sort.value := by
  intro first second same
  rw [← Option.some_inj, ← sort.ofValue?_value first, ← sort.ofValue?_value second, same]

/-- The details of an edit are what a submission of it asks for on a catalogue. -/
def Edit.DraftedIn (edit : Edit) (store : Store) : Prop :=
  ∃ submission : Submission, submission.operation = edit.operation ∧
    submission.target = edit.target ∧ submission.details store = .ok edit.details

/-- **A field that an edit touches held the value that the edit shows as old**, and the edit
proposes another one, or to clear it. -/
theorem Edit.DraftedIn.field {edit : Edit} {store : Store} {id : EntityId} {key : String}
    (drafted : edit.DraftedIn store) (sound : store.Sound) (typed : store.Typed)
    (modifies : edit.operation = .modify) (aims : edit.target = some id)
    (touches : edit.details.Touches (.field key)) :
    ∃ field : Field edit.details.kind, field.key = key ∧
      ((edit.details.change.old.value? field).isSome = true ∨
        (edit.details.change.new.value? field).isSome = true) ∧
      edit.details.change.old.value? field = store.field? id key ∧
      edit.details.change.new.value? field ≠ store.field? id key := by
  obtain ⟨submission, operation, target, checked⟩ := drafted
  have aimed := Submission.checkTarget_ok (Submission.details_ok checked).1
  rw [operation, modifies] at aimed
  obtain ⟨_, given, live⟩ := aimed
  cases given.symm.trans (target.trans aims)
  obtain ⟨same, -⟩ := Submission.details_change checked (by rw [operation, modifies]; decide)
  rw [Submission.change_eq given live] at same
  rw [same] at touches ⊢
  obtain ⟨field, rfl, shows⟩ := touches
  refine ⟨field, rfl, shows, ?_⟩
  have known : ((store.contents submission.proposal.kind id).scalar field).filter field.admits =
      (store.contents submission.proposal.kind id).scalar field := sound.admitted field
  let sides := (submission.proposal.input.scalar field).compare field.admits
    ((store.contents submission.proposal.kind id).scalar field)
  change (sides.1.map field.sort.value).isSome = true ∨
    (sides.2.map field.sort.value).isSome = true at shows
  rw [Option.isSome_map, Option.isSome_map] at shows
  obtain ⟨found, differs⟩ := Request.compare_changes known _ shows
  rw [typed.field?_eq live field]
  exact ⟨congrArg (Option.map field.sort.value) found,
    fun alike => differs (Option.map_injective field.sort.value_injective alike)⟩

namespace Store

variable {store : Store} {id : EntityId} {kind : Kind} {details : Details}

/-! ### Mismatches -/

theorem SameCatalogue.kind? {first second : Store} (same : first.SameCatalogue second) :
    second.kind? = first.kind? := by
  refine kind?_of_condition (condition?_congr ?_)
  rw [same]
  rfl

/-- A record that does not hold what a change found is a mismatch. -/
theorem checkFound_error {change : Change kind} {error : ReviewError}
    (failed : store.checkFound id change = .error error) :
    ∃ difference, error = .mismatch difference := by
  unfold checkFound at failed
  obtain ⟨field, -, refused⟩ := Except.forM_error failed
  dsimp only at refused
  split at refused
  · cases refused
  · split at refused
    · cases refused
    · cases refused
      exact ⟨_, rfl⟩

/-- **A modification of a record that does not hold what was found is refused for that**, or because
the record has been removed. -/
theorem modify_mismatch (known : store.kind? id = some kind)
    (differs : store.checkFound id details.change ≠ .ok ()) :
    ∃ difference, ∀ now, store.modify id kind details now = .error (.mismatch difference) := by
  obtain ⟨condition, holds, alike⟩ := Option.map_eq_some_iff.mp known
  obtain ⟨row, found, rfl⟩ := Option.map_eq_some_iff.mp holds
  unfold modify
  by_cases removed : row.deleted = true
  · have gone : store.requireStillLive id kind = .error (.mismatch .removed) := by
      unfold requireStillLive
      rw [found]
      exact if_pos removed
    exact ⟨.removed, fun now => by rw [gone]; rfl⟩
  · have live : store.requireStillLive id kind = .ok () :=
      requireStillLive_ok.mpr ⟨row, found, alike, Bool.eq_false_iff.mpr removed⟩
    cases failed : store.checkFound id details.change with
    | ok _ => exact absurd failed differs
    | error error =>
      obtain ⟨difference, rfl⟩ := checkFound_error failed
      exact ⟨difference, fun now => by rw [live]; rfl⟩

end Store

namespace Desk

variable {desk : Desk} {now : Instant} {call : Call} {calls : List (Instant × Call)}
  {before after : Store} {ledger : Ledger} {edit : Edit} {id : EntityId} {caller : UserId}

/-! ### Drafts -/

theorem Turn.kind? {kind : Kind} (turn : desk.Turn now call before after)
    (known : before.kind? id = some kind) : after.kind? id = some kind := by
  rcases turn.catalogue with same | ⟨edit, fresh, target, store, applied, same, -⟩
  · rwa [same.kind?]
  · rw [same.kind?]
    exact Edit.apply_kind? applied known

/-- Every pending edit was drafted on a catalogue of some run, whose records still are of their
kinds. -/
def Drafted (desk : Desk) (store : Store) : Prop :=
  ∀ id edit, store.edit? id = some edit → edit.isPending = true →
    ∃ calls, edit.DraftedIn (desk.run calls).store ∧
      ∀ record kind, (desk.run calls).store.kind? record = some kind →
        store.kind? record = some kind

/-- What a turn submits or amends is drafted on the catalogue that it starts with. -/
theorem Turn.drafted (turn : desk.Turn now call (desk.run calls).store after)
    (drafted : desk.Drafted (desk.run calls).store) : desk.Drafted after := by
  intro id edit found pending
  cases edit?_id found
  cases turn.origin found with
  | kept earlier votes =>
    obtain ⟨draft, made, kinds⟩ := drafted _ edit earlier pending
    exact ⟨draft, made, fun record kind known => turn.kind? (kinds record kind known)⟩
  | submitted caller submission details unused checked same catalogue =>
    rw [same]
    exact ⟨calls, ⟨submission, rfl, rfl, checked⟩, fun _ _ => turn.kind?⟩
  | enacted caller submission details number target store unused checked creates application
      catalogue same =>
    rw [same] at pending
    cases pending
  | handled earlier written looked earlierPending handles same =>
    obtain ⟨draft, made, kinds⟩ := drafted _ earlier looked earlierPending
    subst same
    cases handles with
    | amended caller proposal remark details called mayChange limit kind checked catalogue votes =>
      exact ⟨calls, ⟨_, rfl, rfl, checked⟩, fun _ _ => turn.kind?⟩
    | withdrawn catalogue votes => cases pending
    | enforced caller voted number target store cast votes application catalogue => cases pending
    | decided tally verdict written counted decides settles =>
      cases settles with
      | pending catalogue =>
        exact ⟨draft, made, fun record kind known => turn.kind? (kinds record kind known)⟩
      | rejected catalogue => cases pending
      | accepted number target store application catalogue => cases pending
      | failed number error application catalogue => cases pending

/-- **Every pending edit was drafted** on a catalogue that has been reached. -/
theorem run_drafted (desk : Desk) (calls : List (Instant × Call)) :
    desk.Drafted (desk.run calls).store := by
  have every : (∃ reached, desk.run reached = desk.run calls) ∧
      desk.Drafted (desk.run calls).store := by
    refine @run_induction (fun ledger => (∃ reached, desk.run reached = ledger) ∧
      desk.Drafted ledger.store) desk calls ⟨⟨[], rfl⟩, fun _ _ found => nomatch found⟩ ?_
    rintro now - _ call single ⟨⟨reached, rfl⟩, drafted⟩
    exact ⟨⟨reached ++ [(now, call)], desk.run_concat ..⟩, (desk.turn now _ single).drafted drafted⟩
  exact every.2

/-- The target of a pending edit is of the kind of the edit, also if it has been removed since. -/
theorem run_target (desk : Desk) (calls : List (Instant × Call)) {target : EntityId}
    {number : EditId} (found : (desk.run calls).store.edit? number = some edit)
    (pending : edit.isPending = true)
    (aims : edit.target = some target) : (desk.run calls).store.kind? target = some edit.kind := by
  obtain ⟨draft, ⟨submission, -, given, checked⟩, kinds⟩ :=
    desk.run_drafted calls number edit found pending
  have aimed := Submission.checkTarget_ok (Submission.details_ok checked).1
  rw [given, aims] at aimed
  split at aimed
  · obtain ⟨_, same, live⟩ := aimed
    cases same
    rw [← desk.run_kindsFit calls number edit found, Submission.details_kind checked]
    exact kinds _ _ live.kind?
  · cases aimed

/-! ### Edits that come too late -/

/-- **An edit overtakes another.** Both are to modify a record, they touch a field of it, and they
were drafted for the same value of that field. A single transaction has applied the one (a sweep is
a sequence of them), and the other is pending while the field holds what it held after that. -/
structure Overtakes (desk : Desk) (earlier : List (Instant × Call)) (step : Instant × Call)
    (later : List (Instant × Call)) (one other : Edit) (id : EntityId) (key : String) : Prop where
  modify : one.operation = .modify ∧ other.operation = .modify
  target : one.target = some id ∧ other.target = some id
  touches : one.details.Touches (.field key) ∧ other.details.Touches (.field key)
  drafted : ∃ oneDraft otherDraft, one.DraftedIn (desk.run oneDraft).store ∧
    other.DraftedIn (desk.run otherDraft).store ∧
    (desk.run oneDraft).store.field? id key = (desk.run otherDraft).store.field? id key
  single : step.2.isSingle = true
  found : (desk.run earlier).store.edit? one.id = some one
  pending : one.isPending = true
  applies : desk.Applies earlier step one.id
  waits : (desk.run (earlier ++ step :: later)).store.edit? other.id = some other
  unsettled : other.isPending = true
  unchanged : (desk.run (earlier ++ step :: later)).store.field? id key =
    (desk.run (earlier ++ [step])).store.field? id key

namespace Overtakes

variable {earlier later : List (Instant × Call)} {step : Instant × Call} {one other : Edit}
  {key : String}

/-- The field holds what the edit that was applied proposed. -/
theorem holds (overtakes : desk.Overtakes earlier step later one other id key)
    {field : Field one.details.kind} (named : field.key = key)
    (shows : (one.details.change.old.value? field).isSome = true ∨
      (one.details.change.new.value? field).isSome = true) :
    (desk.run (earlier ++ step :: later)).store.field? id key =
      one.details.change.new.value? field := by
  obtain ⟨⟨applied, looked, settled⟩, -⟩ := overtakes.applies
  have regular := desk.run_regular (earlier ++ [step])
  have turn := desk.turn step.1 (desk.run earlier) overtakes.single
  rw [overtakes.unchanged]
  rw [run_concat] at looked regular ⊢
  obtain ⟨fresh, target, store, application, same, -⟩ := turn.application overtakes.found
    overtakes.pending looked ((regular one.id applied looked).applied.symm.trans settled)
  have writes := Edit.apply_ok.mp application
  rw [overtakes.modify.1] at writes
  obtain ⟨aims, done⟩ := writes
  cases aims.symm.trans overtakes.target.1
  have fields : (desk.proceed step.1 (desk.run earlier) step.2).store.field? id key =
      store.field? id key := by
    rw [same]
    rfl
  rw [fields, ← named, Store.modify_field? (desk.run_tidy earlier) done field]
  cases proposed : one.details.change.new.value? field with
  | some value => rfl
  | none =>
    rw [proposed] at shows
    rw [if_pos (shows.resolve_right Bool.false_ne_true)]
    rfl

/-- **An edit that has been overtaken does not apply.** -/
theorem mismatch (overtakes : desk.Overtakes earlier step later one other id key) :
    ∃ difference, ∀ fresh now, other.apply fresh now
      (desk.run (earlier ++ step :: later)).store = .error (.mismatch difference) := by
  obtain ⟨oneDraft, otherDraft, oneDrafted, otherDrafted, same⟩ := overtakes.drafted
  obtain ⟨field, named, shows, -, proposes⟩ := oneDrafted.field (desk.run_sound _)
    (desk.run_typed _) overtakes.modify.1 overtakes.target.1 overtakes.touches.1
  obtain ⟨otherField, otherNamed, touched, finds, -⟩ := otherDrafted.field (desk.run_sound _)
    (desk.run_typed _) overtakes.modify.2 overtakes.target.2 overtakes.touches.2
  have differs : (desk.run (earlier ++ step :: later)).store.checkFound id other.details.change ≠
      .ok () := by
    intro passed
    rcases Store.checkFound_ok.mp passed otherField with ⟨nothing, unproposed⟩ | stands
    · rw [nothing, unproposed] at touched
      exact touched.elim Bool.false_ne_true Bool.false_ne_true
    · rw [otherNamed, overtakes.holds named shows, finds, ← same] at stands
      exact proposes stands
  obtain ⟨difference, refused⟩ := Store.modify_mismatch
    (desk.run_target _ overtakes.waits overtakes.unsettled overtakes.target.2) differs
  refine ⟨difference, fun fresh now => ?_⟩
  unfold Edit.apply
  rw [overtakes.modify.2, Edit.requireTarget_ok.mpr overtakes.target.2]
  show (do
    let store ← (desk.run (earlier ++ step :: later)).store.modify id other.kind other.details now
    return (id, store)) = _
  rw [refused]
  rfl

end Overtakes

/-! ### Accepting an edit that cannot be applied -/

/-- An edit has failed, and nothing has become of the catalogue. -/
structure Fails (before after : Store) (number : EditId) : Prop where
  status : (after.edit? number).map Edit.status = some .failed
  catalogue : before.SameCatalogue after

/-- The comment that says why an edit could not be applied. -/
def failureComment (desk : Desk) (issued : Nat) (edit : EditId) (error : ReviewError)
    (now : Instant) : Comment :=
  ⟨⟨desk.draw issued⟩, edit, none, "Edit application failed: " ++ error.message, now⟩

/-- **An edit that is accepted and cannot be applied has failed**; its review gets a comment, and
nothing else has happened. -/
theorem resolve_failed {counted : Edit} {error : ReviewError}
    (stored : ledger.store.hasEdit counted.id = true)
    (unused : ∀ comment ∈ ledger.store.comments, comment.id ≠ ⟨desk.draw ledger.issued⟩)
    (refused : counted.apply ⟨desk.draw ledger.issued⟩ now ledger.store = .error error) :
    desk.resolve counted .accept now ledger = .ok ((counted.close .failed now, []),
      ⟨{ ledger.store with
          comments := ledger.store.comments ++
            [desk.failureComment ledger.issued counted.id error now] }, ledger.issued + 1⟩) := by
  have attempt : desk.applyToStore counted now ledger = .error error :=
    congrArg (Except.map _) refused
  obtain ⟨after, inserted⟩ : ∃ after, ledger.store.insertComment
      (desk.failureComment ledger.issued counted.id error now) = .ok after :=
    Store.insertComment_succeeds unused stored
  rw [← Store.insertComment_ok inserted]
  unfold resolve
  dsimp only
  rw [attempt]
  dsimp only
  unfold addComment
  simp only [Step.bind_ok, Step.issue_ok, Step.write_ok, Step.pure_ok]
  exact ⟨_, _, ⟨_, _, ⟨rfl, rfl⟩, (), _, ⟨after, inserted, rfl⟩, rfl, rfl⟩, trivial, rfl⟩

/-- Catalogue, edits and votes are what they were. -/
theorem resolve_fails {counted : Edit} {error : ReviewError}
    (stored : ledger.store.hasEdit counted.id = true)
    (unused : ∀ comment ∈ ledger.store.comments, comment.id ≠ ⟨desk.draw ledger.issued⟩)
    (refused : counted.apply ⟨desk.draw ledger.issued⟩ now ledger.store = .error error) :
    ∃ commented, desk.resolve counted .accept now ledger =
        .ok ((counted.close .failed now, []), commented) ∧
      SameCore ledger.store commented.store :=
  ⟨_, resolve_failed stored unused refused, rfl, rfl, rfl⟩

/-- An edit that has failed is stored as such. -/
theorem fails_written {counted : Edit} {middle : Ledger} (now : Instant)
    (found : before.edit? counted.id = some edit) (core : SameCore before middle.store) :
    ∃ after, middle.store.updateEdit (counted.close .failed now) = .ok after ∧
      Fails before after counted.id := by
  have looked : middle.store.edit? counted.id = some edit :=
    (Store.edit?_congr core.edits counted.id).trans found
  obtain ⟨after, updated⟩ : ∃ after,
      middle.store.updateEdit (counted.close .failed now) = .ok after :=
    Store.updateEdit_succeeds rfl (Store.hasEdit_of_edit? looked)
  obtain ⟨catalogue, -, edits⟩ := updateEdit_frame updated
  exact ⟨after, updated, congrArg (Option.map Edit.status) (Store.edit?_written edits looked),
    core.catalogue.trans catalogue⟩

/-- An edit that has failed stays so when effects follow. -/
theorem follow_fails {later : Ledger} {number : EditId} (fails : Fails before later.store number)
    (effects : List Effect) : Fails before (desk.follow effects later).1.store number := by
  obtain ⟨grants, followed⟩ := desk.follow_store effects later
  rw [followed]
  exact ⟨fails.status, fails.catalogue.trans rfl⟩

section Refused

variable {error : ReviewError} (found : ledger.store.edit? edit.id = some edit)
  (refused : edit.apply ⟨desk.draw ledger.issued⟩ now ledger.store = .error error)

include found refused

/-- An administrator is told why an edit cannot be applied, and the edit stays pending. -/
theorem apply_refused (pending : edit.isPending = true)
    (permitted : Permits ledger.store caller .admin) :
    desk.apply now caller edit.id ledger = ⟨.error (.refused error), ledger, []⟩ := by
  obtain ⟨roles, given, allowed⟩ := permitted
  obtain ⟨voted, cast⟩ : ∃ voted, ledger.store.upsertVote
      ⟨edit.id, caller, .immediateAccept, now⟩ = .ok voted :=
    Store.upsertVote_succeeds (Store.hasEdit_of_edit? found)
  have attempt : desk.applyToStore edit now ⟨voted, ledger.issued⟩ = .error error :=
    congrArg (Except.map _) ((apply_error (upsertVote_sameCatalogue cast).1).mpr refused)
  have waits : requirePending edit = .ok () := requirePending_ok.mpr pending
  have casts : Step.write (fun store => store.upsertVote ⟨edit.id, caller, .immediateAccept, now⟩)
      ledger = .ok ((), ⟨voted, ledger.issued⟩) := Step.write_ok.mpr ⟨voted, cast, rfl⟩
  refine carryOut_failed ?_
  rw [Step.bind_of_ok (Step.check_ok.mpr ⟨given, rfl⟩),
    Step.bind_of_ok (Step.check_ok.mpr ⟨allowed, rfl⟩),
    Step.bind_of_ok (Step.check_ok.mpr ⟨loadEdit_ok.mpr found, rfl⟩),
    Step.bind_of_ok (Step.check_ok.mpr ⟨waits, rfl⟩), Step.bind_of_ok casts]
  exact Step.bind_of_error (Step.bind_of_error attempt)

variable (unused : ∀ comment ∈ ledger.store.comments, comment.id ≠ ⟨desk.draw ledger.issued⟩)

include unused

/-- A vote that has an edit accepted which cannot be applied makes it fail. -/
theorem vote_fails {choice : Choice} {voted : Store} (pending : edit.isPending = true)
    (ballot : choice.isBallot = true) (permitted : Permits ledger.store caller .vote)
    (other : edit.submitter ≠ some caller)
    (cast : ledger.store.upsertVote ⟨edit.id, caller, choice, now⟩ = .ok voted)
    (accepts : desk.verdictOn voted edit now = .accept) :
    (desk.vote now caller edit.id choice ledger).result.map Edit.status = .ok .failed ∧
      Fails ledger.store (desk.vote now caller edit.id choice ledger).ledger.store edit.id := by
  obtain ⟨sameVoted, edits⟩ := upsertVote_sameCatalogue cast
  have stored : voted.edit? edit.id = some edit := (Store.edit?_congr edits edit.id).trans found
  let counted := { edit with score := (Tally.ofVotes (voted.votesOn edit.id)).net }
  obtain ⟨commented, resolves, core⟩ := @resolve_fails desk now ⟨voted, ledger.issued⟩ counted error
    (Store.hasEdit_of_edit? stored) (by rw [upsertVote_frame cast]; exact unused)
    ((apply_error sameVoted).mpr refused)
  rw [← accepts] at resolves
  obtain ⟨after, updated, status, catalogue⟩ :=
    @fails_written voted edit counted commented now stored core
  rw [vote_resolves found updated pending ballot permitted other cast resolves]
  exact ⟨rfl, follow_fails ⟨status, sameVoted.trans catalogue⟩ _⟩

/-- An edit that is accepted when voting ends and cannot be applied fails. -/
theorem closeIfDue_fails (due : desk.isDue ledger.store edit now = true)
    (accepts : Verdict.onExpiry (.ofVotes (ledger.store.votesOn edit.id)) (desk.policy edit) =
      .accept) :
    (desk.carryOut (desk.closeIfDue now edit.id) ledger).result = .ok true ∧
      Fails ledger.store (desk.carryOut (desk.closeIfDue now edit.id) ledger).ledger.store
        edit.id := by
  let counted := { edit with score := (Tally.ofVotes (ledger.store.votesOn edit.id)).net }
  obtain ⟨commented, resolves, core⟩ := @resolve_fails desk now ledger counted error
    (Store.hasEdit_of_edit? found) unused refused
  rw [← accepts] at resolves
  obtain ⟨after, updated, fails⟩ :=
    @fails_written ledger.store edit counted commented now found core
  rw [carryOut_done (closeIfDue_resolves found updated due resolves)]
  exact ⟨rfl, fails⟩

end Refused

/-- **No update is lost**: an edit that has been overtaken does not apply at any time, whatever has
been done meanwhile that left the field as it is. An administrator who applies it is told of the
mismatch, and it stays pending. A vote that has it accepted makes it fail, and so does the end of
voting, given that the identifier of the comment that says so is new; the catalogue stays as it was.
-/
theorem run_conflicts {earlier later : List (Instant × Call)} {step : Instant × Call}
    {one other : Edit} {key : String}
    (overtakes : desk.Overtakes earlier step later one other id key) {last : Ledger}
    (reached : last = desk.run (earlier ++ step :: later)) :
    ∃ difference,
      (∀ fresh now, other.apply fresh now last.store = .error (.mismatch difference)) ∧
      (∀ now caller, Permits last.store caller .admin →
        desk.apply now caller other.id last = ⟨.error (.refused (.mismatch difference)), last, []⟩) ∧
      (Set.InjOn desk.draw {number | number ≤ last.issued} →
        (∀ now caller choice voted, choice.isBallot = true → Permits last.store caller .vote →
          other.submitter ≠ some caller →
          last.store.upsertVote ⟨other.id, caller, choice, now⟩ = .ok voted →
          desk.verdictOn voted other now = .accept →
          (desk.vote now caller other.id choice last).result.map Edit.status = .ok .failed ∧
            Fails last.store (desk.vote now caller other.id choice last).ledger.store other.id) ∧
        ∀ now, desk.isDue last.store other now = true →
          Verdict.onExpiry (.ofVotes (last.store.votesOn other.id)) (desk.policy other) = .accept →
          (desk.carryOut (desk.closeIfDue now other.id) last).result = .ok true ∧
            Fails last.store (desk.carryOut (desk.closeIfDue now other.id) last).ledger.store
              other.id) := by
  obtain ⟨difference, refused⟩ := overtakes.mismatch
  have found := overtakes.waits
  have pending := overtakes.unsettled
  rw [← reached] at refused found
  refine ⟨difference, refused, fun now caller => apply_refused found (refused _ now) pending,
    fun distinct => ?_⟩
  have unused : Unused last.store (desk.draw last.issued) := by
    rw [reached] at distinct ⊢
    exact desk.run_unused _ distinct le_rfl le_rfl
  exact ⟨fun now caller choice voted => vote_fails found (refused _ now) unused.comment pending,
    fun now => closeIfDue_fails found (refused _ now) unused.comment⟩

theorem renamedTwice_conflicts : ∃ one other difference,
    swift.Overtakes (timed renamedTwice.dropLast)
        (Clock.now ⟨2⟩, .vote ⟨Uuid.serial 1⟩ ⟨Uuid.serial 5⟩ .accept) [] one other
        ⟨Uuid.serial 4⟩ "name" ∧
      (swift.apply (Clock.now ⟨3⟩) ⟨Uuid.serial 2⟩ other.id
        (swift.run (timed renamedTwice))).result = .error (.refused (.mismatch difference)) ∧
      Fails (swift.run (timed renamedTwice)).store (swift.vote (Clock.now ⟨3⟩)
        ⟨Uuid.serial 1⟩ other.id .accept (swift.run (timed renamedTwice))).ledger.store other.id ∧
      Fails (swift.run (timed renamedTwice)).store (swift.carryOut
        (swift.closeIfDue (Clock.now ⟨400000000⟩) other.id)
        (swift.run (timed renamedTwice))).ledger.store other.id := by
  have first : ((swift.run (timed renamedTwice.dropLast)).store.edit? ⟨Uuid.serial 5⟩).any
      (fun one => decide ((one.operation = .modify ∧ one.target = some ⟨Uuid.serial 4⟩) ∧
        Part.field "name" ∈ one.details.touched ∧ one.isPending = true ∧
        (Submission.modify ⟨Uuid.serial 4⟩ (.namedTag "open air")).details
          (swift.run (timed (renamedTwice.take 5))).store = .ok one.details)) = true := by
    decide +kernel
  have second : ((swift.run (timed renamedTwice)).store.edit? ⟨Uuid.serial 6⟩).any
      (fun other => decide ((other.operation = .modify ∧ other.target = some ⟨Uuid.serial 4⟩) ∧
        Part.field "name" ∈ other.details.touched ∧ other.isPending = true ∧
        (Submission.modify ⟨Uuid.serial 4⟩ (.namedTag "outside")).details
          (swift.run (timed (renamedTwice.take 5))).store = .ok other.details ∧
        other.submitter ≠ some ⟨Uuid.serial 1⟩ ∧
        swift.isDue (swift.run (timed renamedTwice)).store other (Clock.now ⟨400000000⟩) = true ∧
        Verdict.onExpiry (.ofVotes ((swift.run (timed renamedTwice)).store.votesOn other.id))
          (swift.policy other) = .accept ∧
        ((swift.run (timed renamedTwice)).store.upsertVote
          ⟨other.id, ⟨Uuid.serial 1⟩, .accept, Clock.now ⟨3⟩⟩).map
            (fun voted => swift.verdictOn voted other (Clock.now ⟨3⟩)) = .ok .accept)) = true := by
    decide +kernel
  obtain ⟨one, found, facts⟩ := (Option.any_eq_true ..).mp first
  obtain ⟨oneAims, oneTouches, onePending, oneDraft⟩ := of_decide_eq_true facts
  obtain ⟨other, waits, facts⟩ := (Option.any_eq_true ..).mp second
  obtain ⟨otherAims, otherTouches, otherPending, otherDraft, notOwn, due, expires, settles⟩ :=
    of_decide_eq_true facts
  obtain ⟨voted, cast, accepts⟩ := Except.map_ok.mp settles
  have applies : (swift.run (timed renamedTwice.dropLast)).store.TurnsApplied
      (swift.run (timed renamedTwice)).store ⟨Uuid.serial 5⟩ := by
    decide +kernel
  have overtakes : swift.Overtakes (timed renamedTwice.dropLast)
      (Clock.now ⟨2⟩, .vote ⟨Uuid.serial 1⟩ ⟨Uuid.serial 5⟩ .accept) [] one other
      ⟨Uuid.serial 4⟩ "name" :=
    { modify := ⟨oneAims.1, otherAims.1⟩
      target := ⟨oneAims.2, otherAims.2⟩
      touches := ⟨Details.mem_touched.mp oneTouches, Details.mem_touched.mp otherTouches⟩
      drafted := ⟨_, _, ⟨_, oneAims.1.symm, oneAims.2.symm, oneDraft⟩,
        ⟨_, otherAims.1.symm, otherAims.2.symm, otherDraft⟩, rfl⟩
      single := rfl
      found := by rw [edit?_id found, found]
      pending := onePending
      applies := by rw [edit?_id found]; exact applies
      waits := by rw [edit?_id waits]; exact waits
      unsettled := otherPending
      unchanged := rfl }
  have few : (swift.run (timed renamedTwice)).issued < 1 <<< 62 := by decide +kernel
  have distinct :
      Set.InjOn swift.draw {number | number ≤ (swift.run (timed renamedTwice)).issued} :=
    fun _ first _ second same =>
      Uuid.serial_inj (lt_of_le_of_lt first few) (lt_of_le_of_lt second few) same
  obtain ⟨difference, -, enforced, review⟩ :=
    run_conflicts overtakes (show swift.run (timed renamedTwice) = _ from rfl)
  obtain ⟨voting, closing⟩ := review distinct
  refine ⟨one, other, difference, overtakes, ?_, ?_, (closing _ due expires).2⟩
  · rw [enforced (Clock.now ⟨3⟩) ⟨Uuid.serial 2⟩ ⟨[.admin], by decide +kernel, by decide⟩]
  · exact (voting _ _ _ voted rfl ⟨[.vote], by decide +kernel, by decide⟩ notOwn cast accepts).2

end Desk

end Curation
