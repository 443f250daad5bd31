/-
**What a transaction can do.** A transaction leaves the catalogue, the edits and the votes as they
were, or it submits an edit, handles a pending one, or deletes one that is no longer pending. Every
statement about runs is read off this list.

* `Desk.Turn`: the list, and `Desk.turn`: every transaction is on it;
* `Desk.Handles`, `Desk.Decides`, `Desk.Settles`: how a pending edit is handled;
* `Desk.run_keeps`: what every turn keeps holds after every run.
-/

import Curation.Proofs.Runs

namespace Curation

/-- The edits with the state of one of them written. -/
def Store.editsWith (store : Store) (written : Edit) : List Edit :=
  store.edits.map fun stored => if stored.id = written.id then overwriteEdit stored written else stored

namespace Desk

/-! ### The list -/

/-- How a submission is filed: as a pending edit, or as one that has been applied at once. -/
inductive Files (desk : Desk) (now : Instant) (before after : Store) (caller : UserId)
    (submission : Submission) : Edit → Prop where
  | pending (id : EditId) (details : Details) (unused : before.hasEdit id = false)
      (checked : submission.details before = .ok details)
      (catalogue : before.SameCatalogue after) :
      Files desk now before after caller submission (submission.edit id caller details now)
  | enacted (id : EditId) (details : Details) (number : Nat) (target : EntityId) (store : Store)
      (unused : before.hasEdit id = false) (checked : submission.details before = .ok details)
      (creates : submission.operation = .create)
      (application :
        (submission.edit id caller details now).apply ⟨desk.draw number⟩ now before =
          .ok (target, store))
      (catalogue : store.SameCatalogue after) :
      Files desk now before after caller submission
        ({ submission.edit id caller details now with target := some target }.close
          .immediateAccepted now)

/-- How a verdict on a counted edit is carried out. -/
inductive Settles (desk : Desk) (now : Instant) (before after : Store) (counted : Edit) :
    Verdict → Edit → Prop where
  | pending (catalogue : before.SameCatalogue after) :
      Settles desk now before after counted .pending counted
  | rejected (catalogue : before.SameCatalogue after) :
      Settles desk now before after counted .reject (counted.close .rejected now)
  | accepted (number : Nat) (target : EntityId) (store : Store)
      (application : counted.apply ⟨desk.draw number⟩ now before = .ok (target, store))
      (catalogue : store.SameCatalogue after) :
      Settles desk now before after counted .accept
        ({ counted with target := some target }.close .accepted now)
  | failed (number : Nat) (error : ReviewError)
      (application : counted.apply ⟨desk.draw number⟩ now before = .error error)
      (catalogue : before.SameCatalogue after) :
      Settles desk now before after counted .accept (counted.close .failed now)

/-- How a verdict on an edit is reached: by a ballot, or because voting has ended. -/
inductive Decides (desk : Desk) (now : Instant) (before after : Store) (edit counted : Edit)
    (tally : Tally) : Verdict → Prop where
  | vote (caller : UserId) (choice : Choice) (voted : Store) (ballot : choice.isBallot = true)
      (other : edit.submitter ≠ some caller)
      (cast : before.upsertVote ⟨edit.id, caller, choice, now⟩ = .ok voted)
      (votes : after.votes = voted.votes) :
      Decides desk now before after edit counted tally
        (.onVote counted tally (desk.policy counted) now desk.rules)
  | expiry (ended : Verdict.votingEnds edit tally desk.rules ≤ now)
      (votes : after.votes = before.votes) :
      Decides desk now before after edit counted tally (.onExpiry tally (desk.policy edit))

/-- How a pending edit is handled, and what is written in its place. -/
inductive Handles (desk : Desk) (now : Instant) (call : Call) (before after : Store)
    (edit : Edit) : Edit → Prop where
  | amended (caller : UserId) (proposal : Proposal) (remark : Option String) (details : Details)
      (called : call = .updateEdit caller edit.id proposal remark)
      (mayChange : edit.operation ≠ .destroy) (limit : edit.amendments < desk.rules.amendmentLimit)
      (kind : proposal.kind = edit.kind)
      (checked : (edit.resubmission proposal remark).details before = .ok details)
      (catalogue : before.SameCatalogue after)
      (votes : after.votes = before.votes.filter fun vote => vote.edit ≠ edit.id) :
      Handles desk now call before after edit
        { edit with details, amendments := edit.amendments + 1, updated := some now, score := 0 }
  | withdrawn (catalogue : before.SameCatalogue after)
      (votes : after.votes = before.votes ∨ ∃ caller voted,
        before.upsertVote ⟨edit.id, caller, .immediateReject, now⟩ = .ok voted ∧
          after.votes = voted.votes) :
      Handles desk now call before after edit (edit.close .immediateRejected now)
  | enforced (caller : UserId) (voted : Store) (number : Nat) (target : EntityId) (store : Store)
      (cast : before.upsertVote ⟨edit.id, caller, .immediateAccept, now⟩ = .ok voted)
      (votes : after.votes = voted.votes)
      (application : edit.apply ⟨desk.draw number⟩ now before = .ok (target, store))
      (catalogue : store.SameCatalogue after) :
      Handles desk now call before after edit
        ({ edit with target := some target }.close .immediateAccepted now)
  | decided (tally : Tally) (verdict : Verdict) (written : Edit)
      (counted : tally = Tally.ofVotes (after.votesOn edit.id))
      (decides : Decides desk now before after edit { edit with score := tally.net } tally verdict)
      (settles : Settles desk now before after { edit with score := tally.net } verdict written) :
      Handles desk now call before after edit written

/-- What a transaction can do to the catalogue, the edits and the votes. -/
inductive Turn (desk : Desk) (now : Instant) (call : Call) (before after : Store) : Prop where
  | idle (catalogue : before.SameCatalogue after) (edits : after.edits = before.edits)
      (votes : after.votes = before.votes)
  | filed (caller : UserId) (submission : Submission) (edit : Edit)
      (files : Files desk now before after caller submission edit)
      (edits : after.edits = before.edits ++ [edit]) (votes : after.votes = before.votes)
  | handled (edit written : Edit) (found : before.edit? edit.id = some edit)
      (pending : edit.isPending = true) (handles : desk.Handles now call before after edit written)
      (edits : after.edits = before.editsWith written)
  | deleted (edit : Edit) (caller : UserId) (reason : String)
      (called : call = .deleteEdit caller edit.id reason) (found : before.edit? edit.id = some edit)
      (settled : edit.isPending = false) (catalogue : before.SameCatalogue after)
      (edits : after.edits = before.edits.filter fun stored => stored.id ≠ edit.id)
      (votes : after.votes = before.votes.filter fun vote => vote.edit ≠ edit.id)

/-! ### What a turn does not show -/

/-- Two stores hold the same catalogue, edits and votes. -/
structure SameCore (first second : Store) : Prop where
  catalogue : first.SameCatalogue second
  edits : second.edits = first.edits
  votes : second.votes = first.votes

theorem editsWith_congr {first second : Store} (edits : second.edits = first.edits)
    (written : Edit) : second.editsWith written = first.editsWith written := by
  unfold Store.editsWith
  rw [edits]

/-- Writing the edit that was stored last leaves the others alone. -/
theorem editsWith_append {store : Store} {edit written : Edit}
    (unused : store.hasEdit edit.id = false) (same : written.id = edit.id) :
    ({ store with edits := store.edits ++ [edit] } : Store).editsWith written =
      store.edits ++ [Store.overwriteEdit edit written] := by
  unfold Store.editsWith
  rw [List.map_append, List.map_singleton, if_pos same.symm]
  congr 1
  refine (List.map_congr_left fun stored member => ?_).trans (List.map_id _)
  have other : stored.id ≠ written.id := by
    intro clash
    rw [Store.hasEdit, List.any_eq_false] at unused
    exact unused stored member (decide_eq_true (clash.trans same))
  rw [if_neg other, id]

theorem votesOn_congr {first second : Store} (votes : second.votes = first.votes) (id : EditId) :
    second.votesOn id = first.votesOn id := by
  unfold Store.votesOn
  rw [votes]

section Congruence

variable {desk : Desk} {now : Instant} {call : Call} {before after later : Store}
  {edit counted written : Edit} {tally : Tally} {verdict : Verdict}

theorem Files.congr {caller : UserId} {submission : Submission}
    (files : Files desk now before after caller submission edit) (same : after.SameCatalogue later) :
    Files desk now before later caller submission edit := by
  cases files with
  | pending id details unused checked catalogue =>
    exact .pending id details unused checked (catalogue.trans same)
  | enacted id details number target store unused checked creates application catalogue =>
    exact .enacted id details number target store unused checked creates application
      (catalogue.trans same)

theorem Settles.congr (settles : Settles desk now before after counted verdict written)
    (same : after.SameCatalogue later) : Settles desk now before later counted verdict written := by
  cases settles with
  | pending catalogue => exact .pending (catalogue.trans same)
  | rejected catalogue => exact .rejected (catalogue.trans same)
  | accepted number target store application catalogue =>
    exact .accepted number target store application (catalogue.trans same)
  | failed number error application catalogue =>
    exact .failed number error application (catalogue.trans same)

theorem Decides.congr (decides : Decides desk now before after edit counted tally verdict)
    (same : SameCore after later) : Decides desk now before later edit counted tally verdict := by
  cases decides with
  | vote caller choice voted ballot other cast votes =>
    exact .vote caller choice voted ballot other cast (same.votes.trans votes)
  | expiry ended votes => exact .expiry ended (same.votes.trans votes)

theorem Handles.congr (handles : Handles desk now call before after edit written)
    (same : SameCore after later) : Handles desk now call before later edit written := by
  cases handles with
  | amended caller proposal remark details called mayChange limit kind checked catalogue votes =>
    exact .amended caller proposal remark details called mayChange limit kind checked
      (catalogue.trans same.catalogue) (same.votes.trans votes)
  | withdrawn catalogue votes =>
    refine .withdrawn (catalogue.trans same.catalogue) ?_
    rw [same.votes]
    exact votes
  | enforced caller voted number target store cast votes application catalogue =>
    exact .enforced caller voted number target store cast (same.votes.trans votes) application
      (catalogue.trans same.catalogue)
  | decided tally verdict written count decides settles =>
    refine .decided tally verdict written ?_ (decides.congr same) (settles.congr same.catalogue)
    rw [votesOn_congr same.votes]
    exact count

theorem Turn.congr (turn : Turn desk now call before after) (same : SameCore after later) :
    Turn desk now call before later := by
  cases turn with
  | idle catalogue edits votes =>
    exact .idle (catalogue.trans same.catalogue) (same.edits.trans edits) (same.votes.trans votes)
  | filed caller submission edit files edits votes =>
    exact .filed caller submission edit (files.congr same.catalogue) (same.edits.trans edits)
      (same.votes.trans votes)
  | handled edit written found pending handles edits =>
    exact .handled edit written found pending (handles.congr same) (same.edits.trans edits)
  | deleted edit caller reason called found settled catalogue edits votes =>
    exact .deleted edit caller reason called found settled (catalogue.trans same.catalogue)
      (same.edits.trans edits) (same.votes.trans votes)

end Congruence

theorem Turn.refl (desk : Desk) (now : Instant) (call : Call) (store : Store) :
    desk.Turn now call store store :=
  .idle (.refl store) rfl rfl

/-- An operation is a turn if its step is one whenever it succeeds. -/
theorem Turn.carryOut {α : Type} {desk : Desk} {now : Instant} {call : Call}
    {step : Step (α × List Effect)} {ledger : Ledger}
    (succeeds : ∀ result effects after, step ledger = .ok ((result, effects), after) →
      desk.Turn now call ledger.store after.store) :
    desk.Turn now call ledger.store (desk.carryOut step ledger).ledger.store := by
  rcases desk.carryOut_cases step ledger with same | ⟨result, effects, after, done, -, same⟩
  · rw [same]
    exact .refl desk now call ledger.store
  · obtain ⟨grants, followed⟩ := desk.follow_store effects after
    rw [same, followed]
    exact (succeeds result effects after done).congr ⟨rfl, rfl, rfl⟩

/-- The same for an operation that has no effects. -/
theorem Turn.carryOutQuietly {α : Type} {desk : Desk} {now : Instant} {call : Call} {step : Step α}
    {ledger : Ledger}
    (succeeds : ∀ result after, step ledger = .ok (result, after) →
      desk.Turn now call ledger.store after.store) :
    desk.Turn now call ledger.store (Desk.carryOutQuietly step ledger).ledger.store := by
  rcases carryOutQuietly_cases step ledger with same | ⟨result, after, done, same⟩
  · rw [same]
    exact .refl desk now call ledger.store
  · rw [same]
    exact succeeds result after done

/-! ### Parts of transactions -/

section Parts

variable {store after : Store}

theorem edit?_id {id : EditId} {edit : Edit} (found : store.edit? id = some edit) : edit.id = id := by
  obtain ⟨row, member, rfl⟩ := Option.map_eq_some_iff.mp found
  have same := List.find?_some member
  exact of_decide_eq_true same

theorem upsertVote_frame {vote : Vote} (cast : store.upsertVote vote = .ok after) :
    after = { store with votes := after.votes } := by
  unfold Store.upsertVote at cast
  split at cast
  · cases cast
  · split at cast
    · cases cast
      rfl
    · cases cast
      rfl

theorem updateEdit_ok {edit : Edit} (done : store.updateEdit edit = .ok after) :
    after = { store with edits := store.editsWith edit } := by
  unfold Store.updateEdit at done
  split at done
  · cases done
  · split at done
    · cases done
    · cases done
      rfl

theorem insertEdit_ok {edit : Edit} (done : store.insertEdit edit = .ok after) :
    store.hasEdit edit.id = false ∧ after = { store with edits := store.edits ++ [edit] } := by
  unfold Store.insertEdit at done
  split at done
  · cases done
  · split at done
    · cases done
    · next unused =>
      cases done
      exact ⟨by simpa using unused, rfl⟩

theorem insertComment_frame {comment : Comment} (done : store.insertComment comment = .ok after) :
    SameCore store after := by
  unfold Store.insertComment at done
  split at done
  · cases done
  · split at done
    · cases done
    · cases done
      exact ⟨rfl, rfl, rfl⟩

theorem deleteWithAudit_ok {audit : AuditId} {edit : Edit} {caller : UserId} {reason : String}
    {now : Instant} (done : store.deleteWithAudit audit edit caller reason now = .ok after) :
    store.SameCatalogue after ∧
      after.edits = store.edits.filter (fun stored => stored.id ≠ edit.id) ∧
      after.votes = store.votes.filter fun vote => vote.edit ≠ edit.id := by
  obtain ⟨audited, inserted, finish⟩ := Except.bind_ok.mp done
  cases finish
  unfold Store.insertAudit at inserted
  split at inserted
  · cases inserted
  · cases inserted
    exact ⟨rfl, rfl, rfl⟩

end Parts

theorem SameCore.refl (store : Store) : SameCore store store := ⟨.refl store, rfl, rfl⟩

theorem SameCore.trans {first second third : Store} (left : SameCore first second)
    (right : SameCore second third) : SameCore first third :=
  ⟨left.catalogue.trans right.catalogue, right.edits.trans left.edits,
    right.votes.trans left.votes⟩

theorem addComment_frame {desk : Desk} {edit : EditId} {author : Option UserId} {text : String}
    {now : Instant} {ledger after : Ledger} {comment : Comment}
    (done : desk.addComment edit author text now ledger = .ok (comment, after)) :
    SameCore ledger.store after.store := by
  unfold addComment at done
  simp only [Step.bind_ok, Step.issue_ok, Step.write_ok, Step.pure_ok] at done
  obtain ⟨_, _, ⟨rfl, rfl⟩, _, _, ⟨store, inserted, rfl⟩, _, rfl⟩ := done
  exact insertComment_frame inserted

theorem addRemark_frame {desk : Desk} {edit : EditId} {author : UserId} {remark : Option String}
    {now : Instant} {ledger after : Ledger} {result : Unit}
    (done : desk.addRemark edit author remark now ledger = .ok (result, after)) :
    SameCore ledger.store after.store := by
  unfold addRemark at done
  split at done
  · obtain ⟨-, rfl⟩ := Step.pure_ok.mp done
    exact .refl _
  · split at done
    · obtain ⟨-, rfl⟩ := Step.pure_ok.mp done
      exact .refl _
    · obtain ⟨_, _, added, finish⟩ := Step.bind_ok.mp done
      obtain ⟨-, rfl⟩ := Step.pure_ok.mp finish
      exact addComment_frame added

theorem applyToStore_ok {desk : Desk} {edit applied : Edit} {now : Instant} {ledger after : Ledger} :
    desk.applyToStore edit now ledger = .ok (applied, after) ↔
      ∃ target store, edit.apply ⟨desk.draw ledger.issued⟩ now ledger.store = .ok (target, store) ∧
        applied = { edit with target := some target } ∧ after = ⟨store, ledger.issued + 1⟩ := by
  unfold applyToStore
  rw [Except.map_ok]
  constructor
  · rintro ⟨⟨target, store⟩, done, same⟩
    cases same
    exact ⟨target, store, done, rfl, rfl⟩
  · rintro ⟨target, store, done, rfl, rfl⟩
    exact ⟨(target, store), done, rfl⟩

/-- **A verdict is settled on the catalogue, and edits and votes are left to the caller.** -/
theorem resolve_settles {desk : Desk} {counted resolved : Edit} {verdict : Verdict} {now : Instant}
    {ledger after : Ledger} {effects : List Effect}
    (done : desk.resolve counted verdict now ledger = .ok ((resolved, effects), after)) :
    Settles desk now ledger.store after.store counted verdict resolved ∧
      after.store.edits = ledger.store.edits ∧ after.store.votes = ledger.store.votes := by
  unfold resolve at done
  cases verdict with
  | pending =>
    obtain ⟨same, rfl⟩ := Step.pure_ok.mp done
    cases same
    exact ⟨.pending (.refl _), rfl, rfl⟩
  | reject =>
    obtain ⟨same, rfl⟩ := Step.pure_ok.mp done
    cases same
    exact ⟨.rejected (.refl _), rfl, rfl⟩
  | accept =>
    dsimp only at done
    split at done
    next applied middle applies =>
      obtain ⟨target, store, application, rfl, rfl⟩ := applyToStore_ok.mp applies
      cases done
      exact ⟨.accepted _ target store application (.refl _), Edit.apply_review application⟩
    next error refused =>
      obtain ⟨_, _, added, finish⟩ := Step.bind_ok.mp done
      obtain ⟨same, rfl⟩ := Step.pure_ok.mp finish
      cases same
      have frame := addComment_frame added
      refine ⟨.failed ledger.issued error ?_ frame.catalogue, frame.edits, frame.votes⟩
      unfold applyToStore at refused
      cases application : counted.apply ⟨desk.draw ledger.issued⟩ now ledger.store with
      | ok value =>
        rw [application] at refused
        cases refused
      | error cause =>
        rw [application] at refused
        cases refused
        rfl

/-- Applying an edit on the same catalogue has the same outcome. -/
theorem apply_rebase {edit : Edit} {fresh target : EntityId} {now : Instant}
    {first second store : Store} (same : first.SameCatalogue second)
    (applies : edit.apply fresh now second = .ok (target, store)) :
    ∃ earlier, edit.apply fresh now first = .ok (target, earlier) ∧ earlier.SameCatalogue store := by
  rw [same, Edit.apply_graft] at applies
  obtain ⟨⟨given, earlier⟩, application, result⟩ := Except.map_ok.mp applies
  cases result
  exact ⟨earlier, application, .graft _ _⟩

/-- An edit that cannot be applied to a catalogue cannot be beside any review. -/
theorem apply_error {edit : Edit} {fresh : EntityId} {now : Instant} {first second : Store}
    {error : ReviewError} (same : first.SameCatalogue second) :
    edit.apply fresh now second = .error error ↔ edit.apply fresh now first = .error error := by
  rw [same, Edit.apply_graft]
  cases edit.apply fresh now first <;> simp [Except.map]

theorem Settles.rebase {desk : Desk} {now : Instant} {first second after : Store}
    {counted written : Edit} {verdict : Verdict} (same : first.SameCatalogue second)
    (settles : Settles desk now second after counted verdict written) :
    Settles desk now first after counted verdict written := by
  cases settles with
  | pending catalogue => exact .pending (same.trans catalogue)
  | rejected catalogue => exact .rejected (same.trans catalogue)
  | accepted number target store application catalogue =>
    obtain ⟨earlier, application, kept⟩ := apply_rebase same application
    exact .accepted number target earlier application (kept.trans catalogue)
  | failed number error application catalogue =>
    exact .failed number error ((apply_error same).mp application) (same.trans catalogue)

theorem upsertVote_sameCatalogue {store voted : Store} {vote : Vote}
    (cast : store.upsertVote vote = .ok voted) :
    store.SameCatalogue voted ∧ voted.edits = store.edits := by
  rw [upsertVote_frame cast]
  exact ⟨rfl, rfl⟩

theorem updateEdit_frame {store after : Store} {edit : Edit}
    (updated : store.updateEdit edit = .ok after) :
    store.SameCatalogue after ∧ after.votes = store.votes ∧ after.edits = store.editsWith edit := by
  rw [updateEdit_ok updated]
  exact ⟨rfl, rfl, rfl⟩

theorem fileEdit_ok {desk : Desk} {now : Instant} {caller : UserId} {submission : Submission}
    {ledger after : Ledger} {edit : Edit}
    (done : desk.fileEdit now caller submission ledger = .ok (edit, after)) :
    ∃ id details store, edit = submission.edit id caller details now ∧
      ledger.store.hasEdit id = false ∧ submission.details ledger.store = .ok details ∧
      store = { ledger.store with edits := ledger.store.edits ++ [edit] } ∧
      SameCore store after.store := by
  unfold fileEdit at done
  simp only [Step.bind_ok, Step.check_ok, Step.issue_ok, Step.write_ok, Step.pure_ok] at done
  obtain ⟨roles, _, ⟨-, rfl⟩, _, _, ⟨-, rfl⟩, details, _, ⟨checked, rfl⟩, id, _, ⟨-, rfl⟩, _, _,
    ⟨store, inserted, rfl⟩, _, _, remarked, rfl, rfl⟩ := done
  obtain ⟨unused, frame⟩ := insertEdit_ok inserted
  exact ⟨id, details, store, rfl, unused, checked, frame, addRemark_frame remarked⟩

theorem enact_ok {desk : Desk} {edit closed : Edit} {now : Instant} {ledger after : Ledger}
    (done : desk.enact edit now ledger = .ok (closed, after)) :
    ∃ target store, closed = { edit with target := some target }.close .immediateAccepted now ∧
      edit.apply ⟨desk.draw ledger.issued⟩ now ledger.store = .ok (target, store) ∧
      store.SameCatalogue after.store ∧ after.store.edits = ledger.store.editsWith closed ∧
      after.store.votes = ledger.store.votes := by
  unfold enact at done
  simp only [Step.bind_ok, Step.write_ok, Step.pure_ok, applyToStore_ok] at done
  obtain ⟨_, _, ⟨target, store, applies, rfl, rfl⟩, _, _, ⟨_, updated, rfl⟩, rfl, rfl⟩ := done
  obtain ⟨catalogue, votes, edits⟩ := updateEdit_frame updated
  obtain ⟨frameEdits, frameVotes⟩ := Edit.apply_review applies
  exact ⟨target, store, rfl, applies, catalogue, edits.trans (editsWith_congr frameEdits _),
    votes.trans frameVotes⟩

/-- Granting several roles leaves catalogue, edits and votes as they were. -/
theorem grantRoles_frame {user : UserId} {roles : List Role} {ledger after : Ledger}
    {result : PUnit} (done : (forIn roles PUnit.unit fun role _ => do
        let _ ← Step.writeWith fun store => store.grantRole user role
        pure (ForInStep.yield PUnit.unit) : Step PUnit) ledger = .ok (result, after)) :
    SameCore ledger.store after.store := by
  induction roles generalizing ledger with
  | nil =>
    obtain ⟨-, rfl⟩ := Step.pure_ok.mp done
    exact .refl _
  | cons role rest hypothesis =>
    simp only [List.forIn_cons, Step.bind_ok, Step.writeWith_ok, Step.pure_ok] at done
    obtain ⟨_, _, ⟨_, _, ⟨store, granted, rfl⟩, rfl, rfl⟩, done⟩ := done
    refine .trans ?_ (hypothesis done)
    rw [Store.grantRole_store granted]
    exact ⟨rfl, rfl, rfl⟩

theorem insertUser_frame {store after : Store} {id : UserId} {name : String} {now : Instant}
    (done : store.insertUser id name now = .ok after) : SameCore store after := by
  unfold Store.insertUser at done
  split at done
  · cases done
  · cases done
    exact ⟨rfl, rfl, rfl⟩

/-! ### Transactions are turns -/

theorem vote_turn (desk : Desk) (now : Instant) (caller : UserId) (id : EditId) (choice : Choice)
    (ledger : Ledger) :
    desk.Turn now (.vote caller id choice) ledger.store
      (desk.vote now caller id choice ledger).ledger.store := by
  refine Turn.carryOut fun result effects after done => ?_
  simp only [Step.bind_ok, Step.check_ok, Step.write_ok, Step.read_ok, Step.pure_ok, require_ok,
    requirePending_ok, loadEdit_ok] at done
  obtain ⟨-, _, ⟨ballot, rfl⟩, roles, _, ⟨-, rfl⟩, -, _, ⟨-, rfl⟩, edit, _, ⟨found, rfl⟩, -, _,
    ⟨pending, rfl⟩, -, _, ⟨other, rfl⟩, -, _, ⟨voted, cast, rfl⟩, tally, _, ⟨counts, rfl⟩,
    ⟨resolved, settled⟩, middle, resolution, -, _, ⟨store, updated, rfl⟩, finish, rfl⟩ := done
  cases edit?_id found
  obtain ⟨settles, edits, votes⟩ := resolve_settles resolution
  obtain ⟨sameVoted, votedEdits⟩ := upsertVote_sameCatalogue cast
  obtain ⟨sameMiddle, storeVotes, storeEdits⟩ := updateEdit_frame updated
  refine .handled edit resolved found pending (.decided tally _ resolved ?_
    (.vote caller choice voted ballot (of_decide_eq_true other) cast (storeVotes.trans votes))
    ((settles.rebase sameVoted).congr sameMiddle)) ?_
  · rw [votesOn_congr (storeVotes.trans votes)]
    exact counts.symm
  · exact storeEdits.trans (editsWith_congr (edits.trans votedEdits) resolved)

/-- **Closing an edit changes nothing, or it settles a due edit by the votes on it.** -/
theorem closeIfDue_settles (desk : Desk) (now : Instant) (id : EditId) (ledger : Ledger) :
    SameCore ledger.store (desk.carryOut (desk.closeIfDue now id) ledger).ledger.store ∨
      ∃ edit resolved tally, ledger.store.edit? id = some edit ∧ edit.isPending = true ∧
        tally = Tally.ofVotes (ledger.store.votesOn id) ∧
        Verdict.votingEnds edit tally desk.rules ≤ now ∧
        Settles desk now ledger.store (desk.carryOut (desk.closeIfDue now id) ledger).ledger.store
          { edit with score := tally.net } (.onExpiry tally (desk.policy edit)) resolved ∧
        (desk.carryOut (desk.closeIfDue now id) ledger).ledger.store.edits =
          ledger.store.editsWith resolved ∧
        (desk.carryOut (desk.closeIfDue now id) ledger).ledger.store.votes = ledger.store.votes := by
  rcases desk.carryOut_cases (desk.closeIfDue now id) ledger with
    same | ⟨result, effects, after, done, -, same⟩
  · rw [same]
    exact .inl (.refl _)
  · obtain ⟨grants, followed⟩ := desk.follow_store effects after
    rw [same, followed]
    unfold closeIfDue at done
    obtain ⟨found, _, look, done⟩ := Step.bind_ok.mp done
    obtain ⟨looked, rfl⟩ := Step.read_ok.mp look
    cases found with
    | none =>
      obtain ⟨-, rfl⟩ := Step.pure_ok.mp done
      exact .inl ⟨rfl, rfl, rfl⟩
    | some edit =>
      obtain ⟨found, due⟩ := Option.filter_eq_some_iff.mp looked
      cases edit?_id found
      simp only [Step.bind_ok, Step.write_ok, Step.read_ok, Step.pure_ok] at done
      obtain ⟨tally, _, ⟨rfl, rfl⟩, ⟨resolved, settled⟩, middle, resolution, -, _,
        ⟨store, updated, rfl⟩, finish, rfl⟩ := done
      obtain ⟨settles, edits, votes⟩ := resolve_settles resolution
      obtain ⟨sameMiddle, storeVotes, storeEdits⟩ := updateEdit_frame updated
      obtain ⟨pending, ended⟩ := Bool.and_eq_true_iff.mp due
      exact .inr ⟨edit, resolved, _, found, pending, rfl, of_decide_eq_true ended,
        (settles.congr sameMiddle).congr rfl,
        storeEdits.trans (editsWith_congr edits resolved), storeVotes.trans votes⟩

theorem closeIfDue_turn (desk : Desk) (now : Instant) (id : EditId) (ledger : Ledger) :
    desk.Turn now (.closeIfDue id) ledger.store
      (desk.carryOut (desk.closeIfDue now id) ledger).ledger.store := by
  rcases desk.closeIfDue_settles now id ledger with
    same | ⟨edit, resolved, tally, found, pending, counts, ended, settles, edits, votes⟩
  · exact (Turn.refl desk now _ _).congr same
  · cases edit?_id found
    refine .handled edit resolved found pending
      (.decided tally _ resolved ?_ (.expiry ended votes) settles) edits
    rw [votesOn_congr votes]
    exact counts

theorem cancel_turn (desk : Desk) (now : Instant) (caller : UserId) (id : EditId)
    (ledger : Ledger) :
    desk.Turn now (.cancel caller id) ledger.store
      (desk.cancel now caller id ledger).ledger.store := by
  refine Turn.carryOut fun result effects after done => ?_
  simp only [Step.bind_ok, Step.check_ok, require_ok, requirePending_ok, loadEdit_ok] at done
  obtain ⟨roles, _, ⟨-, rfl⟩, edit, _, ⟨found, rfl⟩, -, _, ⟨-, rfl⟩, -, _, ⟨pending, rfl⟩, done⟩ :=
    done
  cases edit?_id found
  split at done
  · simp only [Step.bind_ok, Step.write_ok, Step.pure_ok] at done
    obtain ⟨-, _, ⟨voted, cast, rfl⟩, -, _, ⟨store, updated, rfl⟩, finish, rfl⟩ := done
    obtain ⟨sameVoted, votedEdits⟩ := upsertVote_sameCatalogue cast
    obtain ⟨sameMiddle, storeVotes, storeEdits⟩ := updateEdit_frame updated
    exact .handled edit _ found pending
      (.withdrawn (sameVoted.trans sameMiddle) (.inr ⟨caller, voted, cast, storeVotes⟩))
      (storeEdits.trans (editsWith_congr votedEdits _))
  · simp only [Step.bind_ok, Step.write_ok, Step.pure_ok] at done
    obtain ⟨-, _, ⟨store, updated, rfl⟩, finish, rfl⟩ := done
    obtain ⟨sameMiddle, storeVotes, storeEdits⟩ := updateEdit_frame updated
    exact .handled edit _ found pending (.withdrawn sameMiddle (.inl storeVotes)) storeEdits

theorem apply_turn (desk : Desk) (now : Instant) (caller : UserId) (id : EditId)
    (ledger : Ledger) :
    desk.Turn now (.apply caller id) ledger.store
      (desk.apply now caller id ledger).ledger.store := by
  refine Turn.carryOut fun result effects after done => ?_
  simp only [Step.bind_ok, Step.check_ok, Step.write_ok, Step.pure_ok, requirePending_ok,
    loadEdit_ok] at done
  obtain ⟨roles, _, ⟨-, rfl⟩, -, _, ⟨-, rfl⟩, edit, _, ⟨found, rfl⟩, -, _, ⟨pending, rfl⟩, -, _,
    ⟨voted, cast, rfl⟩, closed, _, enacting, finish, rfl⟩ := done
  cases edit?_id found
  obtain ⟨sameVoted, votedEdits⟩ := upsertVote_sameCatalogue cast
  obtain ⟨target, store, rfl, applies, catalogue, edits, votes⟩ := enact_ok enacting
  obtain ⟨earlier, application, kept⟩ := apply_rebase sameVoted applies
  exact .handled edit _ found pending
    (.enforced caller voted _ target earlier cast votes application (kept.trans catalogue))
    (edits.trans (editsWith_congr votedEdits _))

/-- **What an amendment that is accepted leaves.** -/
theorem updateEdit_handles {desk : Desk} {now : Instant} {caller : UserId} {id : EditId}
    {proposal : Proposal} {remark : Option String} {ledger : Ledger} {result : Edit}
    (done : (desk.updateEdit now caller id proposal remark ledger).result = .ok result) :
    ∃ edit written, ledger.store.edit? edit.id = some edit ∧ edit.id = id ∧
      edit.isPending = true ∧ edit.amendments < desk.rules.amendmentLimit ∧
      written.id = id ∧ written.amendments = edit.amendments + 1 ∧
      desk.Handles now (.updateEdit caller id proposal remark) ledger.store
        (desk.updateEdit now caller id proposal remark ledger).ledger.store edit written ∧
      (desk.updateEdit now caller id proposal remark ledger).ledger.store.edits =
        ledger.store.editsWith written := by
  obtain ⟨effects, after, done, same⟩ := carryOut_ok done
  obtain ⟨grants, followed⟩ := desk.follow_store effects after
  have followedSame : SameCore after.store
      (desk.updateEdit now caller id proposal remark ledger).ledger.store := by
    unfold updateEdit
    rw [same, followed]
    exact ⟨rfl, rfl, rfl⟩
  simp only [Step.bind_ok, Step.check_ok, Step.write_ok, Step.writeWith_ok, Step.pure_ok,
    require_ok, requirePending_ok, loadEdit_ok] at done
  obtain ⟨roles, _, ⟨-, rfl⟩, edit, _, ⟨found, rfl⟩, -, _, ⟨-, rfl⟩, -, _, ⟨pending, rfl⟩, -, _,
    ⟨mayChange, rfl⟩, -, _, ⟨limit, rfl⟩, -, _, ⟨kind, rfl⟩, details, _, ⟨checked, rfl⟩, cleared, _,
    ⟨emptied, clears, rfl⟩, -, _, ⟨store, updated, rfl⟩, _, _, remarked, finish, rfl⟩ := done
  cases edit?_id found
  cases clears
  obtain ⟨sameMiddle, storeVotes, storeEdits⟩ := updateEdit_frame updated
  have kept := (addRemark_frame remarked).trans followedSame
  refine ⟨edit,
    { edit with details, amendments := edit.amendments + 1, updated := some now, score := 0 },
    found, rfl, pending, of_decide_eq_true limit, rfl, rfl, Handles.congr ?_ kept,
    kept.edits.trans storeEdits⟩
  exact .amended caller proposal remark details rfl (of_decide_eq_true mayChange)
    (of_decide_eq_true limit) (of_decide_eq_true kind) checked sameMiddle storeVotes

theorem updateEdit_turn (desk : Desk) (now : Instant) (caller : UserId) (id : EditId)
    (proposal : Proposal) (remark : Option String) (ledger : Ledger) :
    desk.Turn now (.updateEdit caller id proposal remark) ledger.store
      (desk.updateEdit now caller id proposal remark ledger).ledger.store := by
  rcases desk.carryOut_cases _ ledger with same | ⟨edit, effects, after, -, accepted, -⟩
  · unfold updateEdit
    rw [same]
    exact .refl desk now _ _
  · obtain ⟨edit, written, found, -, pending, -, -, -, handles, edits⟩ :=
      updateEdit_handles accepted
    exact .handled edit written found pending handles edits

/-- **What a submission that is accepted leaves.** -/
theorem createEdit_files {desk : Desk} {now : Instant} {caller : UserId} {submission : Submission}
    {ledger : Ledger} {edit : Edit}
    (done : (desk.createEdit now caller submission ledger).result = .ok edit) :
    Files desk now ledger.store (desk.createEdit now caller submission ledger).ledger.store caller
        submission edit ∧
      (desk.createEdit now caller submission ledger).ledger.store.edits =
        ledger.store.edits ++ [edit] ∧
      (desk.createEdit now caller submission ledger).ledger.store.votes = ledger.store.votes := by
  obtain ⟨effects, after, done, same⟩ := carryOut_ok done
  obtain ⟨grants, followed⟩ := desk.follow_store effects after
  have followedSame : SameCore after.store
      (desk.createEdit now caller submission ledger).ledger.store := by
    unfold createEdit
    rw [same, followed]
    exact ⟨rfl, rfl, rfl⟩
  suffices files : Files desk now ledger.store after.store caller submission edit ∧
      after.store.edits = ledger.store.edits ++ [edit] ∧
      after.store.votes = ledger.store.votes from
    ⟨files.1.congr followedSame.catalogue, followedSame.edits.trans files.2.1,
      followedSame.votes.trans files.2.2⟩
  obtain ⟨filed, middle, filing, done⟩ := Step.bind_ok.mp done
  obtain ⟨id, details, store, rfl, unused, checked, inserted, remarked⟩ := fileEdit_ok filing
  have sameFiled : ledger.store.SameCatalogue middle.store := by
    refine .trans ?_ remarked.catalogue
    rw [inserted]
    rfl
  split at done
  next immediate =>
    obtain ⟨closed, _, enacting, finish⟩ := Step.bind_ok.mp done
    obtain ⟨result, rfl⟩ := Step.pure_ok.mp finish
    cases result
    obtain ⟨target, applied, rfl, applies, catalogue, edits, votes⟩ := enact_ok enacting
    obtain ⟨earlier, application, kept⟩ := apply_rebase sameFiled applies
    refine ⟨.enacted id details _ target earlier unused checked ?_ application
      (kept.trans catalogue), ?_, ?_⟩
    · simp only [isImmediate, Bool.and_eq_true, decide_eq_true_eq] at immediate
      exact immediate.1.1
    · rw [edits, editsWith_congr remarked.edits, inserted]
      exact editsWith_append unused rfl
    · rw [votes, remarked.votes, inserted]
  next =>
    obtain ⟨result, rfl⟩ := Step.pure_ok.mp done
    cases result
    refine ⟨.pending id details unused checked sameFiled, ?_, ?_⟩
    · rw [remarked.edits, inserted]
    · rw [remarked.votes, inserted]

theorem createEdit_turn (desk : Desk) (now : Instant) (caller : UserId) (submission : Submission)
    (ledger : Ledger) :
    desk.Turn now (.createEdit caller submission) ledger.store
      (desk.createEdit now caller submission ledger).ledger.store := by
  rcases desk.carryOut_cases _ ledger with same | ⟨edit, effects, after, -, accepted, -⟩
  · unfold createEdit
    rw [same]
    exact .refl desk now _ _
  · obtain ⟨files, edits, votes⟩ := createEdit_files accepted
    exact .filed caller submission edit files edits votes

theorem deleteEdit_turn (desk : Desk) (now : Instant) (caller : UserId) (id : EditId)
    (reason : String) (ledger : Ledger) :
    desk.Turn now (.deleteEdit caller id reason) ledger.store
      (desk.deleteEdit now caller id reason ledger).ledger.store := by
  refine Turn.carryOutQuietly fun result after done => ?_
  simp only [Step.bind_ok, Step.check_ok, Step.read_ok] at done
  obtain ⟨roles, _, ⟨-, rfl⟩, -, _, ⟨-, rfl⟩, found, _, ⟨looked, rfl⟩, done⟩ := done
  cases found with
  | none =>
    obtain ⟨-, rfl⟩ := Step.pure_ok.mp done
    exact .refl desk now _ _
  | some edit =>
    simp only [Step.bind_ok, Step.check_ok, Step.issue_ok, Step.write_ok, Step.pure_ok,
      require_ok] at done
    obtain ⟨-, _, ⟨settled, rfl⟩, audit, _, ⟨-, rfl⟩, -, _, ⟨store, deleted, rfl⟩, -, rfl⟩ := done
    cases edit?_id looked
    obtain ⟨catalogue, edits, votes⟩ := deleteWithAudit_ok deleted
    exact .deleted edit caller reason rfl looked (by simpa using settled) catalogue edits votes

theorem comment_turn (desk : Desk) (now : Instant) (caller : UserId) (id : EditId) (text : String)
    (ledger : Ledger) :
    desk.Turn now (.comment caller id text) ledger.store
      (desk.comment now caller id text ledger).ledger.store := by
  refine Turn.carryOut fun result effects after done => ?_
  simp only [Step.bind_ok, Step.check_ok, Step.pure_ok] at done
  obtain ⟨-, _, ⟨-, rfl⟩, roles, _, ⟨-, rfl⟩, -, _, ⟨-, rfl⟩, edit, _, ⟨-, rfl⟩, comment, _, added,
    -, rfl⟩ := done
  exact (Turn.refl desk now _ _).congr (addComment_frame added)

theorem grantRole_turn (desk : Desk) (now : Instant) (user : UserId) (role : Role)
    (ledger : Ledger) :
    desk.Turn now (.grantRole user role) ledger.store
      (Desk.grantRole user role ledger).ledger.store := by
  refine Turn.carryOutQuietly fun result after done => ?_
  simp only [Step.bind_ok, Step.check_ok, Step.writeWith_ok] at done
  obtain ⟨-, _, ⟨-, rfl⟩, store, granted, rfl⟩ := done
  rw [Store.grantRole_store granted]
  exact .idle rfl rfl rfl

theorem deleteExpiredAudits_turn (desk : Desk) (now : Instant) (ledger : Ledger) :
    desk.Turn now .deleteExpiredAudits ledger.store
      (desk.deleteExpiredAudits now ledger).ledger.store := by
  rcases desk.deleteExpiredAudits_outcome now ledger with ⟨result, same⟩ | ⟨cutoff, same⟩
  · rw [same]
    exact .refl desk now _ _
  · rw [same]
    exact .idle rfl rfl rfl

theorem registerUser_turn (desk : Desk) (now : Instant) (name : String) (roles : List Role)
    (ledger : Ledger) :
    desk.Turn now (.registerUser name roles) ledger.store
      (desk.registerUser now name roles ledger).ledger.store := by
  refine Turn.carryOutQuietly fun result after done => ?_
  simp only [Step.bind_ok, Step.issue_ok, Step.write_ok, Step.pure_ok] at done
  obtain ⟨user, _, ⟨-, rfl⟩, -, _, ⟨store, registered, rfl⟩, _, _, granted, -, rfl⟩ := done
  exact (Turn.refl desk now _ _).congr
    ((insertUser_frame registered).trans (grantRoles_frame granted))

/-- **Every single transaction is a turn.** -/
theorem turn (desk : Desk) (now : Instant) (ledger : Ledger) {call : Call}
    (single : call.isSingle = true) :
    desk.Turn now call ledger.store (desk.proceed now ledger call).store := by
  cases call with
  | registerUser name roles => exact desk.registerUser_turn now name roles ledger
  | grantRole user role => exact desk.grantRole_turn now user role ledger
  | createEdit caller submission => exact desk.createEdit_turn now caller submission ledger
  | updateEdit caller id proposal remark =>
    exact desk.updateEdit_turn now caller id proposal remark ledger
  | vote caller id choice => exact desk.vote_turn now caller id choice ledger
  | comment caller id text => exact desk.comment_turn now caller id text ledger
  | cancel caller id => exact desk.cancel_turn now caller id ledger
  | apply caller id => exact desk.apply_turn now caller id ledger
  | closeIfDue id => exact desk.closeIfDue_turn now id ledger
  | closeCompleted => cases single
  | deleteEdit caller id reason => exact desk.deleteEdit_turn now caller id reason ledger
  | deleteExpiredAudits => exact desk.deleteExpiredAudits_turn now ledger

/-- What holds of the empty store and is kept by every turn holds after every run. -/
theorem run_keeps {property : Store → Prop} (desk : Desk) (calls : List (Instant × Call))
    (empty : property .empty)
    (keeps : ∀ now ∈ calls.map Prod.fst, ∀ call before after, desk.Turn now call before after →
      property before → property after) : property (desk.run calls).store := by
  have every := @run_induction (fun ledger => property ledger.store) desk calls empty
  refine every fun now member ledger call single holds => ?_
  exact keeps now member call _ _ (desk.turn now ledger single) holds

end Desk

end Curation
