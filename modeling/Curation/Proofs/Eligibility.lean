/-
**Who votes.** A ballot is cast by somebody who may vote and did not submit the edit. The other votes
mark that an administrator decided: such a mark is only on an edit that was closed by that decision.
Votes are written by three operations with different guards, and an administrator may have voted
before or be the submitter; still every vote on record is one that its voter was entitled to.

* `Vote.Suits`: a vote suits the edit that it is on, and `Desk.run_suited`: all votes do;
* `Desk.cast_right`: whoever casts a vote holds the role that it calls for;
* `Desk.run_eligible`: the votes on record after every run.
-/

import Curation.Proofs.Grants
import Curation.Proofs.Permissions
import Curation.Proofs.Scores

namespace Curation

/-- The role that a vote calls for. -/
def Choice.right (choice : Choice) : Role := if choice.isBallot then .vote else .admin

/-- A ballot is not on an edit of the voter's own, and the mark of a decision is on an edit that was
closed by it. -/
structure Vote.Suits (vote : Vote) (edit : Edit) : Prop where
  ballot : vote.choice.isBallot = true → edit.submitter ≠ some vote.voter
  enforces : vote.choice = .immediateAccept → edit.status = .immediateAccepted
  withdraws : vote.choice = .immediateReject → edit.status = .immediateRejected

/-- What suits a pending edit is a ballot, which suits the edit whatever becomes of it. -/
theorem Vote.Suits.later {vote : Vote} {edit written : Edit} (suits : vote.Suits edit)
    (pending : edit.isPending = true) (submitter : written.submitter = edit.submitter) :
    vote.Suits written := by
  have status : edit.status = .pending := of_decide_eq_true pending
  refine ⟨fun ballot => submitter ▸ suits.ballot ballot, fun mark => ?_, fun mark => ?_⟩
  · cases status.symm.trans (suits.enforces mark)
  · cases status.symm.trans (suits.withdraws mark)

/-- A vote that its voter was entitled to: a ballot of a reviewer who did not submit the edit, or the
mark of an administrator's decision, by which the edit was closed. -/
inductive Vote.Eligible (store : Store) (edit : Edit) (vote : Vote) : Prop where
  | ballot (choice : vote.choice.isBallot = true)
      (reviewer : Role.anyGrants (store.roles vote.voter) .vote = true)
      (other : edit.submitter ≠ some vote.voter) : Eligible store edit vote
  | enforced (choice : vote.choice = .immediateAccept) (admin : .admin ∈ store.roles vote.voter)
      (closed : edit.status = .immediateAccepted) : Eligible store edit vote
  | withdrawn (choice : vote.choice = .immediateReject) (admin : .admin ∈ store.roles vote.voter)
      (closed : edit.status = .immediateRejected) : Eligible store edit vote

namespace Store

/-- Every vote suits the edit that it is on. -/
def Suited (store : Store) : Prop :=
  ∀ id edit, store.edit? id = some edit → ∀ vote ∈ store.votesOn id, vote.Suits edit

/-- The votes on an edit are votes on record as they are read back. -/
theorem of_mem_votesOn {store : Store} {id : EditId} {vote : Vote}
    (member : vote ∈ store.votesOn id) :
    ∃ row ∈ store.votes, row.edit = id ∧ row.toMillisecond = vote := by
  obtain ⟨row, sorted, same⟩ := List.mem_map.mp member
  obtain ⟨listed, here⟩ := List.mem_filter.mp (mem_sortBy.mp sorted)
  exact ⟨row, listed, of_decide_eq_true here, same⟩

/-- A vote that is on record once another has been cast is that one or was there before. -/
theorem votesOn_cast {before voted after : Store} {vote row : Vote}
    (cast : before.upsertVote vote = .ok voted) (votes : after.votes = voted.votes)
    (member : row ∈ after.votesOn vote.edit) :
    row ∈ before.votesOn vote.edit ∨ row = vote.toMillisecond := by
  obtain ⟨stored, listed, here, rfl⟩ := of_mem_votesOn member
  rw [votes] at listed
  rcases mem_upsertVote cast listed with rfl | earlier
  · exact .inr rfl
  · exact .inl (here ▸ mem_votesOn earlier)

end Store

namespace Desk

variable {desk : Desk} {now : Instant} {call : Call} {before after : Store} {ledger : Ledger}
  {vote : Vote}

/-! ### Votes suit their edits -/

/-- A vote on an edit that is handled was there before, or it suits what is written. -/
theorem Handles.casts {edit written : Edit}
    (handles : desk.Handles now call before after edit written)
    (member : vote ∈ after.votesOn edit.id) :
    vote ∈ before.votesOn edit.id ∨ vote.Suits written := by
  have submitter : written.submitter = edit.submitter := by
    rw [← handles.overwrites]
    rfl
  cases handles with
  | amended caller proposal remark details called mayChange limit kind checked catalogue votes =>
    obtain ⟨row, listed, here, -⟩ := Store.of_mem_votesOn member
    rw [votes] at listed
    exact absurd here (of_decide_eq_true (List.mem_filter.mp listed).2)
  | withdrawn catalogue votes =>
    rcases votes with same | ⟨caller, voted, cast, same⟩
    · rw [votesOn_congr same] at member
      exact .inl member
    · refine (Store.votesOn_cast cast same member).imp_right ?_
      rintro rfl
      exact ⟨fun ballot => (nomatch ballot), fun mark => (nomatch mark), fun _ => rfl⟩
  | enforced caller voted number target store cast votes application catalogue =>
    refine (Store.votesOn_cast cast votes member).imp_right ?_
    rintro rfl
    exact ⟨fun ballot => (nomatch ballot), fun _ => rfl, fun mark => (nomatch mark)⟩
  | decided tally verdict written counted decides settles =>
    cases decides with
    | expiry ended votes =>
      rw [votesOn_congr votes] at member
      exact .inl member
    | vote caller choice voted ballot other cast votes =>
      refine (Store.votesOn_cast cast votes member).imp_right ?_
      rintro rfl
      refine ⟨fun _ => submitter ▸ other, ?_, ?_⟩ <;>
        · rintro (rfl : choice = _)
          cases ballot

/-- **A turn leaves votes that suit their edits.** -/
theorem Turn.suited (turn : desk.Turn now call before after) (polled : before.Polled)
    (suited : before.Suited) : after.Suited := by
  intro id edit found vote member
  cases edit?_id found
  cases turn.origin found with
  | kept looked votes => exact suited _ edit looked vote (votes ▸ member)
  | submitted caller submission details unused checked same catalogue =>
    rw [turn.votesOn_unused polled unused] at member
    cases member
  | enacted caller submission details number target store unused checked creates application
      catalogue same =>
    rw [turn.votesOn_unused polled unused] at member
    cases member
  | handled earlier written looked pending handles same =>
    have sameId : edit.id = earlier.id := by
      rw [same]
      exact handles.id_eq
    rw [sameId] at member
    have submitter : edit.submitter = earlier.submitter := by
      rw [same, ← handles.overwrites]
      rfl
    rcases handles.casts member with earlierVote | suits
    · exact (suited _ earlier looked vote earlierVote).later pending submitter
    · rw [same]
      exact ⟨suits.ballot, suits.enforces, suits.withdraws⟩

/-- **Every vote suits the edit that it is on**, after every run. -/
theorem run_suited (desk : Desk) (calls : List (Instant × Call)) :
    (desk.run calls).store.Suited := by
  have both := @run_keeps (fun store => store.Polled ∧ store.Suited) desk calls
    ⟨⟨List.nodup_nil, fun vote member => (nomatch member)⟩, fun _ _ found => (nomatch found)⟩ ?_
  · exact both.2
  · exact fun now _ call before after turn holds =>
      ⟨turn.polled holds.1, turn.suited holds.1 holds.2⟩

/-! ### Whoever votes may vote -/

/-- A step that asks for a role first does not succeed without it. -/
theorem asksRole_ok {α : Type} {caller : UserId} {required : Role} {next : List Role → Step α}
    {result : α} {after : Ledger}
    (done : (do
      let roles ← Step.check fun store => rolesOf store caller
      Step.check fun _ => requireRole roles required
      next roles : Step α) ledger = .ok (result, after)) :
    Role.anyGrants (ledger.store.roles caller) required = true := by
  simp only [Step.bind_ok, Step.check_ok] at done
  obtain ⟨roles, _, ⟨known, rfl⟩, _, _, ⟨passed, -⟩, -⟩ := done
  cases rolesOf_eq known
  exact (requireRole_ok.mp passed).2

/-- **Whoever casts a vote holds the role that it calls for.** -/
theorem cast_right (desk : Desk) (now : Instant) (ledger : Ledger) {call : Call}
    (single : call.isSingle = true) (here : vote ∈ (desk.proceed now ledger call).store.votes)
    (new : vote ∉ ledger.store.votes) :
    Role.anyGrants (ledger.store.roles vote.voter) vote.choice.right = true := by
  obtain ⟨called, -⟩ := ((desk.posts now ledger single).extends.votes vote here).resolve_left new
  have succeeded {α : Type} {step : Step (α × List Effect)}
      (cast : vote ∈ (desk.carryOut step ledger).ledger.store.votes) :
      ∃ result effects after, step ledger = .ok ((result, effects), after) ∧
        after.store.votes = (desk.carryOut step ledger).ledger.store.votes := by
    rcases desk.carryOut_cases step ledger with same | ⟨result, effects, after, done, -, same⟩
    · exact absurd (same ▸ cast) new
    · obtain ⟨grants, followed⟩ := desk.follow_store effects after
      exact ⟨result, effects, after, done, by rw [same, followed]⟩
  obtain ⟨edit, voter, cast, created⟩ := vote
  cases call with
  | vote caller id choice =>
    have ballot : choice.isBallot = true := by
      by_contra other
      cases (if_neg other).symm.trans called
    cases (if_pos ballot).symm.trans called
    obtain ⟨result, effects, after, done, -⟩ := succeeded here
    obtain ⟨_, _, check, rest⟩ := Step.bind_ok.mp done
    obtain ⟨-, rfl⟩ := Step.check_ok.mp check
    rw [Choice.right, if_pos ballot]
    exact asksRole_ok rest
  | apply caller id =>
    cases called
    obtain ⟨result, effects, after, done, -⟩ := succeeded here
    exact asksRole_ok done
  | cancel caller id =>
    cases called
    obtain ⟨result, effects, after, done, votes⟩ := succeeded here
    simp only [Step.bind_ok, Step.check_ok, require_ok, requirePending_ok, loadEdit_ok] at done
    obtain ⟨roles, _, ⟨known, rfl⟩, edit, _, ⟨-, rfl⟩, -, _, ⟨entitled, rfl⟩, -, _, ⟨-, rfl⟩, done⟩ :=
      done
    cases rolesOf_eq known
    split at done
    next stranger =>
      rw [Bool.not_eq_true'] at stranger
      rwa [stranger, Bool.false_or] at entitled
    next =>
      -- whoever withdraws an edit of their own casts no vote
      simp only [Step.bind_ok, Step.write_ok, Step.pure_ok] at done
      obtain ⟨-, _, ⟨store, updated, rfl⟩, finish, rfl⟩ := done
      refine absurd ?_ new
      rw [← (updateEdit_frame updated).2.1, votes]
      exact here
  | _ => cases called

/-- **Whoever has voted holds the role that the vote called for**, after every run. -/
theorem run_rights (desk : Desk) (calls : List (Instant × Call)) :
    ∀ vote ∈ (desk.run calls).store.votes,
      Role.anyGrants ((desk.run calls).store.roles vote.voter) vote.choice.right = true := by
  have every := @run_induction (fun ledger => ∀ vote ∈ ledger.store.votes,
    Role.anyGrants (ledger.store.roles vote.voter) vote.choice.right = true) desk calls
    (fun vote member => (nomatch member))
  refine every fun now _ ledger call single rights vote member => ?_
  have held : Role.anyGrants (ledger.store.roles vote.voter) vote.choice.right = true := by
    by_cases old : vote ∈ ledger.store.votes
    · exact rights vote old
    · exact desk.cast_right now ledger single member old
  exact Role.anyGrants_mono
    (Store.roles_mono (desk.proceed_grants now ledger call).subset vote.voter) held

/-- **Votes are cast only by those who are entitled to them.** After every run a user has at most one
vote on an edit, and every vote is on an edit that is stored, by a registered user who was entitled
to it. -/
theorem run_eligible (desk : Desk) (calls : List (Instant × Call)) :
    ((desk.run calls).store.votes.map Vote.key).Nodup ∧
      ∀ vote ∈ (desk.run calls).store.votes,
        (desk.run calls).store.hasUser vote.voter = true ∧
          ∃ edit, (desk.run calls).store.edit? vote.edit = some edit ∧
            vote.Eligible (desk.run calls).store edit := by
  have polled := desk.run_polled calls
  refine ⟨polled.once, fun vote member => ⟨desk.run_voters calls vote member, ?_⟩⟩
  have stored := polled.stored vote member
  rw [← Store.edit?_isSome] at stored
  obtain ⟨edit, found⟩ := Option.isSome_iff_exists.mp stored
  refine ⟨edit, found, ?_⟩
  have suits : vote.Suits edit :=
    have suits := desk.run_suited calls _ edit found _ (Store.mem_votesOn member)
    ⟨suits.ballot, suits.enforces, suits.withdraws⟩
  have right := desk.run_rights calls vote member
  cases ballot : vote.choice.isBallot with
  | true =>
    rw [Choice.right, if_pos ballot] at right
    exact .ballot ballot right (suits.ballot ballot)
  | false =>
    rw [Choice.right, if_neg (by rw [ballot]; decide), Role.anyGrants_admin] at right
    cases choice : vote.choice with
    | immediateAccept => exact .enforced choice right (suits.enforces choice)
    | immediateReject => exact .withdrawn choice right (suits.withdraws choice)
    | _ =>
      rw [choice] at ballot
      cases ballot

end Desk

end Curation
