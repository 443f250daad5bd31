/-
**An application that fails leaves a record of that and nothing else.** When a ballot or the end of
voting has an edit accepted that cannot be applied, the edit has failed. It keeps everything that it
asks for, and its votes, the ballot among them; it gets one comment, without an author, that says why;
and the catalogue is what it was. Nobody is told that it was applied, and nobody is promoted.

* `Desk.Accepts`: a transaction carries out a verdict that accepts an edit;
* `Store.RecordsFailure`: what is read after an edit has failed;
* `Transaction.performAll_rolledBack`: whatever an application has written by the time that it fails is
  undone by going back to the savepoint that was set before it, while the ballot stays;
* `Desk.run_recordsFailure`: all of this, wherever an application fails.

A sweep goes on after an edit has failed. `Desk.sweep_keepsRecord`: it leaves the record alone, because
an edit that is no longer pending is not closed again.
-/

import Curation.Procedure.Desk
import Curation.Proofs.Sessions
import Curation.Proofs.Sweeps

namespace Curation

/-! ### Going back -/

/-- A statement is a step in the savepoints of a transaction. -/
def Statement.isStep : Statement → Bool
  | .savepoint _ | .release _ | .goBack _ | .rollbackTo _ => true
  | _ => false

namespace Transaction

variable {transaction next reached : Transaction} {answer : Statement.Answer}

/-- Carries out statements one after the other. -/
def performAll (transaction : Transaction) (statements : List Statement) :
    Except StoreError Transaction :=
  statements.foldlM (fun transaction statement => Prod.snd <$> transaction.perform statement)
    transaction

/-- A statement that succeeds is followed by the others. -/
theorem performAll_cons {statement : Statement} {rest : List Statement}
    (done : transaction.perform statement = .ok (answer, next)) :
    transaction.performAll (statement :: rest) = next.performAll rest := by
  show (Prod.snd <$> transaction.perform statement).bind _ = _
  rw [done]
  rfl

theorem performAll_append (first second : List Statement) :
    transaction.performAll (first ++ second) =
      (transaction.performAll first).bind fun middle => middle.performAll second := by
  unfold performAll
  rw [List.foldlM_append]
  rfl

/-- A statement that is no step in the savepoints leaves them alone. -/
theorem perform_write {statement : Statement} (plain : statement.isStep = false)
    (done : transaction.perform statement = .ok (answer, next)) :
    ∃ store, next = { transaction with current := store } := by
  cases statement with
  | savepoint name => cases plain
  | release name => cases plain
  | goBack name => cases plain
  | rollbackTo name => cases plain
  | _ =>
    first
      | (obtain ⟨store, -, same⟩ := map_write_ok done; exact ⟨store, same⟩)
      | (obtain ⟨flag, store, -, same⟩ := map_writeFlag_ok done; exact ⟨store, same⟩)
      | (obtain ⟨count, store, -, same⟩ := map_writeCount_ok done; exact ⟨store, same⟩)
      | (cases done; exact ⟨_, rfl⟩)

/-- Nor do several of them, by induction on the statements. -/
theorem performAll_writes {statements : List Statement}
    (plain : ∀ statement ∈ statements, statement.isStep = false)
    (done : transaction.performAll statements = .ok reached) :
    ∃ store, reached = { transaction with current := store } := by
  induction statements generalizing transaction with
  | nil =>
    cases done
    exact ⟨_, rfl⟩
  | cons statement rest hypothesis =>
    obtain ⟨middle, first, later⟩ := Except.bind_ok.mp done
    obtain ⟨⟨answer, _⟩, performed, rfl⟩ := Except.map_ok.mp first
    obtain ⟨headPlain, restPlain⟩ := List.forall_mem_cons.mp plain
    obtain ⟨written, same⟩ := perform_write headPlain performed
    obtain ⟨store, reaches⟩ := hypothesis restPlain later
    exact ⟨store, reaches.trans (congrArg (fun middle => { middle with current := store }) same)⟩

/-- **Whatever was written since a savepoint is undone by going back to it.** -/
theorem performAll_rolledBack {statements : List Statement} {name : SavepointName}
    (plain : ∀ statement ∈ statements, statement.isStep = false)
    (done : transaction.performAll (.savepoint name :: statements) = .ok reached) :
    reached.performAll [.rollbackTo name] = .ok transaction := by
  have written : (transaction.savepoint name).performAll statements = .ok reached := done
  obtain ⟨store, rfl⟩ := performAll_writes plain written
  exact performAll_cons (transaction.perform_rollbackTo name store)

end Transaction

/-! ### What is left -/

/-- The ballot that a call casts. -/
def Call.ballot? (now : Instant) : Call → Option Vote
  | .vote caller id choice => some ⟨id, caller, choice, now⟩
  | _ => none

/-- The statements of a call that accepts an edit up to the point where the edit could not be applied:
the ballot, a savepoint, and what was written for the application. -/
def Call.attempt (now : Instant) (call : Call) (writes : List Statement) : List Statement :=
  (call.ballot? now).toList.map .upsertVote ++ .savepoint .beforeApplying :: writes

/-- The statements that follow: back to the savepoint, and then the record of the failure. -/
def Statement.afterFailure (failed : Edit) (comment : Comment) : List Statement :=
  [.rollbackTo .beforeApplying, .insertComment comment, .updateEdit failed]

/-- The notices of a call in which an edit has failed: it is only told that it was voted against. -/
def Call.failureNotices (failed : Edit) : Call → List Notice
  | .vote _ _ choice => if choice = .reject then [.downvoted failed] else []
  | _ => []

/-- An edit that has failed, with the votes in a store counted. -/
def Edit.failing (edit : Edit) (store : Store) (now : Instant) : Edit :=
  { edit with score := (Tally.ofVotes (store.votesOn edit.id)).net }.close .failed now

namespace Store

variable {store voted before after : Store} {edit : Edit} {comment : Comment} {now : Instant}

/-- The store in which an edit has failed and got a comment. -/
def withFailure (store : Store) (failed : Edit) (comment : Comment) : Store :=
  { store with edits := store.editsWith failed, comments := store.comments ++ [comment] }

/-- The votes are those that were there, with the ballot if one was cast: it takes the place of an
earlier vote of its voter. -/
structure KeepsVotes (before after : Store) (ballot? : Option Vote) : Prop where
  cast : ∀ ballot ∈ ballot?, ballot ∈ after.votes
  kept : ∀ vote ∈ before.votes, vote ∈ after.votes ∨
    ∃ ballot ∈ ballot?, ballot.edit = vote.edit ∧ ballot.voter = vote.voter
  others : ∀ vote ∈ after.votes, vote ∈ before.votes ∨ vote ∈ ballot?

/-- **What is read after an edit has failed.** The edit is as it was, up to its state and to the count of
its votes; these are those that were there, and the ballot; it has one more comment; and everything
else is as it was. -/
structure RecordsFailure (before after : Store) (edit : Edit) (ballot? : Option Vote)
    (comment : Comment) (now : Instant) : Prop where
  state : after.edit? edit.id = some { edit with
    score := (Tally.ofVotes (after.votesOn edit.id)).net
    status := .failed
    applied := false
    closed := some now.toMillisecond }
  otherEdits : ∀ id, id ≠ edit.id → after.edit? id = before.edit? id
  votes : before.KeepsVotes after ballot?
  remarks : after.remarks edit.id = before.remarks edit.id ++ [comment]
  otherRemarks : ∀ id, id ≠ edit.id → after.remarks id = before.remarks id
  catalogue : before.SameCatalogue after
  others : after.users = before.users ∧ after.grants = before.grants ∧ after.audits = before.audits

/-- What is read of an edit has whole milliseconds. -/
theorem toMillisecond_of_edit? {id : EditId} (found : store.edit? id = some edit) :
    edit.toMillisecond = edit := by
  obtain ⟨row, -, rfl⟩ := Option.map_eq_some_iff.mp found
  exact row.toMillisecond_toMillisecond

theorem keepsVotes_refl (store : Store) : store.KeepsVotes store none where
  cast _ none := nomatch none
  kept _ stored := .inl stored
  others _ stored := .inl stored

/-- Casting a ballot keeps the votes of others. -/
theorem upsertVote_keepsVotes {ballot : Vote} (cast : store.upsertVote ballot = .ok voted) :
    store.KeepsVotes voted (some ballot) := by
  have others : ∀ vote ∈ voted.votes, vote ∈ store.votes ∨ vote ∈ some ballot := by
    intro vote stored
    exact (mem_upsertVote cast stored).symm.imp_right fun same => congrArg some same.symm
  unfold upsertVote at cast
  split at cast
  next => cases cast
  next =>
    split at cast
    next known =>
      cases cast
      obtain ⟨earlier, stored, same⟩ := List.any_eq_true.mp known
      refine ⟨fun vote is => ?_, fun vote listed => ?_, others⟩
      · cases is
        exact List.mem_map.mpr ⟨earlier, stored, if_pos (of_decide_eq_true same)⟩
      · by_cases replaced : vote.edit = ballot.edit ∧ vote.voter = ballot.voter
        · exact .inr ⟨ballot, rfl, replaced.1.symm, replaced.2.symm⟩
        · exact .inl (List.mem_map.mpr ⟨vote, listed, if_neg replaced⟩)
    next =>
      cases cast
      refine ⟨fun vote is => ?_, fun vote listed => .inl (List.mem_append_left _ listed), others⟩
      cases is
      exact List.mem_append_right _ List.mem_cons_self

/-- **The record of a failure**, read after the ballot, if one was cast, and then the comment and the
state of the edit have been written. -/
theorem withFailure_records {ballot? : Option Vote} (found : before.edit? edit.id = some edit)
    (frame : voted = { before with votes := voted.votes }) (keeps : before.KeepsVotes voted ballot?)
    (about : comment.edit = edit.id) :
    before.RecordsFailure (voted.withFailure (edit.failing voted now) comment) edit ballot? comment
      now := by
  have edits : voted.edits = before.edits := by rw [frame]
  have comments : voted.comments = before.comments := by rw [frame]
  have written : (voted.withFailure (edit.failing voted now) comment).edits =
      voted.editsWith (edit.failing voted now) := rfl
  refine ⟨?_, fun id other => ?_, ⟨keeps.cast, keeps.kept, keeps.others⟩, ?_, fun id other => ?_, ?_, ?_⟩
  · have looked : voted.edit? (edit.failing voted now).id = some edit :=
      (edit?_congr edits edit.id).trans found
    refine (edit?_written written looked).trans (congrArg some ?_)
    show { edit.toMillisecond with
      score := (Tally.ofVotes (voted.votesOn edit.id)).net
      status := .failed
      applied := false
      closed := some now.toMillisecond } = _
    rw [toMillisecond_of_edit? found]
    rfl
  · exact (edit?_other written other).trans (edit?_congr edits id)
  · show (voted.comments ++ [comment]).filter _ = before.comments.filter _ ++ [comment]
    rw [List.filter_append, comments]
    simp [about]
  · show (voted.comments ++ [comment]).filter _ = before.comments.filter _
    rw [List.filter_append, comments]
    simp [about, other.symm]
  · rw [frame]
    rfl
  · rw [frame]
    exact ⟨rfl, rfl, rfl⟩

end Store

/-! ### One transaction -/

namespace Desk

variable {desk : Desk} {now : Instant} {ledger : Ledger} {edit : Edit} {call : Call} {voted : Store}
  {error : ReviewError} {id : EditId}

/-- **A transaction accepts an edit**: the ballot that it casts has the votes accept it, or voting on it
has ended and they accept it. The store `voted` is the one whose votes are counted. -/
inductive Accepts (desk : Desk) (now : Instant) (store : Store) (edit : Edit) :
    Call → Store → Prop where
  | ballot {caller : UserId} {choice : Choice} {voted : Store} (ballot : choice.isBallot = true)
      (permitted : Permits store caller .vote) (other : edit.submitter ≠ some caller)
      (cast : store.upsertVote ⟨edit.id, caller, choice, now⟩ = .ok voted)
      (accepts : desk.verdictOn voted edit now = .accept) :
      Accepts desk now store edit (.vote caller edit.id choice) voted
  | ending (due : desk.isDue store edit now = true)
      (accepts : Verdict.onExpiry (.ofVotes (store.votesOn edit.id)) (desk.policy edit) = .accept) :
      Accepts desk now store edit (.closeIfDue edit.id) store

namespace Accepts

variable {store : Store}

theorem frame (accepts : desk.Accepts now store edit call voted) :
    voted = { store with votes := voted.votes } := by
  cases accepts with
  | ballot _ _ _ cast => exact upsertVote_frame cast
  | ending => rfl

theorem keepsVotes (accepts : desk.Accepts now store edit call voted) :
    store.KeepsVotes voted (call.ballot? now) := by
  cases accepts with
  | ballot _ _ _ cast => exact Store.upsertVote_keepsVotes cast
  | ending => exact Store.keepsVotes_refl _

/-- **The verdict on an edit that cannot be applied has no effects**: no notice and no promotion. -/
theorem resolves (accepts : desk.Accepts now ledger.store edit call voted)
    (found : ledger.store.edit? edit.id = some edit)
    (unused : ∀ comment ∈ ledger.store.comments, comment.id ≠ ⟨desk.draw ledger.issued⟩)
    (refused : edit.apply ⟨desk.draw ledger.issued⟩ now ledger.store = .error error) :
    desk.resolve { edit with score := (Tally.ofVotes (voted.votesOn edit.id)).net } .accept now
        ⟨voted, ledger.issued⟩ =
      .ok ((edit.failing voted now, []),
        ⟨{ voted with
            comments := voted.comments ++
              [desk.failureComment ledger.issued edit.id error now] }, ledger.issued + 1⟩) := by
  have frame := accepts.frame
  have same : ledger.store.SameCatalogue voted := by
    rw [frame]
    rfl
  have looked : voted.edit? edit.id = some edit := by
    rw [frame]
    exact found
  have unusedStill : ∀ comment ∈ voted.comments, comment.id ≠ ⟨desk.draw ledger.issued⟩ := by
    rw [frame]
    exact unused
  exact resolve_failed (Store.hasEdit_of_edit? looked) unusedStill ((apply_error same).mpr refused)

/-- The ballot, if there is one, can be cast at the start of the transaction. -/
theorem casts (accepts : desk.Accepts now store edit call voted) :
    (Transaction.start store).performAll ((call.ballot? now).toList.map .upsertVote) =
      .ok { Transaction.start store with current := voted } := by
  cases accepts with
  | @ballot caller choice voted _ _ _ cast =>
    have casts : (Transaction.start store).perform
        (.upsertVote ⟨edit.id, caller, choice, now⟩) =
          .ok (.done, { Transaction.start store with current := voted }) := by
      show (Transaction.start store).write <$> store.upsertVote _ = _
      rw [cast]
      rfl
    exact Transaction.performAll_cons casts
  | ending => rfl

section Refused

variable (accepts : desk.Accepts now ledger.store edit call voted)
  (found : ledger.store.edit? edit.id = some edit)

include accepts found

/-- The edit is stored beside its votes and any comments. -/
theorem looked (comments : List Comment) :
    ({ voted with comments } : Store).edit? edit.id = some edit := by
  rw [accepts.frame]
  exact found

/-- The comment can be written. -/
theorem commented (unused : ∀ row ∈ ledger.store.comments, row.id ≠ ⟨desk.draw ledger.issued⟩)
    (error : ReviewError) :
    voted.insertComment (desk.failureComment ledger.issued edit.id error now) =
      .ok { voted with
        comments := voted.comments ++ [desk.failureComment ledger.issued edit.id error now] } := by
  have unusedStill : ∀ row ∈ voted.comments, row.id ≠ ⟨desk.draw ledger.issued⟩ := by
    rw [accepts.frame]
    exact unused
  obtain ⟨after, inserted⟩ : ∃ after, voted.insertComment
      (desk.failureComment ledger.issued edit.id error now) = .ok after :=
    Store.insertComment_succeeds unusedStill (Store.hasEdit_of_edit? (accepts.looked found _))
  rw [inserted, Store.insertComment_ok inserted]

/-- So can the state of the edit. -/
theorem written (comment : Comment) :
    ({ voted with comments := voted.comments ++ [comment] } : Store).updateEdit
        (edit.failing voted now) =
      .ok (voted.withFailure (edit.failing voted now) comment) := by
  obtain ⟨after, updated⟩ : ∃ after,
      ({ voted with comments := voted.comments ++ [comment] } : Store).updateEdit
        (edit.failing voted now) = .ok after :=
    Store.updateEdit_succeeds rfl (Store.hasEdit_of_edit? (accepts.looked found _))
  rw [updated, updateEdit_ok updated]
  rfl

/-- **What a transaction answers, leaves and sends that accepts an edit which cannot be applied.** -/
theorem answers (pending : edit.isPending = true)
    (unused : ∀ comment ∈ ledger.store.comments, comment.id ≠ ⟨desk.draw ledger.issued⟩)
    (refused : edit.apply ⟨desk.draw ledger.issued⟩ now ledger.store = .error error) :
    desk.answer now ledger call = ⟨.ok (),
      ⟨voted.withFailure (edit.failing voted now)
        (desk.failureComment ledger.issued edit.id error now), ledger.issued + 1⟩,
      call.failureNotices (edit.failing voted now)⟩ := by
  have resolves := accepts.resolves found unused refused
  have written := accepts.written found (desk.failureComment ledger.issued edit.id error now)
  cases accepts with
  | @ballot caller choice voted ballot permitted other cast decides =>
    rw [← decides] at resolves
    show (desk.vote now caller edit.id choice ledger).forget = _
    rw [vote_resolves found written pending ballot permitted other cast resolves]
    have notices : (Call.vote caller edit.id choice).failureNotices (edit.failing voted now) =
        if choice = .reject then [.downvoted (edit.failing voted now)] else [] := rfl
    rw [notices]
    by_cases against : choice = .reject
    · rw [if_pos against, if_pos against]
      rfl
    · rw [if_neg against, if_neg against]
      rfl
  | ending due decides =>
    rw [← decides] at resolves
    show (desk.carryOut (desk.closeIfDue now edit.id) ledger).forget = _
    rw [carryOut_done (closeIfDue_resolves found written due resolves)]
    rfl

/-- **However far an application got, going back to the savepoint leads to the same record**, with the
ballot, which was cast before the savepoint. -/
theorem rolledBack (unused : ∀ row ∈ ledger.store.comments, row.id ≠ ⟨desk.draw ledger.issued⟩)
    {writes : List Statement} {attempted : Transaction}
    (plain : ∀ statement ∈ writes, statement.isStep = false)
    (done : (Transaction.start ledger.store).performAll (call.attempt now writes) = .ok attempted)
    (error : ReviewError) :
    ∃ last, attempted.performAll (Statement.afterFailure (edit.failing voted now)
        (desk.failureComment ledger.issued edit.id error now)) = .ok last ∧
      last.commit = voted.withFailure (edit.failing voted now)
        (desk.failureComment ledger.issued edit.id error now) := by
  have commented := accepts.commented found unused error
  have written := accepts.written found (desk.failureComment ledger.issued edit.id error now)
  let voting : Transaction := { Transaction.start ledger.store with current := voted }
  have casts : (Transaction.start ledger.store).performAll
      ((call.ballot? now).toList.map .upsertVote) = .ok voting := accepts.casts
  have wrote : voting.performAll (.savepoint .beforeApplying :: writes) = .ok attempted := by
    unfold Call.attempt at done
    rw [Transaction.performAll_append, casts] at done
    exact done
  have back := Transaction.performAll_rolledBack plain wrote
  let comment := desk.failureComment ledger.issued edit.id error now
  refine ⟨{ voting with current := voted.withFailure (edit.failing voted now) comment }, ?_, rfl⟩
  show attempted.performAll ([.rollbackTo .beforeApplying] ++
    [.insertComment comment, .updateEdit (edit.failing voted now)]) = _
  rw [Transaction.performAll_append, back]
  have comments : voting.perform (.insertComment comment) = .ok (.done,
      { voting with current := { voted with comments := voted.comments ++ [comment] } }) := by
    show voting.write <$> voted.insertComment comment = _
    rw [commented]
    rfl
  have updates : Transaction.perform
      { voting with current := { voted with comments := voted.comments ++ [comment] } }
      (.updateEdit (edit.failing voted now)) = .ok (.done,
        { voting with current := voted.withFailure (edit.failing voted now) comment }) := by
    show Transaction.write _ <$> ({ voted with comments := _ } : Store).updateEdit _ = _
    rw [written]
    rfl
  exact (Transaction.performAll_cons comments).trans (Transaction.performAll_cons updates)

end Refused

end Accepts

/-! ### The rest of a sweep -/

/-- A verdict comments on no edit but its own. -/
theorem resolve_remarks {counted resolved : Edit} {verdict : Verdict} {effects : List Effect}
    {after : Ledger} (other : id ≠ counted.id)
    (done : desk.resolve counted verdict now ledger = .ok ((resolved, effects), after)) :
    after.store.remarks id = ledger.store.remarks id := by
  cases verdict with
  | pending =>
    obtain ⟨-, rfl⟩ := Step.pure_ok.mp done
    rfl
  | reject =>
    obtain ⟨-, rfl⟩ := Step.pure_ok.mp done
    rfl
  | accept =>
    unfold resolve at done
    dsimp only at done
    split at done
    next applied middle applies =>
      obtain ⟨target, store, application, rfl, rfl⟩ := applyToStore_ok.mp applies
      cases done
      rw [Edit.apply_frame application]
      rfl
    next error refused =>
      unfold addComment at done
      simp only [Step.bind_ok, Step.issue_ok, Step.write_ok, Step.pure_ok] at done
      obtain ⟨_, _, ⟨_, _, ⟨-, rfl⟩, _, _, ⟨store, inserted, rfl⟩, -, rfl⟩, -, rfl⟩ := done
      rw [Store.insertComment_ok inserted]
      simp [Store.remarks, other.symm]

/-- Closing an edit comments on no other. -/
theorem closeIfDue_remarks {closed : EditId} (other : id ≠ closed) :
    (desk.proceed now ledger (.closeIfDue closed)).store.remarks id = ledger.store.remarks id := by
  show (desk.carryOut (desk.closeIfDue now closed) ledger).ledger.store.remarks id = _
  rcases desk.carryOut_cases (desk.closeIfDue now closed) ledger with
    same | ⟨result, effects, after, done, -, same⟩
  · rw [same]
  · obtain ⟨grants, followed⟩ := desk.follow_store effects after
    rw [same, followed]
    show after.store.remarks id = _
    unfold closeIfDue at done
    obtain ⟨found, _, look, done⟩ := Step.bind_ok.mp done
    obtain ⟨looked, rfl⟩ := Step.read_ok.mp look
    cases found with
    | none =>
      obtain ⟨-, rfl⟩ := Step.pure_ok.mp done
      rfl
    | some edit =>
      cases edit?_id (Option.filter_eq_some_iff.mp looked).1
      simp only [Step.bind_ok, Step.write_ok, Step.read_ok, Step.pure_ok] at done
      obtain ⟨tally, _, ⟨rfl, rfl⟩, ⟨resolved, settled⟩, middle, resolution, -, _,
        ⟨store, updated, rfl⟩, finish, rfl⟩ := done
      have kept : middle.store.remarks id = ledger.store.remarks id := by
        refine resolve_remarks ?_ resolution
        exact other
      rw [updateEdit_ok updated]
      exact kept

/-- An edit that is no longer pending is not closed again. -/
theorem closeIfDue_settled (found : ledger.store.edit? id = some edit)
    (settled : edit.isPending = false) :
    desk.proceed now ledger (.closeIfDue id) = ledger := by
  have undue : (ledger.store.edit? id).filter (fun edit => desk.isDue ledger.store edit now) =
      none := by
    rw [found, Option.filter_some, isDue, settled]
    rfl
  have closes : desk.closeIfDue now id ledger = .ok ((false, []), ledger) := by
    unfold closeIfDue
    rw [Step.bind_of_ok (Step.read_ok.mpr ⟨undue, rfl⟩)]
    rfl
  show (desk.carryOut (desk.closeIfDue now id) ledger).ledger = ledger
  rw [carryOut_done closes]
  rfl

/-- What is on record about an edit is the same in two stores: its state, the votes and its comments. -/
structure SameRecord (first second : Store) (id : EditId) : Prop where
  state : second.edit? id = first.edit? id
  votes : second.votes = first.votes
  remarks : second.remarks id = first.remarks id

/-- **The rest of a sweep leaves the record of an edit alone that is no longer pending**, by induction on
the edits that it closes. -/
theorem sweep_keepsRecord (desk : Desk) (now : Instant) (ids : List EditId)
    (found : ledger.store.edit? id = some edit) (settled : edit.isPending = false) :
    SameRecord ledger.store
      (desk.runFrom ledger (ids.map fun id => (now, .closeIfDue id))).store id := by
  rw [runFrom, List.foldl_map]
  refine List.foldlRecOn (motive := fun state : Ledger => SameRecord ledger.store state.store id)
    ids _ ⟨rfl, rfl, rfl⟩ fun state same closed _ => ?_
  dsimp only
  have stays : state.store.edit? id = some edit := same.state.trans found
  by_cases own : closed = id
  · rw [own, closeIfDue_settled stays settled]
    exact same
  · refine ⟨(desk.closeIfDue_edit? now state (Ne.symm own)).trans same.state, ?_,
      (closeIfDue_remarks (Ne.symm own)).trans same.remarks⟩
    rcases desk.closeIfDue_settles now closed state with core | ⟨_, _, _, -, -, -, -, -, -, votes⟩
    · exact core.votes.trans same.votes
    · exact votes.trans same.votes

/-! ### Runs -/

/-- After one of the transactions of a call come the others. -/
theorem run_rest {calls first rest : List (Instant × Call)} {step : Call}
    (performed : desk.transactions now (desk.run calls) call = first ++ (now, step) :: rest) :
    desk.run (calls ++ [(now, call)]) =
      desk.runFrom (desk.run (calls ++ first ++ [(now, step)])) rest := by
  rw [run_concat, ← runFrom_transactions, performed, ← run_append, ← run_append]
  simp only [List.append_assoc, List.singleton_append]

/-- These are closings of edits, if there are any. -/
theorem rest_cases {first rest : List (Instant × Call)} {step : Call}
    (performed : desk.transactions now ledger call = first ++ (now, step) :: rest) :
    (∃ ids : List EditId, rest = ids.map fun id => (now, .closeIfDue id)) ∨ rest = [] := by
  rcases desk.transactions_cases now ledger call with ⟨single, -⟩ | ⟨-, ids, parts⟩
  · exact .inr (transactions_single single performed).2.2
  · obtain ⟨_, later, -, -, closes⟩ := List.map_eq_append_iff.mp (parts.symm.trans performed)
    obtain ⟨_, others, -, -, same⟩ := List.map_eq_cons_iff.mp closes
    exact .inl ⟨others, same.symm⟩

/-- **What remains when an application fails is the record of the failure**, after every run, in every
transaction that has an edit accepted, and however far the application got. The transaction `step` of a
call does this, after the others in `first`, which are none unless the call is a sweep, and it depends on
the identifier of the comment being new. The verdict has no effects; the transaction succeeds, leaves the
record and sends no notice but that of a ballot against the edit; the rest of the call leaves the record
alone; and any statements between the savepoint and the way back come to the same. -/
theorem run_recordsFailure (desk : Desk) (calls : List (Instant × Call)) (now : Instant) (call : Call)
    {first rest : List (Instant × Call)} {step : Call} {before : Ledger}
    (performed : desk.transactions now (desk.run calls) call = first ++ (now, step) :: rest)
    (reached : before = desk.run (calls ++ first))
    (found : before.store.edit? edit.id = some edit) (pending : edit.isPending = true)
    (accepts : desk.Accepts now before.store edit step voted)
    (refused : edit.apply ⟨desk.draw before.issued⟩ now before.store = .error error)
    (distinct : Set.InjOn desk.draw {number | number ≤ before.issued}) :
    ∃ failed comment after,
      comment = ⟨⟨desk.draw before.issued⟩, edit.id, none,
        "Edit application failed: " ++ error.message, now⟩ ∧
      desk.resolve { edit with score := (Tally.ofVotes (voted.votesOn edit.id)).net } .accept now
          ⟨voted, before.issued⟩ =
        .ok ((failed, []), ⟨{ voted with comments := voted.comments ++ [comment] },
          before.issued + 1⟩) ∧
      after = desk.run (calls ++ first ++ [(now, step)]) ∧
      desk.answer now before step = ⟨.ok (), after, step.failureNotices failed⟩ ∧
      before.store.RecordsFailure after.store edit (step.ballot? now) comment now ∧
      SameRecord after.store (desk.run (calls ++ [(now, call)])).store edit.id ∧
      ∀ writes attempted, (∀ statement ∈ writes, statement.isStep = false) →
        (Transaction.start before.store).performAll (step.attempt now writes) = .ok attempted →
        ∃ last, attempted.performAll (Statement.afterFailure failed comment) = .ok last ∧
          last.commit = after.store := by
  have unused : ∀ row ∈ before.store.comments, row.id ≠ ⟨desk.draw before.issued⟩ := by
    rw [reached] at distinct ⊢
    exact (desk.run_unused _ distinct le_rfl le_rfl).comment
  have answers := accepts.answers found pending unused refused
  have after? : desk.run (calls ++ first ++ [(now, step)]) =
      ⟨voted.withFailure (edit.failing voted now)
        (desk.failureComment before.issued edit.id error now), before.issued + 1⟩ := by
    rw [run_concat, ← reached, ← answer_ledger, answers]
  have records : before.store.RecordsFailure (voted.withFailure (edit.failing voted now)
      (desk.failureComment before.issued edit.id error now)) edit (step.ballot? now)
      (desk.failureComment before.issued edit.id error now) now :=
    Store.withFailure_records found accepts.frame accepts.keepsVotes rfl
  refine ⟨edit.failing voted now, desk.failureComment before.issued edit.id error now, _, rfl,
    accepts.resolves found unused refused, after?.symm, answers, records, ?_, ?_⟩
  · rw [run_rest performed, after?]
    obtain ⟨ids, rfl⟩ | rfl := rest_cases performed
    · exact desk.sweep_keepsRecord now ids records.state rfl
    · exact ⟨rfl, rfl, rfl⟩
  · intro writes attempted plain done
    exact accepts.rolledBack found unused plain done error

/-- The second edit fails by a ballot, and it fails at the end of voting if nobody votes any more. -/
theorem renamedTwice_recordsFailure : ∃ (edit : Edit) (text : String) (voted expired : Ledger),
    text = "Edit application failed: data has changed: " ++
        "expected name to be outdoors, but was open air" ∧
      swift.answer (Clock.now ⟨3⟩) (swift.run (timed renamedTwice))
        (.vote ⟨Uuid.serial 1⟩ edit.id .accept) = ⟨.ok (), voted, []⟩ ∧
      (swift.run (timed renamedTwice)).store.RecordsFailure voted.store edit
        (some ⟨edit.id, ⟨Uuid.serial 1⟩, .accept, Clock.now ⟨3⟩⟩)
        ⟨⟨swift.draw (swift.run (timed renamedTwice)).issued⟩, edit.id, none, text, Clock.now ⟨3⟩⟩
        (Clock.now ⟨3⟩) ∧
      (swift.run (timed renamedTwice)).store.RecordsFailure expired.store edit none
        ⟨⟨swift.draw (swift.run (timed renamedTwice)).issued⟩, edit.id, none, text,
          Clock.now ⟨400000000⟩⟩ (Clock.now ⟨400000000⟩) ∧
      SameRecord expired.store (swift.run (timed renamedTwice ++
        [(Clock.now ⟨400000000⟩, .closeCompleted)])).store edit.id := by
  have facts : ((swift.run (timed renamedTwice)).store.edit? ⟨Uuid.serial 6⟩).any
      (fun edit => decide (edit.isPending = true ∧ edit.submitter ≠ some ⟨Uuid.serial 1⟩ ∧
        swift.isDue (swift.run (timed renamedTwice)).store edit (Clock.now ⟨400000000⟩) = true ∧
        Verdict.onExpiry (.ofVotes ((swift.run (timed renamedTwice)).store.votesOn edit.id))
          (swift.policy edit) = .accept ∧
        ((swift.run (timed renamedTwice)).store.upsertVote
          ⟨edit.id, ⟨Uuid.serial 1⟩, .accept, Clock.now ⟨3⟩⟩).map
            (fun voted => swift.verdictOn voted edit (Clock.now ⟨3⟩)) = .ok .accept ∧
        ∀ now ∈ [Clock.now ⟨3⟩, Clock.now ⟨400000000⟩],
          (edit.apply ⟨swift.draw (swift.run (timed renamedTwice)).issued⟩ now
            (swift.run (timed renamedTwice)).store).map (fun _ => ()) = .error (.mismatch
              (.field "name" (some (.text "outdoors")) (some (.text "open air")))))) = true := by
    decide +kernel
  obtain ⟨edit, waits, facts⟩ := (Option.any_eq_true ..).mp facts
  obtain ⟨pending, other, due, expires, settles, refuses⟩ := of_decide_eq_true facts
  obtain ⟨voted, cast, accepts⟩ := Except.map_ok.mp settles
  have found : (swift.run (timed renamedTwice)).store.edit? edit.id = some edit := by
    rw [edit?_id waits]
    exact waits
  have refused : ∀ now ∈ [Clock.now ⟨3⟩, Clock.now ⟨400000000⟩],
      edit.apply ⟨swift.draw (swift.run (timed renamedTwice)).issued⟩ now
        (swift.run (timed renamedTwice)).store = .error (.mismatch
          (.field "name" (some (.text "outdoors")) (some (.text "open air")))) :=
    fun now listed => Except.map_error.mp (refuses now listed)
  have few : (swift.run (timed renamedTwice)).issued < 1 <<< 62 := by decide +kernel
  have distinct :
      Set.InjOn swift.draw {number | number ≤ (swift.run (timed renamedTwice)).issued} :=
    fun _ first _ second same =>
      Uuid.serial_inj (lt_of_le_of_lt first few) (lt_of_le_of_lt second few) same
  have sweeps : swift.transactions (Clock.now ⟨400000000⟩) (swift.run (timed renamedTwice))
      .closeCompleted = [] ++ (Clock.now ⟨400000000⟩, .closeIfDue edit.id) :: [] := by
    rw [edit?_id waits]
    rfl
  obtain ⟨_, _, after, rfl, -, -, answers, records, -, -⟩ :=
    swift.run_recordsFailure (timed renamedTwice) (Clock.now ⟨3⟩)
      (.vote ⟨Uuid.serial 1⟩ edit.id .accept)
      (show swift.transactions _ _ _ = [] ++ (Clock.now ⟨3⟩, _) :: [] from rfl)
      (congrArg swift.run (List.append_nil _).symm) found pending
      (.ballot rfl ⟨[.vote], by decide +kernel, by decide⟩ other cast accepts)
      (refused _ (by decide)) distinct
  obtain ⟨_, _, later, rfl, -, -, -, expiry, rest, -⟩ :=
    swift.run_recordsFailure (timed renamedTwice) (Clock.now ⟨400000000⟩) .closeCompleted sweeps
      (congrArg swift.run (List.append_nil _).symm) found pending (.ending due expires)
      (refused _ (by decide)) distinct
  exact ⟨edit, _, after, later, by decide +kernel, answers, records, expiry, rest⟩

end Desk

end Curation
