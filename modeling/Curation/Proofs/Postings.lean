/-
**What a transaction posts.** A transaction changes the ledger by a sequence of primitive writes,
each of which names what it rests on: the user who votes is registered, an identifier is the next
one that the desk draws, an edit is removed because the call asks for it. Whatever all of these
writes keep, every transaction keeps.

* `Desk.Posts`: the writes, and `Desk.posts`: every transaction is a sequence of them;
* `Desk.Extends`: what they keep of the ledger and where additions come from, by
  `Desk.Posts.extends`;
* `Desk.run_gone`: an edit that is gone does not come back.
-/

import Curation.Proofs.Turns

namespace Curation

/-- The vote that a call may cast: who votes, on which edit, and how. -/
def Call.casts? : Call → Option (UserId × EditId × Choice)
  | .vote caller id choice => if choice.isBallot then some (caller, id, choice) else none
  | .cancel caller id => some (caller, id, .immediateReject)
  | .apply caller id => some (caller, id, .immediateAccept)
  | _ => none

namespace Desk

/-! ### The writes -/

/-- Primitive writes of a call at some time make one ledger of another. -/
inductive Posts (desk : Desk) (now : Instant) (call : Call) (before : Ledger) : Ledger → Prop where
  | nothing : Posts desk now call before before
  | user {ledger : Ledger} {store : Store} (name : String)
      (earlier : Posts desk now call before ledger)
      (done : ledger.store.insertUser ⟨desk.draw ledger.issued⟩ name now = .ok store) :
      Posts desk now call before ⟨store, ledger.issued + 1⟩
  | grant {ledger : Ledger} {store : Store} {isNew : Bool} (user : UserId) (role : Role)
      (earlier : Posts desk now call before ledger)
      (done : ledger.store.grantRole user role = .ok (isNew, store)) :
      Posts desk now call before ⟨store, ledger.issued⟩
  | filing {ledger : Ledger} {store : Store} (edit : Edit)
      (earlier : Posts desk now call before ledger)
      (drawn : edit.id = ⟨desk.draw ledger.issued⟩)
      (done : ledger.store.insertEdit edit = .ok store) :
      Posts desk now call before ⟨store, ledger.issued + 1⟩
  | state {ledger : Ledger} {store : Store} (edit : Edit)
      (earlier : Posts desk now call before ledger)
      (done : ledger.store.updateEdit edit = .ok store) :
      Posts desk now call before ⟨store, ledger.issued⟩
  | vote {ledger : Ledger} {store : Store} (vote : Vote)
      (earlier : Posts desk now call before ledger)
      (called : call.casts? = some (vote.voter, vote.edit, vote.choice))
      (known : ledger.store.hasUser vote.voter = true)
      (done : ledger.store.upsertVote vote = .ok store) :
      Posts desk now call before ⟨store, ledger.issued⟩
  | unvote {ledger : Ledger} (id : EditId) (earlier : Posts desk now call before ledger) :
      Posts desk now call before ⟨(ledger.store.clearVotes id).2, ledger.issued⟩
  | comment {ledger : Ledger} {store : Store} (comment : Comment)
      (earlier : Posts desk now call before ledger)
      (drawn : comment.id = ⟨desk.draw ledger.issued⟩)
      (done : ledger.store.insertComment comment = .ok store) :
      Posts desk now call before ⟨store, ledger.issued + 1⟩
  | application {ledger : Ledger} {store : Store} (edit : Edit) (target : EntityId)
      (earlier : Posts desk now call before ledger)
      (done : edit.apply ⟨desk.draw ledger.issued⟩ now ledger.store = .ok (target, store)) :
      Posts desk now call before ⟨store, ledger.issued + 1⟩
  | removal {ledger : Ledger} {store : Store} (edit : Edit) (caller : UserId) (reason : String)
      (earlier : Posts desk now call before ledger)
      (called : call = .deleteEdit caller edit.id reason)
      (done : ledger.store.deleteWithAudit ⟨desk.draw ledger.issued⟩ edit caller reason now =
        .ok store) :
      Posts desk now call before ⟨store, ledger.issued + 1⟩
  | expiry {ledger : Ledger} (cutoff : Instant) (earlier : Posts desk now call before ledger)
      (called : call = .deleteExpiredAudits) :
      Posts desk now call before ⟨(ledger.store.deleteAuditsBefore cutoff).2, ledger.issued⟩

variable {desk : Desk} {now : Instant} {call : Call} {before ledger after : Ledger}

/-! ### Parts of transactions -/

/-- A role that is granted when an edit has been applied. -/
theorem Posts.promote (posts : desk.Posts now call before ledger) (user : UserId) :
    desk.Posts now call before (desk.promote user ledger) := by
  unfold Desk.promote
  split
  · exact posts
  · split
    next promoted =>
      unfold Store.promote at promoted
      split at promoted
      · cases promoted
        exact posts
      · split at promoted
        · cases promoted
          exact posts
        · exact posts.grant user .vote promoted
    · exact posts

/-- What follows a step. -/
theorem Posts.follow (posts : desk.Posts now call before ledger) (effects : List Effect) :
    desk.Posts now call before (desk.follow effects ledger).1 := by
  unfold Desk.follow
  refine List.foldlRecOn effects _
    (motive := fun (pair : Ledger × List Notice) => desk.Posts now call before pair.1) posts ?_
  rintro ⟨state, notices⟩ earlier effect -
  cases effect with
  | notify notice => exact earlier
  | promote user => exact earlier.promote user

theorem Posts.carryOut {α : Type} {step : Step (α × List Effect)}
    (succeeds : ∀ result effects after, step ledger = .ok ((result, effects), after) →
      desk.Posts now call ledger after) :
    desk.Posts now call ledger (desk.carryOut step ledger).ledger := by
  rcases desk.carryOut_cases step ledger with same | ⟨result, effects, after, done, -, same⟩
  · rw [same]
    exact .nothing
  · rw [same]
    exact (succeeds result effects after done).follow effects

theorem Posts.carryOutQuietly {α : Type} {step : Step α}
    (succeeds : ∀ result after, step ledger = .ok (result, after) →
      desk.Posts now call ledger after) :
    desk.Posts now call ledger (Desk.carryOutQuietly step ledger).ledger := by
  rcases carryOutQuietly_cases step ledger with same | ⟨result, after, done, same⟩
  · rw [same]
    exact .nothing
  · rw [same]
    exact succeeds result after done

theorem rolesOf_ok {store : Store} {caller : UserId} {roles : List Role}
    (given : rolesOf store caller = .ok roles) : store.hasUser caller = true := by
  unfold rolesOf at given
  split at given
  next known => exact known
  · cases given

theorem Posts.addComment {edit : EditId} {author : Option UserId} {text : String}
    {comment : Comment} (posts : desk.Posts now call before ledger)
    (done : desk.addComment edit author text now ledger = .ok (comment, after)) :
    desk.Posts now call before after := by
  unfold Desk.addComment at done
  simp only [Step.bind_ok, Step.issue_ok, Step.write_ok, Step.pure_ok] at done
  obtain ⟨_, _, ⟨rfl, rfl⟩, _, _, ⟨store, inserted, rfl⟩, _, rfl⟩ := done
  exact posts.comment _ rfl inserted

theorem Posts.addRemark {edit : EditId} {author : UserId} {remark : Option String} {result : Unit}
    (posts : desk.Posts now call before ledger)
    (done : desk.addRemark edit author remark now ledger = .ok (result, after)) :
    desk.Posts now call before after := by
  unfold Desk.addRemark at done
  split at done
  · obtain ⟨-, rfl⟩ := Step.pure_ok.mp done
    exact posts
  · split at done
    · obtain ⟨-, rfl⟩ := Step.pure_ok.mp done
      exact posts
    · obtain ⟨_, _, added, finish⟩ := Step.bind_ok.mp done
      obtain ⟨-, rfl⟩ := Step.pure_ok.mp finish
      exact posts.addComment added

theorem Posts.resolve {counted resolved : Edit} {verdict : Verdict} {effects : List Effect}
    (posts : desk.Posts now call before ledger)
    (done : desk.resolve counted verdict now ledger = .ok ((resolved, effects), after)) :
    desk.Posts now call before after := by
  unfold Desk.resolve at done
  cases verdict with
  | pending =>
    obtain ⟨-, rfl⟩ := Step.pure_ok.mp done
    exact posts
  | reject =>
    obtain ⟨-, rfl⟩ := Step.pure_ok.mp done
    exact posts
  | accept =>
    dsimp only at done
    split at done
    next applied middle applies =>
      obtain ⟨target, store, application, rfl, rfl⟩ := applyToStore_ok.mp applies
      cases done
      exact posts.application counted target application
    next error refused =>
      obtain ⟨_, _, added, finish⟩ := Step.bind_ok.mp done
      obtain ⟨-, rfl⟩ := Step.pure_ok.mp finish
      exact posts.addComment added

theorem Posts.enact {edit closed : Edit} (posts : desk.Posts now call before ledger)
    (done : desk.enact edit now ledger = .ok (closed, after)) :
    desk.Posts now call before after := by
  unfold Desk.enact at done
  simp only [Step.bind_ok, Step.write_ok, Step.pure_ok, applyToStore_ok] at done
  obtain ⟨_, _, ⟨target, store, applies, rfl, rfl⟩, _, _, ⟨_, updated, rfl⟩, rfl, rfl⟩ := done
  exact (posts.application edit target applies).state _ updated

theorem Posts.fileEdit {caller : UserId} {submission : Submission} {edit : Edit}
    (posts : desk.Posts now call before ledger)
    (done : desk.fileEdit now caller submission ledger = .ok (edit, after)) :
    desk.Posts now call before after := by
  unfold Desk.fileEdit at done
  simp only [Step.bind_ok, Step.check_ok, Step.issue_ok, Step.write_ok, Step.pure_ok] at done
  obtain ⟨roles, _, ⟨-, rfl⟩, _, _, ⟨-, rfl⟩, details, _, ⟨checked, rfl⟩, id, _, ⟨rfl, rfl⟩, _, _,
    ⟨store, inserted, rfl⟩, _, _, remarked, rfl, rfl⟩ := done
  exact (posts.filing _ rfl inserted).addRemark remarked

theorem Posts.grantRoles {user : UserId} {roles : List Role} {result : PUnit}
    (posts : desk.Posts now call before ledger)
    (done : (forIn roles PUnit.unit fun role _ => do
        let _ ← Step.writeWith fun store => store.grantRole user role
        pure (ForInStep.yield PUnit.unit) : Step PUnit) ledger = .ok (result, after)) :
    desk.Posts now call before after := by
  induction roles generalizing ledger with
  | nil =>
    obtain ⟨-, rfl⟩ := Step.pure_ok.mp done
    exact posts
  | cons role rest hypothesis =>
    simp only [List.forIn_cons, Step.bind_ok, Step.writeWith_ok, Step.pure_ok] at done
    obtain ⟨_, _, ⟨isNew, _, ⟨store, granted, rfl⟩, rfl, rfl⟩, done⟩ := done
    exact hypothesis (posts.grant user role granted) done

/-! ### Transactions post -/

variable (desk now ledger)

theorem registerUser_posts (name : String) (roles : List Role) :
    desk.Posts now call ledger (desk.registerUser now name roles ledger).ledger := by
  refine .carryOutQuietly fun result after done => ?_
  simp only [Step.bind_ok, Step.issue_ok, Step.write_ok, Step.pure_ok] at done
  obtain ⟨user, _, ⟨rfl, rfl⟩, -, _, ⟨store, registered, rfl⟩, _, _, granted, -, rfl⟩ := done
  exact (Posts.nothing.user name registered).grantRoles granted

theorem grantRole_posts (user : UserId) (role : Role) :
    desk.Posts now call ledger (Desk.grantRole user role ledger).ledger := by
  refine .carryOutQuietly fun result after done => ?_
  simp only [Step.bind_ok, Step.check_ok, Step.writeWith_ok] at done
  obtain ⟨-, _, ⟨-, rfl⟩, store, granted, rfl⟩ := done
  exact Posts.nothing.grant user role granted

theorem createEdit_posts (caller : UserId) (submission : Submission) :
    desk.Posts now call ledger (desk.createEdit now caller submission ledger).ledger := by
  refine .carryOut fun result effects after done => ?_
  obtain ⟨filed, middle, filing, done⟩ := Step.bind_ok.mp done
  have posts : desk.Posts now call ledger middle := Posts.nothing.fileEdit filing
  split at done
  · obtain ⟨closed, _, enacting, finish⟩ := Step.bind_ok.mp done
    obtain ⟨-, rfl⟩ := Step.pure_ok.mp finish
    exact posts.enact enacting
  · obtain ⟨-, rfl⟩ := Step.pure_ok.mp done
    exact posts

theorem updateEdit_posts (caller : UserId) (id : EditId) (proposal : Proposal)
    (remark : Option String) :
    desk.Posts now call ledger (desk.updateEdit now caller id proposal remark ledger).ledger := by
  refine .carryOut fun result effects after done => ?_
  simp only [Step.bind_ok, Step.check_ok, Step.write_ok, Step.writeWith_ok, Step.pure_ok,
    require_ok, requirePending_ok, loadEdit_ok] at done
  obtain ⟨roles, _, ⟨-, rfl⟩, edit, _, ⟨-, rfl⟩, -, _, ⟨-, rfl⟩, -, _, ⟨-, rfl⟩, -, _, ⟨-, rfl⟩, -,
    _, ⟨-, rfl⟩, -, _, ⟨-, rfl⟩, details, _, ⟨-, rfl⟩, cleared, _, ⟨emptied, clears, rfl⟩, -, _,
    ⟨store, updated, rfl⟩, _, _, remarked, finish, rfl⟩ := done
  cases clears
  exact ((Posts.nothing.unvote id).state _ updated).addRemark remarked

theorem vote_posts (caller : UserId) (id : EditId) (choice : Choice) :
    desk.Posts now (.vote caller id choice) ledger
      (desk.vote now caller id choice ledger).ledger := by
  refine .carryOut fun result effects after done => ?_
  simp only [Step.bind_ok, Step.check_ok, Step.write_ok, Step.read_ok, Step.pure_ok, require_ok,
    requirePending_ok, loadEdit_ok] at done
  obtain ⟨-, _, ⟨ballot, rfl⟩, roles, _, ⟨given, rfl⟩, -, _, ⟨-, rfl⟩, edit, _, ⟨-, rfl⟩, -, _,
    ⟨-, rfl⟩, -, _, ⟨-, rfl⟩, -, _, ⟨voted, cast, rfl⟩, tally, _, ⟨-, rfl⟩, ⟨resolved, settled⟩,
    middle, resolution, -, _, ⟨store, updated, rfl⟩, finish, rfl⟩ := done
  have called : (Call.vote caller id choice).casts? = some (caller, id, choice) := if_pos ballot
  exact ((Posts.nothing.vote _ called (rolesOf_ok given) cast).resolve resolution).state _ updated

theorem comment_posts (caller : UserId) (id : EditId) (text : String) :
    desk.Posts now call ledger (desk.comment now caller id text ledger).ledger := by
  refine .carryOut fun result effects after done => ?_
  simp only [Step.bind_ok, Step.check_ok, Step.pure_ok] at done
  obtain ⟨-, _, ⟨-, rfl⟩, roles, _, ⟨-, rfl⟩, -, _, ⟨-, rfl⟩, edit, _, ⟨-, rfl⟩, comment, _, added,
    -, rfl⟩ := done
  exact Posts.nothing.addComment added

theorem cancel_posts (caller : UserId) (id : EditId) :
    desk.Posts now (.cancel caller id) ledger (desk.cancel now caller id ledger).ledger := by
  refine .carryOut fun result effects after done => ?_
  simp only [Step.bind_ok, Step.check_ok, require_ok, requirePending_ok, loadEdit_ok] at done
  obtain ⟨roles, _, ⟨given, rfl⟩, edit, _, ⟨-, rfl⟩, -, _, ⟨-, rfl⟩, -, _, ⟨-, rfl⟩, done⟩ := done
  split at done
  · simp only [Step.bind_ok, Step.write_ok, Step.pure_ok] at done
    obtain ⟨-, _, ⟨voted, cast, rfl⟩, -, _, ⟨store, updated, rfl⟩, finish, rfl⟩ := done
    exact (Posts.nothing.vote _ rfl (rolesOf_ok given) cast).state _ updated
  · simp only [Step.bind_ok, Step.write_ok, Step.pure_ok] at done
    obtain ⟨-, _, ⟨store, updated, rfl⟩, finish, rfl⟩ := done
    exact Posts.nothing.state _ updated

theorem apply_posts (caller : UserId) (id : EditId) :
    desk.Posts now (.apply caller id) ledger (desk.apply now caller id ledger).ledger := by
  refine .carryOut fun result effects after done => ?_
  simp only [Step.bind_ok, Step.check_ok, Step.write_ok, Step.pure_ok, requirePending_ok,
    loadEdit_ok] at done
  obtain ⟨roles, _, ⟨given, rfl⟩, -, _, ⟨-, rfl⟩, edit, _, ⟨-, rfl⟩, -, _, ⟨-, rfl⟩, -, _,
    ⟨voted, cast, rfl⟩, closed, _, enacting, finish, rfl⟩ := done
  exact (Posts.nothing.vote _ rfl (rolesOf_ok given) cast).enact enacting

theorem closeIfDue_posts (id : EditId) :
    desk.Posts now call ledger (desk.carryOut (desk.closeIfDue now id) ledger).ledger := by
  refine .carryOut fun result effects after done => ?_
  unfold closeIfDue at done
  obtain ⟨found, _, look, done⟩ := Step.bind_ok.mp done
  obtain ⟨-, rfl⟩ := Step.read_ok.mp look
  cases found with
  | none =>
    obtain ⟨-, rfl⟩ := Step.pure_ok.mp done
    exact .nothing
  | some edit =>
    simp only [Step.bind_ok, Step.write_ok, Step.read_ok, Step.pure_ok] at done
    obtain ⟨tally, _, ⟨-, rfl⟩, ⟨resolved, settled⟩, middle, resolution, -, _,
      ⟨store, updated, rfl⟩, finish, rfl⟩ := done
    exact (Posts.nothing.resolve resolution).state _ updated

theorem deleteEdit_posts (caller : UserId) (id : EditId) (reason : String) :
    desk.Posts now (.deleteEdit caller id reason) ledger
      (desk.deleteEdit now caller id reason ledger).ledger := by
  refine .carryOutQuietly fun result after done => ?_
  simp only [Step.bind_ok, Step.check_ok, Step.read_ok] at done
  obtain ⟨roles, _, ⟨-, rfl⟩, -, _, ⟨-, rfl⟩, found, _, ⟨looked, rfl⟩, done⟩ := done
  cases found with
  | none =>
    obtain ⟨-, rfl⟩ := Step.pure_ok.mp done
    exact .nothing
  | some edit =>
    simp only [Step.bind_ok, Step.check_ok, Step.issue_ok, Step.write_ok, Step.pure_ok] at done
    obtain ⟨-, _, ⟨-, rfl⟩, audit, _, ⟨rfl, rfl⟩, -, _, ⟨store, deleted, rfl⟩, -, rfl⟩ := done
    cases edit?_id looked
    exact Posts.nothing.removal edit caller reason rfl deleted

theorem deleteExpiredAudits_posts :
    desk.Posts now .deleteExpiredAudits ledger (desk.deleteExpiredAudits now ledger).ledger := by
  rcases desk.deleteExpiredAudits_outcome now ledger with ⟨result, same⟩ | ⟨cutoff, same⟩
  · rw [same]
    exact .nothing
  · rw [same]
    exact Posts.nothing.expiry cutoff rfl

/-- **Every single transaction posts primitive writes.** -/
theorem posts {call : Call} (single : call.isSingle = true) :
    desk.Posts now call ledger (desk.proceed now ledger call) := by
  cases call with
  | registerUser name roles => exact desk.registerUser_posts now ledger name roles
  | grantRole user role => exact desk.grantRole_posts now ledger user role
  | createEdit caller submission => exact desk.createEdit_posts now ledger caller submission
  | updateEdit caller id proposal remark =>
    exact desk.updateEdit_posts now ledger caller id proposal remark
  | vote caller id choice => exact desk.vote_posts now ledger caller id choice
  | comment caller id text => exact desk.comment_posts now ledger caller id text
  | cancel caller id => exact desk.cancel_posts now ledger caller id
  | apply caller id => exact desk.apply_posts now ledger caller id
  | closeIfDue id => exact desk.closeIfDue_posts now ledger id
  | closeCompleted => cases single
  | deleteEdit caller id reason => exact desk.deleteEdit_posts now ledger caller id reason
  | deleteExpiredAudits => exact desk.deleteExpiredAudits_posts now ledger

end Desk

/-! ### What is kept of the ledger -/

namespace Store

variable {store after : Store}

theorem insertUser_ok {id : UserId} {name : String} {now : Instant}
    (done : store.insertUser id name now = .ok after) :
    after = { store with users := store.users ++ [⟨id, name, now⟩] } := by
  unfold insertUser at done
  split at done
  · cases done
  · cases done
    rfl

theorem insertComment_ok {comment : Comment} (done : store.insertComment comment = .ok after) :
    after = { store with comments := store.comments ++ [comment] } := by
  unfold insertComment at done
  split at done
  · cases done
  · split at done
    · cases done
    · cases done
      rfl

/-- The vote that is cast is on record, and every other vote on record was there. -/
theorem mem_upsertVote {vote row : Vote} (done : store.upsertVote vote = .ok after)
    (member : row ∈ after.votes) : row = vote ∨ row ∈ store.votes := by
  unfold upsertVote at done
  split at done
  · cases done
  · split at done
    · cases done
      obtain ⟨earlier, stored, rfl⟩ := List.mem_map.mp member
      split
      · exact .inl rfl
      · exact .inr stored
    · cases done
      rcases List.mem_append.mp member with stored | cast
      · exact .inr stored
      · exact .inl (List.mem_singleton.mp cast)

/-- An edit goes with its votes and comments, and an audit is left. -/
theorem deleteWithAudit_frame {audit : AuditId} {edit : Edit} {caller : UserId} {reason : String}
    {now : Instant} (done : store.deleteWithAudit audit edit caller reason now = .ok after) :
    after = { (store.deleteEdit edit.id).2 with audits := after.audits } := by
  obtain ⟨audited, inserted, finish⟩ := Except.bind_ok.mp done
  cases finish
  unfold insertAudit at inserted
  split at inserted
  · cases inserted
  · cases inserted
    rfl

/-- The comments on an edit, in the order in which they were made. -/
def remarks (store : Store) (id : EditId) : List Comment :=
  store.comments.filter fun comment => comment.edit = id

end Store

namespace Desk

variable {desk : Desk} {now : Instant} {call : Call} {before ledger after : Ledger}

/-- Identifiers are issued one after the other, and edits get those that are issued meanwhile. -/
structure Issues (desk : Desk) (before after : Ledger) : Prop where
  issued : before.issued ≤ after.issued
  edits : ∀ edit ∈ after.store.edits, before.store.hasEdit edit.id = true ∨
    ∃ number, before.issued ≤ number ∧ number < after.issued ∧ edit.id = ⟨desk.draw number⟩

/-- How a call extends the ledger. New edits get new identifiers. Users stay registered, and votes
are those on record or the one that the call casts for a registered user. Comments are only added,
unless the call deletes their edit. -/
structure Extends (desk : Desk) (call : Call) (before after : Ledger) : Prop
    extends desk.Issues before after where
  users : before.store.users <+: after.store.users
  votes : ∀ vote ∈ after.store.votes, vote ∈ before.store.votes ∨
    (call.casts? = some (vote.voter, vote.edit, vote.choice) ∧
      after.store.hasUser vote.voter = true)
  comments : ∀ id, (∀ caller reason, call ≠ .deleteEdit caller id reason) →
    before.store.remarks id <+: after.store.remarks id

theorem hasUser_of_prefix {first second : Store} {id : UserId} (users : first.users <+: second.users)
    (known : first.hasUser id = true) : second.hasUser id = true := by
  unfold Store.hasUser at known ⊢
  rw [List.any_eq_true] at known ⊢
  obtain ⟨user, member, same⟩ := known
  exact ⟨user, users.subset member, same⟩

theorem hasEdit_of_mem {store : Store} {edit : Edit} (member : edit ∈ store.edits) :
    store.hasEdit edit.id = true :=
  List.any_eq_true.mpr ⟨edit, member, decide_eq_true rfl⟩

theorem Issues.refl (desk : Desk) (ledger : Ledger) : desk.Issues ledger ledger where
  issued := le_rfl
  edits _ member := .inl (hasEdit_of_mem member)

theorem Issues.hasEdit (issues : desk.Issues before after) {id : EditId}
    (stored : after.store.hasEdit id = true) : before.store.hasEdit id = true ∨
      ∃ number, before.issued ≤ number ∧ number < after.issued ∧ id = ⟨desk.draw number⟩ := by
  obtain ⟨edit, listed, same⟩ := List.any_eq_true.mp stored
  rw [← of_decide_eq_true same]
  exact issues.edits edit listed

theorem Issues.trans (first : desk.Issues before ledger) (second : desk.Issues ledger after) :
    desk.Issues before after where
  issued := first.issued.trans second.issued
  edits edit member := by
    rcases second.edits edit member with stored | ⟨number, least, most, drawn⟩
    · rcases first.hasEdit stored with known | ⟨number, least, most, drawn⟩
      · exact .inl known
      · exact .inr ⟨number, least, most.trans_le second.issued, drawn⟩
    · exact .inr ⟨number, first.issued.trans least, most, drawn⟩

namespace Extends

theorem refl (desk : Desk) (call : Call) (ledger : Ledger) : desk.Extends call ledger ledger where
  toIssues := .refl desk ledger
  users := List.prefix_rfl
  votes _ member := .inl member
  comments _ _ := List.prefix_rfl

theorem trans (first : desk.Extends call before ledger) (second : desk.Extends call ledger after) :
    desk.Extends call before after where
  toIssues := first.toIssues.trans second.toIssues
  users := first.users.trans second.users
  votes vote member := by
    rcases second.votes vote member with stored | cast
    · rcases first.votes vote stored with earlier | ⟨called, known⟩
      · exact .inl earlier
      · exact .inr ⟨called, hasUser_of_prefix second.users known⟩
    · exact .inr cast
  comments id kept := (first.comments id kept).trans (second.comments id kept)

/-- A write that leaves users, edits, votes and comments alone. -/
theorem of_same (issued : ledger.issued ≤ after.issued)
    (users : after.store.users = ledger.store.users)
    (edits : after.store.edits = ledger.store.edits)
    (votes : after.store.votes = ledger.store.votes)
    (comments : after.store.comments = ledger.store.comments) : desk.Extends call ledger after where
  issued := issued
  edits edit member := .inl (hasEdit_of_mem (edits ▸ member))
  users := by rw [users]
  votes vote member := .inl (votes ▸ member)
  comments id _ := by
    unfold Store.remarks
    rw [comments]

end Extends

/-- **What a transaction posts extends the ledger.** -/
theorem Posts.extends (posts : desk.Posts now call before after) : desk.Extends call before after := by
  induction posts with
  | nothing => exact .refl desk call before
  | user name _ done earlier =>
    refine earlier.trans ?_
    rw [Store.insertUser_ok done]
    exact ⟨⟨Nat.le_succ _, fun edit member => .inl (hasEdit_of_mem member)⟩,
      List.prefix_append _ _, fun vote member => .inl member, fun id _ => List.prefix_rfl⟩
  | grant user role _ done earlier =>
    refine earlier.trans (.of_same le_rfl ?_ ?_ ?_ ?_) <;> rw [Store.grantRole_store done]
  | filing edit _ drawn done earlier =>
    refine earlier.trans ?_
    rw [(insertEdit_ok done).2]
    refine ⟨⟨Nat.le_succ _, fun row member => ?_⟩, List.prefix_rfl, fun vote member => .inl member,
      fun id _ => List.prefix_rfl⟩
    rcases List.mem_append.mp member with stored | filed
    · exact .inl (hasEdit_of_mem stored)
    · rw [List.mem_singleton.mp filed]
      exact .inr ⟨_, le_rfl, Nat.lt_succ_self _, drawn⟩
  | state edit _ done earlier =>
    refine earlier.trans ?_
    rw [updateEdit_ok done]
    refine ⟨⟨le_rfl, fun row member => .inl ?_⟩, List.prefix_rfl, fun vote member => .inl member,
      fun id _ => List.prefix_rfl⟩
    obtain ⟨stored, listed, rfl⟩ := List.mem_map.mp member
    have known := hasEdit_of_mem listed
    split <;> exact known
  | vote vote _ called known done earlier =>
    refine earlier.trans ?_
    have frame := upsertVote_frame done
    refine ⟨⟨le_rfl, fun edit member => ?_⟩, ?_, fun row member => ?_, fun id _ => ?_⟩
    · rw [frame] at member
      exact .inl (hasEdit_of_mem member)
    · rw [frame]
    · rcases Store.mem_upsertVote done member with rfl | stored
      · refine .inr ⟨called, ?_⟩
        rw [frame]
        exact known
      · exact .inl stored
    · rw [frame]
      exact List.prefix_rfl
  | unvote id _ earlier =>
    refine earlier.trans ?_
    exact ⟨⟨le_rfl, fun edit member => .inl (hasEdit_of_mem member)⟩, List.prefix_rfl,
      fun vote member => .inl (List.mem_filter.mp member).1, fun id _ => List.prefix_rfl⟩
  | comment comment _ drawn done earlier =>
    refine earlier.trans ?_
    rw [Store.insertComment_ok done]
    refine ⟨⟨Nat.le_succ _, fun edit member => .inl (hasEdit_of_mem member)⟩, List.prefix_rfl,
      fun vote member => .inl member, fun id _ => ?_⟩
    unfold Store.remarks
    rw [List.filter_append]
    exact List.prefix_append _ _
  | application edit target _ done earlier =>
    refine earlier.trans (.of_same (Nat.le_succ _) ?_ ?_ ?_ ?_) <;>
      (rw [Edit.apply_frame done]; rfl)
  | removal edit caller reason _ called done earlier =>
    refine earlier.trans ?_
    have frame := Store.deleteWithAudit_frame done
    refine ⟨⟨Nat.le_succ _, fun row member => ?_⟩, ?_, fun vote member => ?_, fun id kept => ?_⟩
    · rw [frame] at member
      exact .inl (hasEdit_of_mem (List.mem_filter.mp member).1)
    · rw [frame]
      exact List.prefix_rfl
    · rw [frame] at member
      exact .inl (List.mem_filter.mp member).1
    · have other : id ≠ edit.id := by
        rintro rfl
        exact kept caller reason called
      rw [frame]
      unfold Store.remarks Store.deleteEdit
      dsimp only
      rw [List.filter_filter, List.filter_congr fun comment _ => ?_]
      by_cases same : comment.edit = id
      · simp [same, other]
      · simp [same]
  | expiry cutoff _ called earlier => exact earlier.trans (.of_same le_rfl rfl rfl rfl rfl)

/-- **New edits get new identifiers** throughout a run. -/
theorem run_issues (desk : Desk) {calls longer : List (Instant × Call)} (begins : calls <+: longer) :
    desk.Issues (desk.run calls) (desk.run longer) := by
  obtain ⟨later, rfl⟩ := begins
  rw [run_append]
  generalize desk.run calls = start
  refine List.foldlRecOn (motive := desk.Issues start) later _ (.refl desk start) ?_
  rintro ledger issues ⟨now, call⟩ -
  refine @proceed_keeps (desk.Issues start) desk now ledger call issues ?_
  exact fun state step single _ earlier => earlier.trans (desk.posts now state single).extends.toIssues

/-- **An edit that is gone does not come back** if no identifier is issued twice. -/
theorem run_gone (desk : Desk) {early middle late : List (Instant × Call)} {id : EditId}
    (before : early <+: middle) (after : middle <+: late)
    (distinct : Set.InjOn desk.draw {number | number < (desk.run late).issued})
    (stored : (desk.run early).store.hasEdit id = true)
    (gone : (desk.run middle).store.hasEdit id = false) :
    (desk.run late).store.hasEdit id = false := by
  by_contra back
  rw [Bool.not_eq_false] at back
  have start : desk.Issues .empty (desk.run early) := desk.run_issues List.nil_prefix
  -- the edit got its identifier before it was gone, and another edit could only get it later
  obtain ⟨old, -, oldLess, oldDrawn⟩ := (start.hasEdit stored).resolve_left Bool.false_ne_true
  obtain ⟨new, newLeast, newLess, newDrawn⟩ :=
    ((desk.run_issues after).hasEdit back).resolve_left (Bool.eq_false_iff.mp gone)
  have less : old < (desk.run middle).issued :=
    lt_of_lt_of_le oldLess (desk.run_issues before).issued
  have same : old = new := distinct (less.trans_le (desk.run_issues after).issued) newLess
    (congrArg Id.uuid (oldDrawn.symm.trans newDrawn))
  omega

end Desk

end Curation
