/-
**Who is promoted.** A user enough of whose edits have been applied is given the role for voting. The
number of such edits grows in four operations, several times in a sweep, and shrinks when an edit is
deleted; promotion comes after the step, as one of its effects. Whichever operation applies an edit
asks for the promotion of its submitter, so that nobody who has earned it goes without it.

* `Store.countEdits_editsWith`: how the number of applied edits grows;
* `Desk.Concludes`: a call that applies an edit asks for the promotion of its submitter;
* `Store.Promotes`: the promotions between two states, and `Desk.proceed_promotes`: a call that grants
  no role itself grants only those;
* `Desk.run_complete`: nobody is left out, and `Desk.run_promotions`: promotion is complete, sound and
  once only.
-/

import Curation.Proofs.Applications
import Curation.Proofs.Grants
import Curation.Proofs.Register

namespace Curation

theorem Status.mem_counting {status : Status} : status ∈ counting ↔ status.isApplied = true := by
  cases status <;> decide

theorem Effect.mem_ofApplied {edit : Edit} {user : UserId} (submitter : edit.submitter = some user) :
    .promote user ∈ ofApplied edit := by
  unfold ofApplied
  rw [submitter]
  exact List.mem_cons_of_mem _ (List.mem_singleton.mpr rfl)

/-! ### Counting applied edits -/

namespace Store

variable {before after : Store} {edit written : Edit} {user : UserId}

/-- The edits around one that is stored. -/
theorem edits_split (distinct : (before.edits.map Edit.id).Nodup) {id : EditId}
    (found : before.edit? id = some edit) :
    ∃ first row rest, before.edits = first ++ row :: rest ∧ row.toMillisecond = edit ∧
      ∀ written : Edit, written.id = id →
        before.editsWith written = first ++ overwriteEdit row written :: rest := by
  obtain ⟨row, looked, same⟩ := Option.map_eq_some_iff.mp found
  have rowId : row.id = id := by simpa using List.find?_some looked
  obtain ⟨first, rest, parts⟩ := List.append_of_mem (List.mem_of_find?_eq_some looked)
  refine ⟨first, row, rest, parts, same, fun written sameId => ?_⟩
  rw [parts, List.map_append, List.map_cons, List.nodup_middle, List.nodup_cons] at distinct
  obtain ⟨apartFirst, apartRest⟩ := not_or.mp (List.mem_append.not.mp distinct.1)
  have kept (rows : List Edit) (apart : row.id ∉ rows.map Edit.id) :
      rows.map (fun stored => if stored.id = written.id then overwriteEdit stored written else stored) =
        rows := by
    refine (List.map_congr_left fun stored listed => ?_).trans (List.map_id _)
    rw [if_neg, id_eq]
    intro clash
    exact apart (rowId.trans (sameId.symm.trans clash.symm) ▸ List.mem_map_of_mem listed)
  unfold editsWith
  rw [parts, List.map_append, List.map_cons, kept first apartFirst, kept rest apartRest,
    if_pos (rowId.trans sameId.symm)]

/-- **Handling a pending edit adds one to the applied edits of its submitter** if it is applied, and
leaves the number as it is otherwise. -/
theorem countEdits_editsWith (distinct : (before.edits.map Edit.id).Nodup)
    (found : before.edit? written.id = some edit) (pending : edit.isPending = true)
    (edits : after.edits = before.editsWith written) (user : UserId) :
    after.countEdits user Status.counting = before.countEdits user Status.counting +
      if edit.submitter = some user ∧ written.status.isApplied = true then 1 else 0 := by
  obtain ⟨first, row, rest, parts, rfl, with_written⟩ := edits_split distinct found
  unfold countEdits
  rw [edits, with_written written rfl, parts]
  simp only [List.countP_append, List.countP_cons, Status.mem_counting]
  have unapplied : row.status.isApplied = false := Edit.not_isApplied_of_isPending pending
  have submitter : (overwriteEdit row written).submitter = row.toMillisecond.submitter := rfl
  have status : (overwriteEdit row written).status = written.status := rfl
  rw [submitter, status, unapplied]
  by_cases gains : row.toMillisecond.submitter = some user ∧ written.status.isApplied = true
  · rw [if_pos gains, if_pos (decide_eq_true gains)]
    simp
    omega
  · rw [if_neg gains, if_neg fun gained => gains (of_decide_eq_true gained)]
    simp

theorem countEdits_append (edits : after.edits = before.edits ++ [edit]) (user : UserId) :
    after.countEdits user Status.counting = before.countEdits user Status.counting +
      if edit.submitter = some user ∧ edit.status.isApplied = true then 1 else 0 := by
  unfold countEdits
  rw [edits, List.countP_append, List.countP_singleton]
  simp only [Status.mem_counting, decide_eq_true_eq]

end Store

/-! ### Calls that apply an edit -/

/-- What a step does to the edits, given the effects that it asks for: it removes some, it files an
edit of a registered user, or it handles a pending one. An edit that it applies has its submitter
promoted. -/
inductive Store.Rewards (before after : Store) (effects : List Effect) : Prop where
  | fewer (edits : after.edits.Sublist before.edits)
  | filed (edit : Edit) (caller : UserId) (submitter : edit.submitter = some caller)
      (known : before.hasUser caller = true) (edits : after.edits = before.edits ++ [edit])
      (rewarded : edit.status.isApplied = true → Effect.promote caller ∈ effects)
  | handled (edit written : Edit) (found : before.edit? written.id = some edit)
      (pending : edit.isPending = true) (edits : after.edits = before.editsWith written)
      (rewarded : written.status.isApplied = true →
        ∀ user, edit.submitter = some user → Effect.promote user ∈ effects)

namespace Desk

/-- A call leaves users and roles to the effects that it asks for, and asks for the promotions that are
due to it. -/
def Concludes (desk : Desk) (before after : Ledger) : Prop :=
  ∃ effects middle, after = effects.foldl desk.conclude middle ∧
    middle.store.users = before.store.users ∧ middle.store.grants = before.store.grants ∧
    before.store.Rewards middle.store effects

variable {desk : Desk} {now : Instant} {ledger : Ledger}

theorem Concludes.carryOut {α : Type} {step : Step (α × List Effect)} (quiet : step.Quiet)
    (rewards : ∀ result effects after, step ledger = .ok ((result, effects), after) →
      ledger.store.Rewards after.store effects) :
    desk.Concludes ledger (desk.carryOut step ledger).ledger := by
  rcases desk.carryOut_cases step ledger with same | ⟨result, effects, after, done, -, same⟩
  · rw [same]
    exact ⟨[], ledger, rfl, rfl, rfl, .fewer (.refl _)⟩
  · rw [same, desk.follow_ledger]
    have same := quiet _ _ _ done
    exact ⟨effects, after, rfl, same.users, same.grants, rewards result effects after done⟩

/-- A verdict that applies an edit asks for the promotion of its submitter. -/
theorem resolve_rewards {counted resolved : Edit} {verdict : Verdict} {after : Ledger}
    {effects : List Effect} (pending : counted.isPending = true)
    (done : desk.resolve counted verdict now ledger = .ok ((resolved, effects), after)) :
    resolved.id = counted.id ∧ (resolved.status.isApplied = true →
      ∀ user, counted.submitter = some user → Effect.promote user ∈ effects) := by
  unfold resolve at done
  cases verdict with
  | pending =>
    obtain ⟨same, rfl⟩ := Step.pure_ok.mp done
    cases same
    refine ⟨rfl, fun applied => ?_⟩
    rw [Edit.not_isApplied_of_isPending pending] at applied
    cases applied
  | reject =>
    obtain ⟨same, rfl⟩ := Step.pure_ok.mp done
    cases same
    exact ⟨rfl, fun applied => (nomatch applied)⟩
  | accept =>
    dsimp only at done
    split at done
    next applied middle applies =>
      obtain ⟨target, store, application, rfl, rfl⟩ := applyToStore_ok.mp applies
      cases done
      exact ⟨rfl, fun _ user submitter => Effect.mem_ofApplied submitter⟩
    next error refused =>
      obtain ⟨_, _, added, finish⟩ := Step.bind_ok.mp done
      obtain ⟨same, rfl⟩ := Step.pure_ok.mp finish
      cases same
      exact ⟨rfl, fun applied => (nomatch applied)⟩

variable (desk now ledger)

theorem createEdit_concludes (caller : UserId) (submission : Submission) :
    desk.Concludes ledger (desk.createEdit now caller submission ledger).ledger := by
  refine .carryOut (.bind (desk.fileEdit_quiet _ _ _) fun edit => ?_)
    fun result effects after done => ?_
  · split
    · exact .bind (desk.enact_quiet _ _) fun _ => .pure _
    · exact .pure _
  · obtain ⟨filed, middle, filing, rest⟩ := Step.bind_ok.mp done
    obtain ⟨id, details, store, rfl, unused, checked, inserted, remarked⟩ := fileEdit_ok filing
    have known : ledger.store.hasUser caller = true := by
      obtain ⟨roles, _, check, -⟩ := Step.bind_ok.mp filing
      exact rolesOf_ok (Step.check_ok.mp check).1
    split at rest
    next immediate =>
      obtain ⟨closed, _, enacting, finish⟩ := Step.bind_ok.mp rest
      obtain ⟨same, rfl⟩ := Step.pure_ok.mp finish
      cases same
      obtain ⟨target, applied, same, applies, catalogue, edits, votes⟩ := enact_ok enacting
      have submitter : result.submitter = some caller := by rw [same]; rfl
      refine .filed result caller submitter known ?_ fun _ =>
        List.mem_cons_of_mem _ (Effect.mem_ofApplied submitter)
      have unfiled : ledger.store.hasEdit (submission.edit id caller details now).id = false := unused
      rw [edits, editsWith_congr remarked.edits, inserted, same]
      exact editsWith_append unfiled rfl
    next =>
      obtain ⟨-, rfl⟩ := Step.pure_ok.mp rest
      refine .filed (submission.edit id caller details now) caller rfl known ?_
        fun applied => absurd applied Bool.false_ne_true
      rw [remarked.edits, inserted]

theorem vote_concludes (caller : UserId) (id : EditId) (choice : Choice) :
    desk.Concludes ledger (desk.vote now caller id choice ledger).ledger := by
  refine .carryOut
    (.bind (.check _) fun _ => .bind (.check _) fun _ => .bind (.check _) fun _ =>
      .bind (.check _) fun _ => .bind (.check _) fun _ => .bind (.check _) fun _ =>
      .bind (upsertVote_quiet _) fun _ => .bind (.read _) fun _ =>
      .bind (desk.resolve_quiet _ _ _) fun _ => .bind (updateEdit_quiet _) fun _ => .pure _)
    fun result effects after done => ?_
  simp only [Step.bind_ok, Step.check_ok, Step.write_ok, Step.read_ok, Step.pure_ok, require_ok,
    requirePending_ok, loadEdit_ok] at done
  obtain ⟨-, _, ⟨-, rfl⟩, roles, _, ⟨-, rfl⟩, -, _, ⟨-, rfl⟩, edit, _, ⟨found, rfl⟩, -, _,
    ⟨pending, rfl⟩, -, _, ⟨-, rfl⟩, -, _, ⟨voted, cast, rfl⟩, tally, _, ⟨-, rfl⟩,
    ⟨resolved, settled⟩, middle, resolution, -, _, ⟨store, updated, rfl⟩, finish, rfl⟩ := done
  cases finish
  obtain ⟨-, edits, -⟩ := resolve_settles resolution
  obtain ⟨-, votedEdits⟩ := upsertVote_sameCatalogue cast
  cases edit?_id found
  have waiting : ({ edit with score := tally.net } : Edit).isPending = true := pending
  obtain ⟨sameId, rewarded⟩ := resolve_rewards waiting resolution
  refine .handled edit resolved (sameId ▸ found) pending ?_ fun applied user submitter =>
    List.mem_append_left _ (rewarded applied user submitter)
  exact (updateEdit_frame updated).2.2.trans (editsWith_congr (edits.trans votedEdits) resolved)

theorem apply_concludes (caller : UserId) (id : EditId) :
    desk.Concludes ledger (desk.apply now caller id ledger).ledger := by
  refine .carryOut
    (.bind (.check _) fun _ => .bind (.check _) fun _ => .bind (.check _) fun _ =>
      .bind (.check _) fun _ => .bind (upsertVote_quiet _) fun _ =>
      .bind (desk.enact_quiet _ _) fun _ => .pure _)
    fun result effects after done => ?_
  simp only [Step.bind_ok, Step.check_ok, Step.write_ok, Step.pure_ok, requirePending_ok,
    loadEdit_ok] at done
  obtain ⟨roles, _, ⟨-, rfl⟩, -, _, ⟨-, rfl⟩, edit, _, ⟨found, rfl⟩, -, _, ⟨pending, rfl⟩, -, _,
    ⟨voted, cast, rfl⟩, closed, _, enacting, finish, rfl⟩ := done
  cases finish
  cases edit?_id found
  obtain ⟨-, votedEdits⟩ := upsertVote_sameCatalogue cast
  obtain ⟨target, store, same, applies, catalogue, edits, votes⟩ := enact_ok enacting
  have sameId : result.id = edit.id := by rw [same]; rfl
  have sameSubmitter : result.submitter = edit.submitter := by rw [same]; rfl
  exact .handled edit result (sameId ▸ found) pending
    (edits.trans (editsWith_congr votedEdits _))
    fun _ user submitter => Effect.mem_ofApplied (sameSubmitter.trans submitter)

theorem closeIfDue_concludes (id : EditId) :
    desk.Concludes ledger (desk.carryOut (desk.closeIfDue now id) ledger).ledger := by
  refine .carryOut (desk.closeIfDue_quiet now id) fun result effects after done => ?_
  unfold closeIfDue at done
  obtain ⟨found, _, look, done⟩ := Step.bind_ok.mp done
  obtain ⟨looked, rfl⟩ := Step.read_ok.mp look
  cases found with
  | none =>
    obtain ⟨-, rfl⟩ := Step.pure_ok.mp done
    exact .fewer (.refl _)
  | some edit =>
    obtain ⟨found, due⟩ := Option.filter_eq_some_iff.mp looked
    cases edit?_id found
    simp only [Step.bind_ok, Step.write_ok, Step.read_ok, Step.pure_ok] at done
    obtain ⟨tally, _, ⟨-, rfl⟩, ⟨resolved, settled⟩, middle, resolution, -, _,
      ⟨store, updated, rfl⟩, finish, rfl⟩ := done
    cases finish
    have pending := (Bool.and_eq_true_iff.mp due).1
    have waiting : ({ edit with score := tally.net } : Edit).isPending = true := pending
    obtain ⟨sameId, rewarded⟩ := resolve_rewards waiting resolution
    refine .handled edit resolved (sameId ▸ found) pending ?_ rewarded
    exact (updateEdit_frame updated).2.2.trans
      (editsWith_congr (resolve_settles resolution).2.1 resolved)

theorem cancel_concludes (caller : UserId) (id : EditId) :
    desk.Concludes ledger (desk.cancel now caller id ledger).ledger := by
  refine .carryOut (.bind (.check _) fun _ => .bind (.check _) fun _ => .bind (.check _) fun _ =>
    .bind (.check _) fun _ => ?_) fun result effects after done => ?_
  · split
    · exact .bind (upsertVote_quiet _) fun _ => .bind (updateEdit_quiet _) fun _ => .pure _
    · exact .bind (updateEdit_quiet _) fun _ => .pure _
  · simp only [Step.bind_ok, Step.check_ok, require_ok, requirePending_ok, loadEdit_ok] at done
    obtain ⟨roles, _, ⟨-, rfl⟩, edit, _, ⟨found, rfl⟩, -, _, ⟨-, rfl⟩, -, _, ⟨pending, rfl⟩, done⟩ :=
      done
    cases edit?_id found
    have handled {store : Store} (edits : store.edits =
        ledger.store.editsWith (edit.close .immediateRejected now)) :
        ledger.store.Rewards store effects :=
      .handled edit (edit.close .immediateRejected now) found pending edits
        fun applied => absurd applied Bool.false_ne_true
    split at done
    · simp only [Step.bind_ok, Step.write_ok, Step.pure_ok] at done
      obtain ⟨-, _, ⟨voted, cast, rfl⟩, -, _, ⟨store, updated, rfl⟩, finish, rfl⟩ := done
      exact handled ((updateEdit_frame updated).2.2.trans
        (editsWith_congr (upsertVote_sameCatalogue cast).2 _))
    · simp only [Step.bind_ok, Step.write_ok, Step.pure_ok] at done
      obtain ⟨-, _, ⟨store, updated, rfl⟩, finish, rfl⟩ := done
      exact handled (updateEdit_frame updated).2.2

theorem updateEdit_concludes (caller : UserId) (id : EditId) (proposal : Proposal)
    (remark : Option String) :
    desk.Concludes ledger (desk.updateEdit now caller id proposal remark ledger).ledger := by
  refine .carryOut
    (.bind (.check _) fun _ => .bind (.check _) fun _ => .bind (.check _) fun _ =>
      .bind (.check _) fun _ => .bind (.check _) fun _ => .bind (.check _) fun _ =>
      .bind (.check _) fun _ => .bind (.check _) fun _ => .bind (clearVotes_quiet _) fun _ =>
      .bind (updateEdit_quiet _) fun _ => .bind (desk.addRemark_quiet _ _ _ _) fun _ => .pure _)
    fun result effects after done => ?_
  simp only [Step.bind_ok, Step.check_ok, Step.write_ok, Step.writeWith_ok, Step.pure_ok,
    require_ok, requirePending_ok, loadEdit_ok] at done
  obtain ⟨roles, _, ⟨-, rfl⟩, edit, _, ⟨found, rfl⟩, -, _, ⟨-, rfl⟩, -, _, ⟨pending, rfl⟩, -, _,
    ⟨-, rfl⟩, -, _, ⟨-, rfl⟩, -, _, ⟨-, rfl⟩, details, _, ⟨-, rfl⟩, cleared, _, ⟨emptied, clears, rfl⟩,
    -, _, ⟨store, updated, rfl⟩, _, _, remarked, finish, rfl⟩ := done
  cases edit?_id found
  cases clears
  refine .handled edit
    { edit with details, amendments := edit.amendments + 1, updated := some now, score := 0 } found
    pending ?_ fun applied => ?_
  · exact (addRemark_frame remarked).edits.trans (updateEdit_frame updated).2.2
  · cases (Edit.not_isApplied_of_isPending pending).symm.trans applied

theorem comment_concludes (caller : UserId) (id : EditId) (text : String) :
    desk.Concludes ledger (desk.comment now caller id text ledger).ledger := by
  refine .carryOut
    (.bind (.check _) fun _ => .bind (.check _) fun _ => .bind (.check _) fun _ =>
      .bind (.check _) fun _ => .bind (desk.addComment_quiet _ _ _ _) fun _ => .pure _)
    fun result effects after done => .fewer ?_
  simp only [Step.bind_ok, Step.check_ok, Step.pure_ok] at done
  obtain ⟨-, _, ⟨-, rfl⟩, roles, _, ⟨-, rfl⟩, -, _, ⟨-, rfl⟩, edit, _, ⟨-, rfl⟩, comment, _, added,
    -, rfl⟩ := done
  rw [(addComment_frame added).edits]

end Desk

/-! ### Promotions -/

/-- Between two states some users were given the role for voting and nobody anything else. None of them
held it before or may only read, and enough edits of each have been applied. -/
structure Store.Promotes (threshold : UInt32) (before after : Store) (users : List UserId) : Prop where
  grants : after.grants = before.grants ++ users.map fun user => ⟨user, .vote⟩
  free : ∀ user ∈ users, Role.barsPromotion (before.roles user) = false
  merited : ∀ user ∈ users, threshold.toNat ≤ after.countEdits user Status.counting

/-- The store with the role for voting granted to some users. -/
def Store.withVoters (store : Store) (users : List UserId) : Store :=
  { store with grants := store.grants ++ users.map fun user => ⟨user, .vote⟩ }

namespace Store.Promotes

variable {threshold : UInt32} {before middle after : Store} {users others : List UserId}

theorem refl (store : Store) : Promotes threshold store store [] where
  grants := (List.append_nil _).symm
  free _ member := nomatch member
  merited _ member := nomatch member

theorem trans (first : Promotes threshold before middle users)
    (second : Promotes threshold middle after others)
    (grows : ∀ user, middle.countEdits user Status.counting ≤
      after.countEdits user Status.counting) :
    Promotes threshold before after (users ++ others) where
  grants := by
    rw [second.grants, first.grants, List.map_append, List.append_assoc]
  free user member := by
    rcases List.mem_append.mp member with here | there
    · exact first.free user here
    · obtain ⟨reads, votes⟩ := Role.barsPromotion_eq_false.mp (second.free user there)
      have more : before.roles user ⊆ middle.roles user := by
        refine Store.roles_mono ?_ user
        rw [first.grants]
        exact List.subset_append_left _ _
      refine Role.barsPromotion_eq_false.mpr ⟨fun held => reads (more held), ?_⟩
      rw [← Bool.not_eq_true] at votes ⊢
      exact fun held => votes (Role.anyGrants_mono more held)
  merited user member := by
    rcases List.mem_append.mp member with here | there
    · exact (first.merited user here).trans (grows user)
    · exact second.merited user there

end Store.Promotes

namespace Desk

variable {desk : Desk} {now : Instant} {call : Call} {before ledger after : Ledger}
  {threshold : UInt32} {user : UserId} {effects : List Effect}

/-- **A promotion changes nothing, or it grants the role for voting** to a user who does not hold it,
is not one who may only read, and has enough edits applied. -/
theorem promote_cases (set : desk.rules.promotionThreshold = some threshold) (user : UserId)
    (ledger : Ledger) :
    desk.promote user ledger = ledger ∨
      (Role.barsPromotion (ledger.store.roles user) = false ∧
        threshold.toNat ≤ ledger.store.countEdits user Status.counting ∧
        desk.promote user ledger = { ledger with store := ledger.store.withGrant user .vote }) := by
  unfold promote
  rw [set]
  dsimp only
  split
  next promoted =>
    rcases Store.promote_cases promoted with rfl | ⟨free, enough, rfl⟩
    · exact .inl rfl
    · exact .inr ⟨free, enough, rfl⟩
  · exact .inl rfl

/-- A promotion that is earned succeeds. -/
theorem promote_earned (set : desk.rules.promotionThreshold = some threshold)
    (known : ledger.store.hasUser user = true)
    (free : Role.barsPromotion (ledger.store.roles user) = false)
    (enough : threshold.toNat ≤ ledger.store.countEdits user Status.counting) :
    desk.promote user ledger = { ledger with store := ledger.store.withGrant user .vote } := by
  have missing : (⟨user, .vote⟩ : Grant) ∉ ledger.store.grants := by
    intro granted
    have votes := (Role.barsPromotion_eq_false.mp free).2
    rw [← Bool.not_eq_true] at votes
    exact votes (List.any_eq_true.mpr ⟨.vote, Store.mem_roles.mpr granted, rfl⟩)
  unfold promote Store.promote Store.grantRole
  rw [set]
  dsimp only
  rw [free, if_neg Bool.false_ne_true, if_neg (Nat.not_lt.mpr enough), if_neg missing, if_pos known]
  rfl

/-- A promotion that is earned leaves a user who may vote. -/
theorem promote_complete (set : desk.rules.promotionThreshold = some threshold)
    (known : ledger.store.hasUser user = true)
    (reads : .readOnly ∉ (desk.promote user ledger).store.roles user)
    (enough : threshold.toNat ≤ ledger.store.countEdits user Status.counting) :
    Role.anyGrants ((desk.promote user ledger).store.roles user) .vote = true := by
  cases barred : Role.barsPromotion (ledger.store.roles user) with
  | false =>
    rw [promote_earned set known barred enough]
    refine List.any_eq_true.mpr ⟨.vote, Store.mem_roles.mpr ?_, rfl⟩
    exact List.mem_append_right _ (List.mem_singleton.mpr rfl)
  | true =>
    rcases promote_cases set user ledger with stays | ⟨free, -⟩
    · rw [stays] at reads ⊢
      by_contra votes
      rw [Bool.not_eq_true] at votes
      rw [Role.barsPromotion_eq_false.mpr ⟨reads, votes⟩] at barred
      cases barred
    · cases free.symm.trans barred

/-- **What follows a step promotes users** and does nothing else. -/
theorem foldl_conclude (set : desk.rules.promotionThreshold = some threshold) (effects : List Effect)
    (ledger : Ledger) :
    ∃ users, effects.foldl desk.conclude ledger =
        { ledger with store := ledger.store.withVoters users } ∧
      ledger.store.Promotes threshold (ledger.store.withVoters users) users := by
  induction effects generalizing ledger with
  | nil => exact ⟨[], by simp [Store.withVoters], by simpa [Store.withVoters] using .refl _⟩
  | cons effect rest hypothesis =>
    obtain ⟨users, same, promotes⟩ := hypothesis (desk.conclude ledger effect)
    rw [List.foldl_cons, same]
    cases effect with
    | notify notice => exact ⟨users, rfl, promotes⟩
    | promote user =>
      rw [conclude] at promotes ⊢
      rcases promote_cases set user ledger with stays | ⟨free, enough, granted⟩
      · rw [stays] at promotes ⊢
        exact ⟨users, rfl, promotes⟩
      · rw [granted] at promotes ⊢
        have first : ledger.store.Promotes threshold (ledger.store.withGrant user .vote) [user] :=
          ⟨rfl, fun other member => List.mem_singleton.mp member ▸ free,
            fun other member => List.mem_singleton.mp member ▸ enough⟩
        have both : (ledger.store.withGrant user .vote).withVoters users =
            ledger.store.withVoters (user :: users) := by
          simp [Store.withGrant, Store.withVoters]
        refine ⟨user :: users, by rw [both], ?_⟩
        rw [← both]
        exact first.trans promotes fun other => le_rfl

/-- **A promotion that a step asks for is made** if it is earned. -/
theorem foldl_conclude_complete (set : desk.rules.promotionThreshold = some threshold)
    (asked : Effect.promote user ∈ effects) (known : ledger.store.hasUser user = true)
    (reads : .readOnly ∉ (effects.foldl desk.conclude ledger).store.roles user)
    (enough : threshold.toNat ≤ ledger.store.countEdits user Status.counting) :
    Role.anyGrants ((effects.foldl desk.conclude ledger).store.roles user) .vote = true := by
  obtain ⟨first, rest, rfl⟩ := List.append_of_mem asked
  rw [List.foldl_append, List.foldl_cons] at reads ⊢
  obtain ⟨users, same, -⟩ := foldl_conclude set first ledger
  rw [same, conclude] at reads ⊢
  obtain ⟨others, later, promotes⟩ := foldl_conclude set rest
    (desk.promote user { ledger with store := ledger.store.withVoters users })
  rw [later] at reads ⊢
  have grows : (desk.promote user { ledger with store := ledger.store.withVoters users }).store.roles
      user ⊆ ((desk.promote user
        { ledger with store := ledger.store.withVoters users }).store.withVoters others).roles user :=
    Store.roles_mono (List.subset_append_left _ _) user
  exact Role.anyGrants_mono grows
    (promote_complete set known (fun held => reads (grows held)) enough)

end Desk

/-! ### Nobody is left out -/

namespace Store

variable {before after : Store} {effects : List Effect} {user : UserId}

/-- Whoever has submitted an edit is registered. -/
def Signed (store : Store) : Prop :=
  ∀ edit ∈ store.edits, ∀ user, edit.submitter = some user → store.hasUser user = true

/-- Whoever has earned a promotion may vote, those apart who may only read. -/
def Complete (store : Store) (threshold : UInt32) : Prop :=
  ∀ user, .readOnly ∉ store.roles user →
    threshold.toNat ≤ store.countEdits user Status.counting →
      Role.anyGrants (store.roles user) .vote = true

theorem Rewards.signed (rewards : before.Rewards after effects) (signed : before.Signed)
    (users : after.users = before.users) : after.Signed := by
  have known (id : UserId) : after.hasUser id = before.hasUser id := by
    unfold hasUser
    rw [users]
  intro edit member user submitter
  rw [known]
  cases rewards with
  | fewer edits => exact signed edit (edits.subset member) user submitter
  | filed added caller filedBy registered edits rewarded =>
    rw [edits] at member
    rcases List.mem_append.mp member with stored | new
    · exact signed edit stored user submitter
    · rw [List.mem_singleton.mp new, filedBy] at submitter
      cases submitter
      exact registered
  | handled earlier written found pending edits rewarded =>
    rw [edits] at member
    obtain ⟨row, stored, rfl⟩ := List.mem_map.mp member
    refine signed row stored user ?_
    rw [← submitter]
    split <;> rfl

/-- If one more edit of a user is applied, then the user is registered and the promotion is asked
for. -/
theorem Rewards.asked (rewards : before.Rewards after effects) (signed : before.Signed)
    (distinct : (before.edits.map Edit.id).Nodup)
    (rises : before.countEdits user Status.counting < after.countEdits user Status.counting) :
    before.hasUser user = true ∧ .promote user ∈ effects := by
  cases rewards with
  | fewer edits => exact absurd rises (Nat.not_lt.mpr (edits.countP_le))
  | filed edit caller submitter known edits rewarded =>
    rw [countEdits_append edits] at rises
    split at rises
    next gains =>
      rw [submitter] at gains
      cases gains.1
      exact ⟨known, rewarded gains.2⟩
    · omega
  | handled edit written found pending edits rewarded =>
    rw [countEdits_editsWith distinct found pending edits] at rises
    split at rises
    next gains =>
      obtain ⟨row, looked, rfl⟩ := Option.map_eq_some_iff.mp found
      exact ⟨signed row (List.mem_of_find?_eq_some looked) user gains.1,
        rewarded gains.2 user gains.1⟩
    · omega

end Store

/-- A call grants roles itself. -/
def Call.grantsRoles : Call → Bool
  | .registerUser _ _ => true
  | .grantRole _ _ => true
  | _ => false

namespace Desk

variable {desk : Desk} {now : Instant} {call : Call} {before ledger after : Ledger}
  {threshold : UInt32} {user : UserId}

theorem Concludes.complete (set : desk.rules.promotionThreshold = some threshold)
    (concludes : desk.Concludes before after) (signed : before.store.Signed)
    (distinct : (before.store.edits.map Edit.id).Nodup)
    (complete : before.store.Complete threshold) : after.store.Complete threshold := by
  obtain ⟨effects, middle, rfl, users, grants, rewards⟩ := concludes
  obtain ⟨voters, same, -⟩ := foldl_conclude set effects middle
  intro user reads enough
  by_cases rises : before.store.countEdits user Status.counting <
      middle.store.countEdits user Status.counting
  · obtain ⟨known, asked⟩ := rewards.asked signed distinct rises
    have stillKnown : middle.store.hasUser user = true := by
      unfold Store.hasUser at known ⊢
      rwa [users]
    refine foldl_conclude_complete set asked stillKnown reads ?_
    rw [same] at enough
    exact enough
  · have grows : before.store.roles user ⊆ (effects.foldl desk.conclude middle).store.roles user := by
      refine Store.roles_mono ?_ user
      rw [same, ← grants]
      exact List.subset_append_left _ _
    refine Role.anyGrants_mono grows (complete user (fun held => reads (grows held)) ?_)
    rw [same] at enough
    exact enough.trans (Nat.not_lt.mp rises)

/-- A call that grants roles leaves the edits alone. -/
theorem edits_of_grantsRoles (desk : Desk) (now : Instant) (ledger : Ledger)
    (grants : call.grantsRoles = true) :
    (desk.proceed now ledger call).store.edits = ledger.store.edits := by
  cases call with
  | registerUser name roles =>
    rcases carryOutQuietly_cases _ ledger with same | ⟨result, after, done, same⟩
    · exact congrArg (fun state : Ledger => state.store.edits) same
    · refine (congrArg (fun state : Ledger => state.store.edits) same).trans ?_
      simp only [Step.bind_ok, Step.issue_ok, Step.write_ok, Step.pure_ok] at done
      obtain ⟨user, _, ⟨-, rfl⟩, -, _, ⟨store, registered, rfl⟩, _, _, granted, -, rfl⟩ := done
      exact ((insertUser_frame registered).trans (grantRoles_frame granted)).edits
  | grantRole user role =>
    rcases carryOutQuietly_cases _ ledger with same | ⟨result, after, done, same⟩
    · exact congrArg (fun state : Ledger => state.store.edits) same
    · refine (congrArg (fun state : Ledger => state.store.edits) same).trans ?_
      simp only [Step.bind_ok, Step.check_ok, Step.writeWith_ok] at done
      obtain ⟨-, _, ⟨-, rfl⟩, store, granted, rfl⟩ := done
      rw [Store.grantRole_store granted]
  | _ => cases grants

/-- Whatever call grants no roles itself leaves that to the effects that it asks for. -/
theorem concludes (desk : Desk) (now : Instant) (ledger : Ledger) {call : Call}
    (single : call.isSingle = true) (grants : call.grantsRoles = false) :
    desk.Concludes ledger (desk.proceed now ledger call) := by
  have alone {state : Ledger} (users : state.store.users = ledger.store.users)
      (grants : state.store.grants = ledger.store.grants)
      (edits : state.store.edits.Sublist ledger.store.edits) : desk.Concludes ledger state :=
    ⟨[], state, rfl, users, grants, .fewer edits⟩
  cases call with
  | registerUser name roles => cases grants
  | grantRole user role => cases grants
  | createEdit caller submission => exact desk.createEdit_concludes now ledger caller submission
  | updateEdit caller id proposal remark =>
    exact desk.updateEdit_concludes now ledger caller id proposal remark
  | vote caller id choice => exact desk.vote_concludes now ledger caller id choice
  | comment caller id text => exact desk.comment_concludes now ledger caller id text
  | cancel caller id => exact desk.cancel_concludes now ledger caller id
  | apply caller id => exact desk.apply_concludes now ledger caller id
  | closeIfDue id => exact desk.closeIfDue_concludes now ledger id
  | closeCompleted => cases single
  | deleteEdit caller id reason =>
    rcases desk.deleteEdit_cases now caller id reason ledger with same | ⟨audits, same⟩
    · refine alone ?_ ?_ ?_ <;> rw [proceed, same]
    · refine alone ?_ ?_ ?_ <;> rw [proceed, same]
      · rfl
      · rfl
      · exact List.filter_sublist
  | deleteExpiredAudits =>
    rcases desk.deleteExpiredAudits_cases now ledger with same | ⟨cutoff, same⟩
    · refine alone ?_ ?_ ?_ <;> rw [proceed, same]
    · refine alone ?_ ?_ ?_ <;> rw [proceed, same]
      · rfl
      · rfl
      · exact .refl _

/-- **Nobody is left out.** After every run whoever has enough edits applied may vote, those apart who
may only read. -/
theorem run_complete (desk : Desk) (set : desk.rules.promotionThreshold = some threshold)
    (least : 1 ≤ threshold) (calls : List (Instant × Call)) :
    (desk.run calls).store.Complete threshold := by
  have every := @run_induction (fun ledger => ledger.store.Signed ∧
    (ledger.store.edits.map Edit.id).Nodup ∧ ledger.store.Complete threshold) desk calls
    ⟨fun edit member => (nomatch member), List.nodup_nil, fun user _ enough => ?_⟩ ?_
  · exact every.2.2
  · have one : 1 ≤ threshold.toNat := UInt32.le_iff_toNat_le.mp least
    exact absurd (one.trans enough) (Nat.not_succ_le_zero 0)
  · rintro now - ledger call single ⟨signed, distinct, complete⟩
    have distinctAfter := (desk.turn now ledger single).distinct distinct
    cases grants : call.grantsRoles with
    | false =>
      have concludes := desk.concludes now ledger single grants
      refine ⟨?_, distinctAfter, concludes.complete set signed distinct complete⟩
      obtain ⟨effects, middle, same, users, -, rewards⟩ := concludes
      obtain ⟨voters, follows, -⟩ := foldl_conclude set effects middle
      rw [same, follows]
      exact rewards.signed signed users
    | true =>
      have edits := desk.edits_of_grantsRoles now ledger grants
      have extension := (desk.posts now ledger single).extends
      refine ⟨fun edit member user submitter => ?_, distinctAfter, fun user reads enough => ?_⟩
      · exact hasUser_of_prefix extension.users (signed edit (edits ▸ member) user submitter)
      · have grows := Store.roles_mono (desk.proceed_grants now ledger call).subset user
        refine Role.anyGrants_mono grows (complete user (fun held => reads (grows held)) ?_)
        unfold Store.countEdits at enough ⊢
        rwa [edits] at enough

/-! ### Only what is earned, and only once -/

/-- The applied edits of a user grow by every turn but a deletion. -/
theorem Turn.countEdits_le {before after : Store} (turn : desk.Turn now call before after)
    (distinct : (before.edits.map Edit.id).Nodup)
    (undeleted : ∀ caller id reason, call ≠ .deleteEdit caller id reason) (user : UserId) :
    before.countEdits user Status.counting ≤ after.countEdits user Status.counting := by
  cases turn with
  | idle catalogue edits votes =>
    unfold Store.countEdits
    rw [edits]
  | filed caller submission edit files edits votes =>
    rw [Store.countEdits_append edits]
    exact Nat.le_add_right _ _
  | handled edit written found pending handles edits =>
    rw [Store.countEdits_editsWith distinct (handles.id_eq ▸ found) pending edits]
    exact Nat.le_add_right _ _
  | deleted edit caller reason called found settled catalogue edits votes =>
    exact absurd called (undeleted caller edit.id reason)

theorem Concludes.promotes (set : desk.rules.promotionThreshold = some threshold)
    (concludes : desk.Concludes before after) :
    ∃ users, before.store.Promotes threshold after.store users := by
  obtain ⟨effects, middle, rfl, -, grants, -⟩ := concludes
  obtain ⟨voters, same, promotes⟩ := foldl_conclude set effects middle
  rw [same]
  refine ⟨voters, grants ▸ promotes.grants, fun user member => ?_, promotes.merited⟩
  have free := promotes.free user member
  unfold Store.roles at free ⊢
  rwa [← grants]

/-- **A call that grants no role itself makes promotions only**, a sweep that closes several edits of
one user included. -/
theorem proceed_promotes (desk : Desk) (set : desk.rules.promotionThreshold = some threshold)
    (now : Instant) (distinct : (ledger.store.edits.map Edit.id).Nodup)
    (grants : call.grantsRoles = false) :
    ∃ users, ledger.store.Promotes threshold (desk.proceed now ledger call).store users := by
  rcases desk.transactions_cases now ledger call with ⟨single, -⟩ | ⟨-, ids, same⟩
  · exact (desk.concludes now ledger single grants).promotes set
  · rw [← runFrom_transactions, same, runFrom, List.foldl_map]
    refine (List.foldlRecOn ids _ (motive := fun (state : Ledger) =>
      (state.store.edits.map Edit.id).Nodup ∧ ∃ users, ledger.store.Promotes threshold state.store
        users) ⟨distinct, [], .refl _⟩ ?_).2
    rintro state ⟨distinct, users, earlier⟩ id -
    obtain ⟨others, later⟩ := (desk.closeIfDue_concludes now state id).promotes set
    have turn := desk.closeIfDue_turn now id state
    exact ⟨turn.distinct distinct, users ++ others, earlier.trans later
      (turn.countEdits_le distinct fun _ _ _ called => by cases called)⟩

/-- The users whom a call promotes: those who are given a role, unless the call grants roles
itself. -/
def promoted (desk : Desk) (now : Instant) (ledger : Ledger) (call : Call) : List UserId :=
  if call.grantsRoles then []
  else ((desk.proceed now ledger call).store.grants.drop ledger.store.grants.length).map Grant.user

/-- The users whom calls promote that are made one after the other. -/
def promotions (desk : Desk) : Ledger → List (Instant × Call) → List UserId
  | _, [] => []
  | ledger, (now, call) :: rest =>
    desk.promoted now ledger call ++ desk.promotions (desk.proceed now ledger call) rest

theorem promoted_eq {users : List UserId} (grants : call.grantsRoles = false)
    (promotes : ledger.store.Promotes threshold (desk.proceed now ledger call).store users) :
    desk.promoted now ledger call = users := by
  have user : (Grant.user ∘ fun user : UserId => (⟨user, .vote⟩ : Grant)) = id := rfl
  rw [promoted, grants, if_neg Bool.false_ne_true, promotes.grants, List.drop_left, List.map_map,
    user, List.map_id]

/-- The promotions of a call are among the roles that it adds. -/
theorem promoted_sublist (set : desk.rules.promotionThreshold = some threshold) (now : Instant)
    (call : Call) (distinct : (ledger.store.edits.map Edit.id).Nodup) :
    ∃ added, (desk.proceed now ledger call).store.grants = ledger.store.grants ++ added ∧
      ((desk.promoted now ledger call).map fun user => (⟨user, .vote⟩ : Grant)).Sublist added := by
  cases grants : call.grantsRoles with
  | true =>
    obtain ⟨added, same⟩ := desk.proceed_grants now ledger call
    refine ⟨added, same.symm, ?_⟩
    rw [promoted, grants, if_pos rfl]
    exact List.nil_sublist _
  | false =>
    obtain ⟨users, promotes⟩ := desk.proceed_promotes set now distinct grants
    rw [promoted_eq grants promotes]
    exact ⟨_, promotes.grants, .refl _⟩

theorem proceed_distinct (desk : Desk) (now : Instant) (call : Call)
    (distinct : (ledger.store.edits.map Edit.id).Nodup) :
    ((desk.proceed now ledger call).store.edits.map Edit.id).Nodup :=
  @proceed_keeps (fun state => (state.store.edits.map Edit.id).Nodup) desk now ledger call distinct
    fun state _ single _ earlier => (desk.turn now state single).distinct earlier

/-- The promotions of a run are among the roles that it adds. -/
theorem promotions_sublist (set : desk.rules.promotionThreshold = some threshold)
    (calls : List (Instant × Call)) (distinct : (ledger.store.edits.map Edit.id).Nodup) :
    ∃ added, (desk.runFrom ledger calls).store.grants = ledger.store.grants ++ added ∧
      ((desk.promotions ledger calls).map fun user => (⟨user, .vote⟩ : Grant)).Sublist added := by
  induction calls generalizing ledger with
  | nil => exact ⟨[], (List.append_nil _).symm, .refl _⟩
  | cons head rest hypothesis =>
    obtain ⟨now, call⟩ := head
    obtain ⟨first, same, here⟩ := desk.promoted_sublist set now call distinct
    obtain ⟨later, sameLater, there⟩ := hypothesis (desk.proceed_distinct now call distinct)
    refine ⟨first ++ later, ?_, ?_⟩
    · rw [← List.append_assoc, ← same]
      exact sameLater
    · rw [promotions, List.map_append]
      exact here.append there

/-- **Promotion is complete, sound and once only**, if the rules promote after some number of applied
edits. After every run, whoever has that many may vote, those apart who may only read. No user is
promoted twice in a run. A call that grants no role itself only makes promotions, of users who could
not vote before, may not only read and have enough edits applied. And so does a promotion in whatever
state it is made: it grants the role for voting where that is earned, and changes nothing else. -/
theorem run_promotions (desk : Desk) {threshold : UInt32}
    (set : desk.rules.promotionThreshold = some threshold) (least : 1 ≤ threshold)
    (calls : List (Instant × Call)) :
    (desk.run calls).store.Complete threshold ∧
      (desk.promotions .empty calls).Nodup ∧
      (∀ now call, call.grantsRoles = false →
        (desk.run calls).store.Promotes threshold (desk.proceed now (desk.run calls) call).store
          (desk.promoted now (desk.run calls) call)) ∧
      ∀ user ledger, desk.promote user ledger = ledger ∨
        (.readOnly ∉ ledger.store.roles user ∧
          Role.anyGrants (ledger.store.roles user) .vote = false ∧
          threshold.toNat ≤ ledger.store.countEdits user Status.counting ∧
          desk.promote user ledger = { ledger with store := ledger.store.withGrant user .vote }) := by
  refine ⟨desk.run_complete set least calls, ?_, fun now call grants => ?_, fun user ledger => ?_⟩
  · have start : (Ledger.empty.store.edits.map Edit.id).Nodup := List.nodup_nil
    obtain ⟨added, same, among⟩ := desk.promotions_sublist set calls start
    have once := desk.run_grants_nodup calls
    rw [run, same] at once
    exact ((once.sublist (List.sublist_append_right _ _)).sublist among).of_map _
  · obtain ⟨users, promotes⟩ := desk.proceed_promotes set now (desk.run_distinct calls) grants
    rw [promoted_eq grants promotes]
    exact promotes
  · refine (promote_cases set user ledger).imp_right ?_
    rintro ⟨free, enough, granted⟩
    obtain ⟨reads, votes⟩ := Role.barsPromotion_eq_false.mp free
    exact ⟨reads, votes, enough, granted⟩

/-- A desk that promotes after two applied edits. -/
def encouraging : Desk := { swift with rules := { swift.rules with promotionThreshold := some 2 } }

/-- A user submits two tags, and both are accepted. -/
def encouraged : List (Clock × Call) :=
  staffed ++ accepted 1 2 (.create (.namedTag "outdoors")) ++
    accepted 2 4 (.create (.namedTag "indoors"))

/-- The submitter is promoted, once, with the second edit. -/
theorem encouraged_promotes :
    encouraging.rules.promotionThreshold = some 2 ∧ (1 : UInt32) ≤ 2 ∧
      (encouraging.run (timed encouraged)).store.Complete 2 ∧
      encouraging.promotions .empty (timed encouraged) = [⟨Uuid.serial 0⟩] ∧
      (encouraging.promotions .empty (timed encouraged)).Nodup := by
  obtain ⟨complete, once, -⟩ := run_promotions encouraging rfl (by decide) (timed encouraged)
  exact ⟨rfl, by decide, complete, by decide +kernel, once⟩

end Desk

end Curation
