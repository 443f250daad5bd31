/-
**The register.** Users, what they may do, and the audits are kept apart from the review: no step of a
review writes to them. Registering a user, granting a role, deleting an edit and dropping old audits
do, and so do the promotions that follow a step.

* `Store.SameRegister`: two stores agree on users, roles and audits;
* `Desk.Posts.onRegister`: the induction on what is posted, for what depends on the register only;
* `Step.Quiet`: a step leaves the register alone, and every step of a review does;
* `Desk.follow_ledger`: what follows a step, without the notices.
-/

import Curation.Proofs.Postings

namespace Curation

/-- Two stores agree on the users, on their roles and on the audits. -/
structure Store.SameRegister (first second : Store) : Prop where
  users : second.users = first.users
  grants : second.grants = first.grants
  audits : second.audits = first.audits

namespace Store.SameRegister

variable {first second third : Store}

theorem refl (store : Store) : store.SameRegister store := ⟨rfl, rfl, rfl⟩

theorem trans (left : first.SameRegister second) (right : second.SameRegister third) :
    first.SameRegister third :=
  ⟨right.users.trans left.users, right.grants.trans left.grants, right.audits.trans left.audits⟩

theorem roles (same : first.SameRegister second) (user : UserId) :
    second.roles user = first.roles user := by
  unfold Store.roles
  rw [same.grants]

theorem hasUser (same : first.SameRegister second) (user : UserId) :
    second.hasUser user = first.hasUser user := by
  unfold Store.hasUser
  rw [same.users]

end Store.SameRegister

/-- **What depends on the register only is kept** by whatever is posted, if the writes to the register
keep it. -/
theorem Desk.Posts.onRegister {desk : Desk} {now : Instant} {call : Call} {before after : Ledger}
    (posts : desk.Posts now call before after) (property : Store → Prop)
    (start : property before.store)
    (alike : ∀ first second, property first → first.SameRegister second → property second)
    (user : ∀ store more id name, store.insertUser id name now = .ok more →
      property store → property more)
    (grant : ∀ store more user role isNew, store.grantRole user role = .ok (isNew, more) →
      property store → property more)
    (removal : ∀ store more audit edit caller reason, call = .deleteEdit caller edit.id reason →
      store.deleteWithAudit audit edit caller reason now = .ok more → property store → property more)
    (expiry : ∀ store cutoff, call = .deleteExpiredAudits → property store →
      property (store.deleteAuditsBefore cutoff).2) : property after.store := by
  induction posts with
  | nothing => exact start
  | user name _ done earlier => exact user _ _ _ name done earlier
  | grant who role _ done earlier => exact grant _ _ who role _ done earlier
  | filing edit _ drawn done earlier =>
    rw [(insertEdit_ok done).2]
    exact alike _ _ earlier ⟨rfl, rfl, rfl⟩
  | state edit _ done earlier =>
    rw [updateEdit_ok done]
    exact alike _ _ earlier ⟨rfl, rfl, rfl⟩
  | vote vote _ called known done earlier =>
    rw [upsertVote_frame done]
    exact alike _ _ earlier ⟨rfl, rfl, rfl⟩
  | unvote id _ earlier => exact alike _ _ earlier ⟨rfl, rfl, rfl⟩
  | comment comment _ drawn done earlier =>
    rw [Store.insertComment_ok done]
    exact alike _ _ earlier ⟨rfl, rfl, rfl⟩
  | application edit target _ done earlier =>
    rw [Edit.apply_frame done]
    exact alike _ _ earlier ⟨rfl, rfl, rfl⟩
  | removal edit caller reason _ called done earlier =>
    exact removal _ _ _ edit caller reason called done earlier
  | expiry cutoff _ called earlier => exact expiry _ cutoff called earlier

/-! ### Steps that leave the register alone -/

/-- A step that leaves the register alone whenever it succeeds. -/
def Step.Quiet {α : Type} (step : Step α) : Prop :=
  ∀ ledger result after, step ledger = .ok (result, after) → ledger.store.SameRegister after.store

namespace Step.Quiet

variable {α β : Type}

theorem pure (value : α) : Quiet (Pure.pure value) := by
  intro ledger result after done
  obtain ⟨-, rfl⟩ := pure_ok.mp done
  exact .refl _

theorem bind {step : Step α} {next : α → Step β} (first : step.Quiet)
    (second : ∀ value, (next value).Quiet) : (step >>= next).Quiet := by
  intro ledger result after done
  obtain ⟨value, middle, here, there⟩ := bind_ok.mp done
  exact (first _ _ _ here).trans (second value _ _ _ there)

theorem read (look : Store → α) : (Step.read look).Quiet := by
  intro ledger result after done
  obtain ⟨-, rfl⟩ := read_ok.mp done
  exact .refl _

theorem check (test : Store → Except ReviewError α) : (Step.check test).Quiet := by
  intro ledger result after done
  obtain ⟨-, rfl⟩ := check_ok.mp done
  exact .refl _

theorem issue {subject : Id.Subject} (draw : Nat → Uuid) :
    (Step.issue draw : Step (Id subject)).Quiet := by
  intro ledger result after done
  obtain ⟨-, rfl⟩ := issue_ok.mp done
  exact .refl _

theorem write {change : Store → Except StoreError Store}
    (keeps : ∀ store after, change store = .ok after → store.SameRegister after) :
    (Step.write change).Quiet := by
  intro ledger result after done
  obtain ⟨store, written, rfl⟩ := write_ok.mp done
  exact keeps _ _ written

end Step.Quiet

namespace Desk

variable {desk : Desk} {now : Instant}

/-! ### Parts of a review -/

theorem insertEdit_quiet (edit : Edit) : (Step.write fun store => store.insertEdit edit).Quiet := by
  refine .write fun store after done => ?_
  rw [(insertEdit_ok done).2]
  exact ⟨rfl, rfl, rfl⟩

theorem updateEdit_quiet (edit : Edit) : (Step.write fun store => store.updateEdit edit).Quiet := by
  refine .write fun store after done => ?_
  rw [updateEdit_ok done]
  exact ⟨rfl, rfl, rfl⟩

theorem upsertVote_quiet (vote : Vote) : (Step.write fun store => store.upsertVote vote).Quiet := by
  refine .write fun store after done => ?_
  rw [upsertVote_frame done]
  exact ⟨rfl, rfl, rfl⟩

theorem clearVotes_quiet (id : EditId) :
    (Step.writeWith fun store => .ok (store.clearVotes id)).Quiet := by
  intro ledger result after done
  obtain ⟨store, cleared, rfl⟩ := Step.writeWith_ok.mp done
  cases cleared
  exact ⟨rfl, rfl, rfl⟩

theorem addComment_quiet (desk : Desk) (edit : EditId) (author : Option UserId) (text : String)
    (now : Instant) : (desk.addComment edit author text now).Quiet := by
  refine .bind (.issue _) fun id => .bind (.write fun store after done => ?_) fun _ => .pure _
  rw [Store.insertComment_ok done]
  exact ⟨rfl, rfl, rfl⟩

theorem addRemark_quiet (desk : Desk) (edit : EditId) (author : UserId) (remark : Option String)
    (now : Instant) : (desk.addRemark edit author remark now).Quiet := by
  unfold addRemark
  split
  · exact .pure _
  · split
    · exact .pure _
    · exact .bind (desk.addComment_quiet _ _ _ _) fun _ => .pure _

theorem applyToStore_quiet (desk : Desk) (edit : Edit) (now : Instant) :
    (desk.applyToStore edit now).Quiet := by
  intro ledger result after done
  obtain ⟨target, store, applies, -, rfl⟩ := applyToStore_ok.mp done
  show ledger.store.SameRegister store
  rw [Edit.apply_frame applies]
  exact ⟨rfl, rfl, rfl⟩

theorem resolve_quiet (desk : Desk) (edit : Edit) (verdict : Verdict) (now : Instant) :
    (desk.resolve edit verdict now).Quiet := by
  cases verdict with
  | pending => exact .pure _
  | reject => exact .pure _
  | accept =>
    intro ledger result after done
    unfold resolve at done
    dsimp only at done
    split at done
    next applied middle applies =>
      cases done
      exact desk.applyToStore_quiet edit now _ _ _ applies
    next error refused =>
      exact Step.Quiet.bind (desk.addComment_quiet _ _ _ _) (fun _ => .pure _) _ _ _ done

theorem fileEdit_quiet (desk : Desk) (now : Instant) (caller : UserId) (submission : Submission) :
    (desk.fileEdit now caller submission).Quiet :=
  .bind (.check _) fun _ => .bind (.check _) fun _ => .bind (.check _) fun _ =>
    .bind (.issue _) fun _ => .bind (insertEdit_quiet _) fun _ =>
      .bind (desk.addRemark_quiet _ _ _ _) fun _ => .pure _

theorem enact_quiet (desk : Desk) (edit : Edit) (now : Instant) : (desk.enact edit now).Quiet :=
  .bind (desk.applyToStore_quiet edit now) fun _ => .bind (updateEdit_quiet _) fun _ => .pure _

theorem closeIfDue_quiet (desk : Desk) (now : Instant) (id : EditId) :
    (desk.closeIfDue now id).Quiet := by
  refine .bind (.read _) fun found => ?_
  cases found with
  | none => exact .pure _
  | some edit =>
    exact .bind (.read _) fun _ => .bind (desk.resolve_quiet _ _ _) fun _ =>
      .bind (updateEdit_quiet _) fun _ => .pure _

/-- Dropping old audits leaves everything else as it was. -/
theorem deleteExpiredAudits_cases (desk : Desk) (now : Instant) (ledger : Ledger) :
    (desk.deleteExpiredAudits now ledger).ledger = ledger ∨
      ∃ cutoff, (desk.deleteExpiredAudits now ledger).ledger =
        { ledger with store := (ledger.store.deleteAuditsBefore cutoff).2 } := by
  rcases desk.deleteExpiredAudits_outcome now ledger with ⟨result, same⟩ | ⟨cutoff, same⟩
  · exact .inl (congrArg Outcome.ledger same)
  · exact .inr ⟨cutoff, congrArg Outcome.ledger same⟩

/-! ### What follows -/

/-- What follows a step, without the notices. -/
def conclude (desk : Desk) (ledger : Ledger) : Effect → Ledger
  | .notify _ => ledger
  | .promote user => desk.promote user ledger

theorem follow_ledger (desk : Desk) (effects : List Effect) (ledger : Ledger) :
    (desk.follow effects ledger).1 = effects.foldl desk.conclude ledger := by
  unfold follow
  refine (List.foldl_hom Prod.fst ?_).symm
  rintro ⟨state, notices⟩ effect
  cases effect <;> rfl

end Desk

end Curation
