/-
**What users hold.** A role that has been granted is never taken away, and no role is granted twice
to the same user. A promotion grants nothing but the role for voting, and only where it is earned.

* `Store.mem_roles`: the roles of a user are those granted to the user;
* `Store.promote_cases`: what a promotion does;
* `Desk.proceed_grants`: roles are only added, `Desk.run_grants_nodup`: each once, and
  `Desk.run_enrolled`: to registered users only.
-/

import Curation.Proofs.Ballots
import Curation.Proofs.Register

namespace Curation

theorem Role.anyGrants_mono {held more : List Role} {required : Role} (subset : held ⊆ more)
    (granted : anyGrants held required = true) : anyGrants more required = true := by
  obtain ⟨role, member, grants⟩ := List.any_eq_true.mp granted
  exact List.any_eq_true.mpr ⟨role, subset member, grants⟩

/-- Only an administrator holds the rights of one. -/
theorem Role.anyGrants_admin {held : List Role} :
    anyGrants held .admin = true ↔ .admin ∈ held := by
  unfold anyGrants
  rw [List.any_eq_true]
  constructor
  · rintro ⟨role, member, grants⟩
    cases role <;> first | exact member | cases grants
  · exact fun member => ⟨.admin, member, rfl⟩

/-- Promotion is barred for those who may only read and those who may vote already. -/
theorem Role.barsPromotion_eq_false {held : List Role} :
    barsPromotion held = false ↔ .readOnly ∉ held ∧ anyGrants held .vote = false := by
  unfold barsPromotion anyGrants
  simp only [List.any_eq_false, Bool.or_eq_true, decide_eq_true_eq, not_or]
  constructor
  · exact fun free => ⟨fun member => (free _ member).1 rfl, fun role member => (free role member).2⟩
  · rintro ⟨reads, votes⟩ role member
    exact ⟨fun same => reads (same ▸ member), votes role member⟩

namespace Store

variable {store after : Store} {user : UserId} {role : Role}

theorem mem_roles : role ∈ store.roles user ↔ (⟨user, role⟩ : Grant) ∈ store.grants := by
  unfold roles
  rw [mem_sortBy, List.mem_map]
  constructor
  · rintro ⟨grant, member, rfl⟩
    obtain ⟨granted, same⟩ := List.mem_filter.mp member
    rwa [← of_decide_eq_true same]
  · exact fun granted => ⟨_, List.mem_filter.mpr ⟨granted, decide_eq_true rfl⟩, rfl⟩

/-- Roles belong to registered users. -/
def Enrolled (store : Store) : Prop := ∀ grant ∈ store.grants, store.hasUser grant.user = true

theorem roles_mono (grants : store.grants ⊆ after.grants) (user : UserId) :
    store.roles user ⊆ after.roles user :=
  fun _ member => mem_roles.mpr (grants (mem_roles.mp member))

/-- The store with one more role granted. -/
def withGrant (store : Store) (user : UserId) (role : Role) : Store :=
  { store with grants := store.grants ++ [⟨user, role⟩] }

/-- Granting a role changes nothing if the user has it, and adds it otherwise. -/
theorem grantRole_cases {isNew : Bool} (granted : store.grantRole user role = .ok (isNew, after)) :
    after = store ∨ (role ∉ store.roles user ∧ after = store.withGrant user role) := by
  unfold grantRole at granted
  split at granted
  · cases granted
    exact .inl rfl
  · next missing =>
    split at granted
    · cases granted
      exact .inr ⟨fun held => missing (mem_roles.mp held), rfl⟩
    · cases granted

/-- **A promotion changes nothing, or it grants the role for voting** to a user who does not hold it,
is not one who may only read, and has enough edits applied. -/
theorem promote_cases {threshold : UInt32} {isNew : Bool}
    (promoted : store.promote user threshold = .ok (isNew, after)) :
    after = store ∨ (Role.barsPromotion (store.roles user) = false ∧
      threshold.toNat ≤ store.countEdits user Status.counting ∧
      after = store.withGrant user .vote) := by
  unfold promote at promoted
  split at promoted
  · cases promoted
    exact .inl rfl
  · next free =>
    split at promoted
    · cases promoted
      exact .inl rfl
    · next enough =>
      rcases grantRole_cases promoted with same | ⟨-, same⟩
      · exact .inl same
      · exact .inr ⟨Bool.eq_false_iff.mpr free, Nat.le_of_not_lt enough, same⟩

theorem grantRole_prefix {isNew : Bool} (granted : store.grantRole user role = .ok (isNew, after)) :
    store.grants <+: after.grants := by
  rcases grantRole_cases granted with rfl | ⟨-, rfl⟩
  · exact List.prefix_rfl
  · exact List.prefix_append _ _

theorem grantRole_nodup {isNew : Bool} (granted : store.grantRole user role = .ok (isNew, after))
    (distinct : store.grants.Nodup) : after.grants.Nodup := by
  rcases grantRole_cases granted with rfl | ⟨missing, rfl⟩
  · exact distinct
  · refine List.nodup_append'.mpr ⟨distinct, List.nodup_singleton _, fun grant stored added => ?_⟩
    rw [List.mem_singleton.mp added] at stored
    exact missing (mem_roles.mpr stored)

theorem Enrolled.grantRole {isNew : Bool} (enrolled : store.Enrolled)
    (granted : store.grantRole user role = .ok (isNew, after)) : after.Enrolled := by
  unfold Store.grantRole at granted
  split at granted
  · cases granted
    exact enrolled
  · split at granted
    next known =>
      cases granted
      intro grant member
      rcases List.mem_append.mp member with stored | added
      · exact enrolled grant stored
      · rw [List.mem_singleton.mp added]
        exact known
    · cases granted

end Store

namespace Desk

variable {desk : Desk} {now : Instant} {call : Call} {before after : Ledger}

/-- What a transaction posts adds roles and takes none away, and grants none twice. -/
theorem Posts.grants (posts : desk.Posts now call before after) :
    before.store.grants <+: after.store.grants ∧
      (before.store.grants.Nodup → after.store.grants.Nodup) := by
  refine posts.onRegister (fun store => before.store.grants <+: store.grants ∧
    (before.store.grants.Nodup → store.grants.Nodup)) ⟨List.prefix_rfl, id⟩ ?_ ?_ ?_ ?_ ?_
  · intro first second earlier same
    rw [same.grants]
    exact earlier
  · intro store more user name done earlier
    rw [Store.insertUser_ok done]
    exact earlier
  · intro store more user role isNew done earlier
    exact ⟨earlier.1.trans (Store.grantRole_prefix done), fun distinct =>
      Store.grantRole_nodup done (earlier.2 distinct)⟩
  · intro store more audit edit caller reason called done earlier
    rw [Store.deleteWithAudit_frame done]
    exact earlier
  · exact fun store cutoff called earlier => earlier

/-- Only registered users hold roles after what a transaction posts, as before. -/
theorem Posts.enrolled (posts : desk.Posts now call before after) (start : before.store.Enrolled) :
    after.store.Enrolled := by
  refine posts.onRegister Store.Enrolled start ?_ ?_ ?_ ?_ ?_
  · intro first second earlier same grant member
    rw [same.hasUser]
    exact earlier grant (same.grants ▸ member)
  · intro store more user name done earlier grant member
    rw [Store.insertUser_ok done] at member ⊢
    exact hasUser_of_prefix (List.prefix_append _ _) (earlier grant member)
  · exact fun store more user role isNew done earlier => earlier.grantRole done
  · intro store more audit edit caller reason called done earlier
    rw [Store.deleteWithAudit_frame done]
    exact earlier
  · exact fun store cutoff called earlier => earlier

/-- **Roles are only added** by a call. -/
theorem proceed_grants (desk : Desk) (now : Instant) (ledger : Ledger) (call : Call) :
    ledger.store.grants <+: (desk.proceed now ledger call).store.grants := by
  refine @proceed_keeps (fun state => ledger.store.grants <+: state.store.grants) desk now ledger call
    List.prefix_rfl fun state step single _ earlier => ?_
  exact earlier.trans (desk.posts now state single).grants.1

/-- **No role is granted twice** to the same user. -/
theorem run_grants_nodup (desk : Desk) (calls : List (Instant × Call)) :
    (desk.run calls).store.grants.Nodup := by
  refine @run_induction (fun ledger => ledger.store.grants.Nodup) desk calls List.nodup_nil ?_
  exact fun now _ ledger call single distinct => (desk.posts now ledger single).grants.2 distinct

/-- **Only registered users hold roles**, after every run. -/
theorem run_enrolled (desk : Desk) (calls : List (Instant × Call)) :
    (desk.run calls).store.Enrolled := by
  refine @run_induction (fun ledger => ledger.store.Enrolled) desk calls
    (fun _ member => (nomatch member)) ?_
  exact fun now _ ledger call single enrolled => (desk.posts now ledger single).enrolled enrolled

end Desk

end Curation
