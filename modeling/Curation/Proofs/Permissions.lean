/-
**Who may only read.** The role that allows nothing but reading takes precedence over every other
role that an operation asks for. Where an operation asks whose edit it is, and not for a role, it has
no say: who has submitted a pending edit may still amend and withdraw it.

* `Desk.requireRole_ok`: when a role that is asked for is found;
* `Call.IsExempt`: the calls of which nothing is said;
* `Desk.readOnly_refuses`: of a user who may only read, every other call is refused.
-/

import Curation.Proofs.Failures

namespace Curation

/-- The user on whose behalf a call is made, for the calls that concern edits. -/
def Call.caller? : Call → Option UserId
  | .createEdit caller _ => some caller
  | .updateEdit caller _ _ _ => some caller
  | .vote caller _ _ => some caller
  | .comment caller _ _ => some caller
  | .cancel caller _ => some caller
  | .apply caller _ => some caller
  | .deleteEdit caller _ _ => some caller
  | _ => none

/-- The calls that are left out: of a pending edit it is asked whose it is, and not for a role, when it
is amended or withdrawn. Its submitter does either; and nothing is said here of one who withdraws the
edit of another while holding the administrator's role too. -/
inductive Call.IsExempt (store : Store) : Call → Prop where
  | amends {caller : UserId} {id : EditId} {edit : Edit} (proposal : Proposal)
      (remark : Option String) (found : store.edit? id = some edit)
      (pending : edit.isPending = true) (owns : edit.submitter = some caller) :
      IsExempt store (.updateEdit caller id proposal remark)
  | withdraws {caller : UserId} {id : EditId} {edit : Edit} (found : store.edit? id = some edit)
      (pending : edit.isPending = true)
      (entitled : edit.submitter = some caller ∨
        Role.anyGrants (store.roles caller) .admin = true) :
      IsExempt store (.cancel caller id)

namespace Desk

variable {desk : Desk} {now : Instant} {ledger : Ledger} {caller : UserId}

/-- **A role that is asked for is found** when some role grants it and the user is not one who may
only read. -/
theorem requireRole_ok {roles : List Role} {required : Role} {result : Unit} :
    requireRole roles required = .ok result ↔
      (required ≠ .read → .readOnly ∉ roles) ∧ Role.anyGrants roles required = true := by
  unfold requireRole
  by_cases muted : required ≠ .read ∧ .readOnly ∈ roles
  · rw [if_pos muted]
    constructor
    · intro passed
      cases passed
    · rintro ⟨free, -⟩
      exact absurd muted.2 (free muted.1)
  · rw [if_neg muted]
    have free : required ≠ .read → .readOnly ∉ roles := fun asked held => muted ⟨asked, held⟩
    cases Role.anyGrants roles required with
    | true => simpa using free
    | false => simp

theorem rolesOf_eq {store : Store} {roles : List Role} (known : rolesOf store caller = .ok roles) :
    roles = store.roles caller := by
  unfold rolesOf at known
  split at known
  · cases known
    rfl
  · cases known

/-- A user who may only read does not get past a role that is asked for. -/
theorem requireRole_muted {store : Store} {roles : List Role} {required : Role} {result : Unit}
    (muted : .readOnly ∈ store.roles caller) (known : rolesOf store caller = .ok roles)
    (writes : required ≠ .read) : requireRole roles required ≠ .ok result := by
  cases rolesOf_eq known
  exact fun passed => (requireRole_ok.mp passed).1 writes muted

/-- A step that begins by asking for a role cannot succeed for a user who may only read. -/
theorem asksRole_blocked {α : Type} {required : Role} {next : List Role → Step α} {result : α}
    {after : Ledger} (muted : .readOnly ∈ ledger.store.roles caller) (writes : required ≠ .read) :
    (do
      let roles ← Step.check fun store => rolesOf store caller
      Step.check fun _ => requireRole roles required
      next roles : Step α) ledger ≠ .ok (result, after) := by
  intro done
  simp only [Step.bind_ok, Step.check_ok] at done
  obtain ⟨roles, _, ⟨known, rfl⟩, _, _, ⟨passed, -⟩, -⟩ := done
  exact requireRole_muted muted known writes passed

/-- **Of a user who may only read, every call is refused**, in every state, whatever other roles the
user holds and whatever is given with the call: it fails, changes nothing and sends no notice. Left out
are only the calls on a pending edit of the user's own, and its withdrawal by an administrator. -/
theorem readOnly_refuses (desk : Desk) (now : Instant) (ledger : Ledger) {call : Call}
    (made : call.caller? = some caller) (muted : .readOnly ∈ ledger.store.roles caller)
    (asks : ¬ call.IsExempt ledger.store) : (desk.answer now ledger call).Refuses ledger := by
  cases call with
  | createEdit user submission =>
    cases made
    refine carryOut_blocked fun result after done => ?_
    obtain ⟨edit, _, filing, -⟩ := Step.bind_ok.mp done
    obtain ⟨roles, _, check, filing⟩ := Step.bind_ok.mp filing
    obtain ⟨known, rfl⟩ := Step.check_ok.mp check
    obtain ⟨_, _, check, -⟩ := Step.bind_ok.mp filing
    obtain ⟨passed, -⟩ := Step.check_ok.mp check
    obtain ⟨_, passed, -⟩ := Except.bind_ok.mp passed
    exact requireRole_muted muted known (by decide) passed
  | updateEdit user id proposal remark =>
    cases made
    refine carryOut_blocked fun result after done => asks ?_
    simp only [Step.bind_ok, Step.check_ok, require_ok, requirePending_ok, loadEdit_ok] at done
    obtain ⟨-, _, ⟨-, rfl⟩, edit, _, ⟨found, rfl⟩, -, _, ⟨owns, rfl⟩, -, _, ⟨pending, -⟩, -⟩ := done
    exact .amends proposal remark found pending (of_decide_eq_true owns)
  | vote user id choice =>
    cases made
    refine carryOut_blocked fun result after done => ?_
    obtain ⟨_, _, check, rest⟩ := Step.bind_ok.mp done
    obtain ⟨-, rfl⟩ := Step.check_ok.mp check
    exact asksRole_blocked muted (by decide) rest
  | comment user id text =>
    cases made
    refine carryOut_blocked fun result after done => ?_
    obtain ⟨_, _, check, rest⟩ := Step.bind_ok.mp done
    obtain ⟨-, rfl⟩ := Step.check_ok.mp check
    exact asksRole_blocked muted (by decide) rest
  | cancel user id =>
    cases made
    refine carryOut_blocked fun result after done => asks ?_
    simp only [Step.bind_ok, Step.check_ok, require_ok, requirePending_ok, loadEdit_ok] at done
    obtain ⟨roles, _, ⟨known, rfl⟩, edit, _, ⟨found, rfl⟩, -, _, ⟨entitled, rfl⟩, -, _,
      ⟨pending, -⟩, -⟩ := done
    cases rolesOf_eq known
    rw [Bool.or_eq_true, decide_eq_true_eq] at entitled
    exact .withdraws found pending entitled
  | apply user id =>
    cases made
    exact carryOut_blocked fun result after => asksRole_blocked muted (by decide)
  | deleteEdit user id reason =>
    cases made
    exact carryOutQuietly_blocked fun result after => asksRole_blocked muted (by decide)
  | _ => cases made

/-- A user submits a tag, and may only read from then on; so may an administrator. -/
def muted : List (Clock × Call) :=
  [(⟨0⟩, .registerUser "submitter" [.edit]),
    (⟨0⟩, .registerUser "administrator" [.admin, .readOnly]),
    (⟨1⟩, .createEdit ⟨Uuid.serial 0⟩ (.create (.namedTag "outdoors"))),
    (⟨2⟩, .grantRole ⟨Uuid.serial 0⟩ .readOnly)]

/-- The administrator cannot apply the edit. -/
theorem muted_refuses :
    Role.readOnly ∈ (swift.run (timed muted)).store.roles ⟨Uuid.serial 1⟩ ∧
      (swift.answer (Clock.now ⟨3⟩) (swift.run (timed muted))
        (.apply ⟨Uuid.serial 1⟩ ⟨Uuid.serial 2⟩)).Refuses (swift.run (timed muted)) := by
  have held : Role.readOnly ∈ (swift.run (timed muted)).store.roles ⟨Uuid.serial 1⟩ := by
    decide +kernel
  exact ⟨held, readOnly_refuses swift (Clock.now ⟨3⟩) (swift.run (timed muted)) rfl held
    fun exempt => by cases exempt⟩

/-- The submitter can still amend the edit, and can withdraw it. -/
theorem muted_succeeds :
    Role.readOnly ∈ (swift.run (timed muted)).store.roles ⟨Uuid.serial 0⟩ ∧
      (swift.updateEdit (Clock.now ⟨3⟩) ⟨Uuid.serial 0⟩ ⟨Uuid.serial 2⟩ (.namedTag "open air") none
        (swift.run (timed muted))).result.map (fun edit => edit.amendments) = .ok 1 ∧
      (swift.cancel (Clock.now ⟨3⟩) ⟨Uuid.serial 0⟩ ⟨Uuid.serial 2⟩
        (swift.run (timed muted))).result.map (fun edit => edit.status) = .ok .immediateRejected := by
  decide +kernel

end Desk

end Curation
