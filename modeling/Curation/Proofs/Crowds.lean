/-
**More votes than a score can count.** As many votes may be asked for as fit 32 bits, but the score
of an edit has a sign. Between the two, users enough to turn the score negative may all be in favour
of an edit that stays pending, and a sweep rejects it.

* `Verdict.onExpiry_overflows`: when the votes in favour of an edit have it rejected;
* `Desk.registerUser_new`, `Desk.vote_new`, `Desk.sweep_single`: exact results of single turns;
* `Desk.Crowded.next`: one more user registers and votes, and the edit stays pending;
* `Desk.crowd_rejected`: a sweep rejects the edit once the score has turned negative.
-/

import Curation.Proofs.Admission
import Curation.Proofs.Quorum

namespace Curation

/-- The votes on an edit have it rejected once there are more in favour of it than a score can
count. -/
theorem Verdict.onExpiry_overflows {store : Store} {id : EditId}
    (unopposed : store.countVotes id .reject = 0) (many : 2 ^ 31 ≤ store.countVotes id .accept)
    (few : store.countVotes id .accept < 2 ^ 32) :
    onExpiry (.ofVotes (store.votesOn id)) false = .reject := by
  have wraps : Int.bmod (store.countVotes id .accept) (2 ^ 32) =
      store.countVotes id .accept - 2 ^ 32 := by
    rw [Int.bmod_def, if_neg (by omega), Int.emod_eq_of_lt (by omega) (by omega)]
    rfl
  rw [onExpiry_reject, Tally.net_ofVotes, if_neg Bool.false_ne_true, Int32.lt_iff_toInt_lt]
  unfold Store.net
  rw [unopposed, Int32.toInt_ofInt, Int32.toInt_zero, Nat.cast_zero, Int.sub_zero]
  exact lt_of_eq_of_lt wraps (by omega)

namespace Desk

variable {desk : Desk} {now : Instant} {after : Store} {edit : Edit} {ledger : Ledger}
  {caller : UserId}

/-! ### Single turns -/

/-- A user is added, with one role. -/
def enrolled (store : Store) (user : UserId) (name : String) (role : Role) (now : Instant) :
    Store :=
  { store with
    users := store.users ++ [⟨user, name, now⟩]
    grants := store.grants ++ [⟨user, role⟩] }

section Newcomers

variable {user : UserId} {name : String} {role : Role}
  (ungranted : ∀ grant ∈ ledger.store.grants, grant.user ≠ user)

include ungranted

/-- Registering a user whose identifier and name are new adds the user. -/
theorem registerUser_new (drawn : desk.draw ledger.issued = user.uuid)
    (new : ∀ row ∈ ledger.store.users, row.id ≠ user ∧ row.name ≠ name) :
    desk.proceed now ledger (.registerUser name [role]) =
      ⟨enrolled ledger.store user name role now, ledger.issued + 1⟩ := by
  let registered : Store :=
    { ledger.store with users := ledger.store.users ++ [⟨user, name, now⟩] }
  have inserts : ledger.store.insertUser user name now = .ok registered := by
    refine if_neg (Bool.not_eq_true _ ▸ List.any_eq_false.mpr fun row member taken => ?_)
    exact (of_decide_eq_true taken).elim (new row member).1 (new row member).2
  have known : registered.hasUser user = true := List.any_eq_true.mpr
    ⟨_, List.mem_append_right _ (List.mem_singleton.mpr rfl), decide_eq_true rfl⟩
  have grants : registered.grantRole user role =
      .ok (true, enrolled ledger.store user name role now) :=
    (if_neg fun member => ungranted _ member rfl).trans (if_pos known)
  show (desk.registerUser now name [role] ledger).ledger = _
  unfold registerUser carryOutQuietly
  rw [show (do
    let user ← Step.issue desk.draw
    Step.write fun store => store.insertUser user name now
    for role in [role] do
      let _ ← Step.writeWith fun store => store.grantRole user role
    return user : Step UserId) ledger =
      .ok (user, ⟨enrolled ledger.store user name role now, ledger.issued + 1⟩) from ?_]
  simp only [Step.bind_ok, Step.issue_ok, Step.write_ok, Step.writeWith_ok, Step.pure_ok,
    List.forIn_cons, List.forIn_nil, drawn]
  exact ⟨_, _, ⟨rfl, rfl⟩, (), _, ⟨registered, inserts, rfl⟩, _, _,
    ⟨_, _, ⟨true, _, ⟨_, grants, rfl⟩, rfl, rfl⟩, rfl⟩, rfl, rfl⟩

/-- A user who was just added may vote if that is what the one role is for. -/
theorem enrolled_permits : Permits (enrolled ledger.store user name .vote now) user .vote := by
  have known : (enrolled ledger.store user name .vote now).hasUser user = true :=
    List.any_eq_true.mpr
      ⟨_, List.mem_append_right _ (List.mem_singleton.mpr rfl), decide_eq_true rfl⟩
  have granted : .vote ∈ (enrolled ledger.store user name .vote now).roles user :=
    mem_sortBy.mpr (List.mem_map.mpr ⟨⟨user, .vote⟩, List.mem_filter.mpr
      ⟨List.mem_append_right _ (List.mem_singleton.mpr rfl), decide_eq_true rfl⟩, rfl⟩)
  have free : .readOnly ∉ (enrolled ledger.store user name .vote now).roles user := by
    intro held
    obtain ⟨grant, listed, role⟩ := List.mem_map.mp (mem_sortBy.mp held)
    obtain ⟨member, holder⟩ := List.mem_filter.mp listed
    rcases List.mem_append.mp member with earlier | added
    · exact ungranted grant earlier (of_decide_eq_true holder)
    · rw [List.mem_singleton.mp added] at role
      cases role
  exact ⟨_, if_pos known, requireRole_ok.mpr ⟨fun _ => free, List.any_eq_true.mpr
    ⟨.vote, granted, rfl⟩⟩⟩

end Newcomers

/-- What a user's first vote leaves, if it does not settle the edit. -/
theorem vote_new {voted : Store}
    (found : ledger.store.edit? edit.id = some edit) (pending : edit.isPending = true)
    (unclosed : edit.closed = none)
    (permitted : Permits ledger.store caller .vote) (other : edit.submitter ≠ some caller)
    (new : ∀ vote ∈ ledger.store.votes, vote.voter ≠ caller)
    (votes : voted = { ledger.store with
      votes := ledger.store.votes ++ [⟨edit.id, caller, .accept, now⟩] })
    (waits : desk.verdictOn voted edit now = .pending) : ∃ score,
      desk.proceed now ledger (.vote caller edit.id .accept) =
        ⟨{ voted with edits := ledger.store.editsWith ({ edit with score }) }, ledger.issued⟩ := by
  let counted : Edit := { edit with score := (Tally.ofVotes (voted.votesOn edit.id)).net }
  have stored : ledger.store.hasEdit edit.id = true := Store.hasEdit_of_edit? found
  have first : ¬ (ledger.store.votes.any fun row => row.edit = edit.id ∧ row.voter = caller) := by
    rw [List.any_eq_true]
    rintro ⟨row, member, cast⟩
    exact new row member (of_decide_eq_true cast).2
  have cast : ledger.store.upsertVote ⟨edit.id, caller, .accept, now⟩ = .ok voted := by
    unfold Store.upsertVote
    rw [stored, Bool.not_true, if_neg Bool.false_ne_true, if_neg first, votes]
  have resolves : desk.resolve counted (desk.verdictOn voted edit now) now ⟨voted, ledger.issued⟩ =
      .ok ((counted, []), ⟨voted, ledger.issued⟩) := by
    rw [waits]
    rfl
  have closes : Store.closesRightly counted = true := by
    show (edit.isPending == edit.closed.isNone) = true
    rw [pending, unclosed]
    rfl
  have kept : voted.edits = ledger.store.edits := by rw [votes]
  have held : voted.hasEdit counted.id = true := by
    rw [votes]
    exact stored
  obtain ⟨after, updated⟩ : ∃ after, voted.updateEdit counted = .ok after :=
    Store.updateEdit_succeeds closes held
  have done := vote_resolves found updated pending rfl permitted other cast resolves
  refine ⟨counted.score, (congrArg Outcome.ledger done).trans ?_⟩
  rw [updateEdit_ok updated, editsWith_congr kept]
  rfl

/-- A sweep closes the one pending edit if it is due. -/
theorem sweep_single (only : ledger.store.pendingEdits = [edit])
    (due : desk.votingEnds ledger.store edit ≤ now) :
    desk.proceed now ledger .closeCompleted = desk.proceed now ledger (.closeIfDue edit.id) := by
  have swept : (ledger.store.pendingEdits.filter fun edit =>
      decide (desk.votingEnds ledger.store edit ≤ now)) = [edit] := by
    rw [only]
    exact List.filter_cons_of_pos (decide_eq_true due)
  show (desk.closeCompleted now ledger).ledger = (desk.carryOut _ _).ledger
  unfold closeCompleted
  dsimp only
  rw [swept]
  show (desk.closeEach now [edit.id] 0 ledger).ledger = _
  unfold closeEach
  dsimp only
  split <;> rfl

/-- Closing an edit that is due rejects it if that is the verdict. -/
theorem closeIfDue_rejects (found : ledger.store.edit? edit.id = some edit)
    (due : desk.isDue ledger.store edit now = true)
    (rejects : Verdict.onExpiry (.ofVotes (ledger.store.votesOn edit.id)) (desk.policy edit) =
      .reject) :
    ∃ later, (desk.proceed now ledger (.closeIfDue edit.id)).store.edit? edit.id = some later ∧
      later.status = .rejected := by
  let counted : Edit := { edit with score := (Tally.ofVotes (ledger.store.votesOn edit.id)).net }
  let resolved := counted.close .rejected now
  obtain ⟨after, updated⟩ : ∃ after, ledger.store.updateEdit resolved = .ok after :=
    Store.updateEdit_succeeds rfl (Store.hasEdit_of_edit? found)
  have done := closeIfDue_resolves found updated due (by rw [rejects]; rfl)
  have written : after.edits = ledger.store.editsWith resolved :=
    congrArg Store.edits (updateEdit_ok updated)
  refine ⟨(Store.overwriteEdit edit resolved).toMillisecond, ?_, rfl⟩
  show (desk.carryOut _ ledger).ledger.store.edit? _ = _
  rw [carryOut_done done]
  exact Store.edit?_written written found

/-! ### Crowds -/

/-- A desk at which it takes as many votes as may be asked for to settle an edit. -/
def crowded : Desk :=
  ⟨{ Rules.standard with threshold := 4294967295, appliesCreates := false }, .standard, Uuid.serial⟩

/-- A tag is submitted, and some users register one after the other and accept it. -/
def crowd : Nat → List (Instant × Call)
  | 0 => timed [(⟨0⟩, .registerUser "submitter" [.edit]),
      (⟨0⟩, .createEdit ⟨Uuid.serial 0⟩ (.create (.namedTag "outdoors")))]
  | voters + 1 => crowd voters ++
      [(Clock.now ⟨0⟩, .registerUser (String.ofList (List.replicate (voters + 11) 'v')) [.vote]),
        (Clock.now ⟨0⟩, .vote ⟨Uuid.serial (voters + 2)⟩ ⟨Uuid.serial 1⟩ .accept)]

/-- The edit that is submitted, with a score. -/
def crowdedEdit (score : Int32) : Edit :=
  { (Submission.create (.namedTag "outdoors")).edit ⟨Uuid.serial 1⟩ ⟨Uuid.serial 0⟩
      ⟨.tag, (Submission.create (.namedTag "outdoors")).change .empty⟩ (Clock.now ⟨0⟩) with
    score }

/-- What a crowd leaves. Its users can be told apart by the lengths of their names. -/
structure Crowded (voters : Nat) (ledger : Ledger) : Prop where
  issued : ledger.issued = voters + 2
  users : ∀ user ∈ ledger.store.users, ∃ number < voters + 2,
    user.id = ⟨Uuid.serial number⟩ ∧ user.name.length < voters + 11
  grants : ∀ grant ∈ ledger.store.grants, ∃ number < voters + 2, grant.user = ⟨Uuid.serial number⟩
  edits : ∃ score, ledger.store.edits = [crowdedEdit score]
  votes : ledger.store.votes = (List.range voters).map fun number =>
    ⟨⟨Uuid.serial 1⟩, ⟨Uuid.serial (number + 2)⟩, .accept, Clock.now ⟨0⟩⟩

namespace Crowded

variable {voters : Nat}

theorem start : Crowded 0 (crowded.run (crowd 0)) := by
  have issued : (crowded.run (crowd 0)).issued = 2 := by decide +kernel
  have users : ∀ user ∈ (crowded.run (crowd 0)).store.users,
      user.id = ⟨Uuid.serial 0⟩ ∧ user.name.length < 11 := by decide +kernel
  have grants : ∀ grant ∈ (crowded.run (crowd 0)).store.grants, grant.user = ⟨Uuid.serial 0⟩ := by
    decide +kernel
  have edits : (crowded.run (crowd 0)).store.edits = [crowdedEdit 0] := by decide +kernel
  have votes : (crowded.run (crowd 0)).store.votes = [] := by decide +kernel
  exact ⟨issued, fun user member => ⟨0, by omega, users user member⟩,
    fun grant member => ⟨0, by omega, grants grant member⟩, ⟨_, edits⟩, votes⟩

theorem whole {score : Int32} : (crowdedEdit score).toMillisecond = crowdedEdit score := by
  have created : (Clock.now ⟨0⟩).toMillisecond = Clock.now ⟨0⟩ := by decide +kernel
  exact congrArg (fun created : Instant => { crowdedEdit score with created }) created

/-- The edit that is submitted is found as it was stored. -/
theorem found {score : Int32} (edits : after.edits = [crowdedEdit score]) :
    after.edit? ⟨Uuid.serial 1⟩ = some (crowdedEdit score) := by
  have picked : after.edits.find? (fun edit => edit.id = ⟨Uuid.serial 1⟩) =
      some (crowdedEdit score) := by
    rw [edits]
    exact List.find?_cons_of_pos (decide_eq_true rfl)
  unfold Store.edit?
  rw [picked, Option.map_some, whole]

/-- The votes of a crowd are all in favour. -/
theorem counts (votes : after.votes = (List.range voters).map fun number =>
      ⟨⟨Uuid.serial 1⟩, ⟨Uuid.serial (number + 2)⟩, .accept, Clock.now ⟨0⟩⟩) :
    after.countVotes ⟨Uuid.serial 1⟩ .accept = voters ∧
      after.countVotes ⟨Uuid.serial 1⟩ .reject = 0 := by
  rw [Store.countVotes_eq, Store.countVotes_eq, votes, List.countP_map, List.countP_map]
  constructor
  · rw [List.countP_eq_length.mpr fun _ _ => by simp, List.length_range]
  · exact List.countP_eq_zero.mpr fun _ _ => by simp

/-- The identifier of the next user is new. -/
theorem other (few : voters < 4294967295) {number : Nat} (less : number < voters + 2) :
    Uuid.serial number ≠ Uuid.serial (voters + 2) := by
  intro same
  have equal := Uuid.serial_inj (by omega) (by omega) same
  omega

/-- Nobody who is registered, has a role or has voted has the identifier of the next user. -/
theorem stranger (few : voters < 4294967295) (crowd : Crowded voters ledger) :
    (∀ row ∈ ledger.store.users, row.id ≠ ⟨Uuid.serial (voters + 2)⟩) ∧
      (∀ grant ∈ ledger.store.grants, grant.user ≠ ⟨Uuid.serial (voters + 2)⟩) ∧
      ∀ vote ∈ ledger.store.votes, vote.voter ≠ ⟨Uuid.serial (voters + 2)⟩ := by
  refine ⟨fun row member same => ?_, fun grant member same => ?_, fun vote member same => ?_⟩
  · obtain ⟨number, less, known, -⟩ := crowd.users row member
    exact other few less (congrArg Id.uuid (known.symm.trans same))
  · obtain ⟨number, less, known⟩ := crowd.grants grant member
    exact other few less (congrArg Id.uuid (known.symm.trans same))
  · rw [crowd.votes] at member
    obtain ⟨number, less, rfl⟩ := List.mem_map.mp member
    exact other few (Nat.add_lt_add_right (List.mem_range.mp less) 2) (congrArg Id.uuid same)

/-- One more user registers and accepts the edit. -/
theorem next (few : voters + 1 < 4294967295) (crowd : Crowded voters ledger) :
    Crowded (voters + 1) (crowded.runFrom ledger
      [(Clock.now ⟨0⟩, .registerUser (String.ofList (List.replicate (voters + 11) 'v')) [.vote]),
        (Clock.now ⟨0⟩, .vote ⟨Uuid.serial (voters + 2)⟩ ⟨Uuid.serial 1⟩ .accept)]) := by
  let user : UserId := ⟨Uuid.serial (voters + 2)⟩
  let name := String.ofList (List.replicate (voters + 11) 'v')
  have length : name.length = voters + 11 := String.length_ofList.trans List.length_replicate
  obtain ⟨unregistered, ungranted, unvoted⟩ := crowd.stranger (by omega)
  have new : ∀ row ∈ ledger.store.users, row.id ≠ user ∧ row.name ≠ name := by
    refine fun row member => ⟨unregistered row member, fun clash => ?_⟩
    obtain ⟨-, -, -, shorter⟩ := crowd.users row member
    exact absurd (clash ▸ shorter) (Nat.not_lt.mpr length.ge)
  obtain ⟨score, edits⟩ := crowd.edits
  let entered := enrolled ledger.store user name .vote (Clock.now ⟨0⟩)
  let voted : Store := { entered with
    votes := ledger.store.votes ++ [⟨⟨Uuid.serial 1⟩, user, .accept, Clock.now ⟨0⟩⟩] }
  have votes : voted.votes = (List.range (voters + 1)).map fun number =>
      ⟨⟨Uuid.serial 1⟩, ⟨Uuid.serial (number + 2)⟩, .accept, Clock.now ⟨0⟩⟩ := by
    rw [List.range_succ, List.map_append, ← crowd.votes]
    rfl
  have waits : crowded.verdictOn voted (crowdedEdit score) (Clock.now ⟨0⟩) = .pending := by
    obtain ⟨accepts, rejects⟩ := counts votes
    refine (Verdict.onVote_pending (by decide)).mpr ⟨?_, ?_⟩
    · exact (Tally.rejects_ofVotes voted _).trans rejects
    · exact ((Tally.accepts_ofVotes voted _).trans accepts).trans_lt few
  have registered : crowded.proceed (Clock.now ⟨0⟩) ledger (.registerUser name [.vote]) =
      ⟨entered, ledger.issued + 1⟩ :=
    registerUser_new ungranted (congrArg Uuid.serial crowd.issued) new
  obtain ⟨counted, done⟩ := @vote_new crowded (Clock.now ⟨0⟩) (crowdedEdit score)
    ⟨entered, ledger.issued + 1⟩ user voted (found edits) rfl rfl (enrolled_permits ungranted)
    (fun own => other (by omega) (Nat.succ_pos _) (congrArg Id.uuid (Option.some.inj own)))
    unvoted rfl waits
  have written : entered.editsWith { crowdedEdit score with score := counted } =
      [crowdedEdit counted] := by
    show ledger.store.edits.map _ = _
    rw [edits]
    exact congrArg (fun edit => [edit]) (if_pos rfl)
  rw [written] at done
  -- both turns together leave what the invariant says, with one more row in each list
  rw [show crowded.runFrom ledger [(Clock.now ⟨0⟩, .registerUser name [.vote]),
      (Clock.now ⟨0⟩, .vote user ⟨Uuid.serial 1⟩ .accept)] =
        ⟨{ voted with edits := [crowdedEdit counted] }, ledger.issued + 1⟩ from
    (congrArg (fun ledger => crowded.proceed (Clock.now ⟨0⟩) ledger
      (.vote user ⟨Uuid.serial 1⟩ .accept)) registered).trans done]
  refine ⟨congrArg (· + 1) crowd.issued, fun row member => ?_, fun grant member => ?_,
    ⟨counted, rfl⟩, votes⟩
  · rcases List.mem_append.mp member with earlier | added
    · obtain ⟨number, less, same, shorter⟩ := crowd.users row earlier
      exact ⟨number, by omega, same, by omega⟩
    · rw [List.mem_singleton.mp added]
      exact ⟨voters + 2, by omega, rfl, length.trans_lt (by omega)⟩
  · rcases List.mem_append.mp member with earlier | added
    · obtain ⟨number, less, same⟩ := crowd.grants grant earlier
      exact ⟨number, by omega, same⟩
    · rw [List.mem_singleton.mp added]
      exact ⟨voters + 2, by omega, rfl⟩

end Crowded

/-- As many users as there may be accept the edit, and it stays pending. -/
theorem crowd_crowded {voters : Nat} (few : voters < 4294967295) :
    Crowded voters (crowded.run (crowd voters)) := by
  induction voters with
  | zero => exact Crowded.start
  | succ voters hypothesis =>
    show Crowded _ (crowded.run (crowd voters ++ _))
    rw [run_append]
    exact (hypothesis (by omega)).next few

/-- **More votes in favour of an edit than a score can count have it rejected**, though none is
against it. -/
theorem crowd_rejected {voters : Nat} (many : 2 ^ 31 ≤ voters) (few : voters < 4294967295) :
    ∃ edit later, (crowded.run (crowd voters)).store.edit? ⟨Uuid.serial 1⟩ = some edit ∧
      edit.isPending = true ∧ crowded.policy edit = false ∧
      (crowded.run (crowd voters ++ [(Clock.now ⟨400000000⟩, .closeCompleted)])).store.edit?
        ⟨Uuid.serial 1⟩ = some later ∧ later.status = .rejected := by
  have holds := crowd_crowded few
  rw [run_append]
  generalize crowded.run (crowd voters) = ledger at holds ⊢
  obtain ⟨score, edits⟩ := holds.edits
  have found := Crowded.found edits
  obtain ⟨accepts, rejects⟩ := Crowded.counts holds.votes
  have only : ledger.store.pendingEdits = [crowdedEdit score] := by
    unfold Store.pendingEdits Store.editsWhere
    rw [edits]
    exact congrArg (fun edit => [edit]) Crowded.whole
  have due : crowded.votingEnds ledger.store (crowdedEdit score) ≤ Clock.now ⟨400000000⟩ := by
    have period : Verdict.votingPeriod (.ofVotes (ledger.store.votesOn (crowdedEdit score).id))
        crowded.rules = crowded.rules.votingPeriod := by
      refine if_neg fun enough => ?_
      have decisive := enough.2
      rw [Tally.decisive, Tally.accepts_ofVotes, Tally.rejects_ofVotes,
        show (crowdedEdit score).id = ⟨Uuid.serial 1⟩ from rfl, accepts, rejects] at decisive
      exact absurd few (Nat.not_lt.mpr decisive)
    show ((crowdedEdit score).votingStarted.plusMillis? (Verdict.votingPeriod _ _)).getD _ ≤ _
    rw [period]
    show ((crowdedEdit 0).votingStarted.plusMillis? _).getD _ ≤ _
    decide +kernel
  have verdict : Verdict.onExpiry (.ofVotes (ledger.store.votesOn ⟨Uuid.serial 1⟩)) false =
      .reject :=
    Verdict.onExpiry_overflows rejects (accepts.symm ▸ many) (accepts.symm ▸ by omega)
  have isDue : crowded.isDue ledger.store (crowdedEdit score) (Clock.now ⟨400000000⟩) = true :=
    decide_eq_true due
  obtain ⟨later, looked, rejected⟩ := closeIfDue_rejects found isDue verdict
  refine ⟨_, later, found, rfl, rfl, ?_, rejected⟩
  exact (congrArg (fun ledger : Ledger => ledger.store.edit? ⟨Uuid.serial 1⟩)
    (sweep_single only due)).trans looked

theorem fullCrowd_quorum : 0 < crowded.rules.threshold ∧
    ∃ edit later, (crowded.run (crowd (2 ^ 31))).store.edit? ⟨Uuid.serial 1⟩ = some edit ∧
      edit.isPending = true ∧ crowded.policy edit = false ∧
      (crowded.run (crowd (2 ^ 31) ++ [(Clock.now ⟨400000000⟩, .closeCompleted)])).store.edit?
        ⟨Uuid.serial 1⟩ = some later ∧ later.status = .rejected :=
  ⟨by decide, crowd_rejected le_rfl (by norm_num)⟩

end Desk

end Curation
