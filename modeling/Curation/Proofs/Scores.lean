/-
**Scores.** The score of an edit is the net of the votes on it, with one exception. Where an
administrator who has voted on an edit takes the decision on it, the vote that marks the decision
takes the place of the ballot, and the score is not counted again: it still contains the ballot that
is no longer on record.

* `Desk.Turn.score`: what one transaction makes of the score of an edit;
* `Desk.run_score`: the score of every edit after every run.
-/

import Curation.Proofs.Ballots

namespace Curation

/-- Who takes the decision on an edit by a call, whatever the votes on it are. -/
def Call.overrules? : Call → Option (UserId × EditId)
  | .cancel caller id => some (caller, id)
  | .apply caller id => some (caller, id)
  | _ => none

theorem Choice.weight_eq_zero {choice : Choice} (mark : choice.isBallot = false) :
    choice.weight = 0 := by
  cases choice with
  | accept => cases mark
  | reject => cases mark
  | abstain => rfl
  | immediateAccept => rfl
  | immediateReject => rfl

/-- A vote that is no ballot marks the decision of whoever takes it. -/
theorem Call.overrules?_of_casts? {call : Call} {caller : UserId} {id : EditId} {choice : Choice}
    (casts : call.casts? = some (caller, id, choice)) (mark : choice.isBallot = false) :
    call.overrules? = some (caller, id) := by
  unfold Call.casts? at casts
  split at casts
  · split at casts
    next ballot =>
      cases casts
      rw [mark] at ballot
      cases ballot
    · cases casts
  · cases casts
    rfl
  · cases casts
    rfl
  · cases casts

namespace Store

variable {before store after : Store} {id : EditId}

theorem mem_votesOn {vote : Vote} (member : vote ∈ store.votes) :
    vote.toMillisecond ∈ store.votesOn vote.edit :=
  List.mem_map_of_mem (mem_sortBy.mpr (List.mem_filter.mpr ⟨member, decide_eq_true rfl⟩))

theorem net_of_none (none : store.votesOn id = []) : store.net id = 0 := by
  unfold net
  rw [countVotes_none none, countVotes_none none]
  rfl

end Store

namespace Desk

variable {desk : Desk} {now : Instant} {call : Call} {before after : Store} {id : EditId}
  {edit : Edit}

/-! ### One transaction -/

/-- An edit that is stored for the first time has no votes. -/
theorem Turn.votesOn_unused (turn : desk.Turn now call before after) (polled : before.Polled)
    (unused : before.edit? id = none) : after.votesOn id = [] := by
  rw [← polled.votesOn_unused unused]
  have other {found : Edit} (stored : before.edit? found.id = some found) : id ≠ found.id := by
    rintro rfl
    rw [unused] at stored
    cases stored
  cases turn with
  | idle catalogue edits votes => exact votesOn_congr votes id
  | filed caller submission added files edits votes => exact votesOn_congr votes id
  | handled earlier written found pending handles edits => exact handles.votesOn (other found)
  | deleted removed caller reason called found settled catalogue edits votes =>
    exact Store.votesOn_remove votes (other found)

/-- A vote that marks the decision on an edit has taken the place of a ballot that the score still
contains. -/
structure Displaces (before after : Store) (edit : Edit) (ballot : Vote) : Prop where
  settled : edit.isPending = false
  cast : ballot ∈ before.votes
  on : ballot.edit = edit.id
  weighs : ballot.choice.weight ≠ 0
  marked : ∃ mark ∈ after.votes, mark.key = ballot.key ∧ mark.choice.isBallot = false
  score : edit.score = Int32.ofInt (after.net edit.id + ballot.choice.weight)

/-- A vote that marks a decision leaves the score as it was, which fits unless a ballot has been
displaced. -/
theorem score_of_mark {caller : UserId} {choice : Choice} {voted : Store}
    (polled : before.Polled) (mark : choice.isBallot = false)
    (score : edit.score = Int32.ofInt (before.net edit.id)) (settled : edit.isPending = false)
    (cast : before.upsertVote ⟨edit.id, caller, choice, now⟩ = .ok voted)
    (votes : after.votes = voted.votes) :
    edit.score = Int32.ofInt (after.net edit.id) ∨ ∃ ballot, Displaces before after edit ballot := by
  have weightless := Choice.weight_eq_zero mark
  have sameNet := Store.net_congr (votesOn_congr votes edit.id)
  rcases Store.net_upsertVote polled.once cast with ⟨-, net⟩ | ⟨ballot, stored, sameKey, net⟩
  · left
    dsimp only at net
    rw [score, sameNet, net, weightless, add_zero]
  · dsimp only at net
    rw [weightless, add_zero] at net
    by_cases weighs : ballot.choice.weight = 0
    · left
      rw [weighs, add_zero] at net
      rw [score, sameNet, net]
    · right
      have marked := Store.upsertVote_cast polled.once cast
      rw [← votes] at marked
      refine ⟨ballot, settled, stored, congrArg Prod.fst sameKey, weighs,
        ⟨_, marked, sameKey.symm, mark⟩, ?_⟩
      rw [score, sameNet, net]

/-- How the score of an edit that is stored after a transaction came about. -/
inductive Scored (before after : Store) (edit : Edit) : Prop where
  | kept (found : before.edit? edit.id = some edit)
      (votes : after.votesOn edit.id = before.votesOn edit.id)
  | fits (score : edit.score = Int32.ofInt (after.net edit.id))
  | displaced (ballot : Vote) (displaces : Displaces before after edit ballot)

/-- **What one transaction makes of the score of an edit.** The score is kept with the votes, or it
is their net, or a ballot that it contains has been displaced. -/
theorem Turn.score (turn : desk.Turn now call before after) (polled : before.Polled)
    (fits : ∀ id earlier, before.edit? id = some earlier → earlier.isPending = true →
      earlier.score = Int32.ofInt (before.net id))
    (found : after.edit? id = some edit) : Scored before after edit := by
  cases edit?_id found
  cases turn.origin found with
  | kept found votes => exact .kept found votes
  | submitted caller submission details unused checked same catalogue =>
    refine .fits ?_
    rw [Store.net_of_none (turn.votesOn_unused polled unused), same]
    rfl
  | enacted caller submission details number target store unused checked creates application
      catalogue same =>
    refine .fits ?_
    rw [Store.net_of_none (turn.votesOn_unused polled unused), same]
    rfl
  | handled earlier written looked pending handles same =>
    have score := fits _ earlier looked pending
    have ofMark : edit.score = Int32.ofInt (after.net edit.id) ∨
        (∃ ballot, Displaces before after edit ballot) → Scored before after edit := by
      rintro (score | ⟨ballot, displaces⟩)
      · exact .fits score
      · exact .displaced ballot displaces
    subst same
    cases handles with
    | amended caller proposal remark details called mayChange limit kind checked catalogue votes =>
      refine .fits ?_
      have none : after.votesOn earlier.id = [] := by
        refine Store.votesOn_eq_nil fun vote member => ?_
        rw [votes] at member
        exact of_decide_eq_true (List.mem_filter.mp member).2
      exact (congrArg Int32.ofInt (Store.net_of_none none)).symm
    | withdrawn catalogue votes =>
      rcases votes with votes | ⟨caller, voted, cast, votes⟩
      · refine .fits ?_
        exact score.trans (congrArg Int32.ofInt (Store.net_congr (votesOn_congr votes _)).symm)
      · exact ofMark (score_of_mark polled rfl score rfl cast votes)
    | enforced caller voted number target store cast votes application catalogue =>
      exact ofMark (score_of_mark polled rfl score rfl cast votes)
    | decided tally verdict written counted decides settles =>
      have net : tally.net = Int32.ofInt (after.net earlier.id) := by
        rw [counted, Tally.net_ofVotes]
      cases settles with
      | pending catalogue => exact .fits net
      | rejected catalogue => exact .fits net
      | accepted number target store application catalogue => exact .fits net
      | failed number error application catalogue => exact .fits net

/-! ### Runs -/

/-- During a run a user took the decision on an edit, and the vote that marks this has taken the
place of a ballot of the same user. -/
structure Overruled (desk : Desk) (calls : List (Instant × Call)) (store : Store) (edit : Edit)
    (ballot : Vote) : Prop where
  settled : edit.isPending = false
  on : ballot.edit = edit.id
  weighs : ballot.choice.weight ≠ 0
  marked : ∃ mark ∈ store.votesOn edit.id, mark.voter = ballot.voter ∧ mark.choice.isBallot = false
  called : ∃ earlier now call later, calls = earlier ++ (now, call) :: later ∧
    call.overrules? = some (ballot.voter, edit.id) ∧ ballot ∈ (desk.run earlier).store.votes

/-- The score of every edit is the net of its votes, or that of its votes and of one more ballot,
which was overruled during the run. -/
def ScoresFit (desk : Desk) (calls : List (Instant × Call)) (store : Store) : Prop :=
  ∀ id edit, store.edit? id = some edit →
    edit.score = Int32.ofInt (store.net edit.id) ∨
      ∃ ballot, desk.Overruled calls store edit ballot ∧
        edit.score = Int32.ofInt (store.net edit.id + ballot.choice.weight)

theorem Overruled.later {calls : List (Instant × Call)} {ballot : Vote}
    (overruled : desk.Overruled calls before edit ballot) (more : List (Instant × Call))
    (votes : after.votesOn edit.id = before.votesOn edit.id) :
    desk.Overruled (calls ++ more) after edit ballot := by
  obtain ⟨settled, on, weighs, marked, earlier, now, call, later, parts, overrules, cast⟩ := overruled
  refine ⟨settled, on, weighs, ?_, earlier, now, call, later ++ more, ?_, overrules, cast⟩
  · rw [votes]
    exact marked
  · rw [parts, List.append_assoc, List.cons_append]

/-- One transaction of a run keeps scores fitting; if it is a decision, it is the call itself. -/
theorem proceed_scoresFit {calls : List (Instant × Call)} {ledger : Ledger}
    (single : call.isSingle = true) (polled : ledger.store.Polled)
    (fits : desk.ScoresFit calls ledger.store)
    (here : ∀ who, call.overrules? = some who → ∃ earlier later,
      calls = earlier ++ (now, call) :: later ∧ desk.run earlier = ledger) :
    desk.ScoresFit calls (desk.proceed now ledger call).store := by
  intro id edit found
  have pendingFits : ∀ id earlier, ledger.store.edit? id = some earlier →
      earlier.isPending = true → earlier.score = Int32.ofInt (ledger.store.net id) := by
    intro id earlier stored pending
    rcases fits id earlier stored with score | ⟨ballot, overruled, -⟩
    · rwa [edit?_id stored] at score
    · rw [overruled.settled] at pending
      cases pending
  cases (desk.turn now ledger single).score polled pendingFits found with
  | kept stored votes =>
    rw [Store.net_congr votes]
    rcases fits edit.id edit stored with score | ⟨ballot, overruled, score⟩
    · exact .inl score
    · refine .inr ⟨ballot, ?_, score⟩
      simpa using overruled.later [] votes
  | fits score => exact .inl score
  | displaced ballot displaces =>
    obtain ⟨settled, cast, on, weighs, ⟨mark, marked, sameKey, isMark⟩, score⟩ := displaces
    have markEdit : mark.edit = edit.id := (congrArg Prod.fst sameKey).trans on
    have markVoter : mark.voter = ballot.voter := congrArg Prod.snd sameKey
    refine .inr ⟨ballot, ⟨settled, on, weighs, ⟨mark.toMillisecond, ?_, markVoter, isMark⟩, ?_⟩, score⟩
    · rw [← markEdit]
      exact Store.mem_votesOn marked
    · rcases (desk.posts now ledger single).extends.votes mark marked with earlier | ⟨casts, -⟩
      · -- the mark cannot have been there before, since the ballot was
        have same := List.inj_on_of_nodup_map polled.once earlier cast sameKey
        rw [same] at isMark
        exact absurd (Choice.weight_eq_zero isMark) weighs
      · have overrules := Call.overrules?_of_casts? casts isMark
        rw [markEdit, markVoter] at overrules
        obtain ⟨earlier, later, parts, same⟩ := here _ overrules
        rw [← same] at cast
        exact ⟨earlier, now, call, later, parts, overrules, cast⟩

/-- **Scores fit after every run**, as numbers of 32 bits. -/
theorem run_scoresFit (desk : Desk) (calls : List (Instant × Call)) :
    desk.ScoresFit calls (desk.run calls).store := by
  induction calls using List.reverseRecOn with
  | nil => exact fun id edit found => (nomatch found)
  | append_singleton calls entry hypothesis =>
    obtain ⟨now, call⟩ := entry
    have start : desk.ScoresFit (calls ++ [(now, call)]) (desk.run calls).store := by
      intro id edit found
      rcases hypothesis id edit found with score | ⟨ballot, overruled, score⟩
      · exact .inl score
      · exact .inr ⟨ballot, overruled.later [(now, call)] rfl, score⟩
    rw [run_concat]
    rcases desk.transactions_cases now (desk.run calls) call with ⟨single, -⟩ | ⟨-, ids, parts⟩
    · exact proceed_scoresFit single (desk.run_polled calls) start
        fun _ _ => ⟨calls, [], rfl, rfl⟩
    · rw [← runFrom_transactions, parts, runFrom, List.foldl_map]
      have every := List.foldlRecOn (motive := fun state : Ledger =>
        state.store.Polled ∧ desk.ScoresFit (calls ++ [(now, call)]) state.store) ids
        (fun state id => desk.proceed now state (.closeIfDue id))
        ⟨desk.run_polled calls, start⟩ fun state holds id _ => ?_
      · exact every.2
      · exact ⟨(desk.turn now state rfl).polled holds.1,
          proceed_scoresFit rfl holds.1 holds.2 fun who overrules => by cases overrules⟩

/-- **The score of an edit is the net of the votes on it**, accepting less rejecting ones, unless a
user who had voted on it took the decision: then the score still contains that ballot, whose place
the vote that marks the decision has taken. There must be fewer users than a score can count. -/
theorem run_score (desk : Desk) (calls : List (Instant × Call))
    (few : (desk.run calls).store.users.length < 2 ^ 31) {id : EditId} {edit : Edit}
    (found : (desk.run calls).store.edit? id = some edit) :
    edit.score.toInt = (desk.run calls).store.net id ∨
      ∃ ballot, desk.Overruled calls (desk.run calls).store edit ballot ∧
        edit.score.toInt = (desk.run calls).store.net id + ballot.choice.weight := by
  have most := (desk.run_votesOn_le calls id).trans_lt few
  have counted := Store.countP_weight ((desk.run calls).store.votesOn id)
  have fits := desk.run_scoresFit calls id edit found
  rw [edit?_id found] at fits
  rcases fits with score | ⟨ballot, overruled, score⟩
  · left
    have bound := List.countP_le_length (p := fun vote : Vote => vote.choice.weight ≠ 0)
      (l := (desk.run calls).store.votesOn id)
    unfold Store.net Store.countVotes at score ⊢
    rw [score, Int32.toInt_ofInt_of_le] <;> omega
  · refine .inr ⟨ballot, overruled, ?_⟩
    -- the mark is a vote without weight, so that there is room for the ballot
    have bound : ((desk.run calls).store.votesOn id).countP
        (fun vote => vote.choice.weight ≠ 0) < ((desk.run calls).store.votesOn id).length := by
      refine lt_of_le_of_ne List.countP_le_length fun all => ?_
      obtain ⟨mark, member, -, isMark⟩ := overruled.marked
      rw [edit?_id found] at member
      have weighs := List.countP_eq_length.mp all mark member
      exact of_decide_eq_true weighs (Choice.weight_eq_zero isMark)
    have least : -1 ≤ ballot.choice.weight := by cases ballot.choice <;> decide
    have greatest : ballot.choice.weight ≤ 1 := by cases ballot.choice <;> decide
    unfold Store.net Store.countVotes at score ⊢
    rw [score, Int32.toInt_ofInt_of_le] <;> omega

/-- One user submits a tag, and another has voted to accept it. -/
def oneBallot : List (Clock × Call) :=
  staffed ++ accepted 1 2 (.create (.namedTag "outdoors"))

theorem oneBallot_score : ∃ edit,
    (swift.run (timed oneBallot)).store.users.length < 2 ^ 31 ∧
      (swift.run (timed oneBallot)).store.edit? ⟨Uuid.serial 2⟩ = some edit ∧
      edit.score.toInt = (swift.run (timed oneBallot)).store.net ⟨Uuid.serial 2⟩ := by
  have few : (swift.run (timed oneBallot)).store.users.length < 2 ^ 31 := by decide +kernel
  have stored : ((swift.run (timed oneBallot)).store.edit? ⟨Uuid.serial 2⟩).isSome = true := by
    decide +kernel
  have reviewed : ∀ entry ∈ timed oneBallot, entry.2.overrules? = none := by decide +kernel
  obtain ⟨edit, found⟩ := Option.isSome_iff_exists.mp stored
  refine ⟨edit, few, found, ?_⟩
  rcases run_score swift (timed oneBallot) few found with score | ⟨ballot, overruled, -⟩
  · exact score
  · obtain ⟨earlier, now, call, later, parts, overrules, -⟩ := overruled.called
    have none := reviewed (now, call) (parts ▸ List.mem_append_right _ List.mem_cons_self)
    rw [overrules] at none
    cases none

/-- A desk at which a single vote settles nothing. -/
def patient : Desk :=
  ⟨{ Rules.standard with appliesCreates := false }, .standard, Uuid.serial⟩

/-- An administrator votes to accept a tag, and then cancels it. -/
def changeOfMind : List (Clock × Call) :=
  [(⟨0⟩, .registerUser "submitter" [.edit]), (⟨0⟩, .registerUser "administrator" [.admin])] ++
    accepted 1 2 (.create (.namedTag "outdoors")) ++
    [(⟨2⟩, .cancel ⟨Uuid.serial 1⟩ ⟨Uuid.serial 2⟩)]

theorem changeOfMind_score :
    (patient.run (timed changeOfMind)).store.users.length < 2 ^ 31 ∧
      ((patient.run (timed changeOfMind)).store.edit? ⟨Uuid.serial 2⟩).map
        (fun edit => edit.score.toInt) = some 1 ∧
      (patient.run (timed changeOfMind)).store.net ⟨Uuid.serial 2⟩ = 0 := by
  decide +kernel

end Desk

end Curation
