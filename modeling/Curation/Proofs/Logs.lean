/-
**The log of a run.** A recorder keeps the events of all calls that are made. What it has kept in the
end is the history of the review: every edit that was filed appears there, first as filed, then as
often as it was amended and once each if it was applied or withdrawn. Whether a listener fails when it
receives a notice makes no difference, neither to what it receives later nor to the review.

* `Event.Accounts`: what the events about an edit amount to, and `Event.Accounts.tells`: the step;
* `Desk.lastKnown?`: an edit as it was last stored, and `Desk.run_accounts`: the induction on runs;
* `Desk.carryOutTo`: a step whose notices are delivered one by one;
* `Rehearsal.perform`: calls whose events are recorded;
* `Desk.run_log`: all of it together.
-/

import Curation.Proofs.Notices

namespace Curation

/-! ### Accounts -/

namespace Event

variable {id : EditId} {told events : List Event} {known before after : Option Edit}

/-- What the events about an edit amount to: none is about an edit that has never been stored, and
those about any other begin with its submission and count what has become of it. -/
inductive Accounts (id : EditId) : List Event → Option Edit → Prop where
  | unknown : Accounts id [] none
  | known {edit : Edit} {rest : List Event} (once : .created id ∉ rest)
      (applied : rest.count (.applied id) = edit.applied.toNat)
      (amended : rest.count (.amended id) = edit.amendments.toNat)
      (canceled : rest.count (.canceled id) = edit.isWithdrawn.toNat) :
      Accounts id (.created id :: rest) (some edit)

/-- **The account goes on** with what is told of the edit, which must not come back once it is gone. -/
theorem Accounts.tells (accounts : Accounts id told known) (tells : Tells id before events after)
    (current : ∀ edit, before = some edit → known = some edit)
    (gone : before = none → known.isSome = true → after = none) :
    Accounts id (told ++ events) (after.or known) := by
  cases tells with
  | absent =>
    rw [List.append_nil, Option.none_or]
    exact accounts
  | @filed edit unamended kept =>
    cases accounts with
    | known => cases gone rfl rfl
    | unknown =>
      refine .known ?_ ?_ ?_ ?_
      · cases edit.applied <;> simp
      · cases edit.applied <;> simp
      · rw [unamended]
        cases edit.applied <;> simp
      · rw [kept]
        cases edit.applied <;> simp
  | @stands earlier later _ filed applied amended canceled =>
    cases current earlier rfl
    cases accounts with
    | @known _ rest once appliedBefore amendedBefore canceledBefore =>
      rw [List.cons_append]
      refine .known (fun member => (List.mem_append.mp member).elim once filed) ?_ ?_ ?_
      · rw [List.count_append, appliedBefore, applied]
      · rw [List.count_append, amendedBefore, amended]
      · rw [List.count_append, canceledBefore, canceled]

/-- Events are counted among those about their edit. -/
theorem count_about (id : EditId) (event : Event) (about : event.edit = id) :
    (Event.about id events).count event = events.count event :=
  List.count_filter (decide_eq_true about)

/-- What an account says of all events. -/
theorem Accounts.counts {edit : Edit} (accounts : Accounts id (about id events) (some edit)) :
    (∃ rest, about id events = .created id :: rest ∧ .created id ∉ rest) ∧
      events.count (.applied id) = edit.applied.toNat ∧
      events.count (.amended id) = edit.amendments.toNat ∧
      events.count (.canceled id) = edit.isWithdrawn.toNat := by
  rw [← count_about id (.applied id) rfl, ← count_about id (.amended id) rfl,
    ← count_about id (.canceled id) rfl]
  generalize about id events = told at accounts
  cases accounts with
  | @known _ rest once applied amended canceled =>
    refine ⟨⟨rest, rfl, once⟩, ?_, ?_, ?_⟩
    · exact (List.count_cons_of_ne (by nofun)).trans applied
    · exact (List.count_cons_of_ne (by nofun)).trans amended
    · exact (List.count_cons_of_ne (by nofun)).trans canceled

end Event

namespace Desk

variable {desk : Desk} {id : EditId} {edit : Edit}

/-! ### Edits as they were last stored -/

/-- An edit as it was last stored, if it has ever been. -/
def lastKnown? (desk : Desk) (id : EditId) : Ledger → List (Instant × Call) → Option Edit
  | ledger, [] => ledger.store.edit? id
  | ledger, (now, call) :: rest =>
    (desk.lastKnown? id (desk.proceed now ledger call) rest).or (ledger.store.edit? id)

theorem lastKnown?_concat (desk : Desk) (id : EditId) (start : Ledger)
    (calls : List (Instant × Call)) (now : Instant) (call : Call) :
    desk.lastKnown? id start (calls ++ [(now, call)]) =
      ((desk.proceed now (desk.runFrom start calls) call).store.edit? id).or
        (desk.lastKnown? id start calls) := by
  induction calls generalizing start with
  | nil => rfl
  | cons entry rest hypothesis =>
    show (desk.lastKnown? id _ (rest ++ _)).or _ = _
    rw [hypothesis, Option.or_assoc]
    rfl

/-- An edit that is stored is last known as it is. -/
theorem lastKnown?_stored (calls : List (Instant × Call)) {start : Ledger}
    (found : (desk.runFrom start calls).store.edit? id = some edit) :
    desk.lastKnown? id start calls = some edit := by
  induction calls generalizing start with
  | nil => exact found
  | cons entry rest hypothesis =>
    show (desk.lastKnown? id _ rest).or _ = _
    rw [hypothesis found, Option.some_or]

/-- An edit that is known was stored at some time as it is known. -/
theorem lastKnown?_found (calls : List (Instant × Call)) {start : Ledger}
    (known : desk.lastKnown? id start calls = some edit) :
    ∃ early, early <+: calls ∧ (desk.runFrom start early).store.edit? id = some edit := by
  induction calls generalizing start with
  | nil => exact ⟨[], List.prefix_rfl, known⟩
  | cons entry rest hypothesis =>
    rcases Option.or_eq_some_iff.mp known with later | ⟨-, now⟩
    · obtain ⟨early, begins, found⟩ := hypothesis later
      exact ⟨entry :: early, (List.prefix_cons_inj entry).mpr begins, found⟩
    · exact ⟨[], List.nil_prefix, now⟩

/-! ### Runs -/

/-- The identifiers that have been issued by then are still different. -/
theorem distinct_early {early calls : List (Instant × Call)} (begins : early <+: calls)
    (distinct : Set.InjOn desk.draw {number | number < (desk.run calls).issued}) :
    Set.InjOn desk.draw {number | number < (desk.run early).issued} :=
  distinct.mono fun _ less => lt_of_lt_of_le less (desk.run_issues begins).issued

/-- **The events of a run amount to what has become of every edit**, if no identifier is issued
twice. -/
theorem run_accounts (desk : Desk) (id : EditId) (calls : List (Instant × Call))
    (distinct : Set.InjOn desk.draw {number | number < (desk.run calls).issued}) :
    Event.Accounts id (Event.about id (desk.log .empty calls)) (desk.lastKnown? id .empty calls) := by
  induction calls using List.reverseRecOn with
  | nil => exact .unknown
  | append_singleton calls entry hypothesis =>
    obtain ⟨now, call⟩ := entry
    have begins : calls <+: calls ++ [(now, call)] := List.prefix_append _ _
    have told : desk.log .empty (calls ++ [(now, call)]) =
        desk.log .empty calls ++ desk.events now (desk.run calls) call :=
      desk.collect_concat desk.events .empty calls now call
    rw [told, Event.about_append, lastKnown?_concat]
    refine (hypothesis (distinct_early begins distinct)).tells
      (desk.events_tell now call id (desk.run_regular calls))
      (fun edit found => lastKnown?_stored calls found) fun absent known => ?_
    -- an edit that is known but not stored has been deleted, and its identifier is not issued again
    obtain ⟨edit, known⟩ := Option.isSome_iff_exists.mp known
    obtain ⟨early, prior, found⟩ := lastKnown?_found calls known
    have deleted : (desk.run calls).store.hasEdit id = false := by
      rw [← Store.edit?_isSome, absent]
      rfl
    have gone := desk.run_gone prior begins distinct (Store.hasEdit_of_edit? found) deleted
    rw [run_concat] at gone
    exact Store.edit?_unused gone

/-- What has been told remains. -/
theorem log_grows (desk : Desk) (start : Ledger) {early calls : List (Instant × Call)}
    (begins : early <+: calls) : desk.log start early <+: desk.log start calls := by
  obtain ⟨later, rfl⟩ := begins
  exact ⟨_, (desk.collect_append desk.events start early later).symm⟩

/-- **An edit is last known as applied if it has ever been.** -/
theorem lastKnown?_applied (calls : List (Instant × Call))
    (distinct : Set.InjOn desk.draw {number | number < (desk.run calls).issued})
    (known : desk.lastKnown? id .empty calls = some edit) :
    edit.applied = true ↔ ∃ early, early <+: calls ∧ (desk.run early).store.HasApplied id := by
  constructor
  · intro applied
    obtain ⟨early, begins, found⟩ := lastKnown?_found calls known
    exact ⟨early, begins, edit, found, applied⟩
  · rintro ⟨early, begins, standing, found, applied⟩
    -- the application was told then, and it is told still
    have since := desk.run_accounts id calls distinct
    have before := desk.run_accounts id early (distinct_early begins distinct)
    rw [known] at since
    rw [lastKnown?_stored early found] at before
    have once : 1 ≤ edit.applied.toNat := by
      calc 1 = standing.applied.toNat := (congrArg Bool.toNat applied).symm
        _ = (desk.log .empty early).count (.applied id) := before.counts.2.1.symm
        _ ≤ (desk.log .empty calls).count (.applied id) :=
          (desk.log_grows .empty begins).sublist.count_le _
        _ = edit.applied.toNat := since.counts.2.1
    exact Bool.toNat_eq_one.mp (le_antisymm (Bool.toNat_le _) once)

/-- **The events of a run are what was asked for**, in this order, apart from applications. -/
theorem run_asked (desk : Desk) (calls : List (Instant × Call)) :
    ((desk.log .empty calls).filter fun event => !event.isApplication) =
      desk.collect desk.requests .empty calls := by
  induction calls using List.reverseRecOn with
  | nil => rfl
  | append_singleton calls entry hypothesis =>
    obtain ⟨now, call⟩ := entry
    have told : desk.log .empty (calls ++ [(now, call)]) =
        desk.log .empty calls ++ desk.events now (desk.run calls) call :=
      desk.collect_concat desk.events .empty calls now call
    rw [told, List.filter_append, hypothesis, collect_concat,
      desk.events_asked now call (desk.run_regular calls)]
    rfl

/-- What a comment leaves: it comes last, under the next identifier. -/
theorem comment_stored {now : Instant} {ledger : Ledger} {caller : UserId} {text : String}
    (accepted : (desk.comment now caller id text ledger).result = .ok edit) :
    (desk.comment now caller id text ledger).ledger.store.comments =
      ledger.store.comments ++ [⟨⟨desk.draw ledger.issued⟩, id, some caller, text, now⟩] := by
  obtain ⟨effects, after, done, left⟩ := carryOut_ok accepted
  obtain ⟨grants, followed⟩ := desk.follow_store effects after
  simp only [Step.bind_ok, Step.check_ok, Step.pure_ok] at done
  obtain ⟨-, _, ⟨-, rfl⟩, roles, _, ⟨-, rfl⟩, -, _, ⟨-, rfl⟩, found, _, ⟨-, rfl⟩, comment, _,
    added, finish, rfl⟩ := done
  obtain ⟨rfl, comments⟩ := addComment_adds added
  unfold Desk.comment
  rw [left, followed]
  exact comments

/-! ### Delivery -/

variable {σ α : Type}

/-- Lets the effects of a step follow, in their order. Each notice is delivered when its turn comes;
whether the listener receives it well has no consequence. -/
def deliver (desk : Desk) (receive : σ → Notice → Bool × σ) (effects : List Effect) (ledger : Ledger)
    (listener : σ) : Ledger × σ :=
  effects.foldl
    (fun (ledger, listener) effect =>
      match effect with
      | .notify notice => (ledger, (receive listener notice).2)
      | .promote user => (desk.promote user ledger, listener))
    (ledger, listener)

/-- Carries out a step, whose notices are delivered one by one. -/
def carryOutTo (desk : Desk) (receive : σ → Notice → Bool × σ) (step : Step (α × List Effect))
    (ledger : Ledger) (listener : σ) : Except Halt α × Ledger × σ :=
  match step ledger with
  | .ok ((result, effects), after) => (.ok result, desk.deliver receive effects after listener)
  | .error error => (.error (.refused error), ledger, listener)

/-- Delivering notices one by one, between promotions, is delivering them in the end. -/
theorem deliver_eq (desk : Desk) (receive : σ → Notice → Bool × σ) (effects : List Effect)
    (ledger : Ledger) (listener : σ) : desk.deliver receive effects ledger listener =
      ((desk.follow effects ledger).1,
        (desk.follow effects ledger).2.foldl (fun state notice => (receive state notice).2)
          listener) := by
  unfold deliver follow
  let heard : Ledger × List Notice → Ledger × σ := fun state =>
    (state.1, state.2.foldl (fun state notice => (receive state notice).2) listener)
  refine @List.foldl_hom _ _ _ heard _ _ effects (ledger, []) ?_
  rintro ⟨state, notices⟩ effect
  cases effect with
  | notify notice =>
    refine congrArg (Prod.mk state) ?_
    show _ = (notices ++ [notice]).foldl _ listener
    rw [List.foldl_append]
    rfl
  | promote user => rfl

/-- **A listener has no say**: a step has the same outcome whatever its listener does with the notices,
and the listener receives all of them. -/
theorem carryOutTo_eq (desk : Desk) (receive : σ → Notice → Bool × σ)
    (step : Step (α × List Effect)) (ledger : Ledger) (listener : σ) :
    desk.carryOutTo receive step ledger listener =
      ((desk.carryOut step ledger).result, (desk.carryOut step ledger).ledger,
        (desk.carryOut step ledger).notices.foldl (fun state notice => (receive state notice).2)
          listener) := by
  unfold carryOutTo carryOut
  cases step ledger with
  | ok value =>
    obtain ⟨⟨result, effects⟩, after⟩ := value
    exact congrArg (Prod.mk _) (desk.deliver_eq receive effects after listener)
  | error error => rfl

/-- What calls answer, one after the other. -/
def answers (desk : Desk) : Ledger → List (Instant × Call) → List (Except Halt Unit) :=
  desk.collect fun now ledger call => [(desk.answer now ledger call).result]

end Desk

namespace Rehearsal

/-- Calls during a rehearsal, each at some time, before which the recorder is set to fail or not: what
they answer, and the rehearsal afterwards. -/
def perform (rehearsal : Rehearsal) :
    List (Bool × Instant × Call) → List (Except Halt Unit) × Rehearsal
  | [] => ([], rehearsal)
  | (failing, now, call) :: rest =>
    let ready := { rehearsal with recorder := { rehearsal.recorder with failing } }
    let (result, next) := ready.carryOutAt fun ledger => ready.desk.answer now ledger call
    let (results, last) := next.perform rest
    (result :: results, last)

theorem receiveAll_events (recorder : Recorder) (notices : List Notice) :
    (recorder.receiveAll notices).events = recorder.events ++ notices.map Notice.event := by
  induction notices generalizing recorder with
  | nil => exact (List.append_nil _).symm
  | cons notice rest hypothesis =>
    show ((recorder.receive notice).2.receiveAll rest).events = _
    rw [hypothesis]
    exact List.append_assoc _ _ _

/-- **A rehearsal goes the same way whether its recorder fails or not**, and every event is
recorded. -/
theorem perform_eq (rehearsal : Rehearsal) (entries : List (Bool × Instant × Call)) :
    (rehearsal.perform entries).1 =
        rehearsal.desk.answers rehearsal.ledger (entries.map Prod.snd) ∧
      (rehearsal.perform entries).2.ledger =
        rehearsal.desk.runFrom rehearsal.ledger (entries.map Prod.snd) ∧
      (rehearsal.perform entries).2.recorder.events = rehearsal.recorder.events ++
        rehearsal.desk.log rehearsal.ledger (entries.map Prod.snd) := by
  induction entries generalizing rehearsal with
  | nil => exact ⟨rfl, rfl, (List.append_nil _).symm⟩
  | cons entry rest hypothesis =>
    obtain ⟨failing, now, call⟩ := entry
    let ready : Rehearsal := { rehearsal with recorder := { rehearsal.recorder with failing } }
    let next : Rehearsal :=
      (ready.carryOutAt fun ledger => rehearsal.desk.answer now ledger call).2
    have left : next.ledger = rehearsal.desk.proceed now rehearsal.ledger call :=
      rehearsal.desk.answer_ledger now rehearsal.ledger call
    have heard : next.recorder.events =
        rehearsal.recorder.events ++ rehearsal.desk.events now rehearsal.ledger call :=
      receiveAll_events ready.recorder _
    obtain ⟨answers, ledger, events⟩ := hypothesis next
    rw [left] at answers ledger events
    rw [heard, List.append_assoc] at events
    exact ⟨congrArg _ answers, ledger, events⟩

end Rehearsal

namespace Desk

variable {id : EditId} {edit : Edit}

/-- The log of a run tells the history of an edit: that it was filed, which comes first and is told
once; once that it was applied, if it ever was, and never otherwise; as often as it was amended, that
it was; and once that it was withdrawn, if it was. -/
structure Chronicles (desk : Desk) (calls : List (Instant × Call)) (id : EditId) (edit : Edit) :
    Prop where
  filed : ∃ rest, Event.about id (desk.log .empty calls) = .created id :: rest ∧ .created id ∉ rest
  everApplied : edit.applied = true ↔
    ∃ early, early <+: calls ∧ (desk.run early).store.HasApplied id
  applied : (desk.log .empty calls).count (.applied id) = if edit.applied then 1 else 0
  amended : (desk.log .empty calls).count (.amended id) = edit.amendments.toNat
  canceled : (desk.log .empty calls).count (.canceled id) =
    if edit.status = .immediateRejected then 1 else 0

theorem run_chronicles (desk : Desk) (calls : List (Instant × Call))
    (distinct : Set.InjOn desk.draw {number | number < (desk.run calls).issued})
    (known : desk.lastKnown? id .empty calls = some edit) : desk.Chronicles calls id edit := by
  have accounts := desk.run_accounts id calls distinct
  rw [known] at accounts
  obtain ⟨filed, applied, amended, canceled⟩ := accounts.counts
  refine ⟨filed, lastKnown?_applied calls distinct known, ?_, amended, ?_⟩
  · rw [applied]
    cases edit.applied <;> rfl
  · rw [canceled, Edit.isWithdrawn]
    by_cases withdrawn : edit.status = .immediateRejected
    · rw [if_pos withdrawn, decide_eq_true withdrawn]
      rfl
    · rw [if_neg withdrawn, decide_eq_false withdrawn]
      rfl

/-- **The log of a run is its history.** Apart from applications, the recorded events are those that
successful requests ask for, in their order: one for each submission, amendment, ballot against an
edit, withdrawal and comment, which is stored. They tell the history of every edit that was ever
stored, and nothing of any other. A listener has no say: whatever it does with the notices of a step,
the step has the same outcome; and whenever the recorder fails, the calls of a run have the same
answers, leave the same ledger and have the same events recorded. -/
theorem run_log (desk : Desk) (calls : List (Instant × Call))
    (distinct : Set.InjOn desk.draw {number | number < (desk.run calls).issued}) :
    ((desk.log .empty calls).filter fun event => !event.isApplication) =
        desk.collect desk.requests .empty calls ∧
      (∀ now ledger caller id text edit,
        (desk.comment now caller id text ledger).result = .ok edit →
        (desk.comment now caller id text ledger).ledger.store.comments =
          ledger.store.comments ++ [⟨⟨desk.draw ledger.issued⟩, id, some caller, text, now⟩]) ∧
      (∀ id edit, desk.lastKnown? id .empty calls = some edit → desk.Chronicles calls id edit) ∧
      (∀ id, desk.lastKnown? id .empty calls = none →
        Event.about id (desk.log .empty calls) = []) ∧
      (∀ (σ α : Type) (receive : σ → Notice → Bool × σ) (step : Step (α × List Effect))
        (ledger : Ledger) (listener : σ),
        desk.carryOutTo receive step ledger listener =
          ((desk.carryOut step ledger).result, (desk.carryOut step ledger).ledger,
            (desk.carryOut step ledger).notices.foldl
              (fun state notice => (receive state notice).2) listener)) ∧
      ∀ (rehearsal : Rehearsal) (entries : List (Bool × Instant × Call)),
        entries.map Prod.snd = calls →
        let performed := ({ rehearsal with desk, ledger := .empty } : Rehearsal).perform entries
        performed.1 = desk.answers .empty calls ∧ performed.2.ledger = desk.run calls ∧
          performed.2.recorder.events =
            rehearsal.recorder.events ++ desk.log .empty calls := by
  refine ⟨desk.run_asked calls, fun _ _ _ _ _ _ accepted => comment_stored accepted,
    fun _ _ known => desk.run_chronicles calls distinct known, fun id unknown => ?_,
    fun _ _ receive step ledger listener => desk.carryOutTo_eq receive step ledger listener, ?_⟩
  · have accounts := desk.run_accounts id calls distinct
    rw [unknown] at accounts
    generalize Event.about id (desk.log .empty calls) = told at accounts
    cases accounts
    rfl
  · rintro rehearsal entries rfl
    exact Rehearsal.perform_eq { rehearsal with desk, ledger := .empty } entries

/-- One tag is submitted, amended, commented on and accepted, another one is rejected, and a third one
is withdrawn. The first edit is deleted in the end. -/
def eventfulTags : List (Clock × Call) :=
  staffed ++
    [(⟨0⟩, .registerUser "administrator" [.admin]),
      (⟨1⟩, .createEdit ⟨Uuid.serial 0⟩ (.create (.namedTag "outdoors"))),
      (⟨2⟩, .updateEdit ⟨Uuid.serial 0⟩ ⟨Uuid.serial 3⟩ (.namedTag "open air") none),
      (⟨3⟩, .comment ⟨Uuid.serial 0⟩ ⟨Uuid.serial 3⟩ "as opposed to indoors"),
      (⟨4⟩, .vote ⟨Uuid.serial 1⟩ ⟨Uuid.serial 3⟩ .accept),
      (⟨5⟩, .createEdit ⟨Uuid.serial 0⟩ (.create (.namedTag "indoors"))),
      (⟨6⟩, .vote ⟨Uuid.serial 1⟩ ⟨Uuid.serial 6⟩ .reject),
      (⟨7⟩, .createEdit ⟨Uuid.serial 0⟩ (.create (.namedTag "inside"))),
      (⟨8⟩, .cancel ⟨Uuid.serial 0⟩ ⟨Uuid.serial 7⟩),
      (⟨9⟩, .deleteEdit ⟨Uuid.serial 2⟩ ⟨Uuid.serial 3⟩ "obsolete")]

/-- The first edit is told of after its deletion as it last was, amended once and applied. -/
theorem eventfulTags_log :
    swift.log .empty (timed eventfulTags) =
        [.created ⟨Uuid.serial 3⟩, .amended ⟨Uuid.serial 3⟩,
          .commented ⟨Uuid.serial 3⟩ ⟨Uuid.serial 4⟩, .applied ⟨Uuid.serial 3⟩,
          .created ⟨Uuid.serial 6⟩, .downvoted ⟨Uuid.serial 6⟩,
          .created ⟨Uuid.serial 7⟩, .canceled ⟨Uuid.serial 7⟩] ∧
      (swift.run (timed eventfulTags)).store.edit? ⟨Uuid.serial 3⟩ = none ∧
      Set.InjOn swift.draw {number | number < (swift.run (timed eventfulTags)).issued} ∧
      ∃ edit, swift.lastKnown? ⟨Uuid.serial 3⟩ .empty (timed eventfulTags) = some edit ∧
        edit.amendments = 1 ∧ edit.applied = true ∧
        swift.Chronicles (timed eventfulTags) ⟨Uuid.serial 3⟩ edit := by
  have few : (swift.run (timed eventfulTags)).issued < 1 <<< 62 := by decide +kernel
  have distinct : Set.InjOn swift.draw {number | number < (swift.run (timed eventfulTags)).issued} :=
    fun _ first _ second same => Uuid.serial_inj (lt_trans first few) (lt_trans second few) same
  have known : (swift.lastKnown? ⟨Uuid.serial 3⟩ .empty (timed eventfulTags)).map
      (fun edit => (edit.amendments, edit.applied)) = some (1, true) := by decide +kernel
  obtain ⟨edit, stored, facts⟩ := Option.map_eq_some_iff.mp known
  obtain ⟨amended, applied⟩ := Prod.mk.inj facts
  exact ⟨by decide +kernel, by decide +kernel, distinct, edit, stored, amended, applied,
    (run_log swift (timed eventfulTags) distinct).2.2.1 _ _ stored⟩

end Desk

end Curation
