/-
**Notices tell what was done.** What follows a transaction are notices and promotions. From the notices
alone one can tell what became of an edit: that it was filed, how often it was amended, that it was
applied or withdrawn. Apart from applications, which votes, sweeps and administrators bring about, each
notice answers the request that gave rise to it.

* `Event.Tells`: the events about an edit tell how its state differs afterwards;
* `Store.Announces`, `Store.Announces.tells`: what a transaction does to the edits, given its events, and
  that these tell it;
* `Desk.requests`: the events that successful requests ask for, and `Desk.answer_tells`: every
  transaction announces what it does, and reports what was asked for;
* `Desk.log_transactions`: the events of a call are those of its transactions, so that
  `Desk.events_tell` and `Desk.events_asked` say the same of every call, also of a sweep.
-/

import Curation.Proofs.Applications
import Curation.Proofs.Failures
import Curation.Proofs.Register
import Curation.Proofs.Standing
import Curation.Rehearsal

namespace Curation

/-! ### Events -/

/-- The edit that an event is about. -/
def Event.edit : Event → EditId
  | .created edit => edit
  | .amended edit => edit
  | .commented edit _ => edit
  | .downvoted edit => edit
  | .canceled edit => edit
  | .applied edit => edit

/-- An event says that an edit was applied. -/
def Event.isApplication : Event → Bool
  | .applied _ => true
  | _ => false

/-- The events about an edit. -/
def Event.about (id : EditId) (events : List Event) : List Event :=
  events.filter fun event => event.edit = id

/-- An edit has been withdrawn. -/
def Edit.isWithdrawn (edit : Edit) : Bool := edit.status = .immediateRejected

namespace Event

variable {id : EditId} {edit earlier later : Edit} {before middle after : Option Edit}
  {events first second : List Event}

theorem about_append (id : EditId) (first second : List Event) :
    about id (first ++ second) = about id first ++ about id second :=
  List.filter_append first second

theorem about_self (every : ∀ event ∈ events, event.edit = id) : about id events = events :=
  List.filter_eq_self.mpr fun event member => decide_eq_true (every event member)

theorem about_other {other : EditId} (every : ∀ event ∈ events, event.edit = other)
    (apart : id ≠ other) : about id events = [] :=
  List.filter_eq_nil_iff.mpr fun event member same =>
    apart ((of_decide_eq_true same).symm.trans (every event member))

/-- What the events about an edit tell of its state: nothing is said of one that is not stored any more,
or that never was; one that is new was created, and may have been applied at once; and of one that
stands, each application, amendment and withdrawal is told. -/
inductive Tells (id : EditId) : Option Edit → List Event → Option Edit → Prop where
  | absent (before : Option Edit) : Tells id before [] none
  | filed {edit : Edit} (unamended : edit.amendments = 0) (kept : edit.isWithdrawn = false) :
      Tells id none (.created id :: if edit.applied then [.applied id] else []) (some edit)
  | stands {earlier later : Edit} {events : List Event} (filed : .created id ∉ events)
      (applied : earlier.applied.toNat + events.count (.applied id) = later.applied.toNat)
      (amended : earlier.amendments.toNat + events.count (.amended id) = later.amendments.toNat)
      (canceled : earlier.isWithdrawn.toNat + events.count (.canceled id) = later.isWithdrawn.toNat) :
      Tells id (some earlier) events (some later)

namespace Tells

theorem refl (id : EditId) (held : Option Edit) : Tells id held [] held := by
  cases held with
  | none => exact .absent none
  | some edit => exact .stands List.not_mem_nil rfl rfl rfl

/-- Only what is told of matters. -/
theorem congr (tells : Tells id before events (some edit)) (applied : later.applied = edit.applied)
    (amended : later.amendments = edit.amendments) (status : later.status = edit.status) :
    Tells id before events (some later) := by
  have withdrawn : later.isWithdrawn = edit.isWithdrawn := by
    unfold Edit.isWithdrawn
    rw [status]
  cases tells with
  | filed unamended kept =>
    rw [← applied]
    exact .filed (amended.trans unamended) (withdrawn.trans kept)
  | stands filed applications amendments cancelations =>
    refine .stands filed ?_ ?_ ?_
    · rw [applied, applications]
    · rw [amended, amendments]
    · rw [withdrawn, cancelations]

/-- What is told of an edit that is neither filed nor deleted adds up. -/
theorem trans (left : Tells id before first middle) (right : Tells id middle second after)
    (kept : middle.isSome = before.isSome) (stays : after.isSome = middle.isSome) :
    Tells id before (first ++ second) after := by
  cases left with
  | absent =>
    cases right with
    | absent => exact .absent _
    | filed => cases stays
  | filed => cases kept
  | stands filed applied amended canceled =>
    cases right with
    | absent => cases stays
    | stands refiled reapplied reamended recanceled =>
      refine .stands (fun member => (List.mem_append.mp member).elim filed refiled) ?_ ?_ ?_
      · rw [List.count_append, ← Nat.add_assoc, applied, reapplied]
      · rw [List.count_append, ← Nat.add_assoc, amended, reamended]
      · rw [List.count_append, ← Nat.add_assoc, canceled, recanceled]

end Tells

end Event

/-! ### What is announced -/

/-- What a transaction does to the edits, given the events that it gives rise to. -/
inductive Store.Announces (before after : Store) (events : List Event) : Prop where
  | silent (edits : after.edits = before.edits) (nothing : events = [])
  | deleted (id : EditId) (edits : after.edits = before.edits.filter fun stored => stored.id ≠ id)
      (nothing : events = [])
  | commented (id : EditId) (comment : CommentId) (stored : before.hasEdit id = true)
      (edits : after.edits = before.edits) (one : events = [.commented id comment])
  | filed (edit : Edit) (unused : before.hasEdit edit.id = false)
      (edits : after.edits = before.edits ++ [edit]) (unamended : edit.amendments = 0)
      (kept : edit.isWithdrawn = false)
      (told : events = .created edit.id :: if edit.applied then [.applied edit.id] else [])
  | handled (edit written : Edit) (found : before.edit? written.id = some edit)
      (edits : after.edits = before.editsWith written)
      (about : ∀ event ∈ events, event.edit = written.id)
      (tells : Event.Tells written.id (some edit) events (some written))

namespace Store

variable {before after later : Store} {events : List Event}

theorem Announces.congr (announces : before.Announces after events)
    (same : later.edits = after.edits) : before.Announces later events := by
  cases announces with
  | silent edits nothing => exact .silent (same.trans edits) nothing
  | deleted id edits nothing => exact .deleted id (same.trans edits) nothing
  | commented id comment stored edits one => exact .commented id comment stored (same.trans edits) one
  | filed edit unused edits unamended kept told =>
    exact .filed edit unused (same.trans edits) unamended kept told
  | handled edit written found edits about tells =>
    exact .handled edit written found (same.trans edits) about tells

/-- An edit that was added is the only one that was not there before. -/
theorem edit?_addedOther {added : Edit} {id : EditId} (edits : after.edits = before.edits ++ [added])
    (other : added.id ≠ id) : after.edit? id = before.edit? id := by
  unfold edit?
  rw [edits, List.find?_append, List.find?_cons_of_neg (by simpa using other), List.find?_nil,
    Option.or_none]

/-- **The events of a transaction tell what it does to every edit.** -/
theorem Announces.tells (announces : before.Announces after events) (id : EditId) :
    Event.Tells id (before.edit? id) (Event.about id events) (after.edit? id) := by
  cases announces with
  | silent edits nothing =>
    rw [nothing, edit?_congr edits]
    exact .refl id _
  | deleted removed edits nothing =>
    rw [nothing]
    cases found : after.edit? id with
    | none => exact .absent _
    | some edit =>
      rw [(edit?_remove edits found).2]
      exact .refl id _
  | commented target comment stored edits one =>
    have about : ∀ event ∈ events, event.edit = target := by
      rw [one]
      exact List.forall_mem_singleton.mpr rfl
    rw [edit?_congr edits]
    by_cases same : id = target
    · obtain ⟨edit, found⟩ := Option.isSome_iff_exists.mp (edit?_isSome.trans stored)
      rw [same, found, Event.about_self about, one]
      exact .stands (by simp) (by simp) (by simp) (by simp)
    · rw [Event.about_other about same]
      exact .refl id _
  | filed edit unused edits unamended kept told =>
    have about : ∀ event ∈ events, event.edit = edit.id := by
      rw [told]
      refine List.forall_mem_cons.mpr ⟨rfl, fun event member => ?_⟩
      split at member
      · rw [List.mem_singleton.mp member]
        rfl
      · cases member
    by_cases same : id = edit.id
    · rw [same, edit?_unused unused, edit?_added edits unused, Event.about_self about, told]
      exact (Event.Tells.filed unamended kept).congr rfl rfl rfl
    · rw [edit?_addedOther edits fun clash => same clash.symm, Event.about_other about same]
      exact .refl id _
  | handled edit written found edits about tells =>
    by_cases same : id = written.id
    · rw [same, found, edit?_written edits found, Event.about_self about]
      exact tells.congr rfl rfl rfl
    · rw [edit?_other edits same, Event.about_other about same]
      exact .refl id _

end Store

/-! ### Effects -/

/-- The event that an effect gives rise to, if it has one. -/
def Effect.told : Effect → List Event
  | .notify notice => [notice.event]
  | .promote _ => []

/-- The events among some effects. -/
def Effect.events (effects : List Effect) : List Event := effects.flatMap told

theorem Effect.events_append (first second : List Effect) :
    events (first ++ second) = events first ++ events second := List.flatMap_append

theorem Effect.events_ofApplied (edit : Edit) : events (ofApplied edit) = [.applied edit.id] := by
  unfold events ofApplied
  cases edit.submitter <;> rfl

namespace Desk

variable {desk : Desk} {now : Instant} {ledger : Ledger}

/-- The notices that follow a step are those among its effects. -/
theorem follow_events (desk : Desk) (effects : List Effect) (ledger : Ledger) :
    (desk.follow effects ledger).2.map Notice.event = Effect.events effects := by
  let kept : Ledger × List Notice → List Event := fun state => state.2.map Notice.event
  unfold follow Effect.events
  rw [List.flatMap_eq_foldl]
  refine (@List.foldl_hom _ _ _ kept _ _ effects (ledger, []) ?_).symm
  rintro ⟨state, notices⟩ effect
  cases effect with
  | notify notice =>
    show _ = (notices ++ [notice]).map Notice.event
    rw [List.map_append]
    rfl
  | promote user => exact List.append_nil _

end Desk

/-! ### What is asked for -/

/-- What an operation is to report if it succeeds. -/
def Outcome.reports {α : Type} (outcome : Outcome α) (report : α → List Event) : List Event :=
  match outcome.result with
  | .ok result => report result
  | .error _ => []

/-- The events that a call asks for, if it succeeds: one for each submission, amendment, comment,
ballot against an edit and withdrawal. -/
def Desk.requests (desk : Desk) (now : Instant) (ledger : Ledger) : Call → List Event
  | .createEdit caller submission =>
    (desk.createEdit now caller submission ledger).reports fun edit => [.created edit.id]
  | .updateEdit caller id proposal remark =>
    (desk.updateEdit now caller id proposal remark ledger).reports fun _ => [.amended id]
  | .vote caller id choice =>
    (desk.vote now caller id choice ledger).reports fun _ =>
      if choice = .reject then [.downvoted id] else []
  | .comment caller id text =>
    (desk.comment now caller id text ledger).reports fun _ =>
      [.commented id ⟨desk.draw ledger.issued⟩]
  | .cancel caller id => (desk.cancel now caller id ledger).reports fun _ => [.canceled id]
  | _ => []

/-- An operation announces what it does, and what was asked for is all else that it reports. -/
structure Outcome.Tells {α : Type} (outcome : Outcome α) (before : Ledger) (asked : List Event) :
    Prop where
  announces : before.store.Announces outcome.ledger.store (outcome.notices.map Notice.event)
  answers : ((outcome.notices.map Notice.event).filter fun event => !event.isApplication) = asked

namespace Outcome.Tells

variable {α : Type} {outcome : Outcome α} {before : Ledger} {asked : List Event}

theorem forget (tells : outcome.Tells before asked) : outcome.forget.Tells before asked :=
  ⟨tells.announces, tells.answers⟩

theorem nothing (tells : outcome.Tells before (outcome.reports fun _ => [])) :
    outcome.Tells before [] := by
  refine ⟨tells.announces, tells.answers.trans ?_⟩
  unfold reports
  cases outcome.result <;> rfl

end Outcome.Tells

namespace Desk

variable {desk : Desk} {now : Instant} {ledger : Ledger}

/-! ### Transactions -/

/-- An operation tells what it does if its step does so whenever it succeeds. -/
theorem tells_carryOut {α : Type} {step : Step (α × List Effect)} {report : α → List Event}
    (succeeds : ∀ result effects after, step ledger = .ok ((result, effects), after) →
      ledger.store.Announces after.store (Effect.events effects) ∧
        ((Effect.events effects).filter fun event => !event.isApplication) =
          report result) :
    (desk.carryOut step ledger).Tells ledger ((desk.carryOut step ledger).reports report) := by
  cases done : step ledger with
  | ok value =>
    obtain ⟨⟨result, effects⟩, after⟩ := value
    rw [carryOut_done done]
    obtain ⟨announces, reports⟩ := succeeds result effects after done
    obtain ⟨grants, followed⟩ := desk.follow_store effects after
    refine ⟨?_, ?_⟩
    · show ledger.store.Announces (desk.follow effects after).1.store
        ((desk.follow effects after).2.map Notice.event)
      rw [follow_events, followed]
      exact announces.congr rfl
    · show ((desk.follow effects after).2.map Notice.event).filter _ = _
      rw [follow_events]
      exact reports
  | error error =>
    rw [carryOut_failed done]
    exact ⟨.silent rfl rfl, rfl⟩

theorem not_isWithdrawn_of_isPending {edit : Edit} (pending : edit.isPending = true) :
    edit.isWithdrawn = false := by
  refine decide_eq_false fun withdrawn => ?_
  rw [Edit.isPending, withdrawn] at pending
  cases pending

theorem unapplied_of_pending {edit : Edit} (regular : ledger.store.Regular desk.rules)
    (found : ledger.store.edit? edit.id = some edit) (pending : edit.isPending = true) :
    edit.applied = false :=
  (regular _ _ found).applied.trans (Edit.not_isApplied_of_isPending pending)

/-- A verdict on a pending edit has one effect if it applies the edit, and none otherwise. -/
theorem resolve_effects {counted resolved : Edit} {verdict : Verdict} {effects : List Effect}
    {after : Ledger} (pending : counted.isPending = true) (unapplied : counted.applied = false)
    (done : desk.resolve counted verdict now ledger = .ok ((resolved, effects), after)) :
    resolved.id = counted.id ∧ resolved.amendments = counted.amendments ∧
      resolved.isWithdrawn = false ∧
      Effect.events effects = if resolved.applied then [.applied counted.id] else [] := by
  unfold resolve at done
  cases verdict with
  | pending =>
    obtain ⟨same, rfl⟩ := Step.pure_ok.mp done
    cases same
    refine ⟨rfl, rfl, not_isWithdrawn_of_isPending pending, ?_⟩
    rw [unapplied]
    rfl
  | reject =>
    obtain ⟨same, rfl⟩ := Step.pure_ok.mp done
    cases same
    exact ⟨rfl, rfl, rfl, rfl⟩
  | accept =>
    dsimp only at done
    split at done
    next applied middle applies =>
      obtain ⟨target, store, -, rfl, rfl⟩ := applyToStore_ok.mp applies
      cases done
      exact ⟨rfl, rfl, rfl, Effect.events_ofApplied _⟩
    next error refused =>
      obtain ⟨_, _, added, finish⟩ := Step.bind_ok.mp done
      obtain ⟨same, rfl⟩ := Step.pure_ok.mp finish
      cases same
      exact ⟨rfl, rfl, rfl, rfl⟩

/-- What the events about a pending edit must say of what is written in its place. -/
theorem tells_pending {edit written : Edit} {events : List Event} (pending : edit.isPending = true)
    (unapplied : edit.applied = false) (filed : .created written.id ∉ events)
    (applied : events.count (.applied written.id) = written.applied.toNat)
    (amended : edit.amendments.toNat + events.count (.amended written.id) = written.amendments.toNat)
    (canceled : events.count (.canceled written.id) = written.isWithdrawn.toNat) :
    Event.Tells written.id (some edit) events (some written) := by
  refine .stands filed ?_ amended ?_
  · rw [unapplied, applied]
    exact Nat.zero_add _
  · rw [not_isWithdrawn_of_isPending pending, canceled]
    exact Nat.zero_add _

/-- What the events about a pending edit say of it when a verdict has been carried out. -/
theorem tells_settled {edit resolved : Edit} {more : List Event} (pending : edit.isPending = true)
    (unapplied : edit.applied = false) (amended : resolved.amendments = edit.amendments)
    (kept : resolved.isWithdrawn = false) (rest : ∀ event ∈ more, event = .downvoted resolved.id) :
    (∀ event ∈ (if resolved.applied then [Event.applied resolved.id] else []) ++ more,
      event.edit = resolved.id) ∧
    Event.Tells resolved.id (some edit)
      ((if resolved.applied then [.applied resolved.id] else []) ++ more) (some resolved) := by
  have others (event : Event) (other : event ≠ .downvoted resolved.id) : more.count event = 0 :=
    List.count_eq_zero.mpr fun member => other (rest event member)
  refine ⟨fun event member => ?_, tells_pending pending unapplied ?_ ?_ ?_ ?_⟩
  · rcases List.mem_append.mp member with settled | asked
    · split at settled
      · rw [List.mem_singleton.mp settled]
        rfl
      · cases settled
    · rw [rest event asked]
      rfl
  · intro member
    rcases List.mem_append.mp member with settled | asked
    · split at settled
      · cases List.mem_singleton.mp settled
      · cases settled
    · cases rest _ asked
  · rw [List.count_append, others (.applied resolved.id) nofun]
    cases resolved.applied with
    | true => exact List.count_singleton_self
    | false => rfl
  · rw [List.count_append, others (.amended resolved.id) nofun, amended]
    cases resolved.applied <;> rfl
  · rw [List.count_append, others (.canceled resolved.id) nofun, kept]
    cases resolved.applied <;> rfl

/-- What is announced when a verdict has been carried out, with other events for a ballot. -/
theorem verdict_announces {edit resolved : Edit} {score : Int32} {verdict : Verdict}
    {given : List Effect} {before middle : Ledger} {store : Store}
    (regular : ledger.store.Regular desk.rules) (found : ledger.store.edit? edit.id = some edit)
    (pending : edit.isPending = true) (same : before.store.edits = ledger.store.edits)
    (resolution : desk.resolve { edit with score } verdict now before =
      .ok ((resolved, given), middle))
    (updated : middle.store.updateEdit resolved = .ok store) (more : List Event)
    (asked : ∀ event ∈ more, event = .downvoted edit.id) :
    resolved.id = edit.id ∧ ledger.store.Announces store (Effect.events given ++ more) ∧
      ((Effect.events given).filter fun event => !event.isApplication) = [] := by
  have unapplied := unapplied_of_pending regular found pending
  obtain ⟨sameId, amended, kept, events⟩ := resolve_effects (by exact pending) (by exact unapplied)
    resolution
  have sameId : resolved.id = edit.id := sameId
  have events : Effect.events given = if resolved.applied then [.applied resolved.id] else [] := by
    rw [events, sameId]
  have edits : store.edits = ledger.store.editsWith resolved :=
    (updateEdit_frame updated).2.2.trans
      (editsWith_congr ((resolve_settles resolution).2.1.trans same) resolved)
  obtain ⟨about, tells⟩ := tells_settled pending unapplied amended kept (sameId ▸ asked)
  rw [events]
  refine ⟨sameId, .handled edit resolved (sameId ▸ found) edits about tells, ?_⟩
  split <;> rfl

theorem createEdit_tells (caller : UserId) (submission : Submission) :
    (desk.createEdit now caller submission ledger).Tells ledger
      (desk.requests now ledger (.createEdit caller submission)) := by
  refine tells_carryOut fun result effects after done => ?_
  obtain ⟨filed, middle, filing, rest⟩ := Step.bind_ok.mp done
  obtain ⟨id, details, store, rfl, unused, checked, inserted, remarked⟩ := fileEdit_ok filing
  split at rest
  next immediate =>
    obtain ⟨closed, _, enacting, finish⟩ := Step.bind_ok.mp rest
    obtain ⟨same, rfl⟩ := Step.pure_ok.mp finish
    cases same
    obtain ⟨target, applied, same, applies, catalogue, edits, votes⟩ := enact_ok enacting
    have events : Effect.events (.notify (.created result) :: Effect.ofApplied result) =
        [.created result.id, .applied result.id] :=
      congrArg (Event.created result.id :: ·) (Effect.events_ofApplied result)
    rw [events]
    refine ⟨.filed result ?_ ?_ ?_ ?_ ?_, rfl⟩
    · rw [same]
      exact unused
    · rw [edits, editsWith_congr remarked.edits, inserted, same]
      exact editsWith_append unused rfl
    · rw [same]
      rfl
    · rw [same]
      rfl
    · rw [same]
      rfl
  next =>
    obtain ⟨same, rfl⟩ := Step.pure_ok.mp rest
    cases same
    refine ⟨.filed _ unused ?_ rfl rfl rfl, rfl⟩
    rw [remarked.edits, inserted]

theorem updateEdit_tells (regular : ledger.store.Regular desk.rules) (caller : UserId) (id : EditId)
    (proposal : Proposal) (remark : Option String) :
    (desk.updateEdit now caller id proposal remark ledger).Tells ledger
      (desk.requests now ledger (.updateEdit caller id proposal remark)) := by
  refine tells_carryOut fun result effects after done => ?_
  simp only [Step.bind_ok, Step.check_ok, Step.write_ok, Step.writeWith_ok, Step.pure_ok,
    require_ok, requirePending_ok, loadEdit_ok] at done
  obtain ⟨roles, _, ⟨-, rfl⟩, edit, _, ⟨found, rfl⟩, -, _, ⟨-, rfl⟩, -, _, ⟨pending, rfl⟩, -, _,
    ⟨-, rfl⟩, -, _, ⟨limit, rfl⟩, -, _, ⟨-, rfl⟩, details, _, ⟨-, rfl⟩, cleared, _,
    ⟨emptied, clears, rfl⟩, -, _, ⟨store, updated, rfl⟩, _, _, remarked, finish, rfl⟩ := done
  cases edit?_id found
  cases clears
  cases finish
  have unapplied := unapplied_of_pending regular found pending
  refine ⟨.handled edit
    { edit with details, amendments := edit.amendments + 1, updated := some now, score := 0 } found
    ((addRemark_frame remarked).edits.trans (updateEdit_frame updated).2.2)
    (List.forall_mem_singleton.mpr rfl) (tells_pending pending unapplied ?_ ?_ ?_ ?_), rfl⟩
  · exact fun member => nomatch List.mem_singleton.mp member
  · rw [unapplied]
    rfl
  · have one : [Event.amended edit.id].count (.amended edit.id) = 1 := List.count_singleton_self
    exact (congrArg (edit.amendments.toNat + ·) one).trans
      (amendments_succ (of_decide_eq_true limit)).1.symm
  · exact (congrArg Bool.toNat (not_isWithdrawn_of_isPending pending)).symm

theorem vote_tells (regular : ledger.store.Regular desk.rules) (caller : UserId) (id : EditId)
    (choice : Choice) :
    (desk.vote now caller id choice ledger).Tells ledger
      (desk.requests now ledger (.vote caller id choice)) := by
  refine tells_carryOut fun result effects after done => ?_
  simp only [Step.bind_ok, Step.check_ok, Step.write_ok, Step.read_ok, Step.pure_ok, require_ok,
    requirePending_ok, loadEdit_ok] at done
  obtain ⟨-, _, ⟨-, rfl⟩, roles, _, ⟨-, rfl⟩, -, _, ⟨-, rfl⟩, edit, _, ⟨found, rfl⟩, -, _,
    ⟨pending, rfl⟩, -, _, ⟨-, rfl⟩, -, _, ⟨voted, cast, rfl⟩, tally, _, ⟨-, rfl⟩,
    ⟨resolved, given⟩, middle, resolution, -, _, ⟨store, updated, rfl⟩, finish, rfl⟩ := done
  cases finish
  cases edit?_id found
  have asked : ∀ event ∈ (if choice = .reject then [Event.downvoted edit.id] else []),
      event = .downvoted edit.id := by
    intro event member
    split at member
    · exact List.mem_singleton.mp member
    · cases member
  obtain ⟨sameId, announces, rest⟩ := verdict_announces regular found pending
    (by exact (upsertVote_sameCatalogue cast).2) resolution updated _ asked
  have told : Effect.events (given ++ if choice = .reject then [.notify (.downvoted resolved)] else []) =
      Effect.events given ++ if choice = .reject then [.downvoted edit.id] else [] := by
    rw [Effect.events_append, ← sameId]
    split <;> rfl
  rw [told]
  refine ⟨announces, ?_⟩
  rw [List.filter_append, rest]
  split <;> rfl

theorem closeIfDue_tells (regular : ledger.store.Regular desk.rules) (id : EditId) :
    (desk.carryOut (desk.closeIfDue now id) ledger).Tells ledger [] := by
  refine (tells_carryOut fun result effects after done => ?_).nothing
  unfold closeIfDue at done
  obtain ⟨found, _, look, done⟩ := Step.bind_ok.mp done
  obtain ⟨looked, rfl⟩ := Step.read_ok.mp look
  cases found with
  | none =>
    obtain ⟨same, rfl⟩ := Step.pure_ok.mp done
    cases same
    exact ⟨.silent rfl rfl, rfl⟩
  | some edit =>
    obtain ⟨found, due⟩ := Option.filter_eq_some_iff.mp looked
    cases edit?_id found
    simp only [Step.bind_ok, Step.write_ok, Step.read_ok, Step.pure_ok] at done
    obtain ⟨tally, _, ⟨-, rfl⟩, ⟨resolved, settled⟩, middle, resolution, -, _,
      ⟨store, updated, rfl⟩, finish, rfl⟩ := done
    cases finish
    obtain ⟨-, announces, rest⟩ := verdict_announces regular found (Bool.and_eq_true_iff.mp due).1
      rfl resolution updated [] fun event member => nomatch member
    rw [List.append_nil] at announces
    exact ⟨announces, rest⟩

theorem cancel_tells (regular : ledger.store.Regular desk.rules) (caller : UserId) (id : EditId) :
    (desk.cancel now caller id ledger).Tells ledger
      (desk.requests now ledger (.cancel caller id)) := by
  refine tells_carryOut fun result effects after done => ?_
  simp only [Step.bind_ok, Step.check_ok, require_ok, requirePending_ok, loadEdit_ok] at done
  obtain ⟨roles, _, ⟨-, rfl⟩, edit, _, ⟨found, rfl⟩, -, _, ⟨-, rfl⟩, -, _, ⟨pending, rfl⟩, done⟩ :=
    done
  cases edit?_id found
  have unapplied := unapplied_of_pending regular found pending
  have handled {store : Store} (edits : store.edits =
      ledger.store.editsWith (edit.close .immediateRejected now)) :
      ledger.store.Announces store [.canceled edit.id] := by
    refine .handled edit (edit.close .immediateRejected now) found edits
      (List.forall_mem_singleton.mpr rfl) (tells_pending pending unapplied ?_ rfl rfl ?_)
    · exact fun member => nomatch List.mem_singleton.mp member
    · exact List.count_singleton_self
  split at done
  · simp only [Step.bind_ok, Step.write_ok, Step.pure_ok] at done
    obtain ⟨-, _, ⟨voted, cast, rfl⟩, -, _, ⟨store, updated, rfl⟩, finish, rfl⟩ := done
    cases finish
    exact ⟨handled ((updateEdit_frame updated).2.2.trans
      (editsWith_congr (upsertVote_sameCatalogue cast).2 _)), rfl⟩
  · simp only [Step.bind_ok, Step.write_ok, Step.pure_ok] at done
    obtain ⟨-, _, ⟨store, updated, rfl⟩, finish, rfl⟩ := done
    cases finish
    exact ⟨handled (updateEdit_frame updated).2.2, rfl⟩

theorem apply_tells (regular : ledger.store.Regular desk.rules) (caller : UserId) (id : EditId) :
    (desk.apply now caller id ledger).Tells ledger [] := by
  refine (tells_carryOut fun result effects after done => ?_).nothing
  simp only [Step.bind_ok, Step.check_ok, Step.write_ok, Step.pure_ok, requirePending_ok,
    loadEdit_ok] at done
  obtain ⟨roles, _, ⟨-, rfl⟩, -, _, ⟨-, rfl⟩, edit, _, ⟨found, rfl⟩, -, _, ⟨pending, rfl⟩, -, _,
    ⟨voted, cast, rfl⟩, closed, _, enacting, finish, rfl⟩ := done
  cases finish
  cases edit?_id found
  have unapplied := unapplied_of_pending regular found pending
  obtain ⟨target, store, rfl, applies, catalogue, edits, votes⟩ := enact_ok enacting
  rw [Effect.events_ofApplied]
  refine ⟨.handled edit ({ edit with target := some target }.close .immediateAccepted now) found
    (edits.trans (editsWith_congr (upsertVote_sameCatalogue cast).2 _))
    (List.forall_mem_singleton.mpr rfl) (tells_pending pending unapplied ?_ ?_ rfl rfl), rfl⟩
  · exact fun member => nomatch List.mem_singleton.mp member
  · exact List.count_singleton_self

/-- A comment that is added takes the next identifier and comes last. -/
theorem addComment_adds {edit : EditId} {author : Option UserId} {text : String} {after : Ledger}
    {comment : Comment} (done : desk.addComment edit author text now ledger = .ok (comment, after)) :
    comment = ⟨⟨desk.draw ledger.issued⟩, edit, author, text, now⟩ ∧
      after.store.comments = ledger.store.comments ++ [comment] := by
  unfold addComment at done
  simp only [Step.bind_ok, Step.issue_ok, Step.write_ok, Step.pure_ok] at done
  obtain ⟨_, _, ⟨rfl, rfl⟩, _, _, ⟨store, inserted, rfl⟩, rfl, rfl⟩ := done
  rw [Store.insertComment_ok inserted]
  exact ⟨rfl, rfl⟩

theorem comment_tells (caller : UserId) (id : EditId) (text : String) :
    (desk.comment now caller id text ledger).Tells ledger
      (desk.requests now ledger (.comment caller id text)) := by
  refine tells_carryOut fun result effects after done => ?_
  simp only [Step.bind_ok, Step.check_ok, Step.pure_ok, loadEdit_ok] at done
  obtain ⟨-, _, ⟨-, rfl⟩, roles, _, ⟨-, rfl⟩, -, _, ⟨-, rfl⟩, edit, _, ⟨found, rfl⟩, comment, _,
    added, finish, rfl⟩ := done
  cases finish
  obtain ⟨rfl, -⟩ := addComment_adds added
  have told : Effect.events [.notify (.commented result ⟨⟨desk.draw ledger.issued⟩, id, some caller,
      text, now⟩)] = [.commented id ⟨desk.draw ledger.issued⟩] :=
    congrArg (fun target => [Event.commented target ⟨desk.draw ledger.issued⟩]) (edit?_id found)
  rw [told]
  exact ⟨.commented id _ (Store.hasEdit_of_edit? found) (addComment_frame added).edits rfl, rfl⟩

/-- An operation without effects tells what it does if it leaves the edits alone or deletes one. -/
theorem tells_carryOutQuietly {α : Type} {step : Step α}
    (succeeds : ∀ result after, step ledger = .ok (result, after) →
      ledger.store.Announces after.store []) :
    (carryOutQuietly step ledger).Tells ledger [] := by
  unfold carryOutQuietly
  cases done : step ledger with
  | ok value => exact ⟨succeeds value.1 value.2 done, rfl⟩
  | error error => exact ⟨.silent rfl rfl, rfl⟩

theorem registerUser_tells (name : String) (roles : List Role) :
    (desk.registerUser now name roles ledger).Tells ledger [] := by
  refine tells_carryOutQuietly fun result after done => ?_
  simp only [Step.bind_ok, Step.issue_ok, Step.write_ok, Step.pure_ok] at done
  obtain ⟨user, _, ⟨-, rfl⟩, -, _, ⟨store, registered, rfl⟩, _, _, granted, -, rfl⟩ := done
  exact .silent ((insertUser_frame registered).trans (grantRoles_frame granted)).edits rfl

theorem grantRole_tells (user : UserId) (role : Role) :
    (Desk.grantRole user role ledger).Tells ledger [] := by
  refine tells_carryOutQuietly fun result after done => ?_
  simp only [Step.bind_ok, Step.check_ok, Step.writeWith_ok] at done
  obtain ⟨-, _, ⟨-, rfl⟩, store, granted, rfl⟩ := done
  rw [Store.grantRole_store granted]
  exact .silent rfl rfl

theorem deleteEdit_tells (caller : UserId) (id : EditId) (reason : String) :
    (desk.deleteEdit now caller id reason ledger).Tells ledger [] := by
  refine tells_carryOutQuietly fun result after done => ?_
  simp only [Step.bind_ok, Step.check_ok, Step.read_ok] at done
  obtain ⟨roles, _, ⟨-, rfl⟩, -, _, ⟨-, rfl⟩, found, _, ⟨-, rfl⟩, done⟩ := done
  cases found with
  | none =>
    obtain ⟨-, rfl⟩ := Step.pure_ok.mp done
    exact .silent rfl rfl
  | some edit =>
    simp only [Step.bind_ok, Step.check_ok, Step.issue_ok, Step.write_ok, Step.pure_ok] at done
    obtain ⟨-, _, ⟨-, rfl⟩, audit, _, ⟨-, rfl⟩, -, _, ⟨store, removed, rfl⟩, -, rfl⟩ := done
    obtain ⟨-, edits, -⟩ := deleteWithAudit_ok removed
    exact .deleted edit.id edits rfl

theorem deleteExpiredAudits_tells :
    (desk.deleteExpiredAudits now ledger).Tells ledger [] := by
  rcases desk.deleteExpiredAudits_outcome now ledger with ⟨result, same⟩ | ⟨cutoff, same⟩
  · rw [same]
    refine ⟨.silent rfl rfl, ?_⟩
    cases result <;> rfl
  · rw [same]
    exact ⟨.silent rfl rfl, rfl⟩

/-- **A transaction tells what it does**, and what was asked for. -/
theorem answer_tells {call : Call} (single : call.isSingle = true)
    (regular : ledger.store.Regular desk.rules) :
    (desk.answer now ledger call).Tells ledger (desk.requests now ledger call) := by
  cases call with
  | registerUser name roles => exact (registerUser_tells name roles).forget
  | grantRole user role => exact (grantRole_tells user role).forget
  | createEdit caller submission => exact (createEdit_tells caller submission).forget
  | updateEdit caller id proposal remark =>
    exact (updateEdit_tells regular caller id proposal remark).forget
  | vote caller id choice => exact (vote_tells regular caller id choice).forget
  | comment caller id text => exact (comment_tells caller id text).forget
  | cancel caller id => exact (cancel_tells regular caller id).forget
  | apply caller id => exact (apply_tells regular caller id).forget
  | closeIfDue id => exact (closeIfDue_tells regular id).forget
  | closeCompleted => cases single
  | deleteEdit caller id reason => exact (deleteEdit_tells caller id reason).forget
  | deleteExpiredAudits => exact deleteExpiredAudits_tells.forget

/-! ### Calls -/

variable {β : Type}

/-- What calls yield one after the other. -/
def collect (desk : Desk) (each : Instant → Ledger → Call → List β) :
    Ledger → List (Instant × Call) → List β
  | _, [] => []
  | ledger, (now, call) :: rest =>
    each now ledger call ++ desk.collect each (desk.proceed now ledger call) rest

theorem collect_append (desk : Desk) (each : Instant → Ledger → Call → List β) (start : Ledger)
    (calls later : List (Instant × Call)) : desk.collect each start (calls ++ later) =
      desk.collect each start calls ++ desk.collect each (desk.runFrom start calls) later := by
  induction calls generalizing start with
  | nil => rfl
  | cons entry rest hypothesis =>
    show _ ++ desk.collect each _ (rest ++ later) = _
    rw [hypothesis, ← List.append_assoc]
    rfl

theorem collect_concat (desk : Desk) (each : Instant → Ledger → Call → List β) (start : Ledger)
    (calls : List (Instant × Call)) (now : Instant) (call : Call) :
    desk.collect each start (calls ++ [(now, call)]) =
      desk.collect each start calls ++ each now (desk.runFrom start calls) call := by
  rw [collect_append]
  exact congrArg _ (List.append_nil _)

/-- The events to which a call gives rise. -/
def events (desk : Desk) (now : Instant) (ledger : Ledger) (call : Call) : List Event :=
  (desk.answer now ledger call).notices.map Notice.event

/-- The events to which some calls give rise. -/
def log (desk : Desk) : Ledger → List (Instant × Call) → List Event := desk.collect desk.events

theorem log_cons (desk : Desk) (ledger : Ledger) (now : Instant) (call : Call)
    (rest : List (Instant × Call)) : desk.log ledger ((now, call) :: rest) =
      desk.events now ledger call ++ desk.log (desk.proceed now ledger call) rest := rfl

theorem closeEach_events (desk : Desk) (now : Instant) (ids : List EditId) (closed : Nat)
    (ledger : Ledger) : (desk.closeEach now ids closed ledger).notices.map Notice.event =
      desk.log ledger ((desk.swept now ids ledger).map fun id => (now, .closeIfDue id)) := by
  induction ids generalizing closed ledger with
  | nil => rfl
  | cons id rest hypothesis =>
    unfold closeEach swept
    dsimp only
    cases (desk.carryOut (desk.closeIfDue now id) ledger).result with
    | ok wasDue =>
      dsimp only
      rw [List.map_append, hypothesis]
      rfl
    | error error => exact (List.append_nil _).symm

/-- **The events of a call are those of its transactions.** -/
theorem log_transactions (desk : Desk) (now : Instant) (ledger : Ledger) (call : Call) :
    desk.log ledger (desk.transactions now ledger call) = desk.events now ledger call := by
  cases call with
  | closeCompleted => exact (desk.closeEach_events now _ 0 ledger).symm
  | _ => exact List.append_nil _

/-- Closing an edit neither files nor deletes one. -/
theorem closeIfDue_hasEdit (desk : Desk) (now : Instant) (closed id : EditId) (ledger : Ledger) :
    (desk.proceed now ledger (.closeIfDue closed)).store.hasEdit id = ledger.store.hasEdit id := by
  rcases desk.closeIfDue_settles now closed ledger with
    same | ⟨edit, resolved, tally, -, -, -, -, -, edits, -⟩
  · exact congrArg (fun edits : List Edit => edits.any fun stored => stored.id = id) same.edits
  · exact Store.hasEdit_editsWith edits id

/-- What a sweep tells adds up, and nothing of it was asked for. -/
theorem sweep_tells (desk : Desk) (now : Instant) (id : EditId) (ids : List EditId)
    (regular : ledger.store.Regular desk.rules) :
    let sweep : List (Instant × Call) := ids.map fun id => (now, .closeIfDue id)
    Event.Tells id (ledger.store.edit? id) (Event.about id (desk.log ledger sweep))
        ((desk.runFrom ledger sweep).store.edit? id) ∧
      (desk.runFrom ledger sweep).store.hasEdit id = ledger.store.hasEdit id ∧
      ((desk.log ledger sweep).filter fun event => !event.isApplication) = [] := by
  induction ids generalizing ledger with
  | nil => exact ⟨.refl id _, rfl, rfl⟩
  | cons closed rest hypothesis =>
    have turn : desk.Turn now (.closeIfDue closed) ledger.store
        (desk.proceed now ledger (.closeIfDue closed)).store := desk.turn now ledger rfl
    have first : (desk.carryOut (desk.closeIfDue now closed) ledger).Tells ledger [] :=
      closeIfDue_tells regular closed
    have kept := desk.closeIfDue_hasEdit now closed id ledger
    obtain ⟨tells, stays, unasked⟩ := hypothesis (turn.regular regular)
    rw [List.map_cons]
    dsimp only
    rw [log_cons]
    refine ⟨?_, stays.trans kept, ?_⟩
    · rw [Event.about_append]
      refine (first.announces.tells id).trans tells ?_ ?_
      · rw [Store.edit?_isSome, Store.edit?_isSome]
        exact kept
      · rw [Store.edit?_isSome, Store.edit?_isSome]
        exact stays
    · rw [List.filter_append, unasked, List.append_nil]
      exact first.answers

/-- **The events of a call tell what it does to every edit.** -/
theorem events_tell (desk : Desk) (now : Instant) (call : Call) (id : EditId)
    (regular : ledger.store.Regular desk.rules) :
    Event.Tells id (ledger.store.edit? id) (Event.about id (desk.events now ledger call))
      ((desk.proceed now ledger call).store.edit? id) := by
  rcases desk.transactions_cases now ledger call with ⟨single, -⟩ | ⟨-, ids, sweep⟩
  · rw [← answer_ledger]
    exact (desk.answer_tells single regular).announces.tells id
  · rw [← log_transactions, ← runFrom_transactions, sweep]
    exact (desk.sweep_tells now id ids regular).1

/-- **The events of a call are what was asked for**, apart from applications. -/
theorem events_asked (desk : Desk) (now : Instant) (call : Call)
    (regular : ledger.store.Regular desk.rules) :
    ((desk.events now ledger call).filter fun event => !event.isApplication) =
      desk.requests now ledger call := by
  rcases desk.transactions_cases now ledger call with ⟨single, -⟩ | ⟨rfl, ids, sweep⟩
  · exact (desk.answer_tells single regular).answers
  · rw [← log_transactions, sweep]
    exact (desk.sweep_tells now default ids regular).2.2

end Desk

end Curation
