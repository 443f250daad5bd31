/-
**What pending edits have been checked for.** The details of a pending edit were made from a
submission that passed the checks against some earlier store, and later turns keep what does not
depend on that store.

* `Submission.details_ok`: the checks of a submission that passed;
* `Edit.Proper`: what an edit keeps of them, and `Desk.pending_proper`: every pending edit has it;
* `Change.checkReferences_ok`: what a check of references makes sure of.
-/

import Curation.Proofs.Liveness
import Curation.Proofs.Origins

namespace Curation

/-! ### Fixed words -/

/-- Fields of the same key admit the same values, whatever kinds they belong to. -/
theorem Field.admits_of_key {first second : Kind} {field : Field first} {other : Field second}
    (same : field.key = other.key) {held : field.Carrier} {read : other.Carrier}
    (admitted : field.admits held = true)
    (reads : other.sort.ofValue? (field.sort.value held) = some read) :
    other.admits read = true := by
  cases other <;> first
    | rfl
    | (cases field <;> first
        | (cases reads; exact admitted)
        | exact absurd same (by decide))

/-- A change proposes only values that its fields admit. -/
def Change.IsAdmitted {kind : Kind} (change : Change kind) : Prop :=
  ∀ field held, change.new.scalar field = some held → field.admits held = true

theorem Request.compare_admitted {α : Type} [DecidableEq α] {admits : α → Bool}
    {request : Request α} {current : Option α} {wanted : α}
    (proposed : (request.compare admits current).2 = some wanted) : admits wanted = true := by
  unfold compare admitted difference at proposed
  cases request with
  | untouched => cases proposed
  | cleared => cases proposed
  | value asked =>
    dsimp only at proposed
    by_cases passes : admits asked = true
    · rw [if_pos passes] at proposed
      dsimp only at proposed
      split at proposed
      · cases proposed
      · cases proposed
        exact passes
    · rw [if_neg passes] at proposed
      cases proposed

theorem Input.diff_isAdmitted {kind : Kind} (input : Input kind) (current : Option (Contents kind)) :
    (input.diff current).IsAdmitted :=
  fun _ _ proposed => Request.compare_admitted proposed

/-! ### Checks of references -/

namespace Change

/-- The studio to which a change makes its record refer. -/
def studio? : {kind : Kind} → Change kind → Option EntityId
  | .studio, change => change.new.scalar .studioParent
  | .scene, change => change.new.scalar .sceneStudio
  | _, _ => none

/-- What a change adds to the links of its record. -/
def linked {kind : Kind} (change : Change kind) (link : Link kind) : List EntityId :=
  (change.new.links link).added.map link.target

/-- **What the check of references makes sure of**: the studio is there and is not the record itself,
and so are the records that are newly linked. -/
theorem checkReferences_ok {kind : Kind} {change : Change kind} {store : Store}
    {target : Option EntityId} {result : Unit}
    (checked : change.checkReferences store target = .ok result) :
    (∀ studio, change.studio? = some studio → store.IsLive studio .studio) ∧
      (kind = .studio → ∀ studio, change.studio? = some studio → target ≠ some studio) ∧
      ∀ link, ∀ linked ∈ change.linked link, store.IsLive linked link.association.linked := by
  cases kind with
  | tag =>
    exact ⟨fun _ found => (nomatch found), fun same => (nomatch same), fun link => (nomatch link)⟩
  | performer =>
    exact ⟨fun _ found => (nomatch found), fun same => (nomatch same), fun link => (nomatch link)⟩
  | studio =>
    simp only [checkReferences] at checked
    cases named : change.new.scalar .studioParent with
    | none =>
      have nothing : ∀ studio, change.studio? ≠ some studio := by
        intro studio found
        rw [studio?, named] at found
        cases found
      exact ⟨fun studio found => absurd found (nothing studio),
        fun _ studio found => absurd found (nothing studio), fun link => (nomatch link)⟩
    | some parent =>
      rw [named] at checked
      dsimp only at checked
      have only : ∀ studio, change.studio? = some studio → studio = parent := by
        intro studio found
        rw [studio?, named] at found
        exact (Option.some.inj found).symm
      split at checked
      · cases checked
      · next other =>
        refine ⟨fun studio found => ?_, fun _ studio found => ?_, fun link => (nomatch link)⟩
        · rw [only studio found]
          exact Store.requireLive_ok.mp checked
        · rw [only studio found]
          exact other
  | scene =>
    have checks : (∀ studio, change.studio? = some studio → store.IsLive studio .studio) ∧
        ((change.new.links .sceneTags).added.forM (fun tag => store.requireLive tag .tag) >>=
          fun _ => (change.new.links .scenePerformers).added.forM fun appearance =>
            store.requireLive appearance.performer .performer) = .ok result := by
      simp only [checkReferences] at checked
      have same : change.studio? = change.new.scalar .sceneStudio := rfl
      rw [same]
      cases named : change.new.scalar .sceneStudio with
      | none =>
        rw [named] at checked
        exact ⟨fun studio found => (nomatch found), checked⟩
      | some studio =>
        rw [named] at checked
        obtain ⟨_, live, rest⟩ := Except.bind_ok.mp checked
        refine ⟨fun other found => ?_, rest⟩
        cases found
        exact Store.requireLive_ok.mp live
    obtain ⟨live, rest⟩ := checks
    simp only [Except.bind_ok, Except.forM_ok] at rest
    obtain ⟨_, tagsChecked, performersChecked⟩ := rest
    refine ⟨live, fun same => (nomatch same), fun link => ?_⟩
    · cases link with
      | sceneTags =>
        intro linked member
        obtain ⟨tag, added, rfl⟩ := List.mem_map.mp member
        exact Store.requireLive_ok.mp (tagsChecked tag added)
      | scenePerformers =>
        intro linked member
        obtain ⟨appearance, added, rfl⟩ := List.mem_map.mp member
        exact Store.requireLive_ok.mp (performersChecked appearance added)

end Change

/-! ### Checks of a submission -/

namespace Submission

variable {submission : Submission} {store : Store} {details : Details} {result : Unit}

/-- A submission has a target, which is there, exactly when its operation needs one. -/
theorem checkTarget_ok (checked : submission.checkTarget store = .ok result) :
    if submission.operation.needsTarget = true
    then ∃ target, submission.target = some target ∧ store.IsLive target submission.proposal.kind
    else submission.target = none := by
  unfold checkTarget at checked
  split at checked
  next target needed given =>
    rw [if_pos needed]
    exact ⟨target, given, Store.requireLive_ok.mp checked⟩
  · cases checked
  · cases checked
  next needless given =>
    rw [if_neg (Bool.eq_false_iff.mp needless)]
    exact given

theorem checkSources_ok {kind : Kind} {target : Option EntityId} {sources seen : List EntityId}
    (checked : checkSources store kind target seen sources = .ok result) :
    sources.Nodup ∧
      ∀ source ∈ sources, some source ≠ target ∧ source ∉ seen ∧ store.IsLive source kind := by
  induction sources generalizing seen with
  | nil => exact ⟨List.nodup_nil, fun source member => (nomatch member)⟩
  | cons head rest hypothesis =>
    change (if some head = target then _ else if head ∈ seen then _ else _) = _ at checked
    split at checked
    · cases checked
    next other =>
      split at checked
      · cases checked
      next unseen =>
        obtain ⟨_, there, later⟩ := Except.bind_ok.mp checked
        obtain ⟨distinct, apart⟩ := hypothesis later
        refine ⟨List.nodup_cons.mpr ⟨fun member => ?_, distinct⟩, List.forall_mem_cons.mpr
          ⟨⟨other, unseen, Store.requireLive_ok.mp there⟩, fun source member => ?_⟩⟩
        · exact (apart head member).2.1 List.mem_cons_self
        · obtain ⟨differs, new, live⟩ := apart source member
          exact ⟨differs, fun seen => new (List.mem_cons_of_mem _ seen), live⟩

/-- The sources of a merge are there and listed once, and its target is none of them; no other
submission has sources. -/
theorem checkMerge_ok (checked : submission.checkMerge store = .ok result) :
    submission.sources.Nodup ∧
      (∀ target, submission.target = some target → target ∉ submission.sources) ∧
      ∀ source ∈ submission.sources, store.IsLive source submission.proposal.kind := by
  unfold checkMerge at checked
  split at checked
  · split at checked
    · cases checked
    · obtain ⟨distinct, apart⟩ := checkSources_ok checked
      exact ⟨distinct, fun target found member => (apart target member).1 found.symm,
        fun source member => (apart source member).2.2⟩
  · split at checked
    next none =>
      rw [List.isEmpty_iff.mp none]
      exact ⟨List.nodup_nil, fun target _ member => (nomatch member),
        fun source member => (nomatch member)⟩
    · cases checked

/-- **What a submission that passed was checked for**, and what its details are. -/
theorem details_checked (checked : submission.details store = .ok details) :
    submission.checkTarget store = .ok () ∧ submission.checkMerge store = .ok () ∧
      ((submission.operation = .destroy ∧ details = .empty submission.proposal.kind) ∨
        (submission.operation ≠ .destroy ∧ (submission.change store).checkDate = .ok () ∧
          (submission.change store).checkReferences store submission.target = .ok () ∧
          details = ⟨submission.proposal.kind, submission.change store⟩)) := by
  unfold Submission.details at checked
  obtain ⟨_, targeted, checked⟩ := Except.bind_ok.mp checked
  obtain ⟨_, merges, checked⟩ := Except.bind_ok.mp checked
  refine ⟨targeted, merges, ?_⟩
  by_cases destroys : submission.operation = .destroy
  · rw [if_pos destroys] at checked
    cases checked
    exact .inl ⟨destroys, rfl⟩
  · rw [if_neg destroys] at checked
    dsimp only at checked
    refine .inr ⟨destroys, ?_⟩
    -- a new record is checked for its name before all others are checked for the same things
    have unnamed : ∃ name : Except ReviewError Unit, (name >>= fun _ =>
        if (submission.operation = .modify &&
          !(Details.mk submission.proposal.kind (submission.change store)).hasChanges) = true
        then throw (.flawed .unchanged)
        else do
          (submission.change store).checkDate
          (submission.change store).checkReferences store submission.target
          return Details.mk submission.proposal.kind (submission.change store)) = .ok details := by
      split at checked
      · exact ⟨_, checked⟩
      · exact ⟨.ok (), checked⟩
    obtain ⟨_, checked⟩ := unnamed
    obtain ⟨_, -, checked⟩ := Except.bind_ok.mp checked
    split at checked
    · cases checked
    · obtain ⟨_, dated, checked⟩ := Except.bind_ok.mp checked
      obtain ⟨_, referred, finish⟩ := Except.bind_ok.mp checked
      cases finish
      exact ⟨dated, referred, rfl⟩

/-- **What the details of a submission that passed are.** -/
theorem details_ok (checked : submission.details store = .ok details) :
    submission.checkTarget store = .ok () ∧ submission.checkMerge store = .ok () ∧
      ((submission.operation = .destroy ∧ details = .empty submission.proposal.kind) ∨
        (submission.operation ≠ .destroy ∧
          (submission.change store).checkReferences store submission.target = .ok () ∧
          details = ⟨submission.proposal.kind, submission.change store⟩)) := by
  obtain ⟨targeted, merges, outcome⟩ := details_checked checked
  refine ⟨targeted, merges, outcome.imp_right ?_⟩
  rintro ⟨keeps, -, referred, same⟩
  exact ⟨keeps, referred, same⟩

/-- A date that the details of a submission propose is one. -/
theorem details_dated (checked : submission.details store = .ok details) :
    details.change.checkDate = .ok () := by
  obtain ⟨-, -, ⟨-, rfl⟩ | ⟨-, dated, -, rfl⟩⟩ := details_checked checked
  · show (Change.empty submission.proposal.kind).checkDate = .ok ()
    cases submission.proposal.kind <;> rfl
  · exact dated

theorem details_kind (checked : submission.details store = .ok details) :
    details.kind = submission.proposal.kind := by
  obtain ⟨-, -, ⟨-, rfl⟩ | ⟨-, -, rfl⟩⟩ := details_ok checked <;> rfl

theorem details_isAdmitted (checked : submission.details store = .ok details) :
    details.change.IsAdmitted := by
  obtain ⟨-, -, ⟨-, rfl⟩ | ⟨-, -, rfl⟩⟩ := details_ok checked
  · exact fun field held proposed => (nomatch proposed)
  · exact Input.diff_isAdmitted _ _

end Submission

/-! ### Pending edits -/

/-- What an edit keeps of the checks that it has passed. -/
structure Edit.Proper (edit : Edit) : Prop where
  kind : edit.details.kind = edit.kind
  sources : ∀ target, edit.target = some target → target ∉ edit.sources
  distinct : edit.sources.Nodup
  admitted : edit.details.change.IsAdmitted

theorem Submission.edit_proper {submission : Submission} {store : Store} {details : Details}
    (checked : submission.details store = .ok details) (id : EditId) (caller : UserId)
    (now : Instant) : (submission.edit id caller details now).Proper where
  kind := details_kind checked
  sources := (checkMerge_ok (details_ok checked).2.1).2.1
  distinct := (checkMerge_ok (details_ok checked).2.1).1
  admitted := details_isAdmitted checked

/-- The details of every edit are those of a record of its kind. -/
def Store.KindsFit (store : Store) : Prop :=
  ∀ id edit, store.edit? id = some edit → edit.details.kind = edit.kind

/-- Every pending edit is proper. -/
def Store.PendingProper (store : Store) : Prop :=
  ∀ id edit, store.edit? id = some edit → edit.isPending = true → edit.Proper

namespace Desk

variable {desk : Desk} {now : Instant} {call : Call} {before after : Store}

/-- A turn keeps every pending edit proper. -/
theorem Turn.pendingProper (turn : desk.Turn now call before after) (proper : before.PendingProper) :
    after.PendingProper := by
  intro id edit found pending
  cases turn.origin found with
  | kept earlier votes => exact proper _ edit earlier pending
  | submitted caller submission details unused checked same catalogue =>
    have submitted := submission.edit_proper checked edit.id caller now
    rw [same]
    exact ⟨submitted.kind, submitted.sources, submitted.distinct, submitted.admitted⟩
  | enacted caller submission details number target store unused checked creates application
      catalogue same =>
    rw [same] at pending
    cases pending
  | handled earlier written looked earlierPending handles same =>
    obtain ⟨kind, sources, distinct, admitted⟩ := proper _ earlier looked earlierPending
    cases handles with
    | amended caller proposal remark details called mayChange limit kindKept checked catalogue votes =>
      rw [same]
      refine ⟨?_, sources, distinct, Submission.details_isAdmitted checked⟩
      exact (Submission.details_kind checked).trans kindKept
    | withdrawn catalogue votes =>
      rw [same] at pending
      cases pending
    | enforced caller voted number target store cast votes application catalogue =>
      rw [same] at pending
      cases pending
    | decided tally verdict written counted decides settles =>
      cases settles with
      | pending catalogue =>
        rw [same]
        exact ⟨kind, sources, distinct, admitted⟩
      | rejected catalogue =>
        rw [same] at pending
        cases pending
      | accepted number target store application catalogue =>
        rw [same] at pending
        cases pending
      | failed number error application catalogue =>
        rw [same] at pending
        cases pending

/-- **Every pending edit is proper.** -/
theorem pending_proper (desk : Desk) (calls : List (Instant × Call)) :
    (desk.run calls).store.PendingProper := by
  refine @run_keeps Store.PendingProper desk calls ?_ fun now _ call before after turn proper =>
    turn.pendingProper proper
  intro id edit found
  cases found

/-- A turn leaves the details of every edit fit for its kind. -/
theorem Turn.kindsFit (turn : desk.Turn now call before after) (fit : before.KindsFit) :
    after.KindsFit := by
  intro id edit found
  cases edit?_id found
  cases turn.origin found with
  | kept earlier votes => exact fit _ edit earlier
  | submitted caller submission details unused checked same catalogue =>
    rw [same]
    exact Submission.details_kind checked
  | enacted caller submission details number target store unused checked creates application
      catalogue same =>
    rw [same]
    exact Submission.details_kind checked
  | handled earlier written looked pending handles same =>
    have earlierFits := fit _ earlier looked
    rw [same]
    cases handles with
    | amended caller proposal remark details called mayChange limit kindKept checked catalogue votes =>
      exact (Submission.details_kind checked).trans kindKept
    | withdrawn catalogue votes => exact earlierFits
    | enforced caller voted number target store cast votes application catalogue => exact earlierFits
    | decided tally verdict written counted decides settles =>
      cases settles with
      | pending catalogue => exact earlierFits
      | rejected catalogue => exact earlierFits
      | accepted number target store application catalogue => exact earlierFits
      | failed number error application catalogue => exact earlierFits

/-- **The details of every edit are fit for its kind.** -/
theorem run_kindsFit (desk : Desk) (calls : List (Instant × Call)) :
    (desk.run calls).store.KindsFit :=
  @run_keeps Store.KindsFit desk calls (fun _ _ found => (nomatch found))
    fun _ _ _ _ _ turn fit => turn.kindsFit fit

/-- **Every edit that is applied in a turn is proper.** -/
theorem Turn.applied_proper (turn : desk.Turn now call before after) (proper : before.PendingProper) :
    before.SameCatalogue after ∨ ∃ (edit : Edit) (fresh target : EntityId) (store : Store),
      edit.Proper ∧ edit.apply fresh now before = .ok (target, store) ∧ store.SameCatalogue after := by
  rcases turn.catalogue with same | ⟨edit, fresh, target, store, application, same, source⟩
  · exact .inl same
  · refine .inr ⟨edit, fresh, target, store, ?_, application, same⟩
    rcases source with ⟨found, pending⟩ | ⟨id, caller, submission, details, checked, rfl⟩
    · exact proper _ edit found pending
    · exact submission.edit_proper checked id caller now

end Desk

end Curation
