/-
**What succeeds.** A write to the catalogue is refused only for want of a record: one that does not
exist cannot be written to, linked or referred to. Apart from the record that is made or removed
itself, no part of an application adds or loses any, so that what was there when an application
began is there for each of its parts.

* `Yields`: a computation succeeds, and its result has a property;
* `Store.create_succeeds`, `Store.modify_yields`, `Store.destroy_succeeds`: what the operations on
  records ask for;
* `Store.merge_succeeds`: no source of a merge is in the way of the next.
-/

import Curation.Proofs.Conditions
import Curation.Proofs.Integrity

namespace Curation

/-- A computation succeeds, and its result has a property. -/
def Yields {ε α : Type} (value : Except ε α) (property : α → Prop) : Prop :=
  ∃ result, value = .ok result ∧ property result

namespace Yields

variable {ε α β : Type} {value : Except ε α} {property : α → Prop}

theorem mono {goal : α → Prop} (yields : Yields value property)
    (weaker : ∀ result, property result → goal result) : Yields value goal := by
  obtain ⟨result, done, holds⟩ := yields
  exact ⟨result, done, weaker result holds⟩

theorem bind {next : α → Except ε β} {goal : β → Prop} (first : Yields value property)
    (later : ∀ result, property result → Yields (next result) goal) :
    Yields (value >>= next) goal := by
  obtain ⟨result, rfl, holds⟩ := first
  exact later result holds

theorem map {image : α → β} {goal : β → Prop} (yields : Yields value property)
    (imaged : ∀ result, property result → goal (image result)) :
    Yields (value.map image) goal := by
  obtain ⟨result, rfl, holds⟩ := yields
  exact ⟨image result, rfl, imaged result holds⟩

theorem lift {value : Except StoreError α} (yields : Yields value property) :
    Yields (Store.lift value) property := by
  obtain ⟨result, rfl, holds⟩ := yields
  exact ⟨result, rfl, holds⟩

/-- A fold succeeds if each of its steps does and keeps what the next one needs. -/
theorem foldlM {σ : Type} {write : σ → α → Except ε σ} {property : σ → Prop} {values : List α}
    {state : σ} (holds : property state)
    (each : ∀ value ∈ values, ∀ state, property state → Yields (write state value) property) :
    Yields (values.foldlM write state) property := by
  induction values generalizing state with
  | nil => exact ⟨state, rfl, holds⟩
  | cons value rest hypothesis =>
    rw [List.foldlM_cons]
    refine (each value List.mem_cons_self state holds).bind fun next kept => ?_
    exact hypothesis kept fun value member => each value (List.mem_cons_of_mem _ member)

end Yields

namespace Store

variable {store : Store} {id source target : EntityId} {kind : Kind} {details : Details}
  {now : Instant}

/-! ### Primitive writes -/

theorem setField_yields {key : String} {value : Value} (known : store.hasEntity id = true) :
    Yields (store.setField id key value) fun after => after.condition? = store.condition? := by
  unfold setField
  rw [if_pos known]
  split <;> exact ⟨_, rfl, condition?_congr rfl⟩

theorem addMember_yields {list : String} {value : Value} (known : store.hasEntity id = true) :
    Yields (store.addMember id list value) fun added =>
      added.2.condition? = store.condition? := by
  unfold addMember
  rw [if_pos known]
  split <;> exact ⟨_, rfl, condition?_congr rfl⟩

theorem insertEdge_yields {association : Association} {credit : Option String}
    (sourceKnown : store.hasEntity source = true) (targetKnown : store.hasEntity target = true) :
    Yields (store.insertEdge association source target credit) fun linked =>
      linked.2.condition? = store.condition? := by
  unfold insertEdge
  rw [sourceKnown, targetKnown, Bool.and_true, if_pos rfl]
  split <;> exact ⟨_, rfl, condition?_congr rfl⟩

theorem repointEdges_yields {association : Association} (known : store.hasEntity target = true) :
    Yields (store.repointEdges association source target) fun moved =>
      moved.2.condition? = store.condition? := by
  unfold repointEdges
  dsimp only
  rw [if_pos known]
  split <;> exact ⟨_, rfl, condition?_congr rfl⟩

theorem tombstoneEntity_yields (known : store.hasEntity id = true) :
    Yields (store.tombstoneEntity id now) fun after =>
      ∀ other, after.condition? other = store.conditionWithout? id other := by
  have done : ∃ after, store.tombstoneEntity id now = .ok after := by
    unfold tombstoneEntity
    rw [if_pos known]
    exact ⟨_, rfl⟩
  obtain ⟨after, removed⟩ := done
  exact ⟨after, removed, condition?_tombstoneEntity removed⟩

theorem insertRedirect_yields (sourceKnown : store.hasEntity source = true)
    (targetKnown : store.hasEntity target = true) :
    Yields (store.insertRedirect source target now) fun after =>
      after.condition? = store.condition? := by
  unfold insertRedirect
  rw [sourceKnown, targetKnown, Bool.and_true, if_pos rfl]
  split <;> exact ⟨_, rfl, condition?_congr rfl⟩

/-! ### Writing what a side proposes -/

section Sides

variable (known : store.hasEntity id = true)

include known

theorem writeScalars_yields (scalars : List (String × Value)) :
    Yields (store.writeScalars id scalars) fun after => after.condition? = store.condition? := by
  refine .foldlM rfl fun entry _ state same => ?_
  have still : state.hasEntity id = true := (hasEntity_of_condition same id).trans known
  exact (setField_yields still).lift.mono fun after kept => kept.trans same

theorem writeList_yields (key : String) (change : ListChange Value) :
    Yields (store.writeList id key change) fun after => after.condition? = store.condition? := by
  refine .foldlM ?_ fun value _ state same => ?_
  · refine condition?_foldl (fun state value => ?_) change.removed store
    exact condition?_congr rfl
  · have still : state.hasEntity id = true := (hasEntity_of_condition same id).trans known
    exact (addMember_yields still).lift.map fun added kept => kept.trans same

theorem writeLists_yields (lists : List (String × ListChange Value)) :
    Yields (store.writeLists id lists) fun after => after.condition? = store.condition? := by
  refine .foldlM rfl fun entry _ state same => ?_
  have still : state.hasEntity id = true := (hasEntity_of_condition same id).trans known
  exact (writeList_yields still entry.1 entry.2).mono fun after kept => kept.trans same

theorem linkTag_yields {tag : EntityId} (there : store.hasEntity tag = true) :
    Yields (store.linkTag id tag) fun after => after.condition? = store.condition? :=
  (insertEdge_yields known there).lift.map fun _ same => same

theorem linkPerformer_yields {appearance : Appearance}
    (there : store.hasEntity appearance.performer = true) :
    Yields (store.linkPerformer id appearance) fun after =>
      after.condition? = store.condition? := by
  refine (insertEdge_yields known there).lift.bind fun linked same => ?_
  obtain ⟨isNew, after⟩ := linked
  cases isNew with
  | true => exact ⟨after, rfl, same⟩
  | false => exact ⟨_, rfl, (condition?_congr rfl).trans same⟩

theorem writeLinks_yields {tags : ListChange EntityId} {performers : ListChange Appearance}
    (tagsThere : ∀ tag ∈ tags.added, store.hasEntity tag = true)
    (performersThere : ∀ appearance ∈ performers.added,
      store.hasEntity appearance.performer = true) :
    Yields (store.writeLinks id tags performers) fun after =>
      after.condition? = store.condition? := by
  have tagging : Yields (tags.added.foldlM (fun store tag => store.linkTag id tag)
      (tags.removed.foldl (fun store tag => (store.deleteEdge .sceneTag id tag).2) store))
      fun after => after.condition? = store.condition? := by
    refine .foldlM ?_ fun tag added state same => ?_
    · refine condition?_foldl (fun state tag => ?_) tags.removed store
      exact condition?_congr rfl
    · have keeps := hasEntity_of_condition same
      exact (linkTag_yields ((keeps id).trans known)
        ((keeps tag).trans (tagsThere tag added))).mono fun after kept => kept.trans same
  refine tagging.bind fun tagged same => .foldlM ?_ fun appearance added state kept => ?_
  · refine (condition?_foldl (fun state appearance => ?_) performers.removed tagged).trans same
    exact condition?_congr rfl
  · have keeps := hasEntity_of_condition kept
    exact (linkPerformer_yields ((keeps id).trans known)
      ((keeps _).trans (performersThere appearance added))).mono fun after later => later.trans kept

theorem writeDetailLinks_yields
    (there : ∀ link, ∀ linked ∈ details.change.linked link, store.hasEntity linked = true) :
    Yields (store.writeDetailLinks id details) fun after =>
      after.condition? = store.condition? := by
  obtain ⟨kind, change⟩ := details
  cases kind with
  | scene =>
    refine writeLinks_yields known (fun tag added => ?_) fun appearance added => ?_
    · exact there .sceneTags tag (List.mem_map.mpr ⟨tag, added, rfl⟩)
    · exact there .scenePerformers _ (List.mem_map_of_mem added)
  | tag => exact ⟨store, rfl, rfl⟩
  | performer => exact ⟨store, rfl, rfl⟩
  | studio => exact ⟨store, rfl, rfl⟩

end Sides

/-! ### Creation, modification and removal -/

/-- **A record can be made** if its identifier is unused and what it refers to is there. -/
theorem create_succeeds (unused : store.hasEntity id = false)
    (checked : details.change.checkReferences store none = .ok ()) (kind : Kind) (now : Instant) :
    ∃ after, store.create id kind details now = .ok after := by
  obtain ⟨-, -, linked⟩ := Change.checkReferences_ok checked
  obtain ⟨inserted, insertion⟩ : ∃ inserted, store.insertEntity id kind now = .ok inserted := by
    unfold insertEntity
    rw [unused]
    exact ⟨_, rfl⟩
  obtain ⟨live, -, keeps⟩ := insertEntity_isLive insertion
  have parts : Yields (do
      let filled ← inserted.writeScalars id details.change.new.scalars
      let listed ← filled.writeLists id details.change.new.lists
      listed.writeDetailLinks id details) fun _ => True := by
    refine (writeScalars_yields live.hasEntity _).bind fun filled same => ?_
    have filledKeeps := hasEntity_of_condition same
    refine (writeLists_yields ((filledKeeps id).trans live.hasEntity) _).bind fun listed kept => ?_
    have listedKeeps := hasEntity_of_condition (kept.trans same)
    refine (writeDetailLinks_yields ((listedKeeps id).trans live.hasEntity) ?_).mono
      fun _ _ => trivial
    intro link record member
    exact (listedKeeps record).trans (keeps _ _ (linked link record member)).hasEntity
  obtain ⟨after, done, -⟩ := parts
  refine ⟨after, ?_⟩
  unfold create
  rw [checked, Except.bind_ok]
  refine ⟨(), rfl, ?_⟩
  rw [insertion]
  exact done

/-- **A record can be changed** if it is there, its fields hold what was found and what it is to refer
to is there. -/
theorem modify_yields (live : store.IsLive id kind)
    (found : store.checkFound id details.change = .ok ())
    (checked : details.change.checkReferences store (some id) = .ok ()) (now : Instant) :
    Yields (store.modify id kind details now) fun after =>
      after.condition? = store.condition? := by
  obtain ⟨-, -, linked⟩ := Change.checkReferences_ok checked
  have parts : Yields (do
      let filled ← store.writeScalars id details.change.new.scalars
      let listed ← (filled.clearDropped id details.change).writeLists id details.change.new.lists
      let linked ← listed.writeDetailLinks id details
      return (linked.keepCredits id details).touchEntity id now) fun _ => True := by
    refine (writeScalars_yields live.hasEntity _).bind fun filled same => ?_
    have cleared : (filled.clearDropped id details.change).condition? = store.condition? := by
      refine (condition?_congr ?_).trans same
      rw [clearDropped_frame]
    refine (writeLists_yields ((hasEntity_of_condition cleared id).trans live.hasEntity) _).bind
      fun listed kept => ?_
    have listedKeeps := hasEntity_of_condition (kept.trans cleared)
    refine (writeDetailLinks_yields ((listedKeeps id).trans live.hasEntity) ?_).bind
      fun linked _ => ⟨_, rfl, trivial⟩
    intro link record member
    exact (listedKeeps record).trans (linked link record member).hasEntity
  obtain ⟨after, done, -⟩ := parts
  have modified : store.modify id kind details now = .ok after := by
    have there : store.requireStillLive id kind = .ok () := requireStillLive_ok.mpr live
    unfold modify
    rw [there, found, checked]
    exact done
  exact ⟨after, modified, modify_condition? modified⟩

/-- **A record can be removed** if it is there. -/
theorem destroy_succeeds (live : store.IsLive id kind) (now : Instant) :
    ∃ after, store.destroy id kind now = .ok after := by
  have known : (if kind = .studio then store.detachStudio id now else store).hasEntity id = true := by
    split
    · rw [hasEntity_of_condition (detachStudio_condition? store id now), live.hasEntity]
    · exact live.hasEntity
  obtain ⟨after, removed, -⟩ := (tombstoneEntity_yields known).lift
  have there : store.requireStillLive id kind = .ok () := requireStillLive_ok.mpr live
  refine ⟨after, ?_⟩
  unfold destroy
  rw [there]
  exact removed

/-! ### Merging -/

/-- Redirecting what refers to a studio succeeds, because only records that exist refer to one. -/
theorem redirectStudio_yields (tidy : store.Tidy) :
    Yields (store.redirectStudio source target now) fun after =>
      after.condition? = store.condition? := by
  have each : ∀ key, ∀ state : Store, state.Tidy ∧ state.condition? = store.condition? →
      Yields ((state.referrers key source).foldlM (redirectReferrer target key now) state)
        fun after => after.Tidy ∧ after.condition? = store.condition? := by
    rintro key state ⟨stateTidy, stateSame⟩
    have redirecting : Yields
        ((state.referrers key source).foldlM (redirectReferrer target key now) state)
        fun after => after.condition? = state.condition? := by
      refine .foldlM rfl fun referrer listed current same => ?_
      obtain ⟨row, stored, -, rfl⟩ := mem_referrers.mp listed
      have known : current.hasEntity row.entity = true :=
        (hasEntity_of_condition same _).trans (stateTidy.fieldOwners row stored)
      unfold redirectReferrer
      split
      · exact ⟨_, rfl, (condition?_touchEntity _ _ now).trans ((condition?_congr rfl).trans same)⟩
      · refine (setField_yields known).lift.bind fun given kept => ?_
        exact ⟨_, rfl, (condition?_touchEntity given _ now).trans (kept.trans same)⟩
    obtain ⟨after, done, same⟩ := redirecting
    have written := (IsWrite.foldlM (redirectReferrer_isWrite target key now)
      (state.referrers key source)).written done
    exact ⟨after, done, written.tidy stateTidy, same.trans stateSame⟩
  exact (Yields.foldlM ⟨tidy, rfl⟩ fun key _ state holds => each key state holds).mono
    fun _ holds => holds.2

theorem moveReferences_yields (tidy : store.Tidy) (known : store.hasEntity target = true) :
    Yields (store.moveReferences source target kind details now) fun after =>
      after.condition? = store.condition? := by
  cases kind with
  | tag => exact (repointEdges_yields known).lift.map fun _ same => same
  | performer =>
    have credited : (if keepsNames details then store.creditSourceName source target
        else store).condition? = store.condition? := by
      split
      · exact creditSourceName_condition? store source target
      · rfl
    have still := (hasEntity_of_condition credited target).trans known
    exact (repointEdges_yields still).lift.map fun _ same => same.trans credited
  | studio => exact redirectStudio_yields tidy
  | scene => exact ⟨store, rfl, rfl⟩

theorem mergeSource_succeeds (tidy : store.Tidy) (live : store.IsLive source kind)
    (known : store.hasEntity target = true) (details : Details) (now : Instant) :
    ∃ after, store.mergeSource source target kind details now = .ok after := by
  have parts : Yields (do
      let moved ← store.moveReferences source target kind details now
      let removed ← lift (moved.tombstoneEntity source now)
      lift (removed.insertRedirect source target now)) fun _ => True := by
    refine (moveReferences_yields tidy known).bind fun moved same => ?_
    have movedKeeps := hasEntity_of_condition same
    refine (tombstoneEntity_yields ((movedKeeps source).trans live.hasEntity)).lift.bind
      fun removed without => ?_
    have removedKeeps := hasEntity_without without
    have sourceKnown := (removedKeeps source).trans ((movedKeeps source).trans live.hasEntity)
    have targetKnown := (removedKeeps target).trans ((movedKeeps target).trans known)
    exact (insertRedirect_yields sourceKnown targetKnown).lift.mono fun _ _ => trivial
  obtain ⟨after, done, -⟩ := parts
  have there : store.requireStillLive source kind = .ok () := requireStillLive_ok.mpr live
  refine ⟨after, ?_⟩
  unfold mergeSource
  rw [there]
  exact done

/-- Merging some records succeeds if each is there and none is listed twice: each merge removes only
the record that is merged. -/
theorem mergeSources_succeeds {sources : List EntityId} (tidy : store.Tidy)
    (known : store.hasEntity target = true) (distinct : sources.Nodup)
    (there : ∀ source ∈ sources, store.IsLive source kind) (details : Details) (now : Instant) :
    ∃ after, sources.foldlM
      (fun store source => store.mergeSource source target kind details now) store = .ok after := by
  induction sources generalizing store with
  | nil => exact ⟨store, rfl⟩
  | cons source rest hypothesis =>
    obtain ⟨once, others⟩ := List.nodup_cons.mp distinct
    obtain ⟨live, later⟩ := List.forall_mem_cons.mp there
    obtain ⟨merged, merging⟩ := mergeSource_succeeds tidy live known details now
    have without := mergeSource_condition? merging
    have mergedTidy := ((mergeSource_isWrite _ _ _ _ _).written merging).tidy tidy
    obtain ⟨after, done⟩ := hypothesis mergedTidy ((hasEntity_without without target).trans known)
      others fun other member => (isLive_without without).mpr
        ⟨ne_of_mem_of_not_mem member once, later other member⟩
    refine ⟨after, ?_⟩
    rw [List.foldlM_cons, merging]
    exact done

/-- **Records can be merged** into one that can be changed. -/
theorem merge_succeeds {sources : List EntityId} (tidy : store.Tidy)
    (live : store.IsLive target kind) (found : store.checkFound target details.change = .ok ())
    (checked : details.change.checkReferences store (some target) = .ok ())
    (distinct : sources.Nodup) (there : ∀ source ∈ sources, store.IsLive source kind)
    (now : Instant) : ∃ after, store.merge target sources kind details now = .ok after := by
  obtain ⟨modified, modifying, same⟩ := modify_yields live found checked now
  have modifiedTidy := ((modify_isWrite _ _ _ _).written modifying).tidy tidy
  obtain ⟨after, merging⟩ := mergeSources_succeeds modifiedTidy
    ((hasEntity_of_condition same target).trans live.hasEntity) distinct
    (fun source member => (isLive_of_condition same).mpr (there source member)) details now
  refine ⟨after, ?_⟩
  unfold merge
  rw [modifying]
  exact merging

end Store

end Curation
