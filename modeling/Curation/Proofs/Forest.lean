/-
**Redirects form a forest.** A record is redirected when it has been merged, which removes it, and
it is redirected to a record that is there. No redirect is ever added to a record that has one, or
leads back to a record that was passed, so that every walk along redirects ends.

* `Store.Preserves`: what every write does that adds no redirect;
* `Store.Forest`: the shape of the redirects, and `Edit.apply_forest`: an application keeps it;
* `Desk.run_redirects`: where redirects lead after every run, and what both walks along them find.
-/

import Curation.Proofs.Integrity
import Curation.Proofs.Redirection

namespace Curation

namespace Store

open Relation (TransGen)

variable {store middle after : Store} {id source target : EntityId} {kind : Kind}
  {details : Details} {now : Instant}

/-! ### What other writes preserve -/

/-- Records keep their kind, and stay removed once they are; redirects are the same. -/
structure Preserves (first second : Store) : Prop where
  records : ∀ id row, first.entity? id = some row → ∃ later, second.entity? id = some later ∧
    later.kind = row.kind ∧ (row.deleted = true → later.deleted = true)
  redirects : second.redirects = first.redirects

namespace Preserves

theorem of_eq (entities : after.entities = store.entities)
    (redirects : after.redirects = store.redirects) : store.Preserves after where
  records id row found := ⟨row, (entity?_congr entities id).trans found, rfl, fun removed => removed⟩
  redirects := redirects

theorem refl (store : Store) : store.Preserves store := of_eq rfl rfl

theorem trans (left : store.Preserves middle) (right : middle.Preserves after) :
    store.Preserves after where
  records id row found := by
    obtain ⟨between, foundBetween, kindBetween, removedBetween⟩ := left.records id row found
    obtain ⟨later, foundLater, kindLater, removedLater⟩ := right.records id between foundBetween
    exact ⟨later, foundLater, kindLater.trans kindBetween,
      fun removed => removedLater (removedBetween removed)⟩
  redirects := right.redirects.trans left.redirects

theorem foldl {α : Type} {write : Store → α → Store}
    (each : ∀ (store : Store) value, store.Preserves (write store value)) (values : List α)
    (store : Store) : store.Preserves (values.foldl write store) :=
  List.foldlRecOn (motive := store.Preserves) values write (refl store)
    (fun state earlier value _ => earlier.trans (each state value))

theorem foldlM {ε α : Type} {write : Store → α → Except ε Store} {values : List α}
    (each : ∀ (state next : Store) value, write state value = .ok next → state.Preserves next)
    (done : values.foldlM write store = .ok after) : store.Preserves after :=
  Except.foldlM_keeps store.Preserves values
    (fun value _ state next earlier written => earlier.trans (each state next value written))
    (refl store) done

end Preserves

theorem insertEntity_preserves (done : store.insertEntity id kind now = .ok after) :
    store.Preserves after := by
  obtain ⟨unused, frame⟩ := insertEntity_frame done
  refine ⟨fun other row found => ⟨row, ?_, rfl, fun removed => removed⟩, by rw [frame]⟩
  have different : other ≠ id := by
    rintro rfl
    rw [← entity?_isSome, found] at unused
    cases unused
  rw [entity?_insertEntity done, if_neg different, found]

theorem touchEntity_preserves (store : Store) (id : EntityId) (now : Instant) :
    store.Preserves (store.touchEntity id now) := by
  refine ⟨fun other row found => ?_, rfl⟩
  rw [entity?_touchEntity, found]
  refine ⟨_, rfl, ?_⟩
  split
  · exact ⟨rfl, fun removed => removed⟩
  · exact ⟨rfl, fun removed => removed⟩

theorem tombstoneEntity_preserves (done : store.tombstoneEntity id now = .ok after) :
    store.Preserves after := by
  refine ⟨fun other row found => ?_, by rw [tombstoneEntity_frame done]⟩
  rw [entity?_tombstoneEntity done, found]
  refine ⟨_, rfl, ?_⟩
  split
  · exact ⟨rfl, fun _ => rfl⟩
  · exact ⟨rfl, fun removed => removed⟩

theorem create_preserves (done : store.create id kind details now = .ok after) :
    store.Preserves after := by
  obtain ⟨inserted, filled, listed, -, insertion, filling, listing, linking⟩ := create_split done
  refine (insertEntity_preserves insertion).trans (.of_eq ?_ ?_)
  · rw [writeDetailLinks_frame linking, writeLists_frame listing, writeScalars_frame filling]
  · rw [writeDetailLinks_frame linking, writeLists_frame listing, writeScalars_frame filling]

theorem creditOldName_preserves (store : Store) (performer : EntityId)
    (change : Change .performer) : store.Preserves (store.creditOldName performer change) := by
  unfold creditOldName
  split
  · split
    · exact .refl store
    · refine .foldl (fun state edge => ?_) _ _
      unfold creditOldNameOn
      split
      · exact .of_eq rfl rfl
      · split
        · exact .of_eq rfl rfl
        · exact .refl state
  · exact .refl store

theorem keepCredits_preserves (store : Store) (id : EntityId) (details : Details) :
    store.Preserves (store.keepCredits id details) := by
  obtain ⟨kind, change⟩ := details
  cases kind with
  | performer =>
    show store.Preserves (if change.modifyAliases then store.creditOldName id change else store)
    split
    · exact creditOldName_preserves store id change
    · exact .refl store
  | tag => exact .refl store
  | studio => exact .refl store
  | scene => exact .refl store

theorem modify_preserves (done : store.modify id kind details now = .ok after) :
    store.Preserves after := by
  obtain ⟨filled, listed, linked, -, filling, listing, linking, rfl⟩ := modify_split done
  have written : store.Preserves linked := by
    refine .of_eq ?_ ?_
    · rw [writeDetailLinks_frame linking, writeLists_frame listing, clearDropped_frame,
        writeScalars_frame filling]
    · rw [writeDetailLinks_frame linking, writeLists_frame listing, clearDropped_frame,
        writeScalars_frame filling]
  exact written.trans ((keepCredits_preserves linked id details).trans
    (touchEntity_preserves _ id now))

theorem detachStudio_preserves (store : Store) (studio : EntityId) (now : Instant) :
    store.Preserves (store.detachStudio studio now) := by
  refine .foldl (fun state key => .foldl (fun current referrer => ?_) _ _) _ _
  have cleared : current.Preserves (current.clearField referrer key) := .of_eq rfl rfl
  exact cleared.trans (touchEntity_preserves _ referrer now)

theorem destroy_preserves (done : store.destroy id kind now = .ok after) :
    store.Preserves after := by
  obtain ⟨_, -, removal⟩ := Except.bind_ok.mp done
  refine .trans ?_ (tombstoneEntity_preserves (Store.lift_ok.mp removal))
  split
  · exact detachStudio_preserves store id now
  · exact .refl store

theorem redirectReferrer_preserves {referrer : EntityId} {key : String}
    (done : redirectReferrer target key now store referrer = .ok after) :
    store.Preserves after := by
  unfold redirectReferrer at done
  split at done
  · cases done
    have cleared : store.Preserves (store.clearField referrer key) := .of_eq rfl rfl
    exact cleared.trans (touchEntity_preserves _ referrer now)
  · obtain ⟨given, setting, finish⟩ := Except.bind_ok.mp done
    cases finish
    have frame := (setField_frame (Store.lift_ok.mp setting)).1
    have set : store.Preserves given := .of_eq (by rw [frame]) (by rw [frame])
    exact set.trans (touchEntity_preserves given referrer now)

theorem creditSourceName_preserves (store : Store) (source target : EntityId) :
    store.Preserves (store.creditSourceName source target) := by
  refine .foldl (fun state edge => ?_) _ _
  unfold creditSourceNameOn
  dsimp only
  split
  · exact .of_eq rfl rfl
  · split
    · exact .of_eq rfl rfl
    · exact .refl state

theorem moveReferences_preserves
    (done : store.moveReferences source target kind details now = .ok after) :
    store.Preserves after := by
  have repointed {association : Association} {named final : Store}
      (moving : (lift (named.repointEdges association source target)).map Prod.snd = .ok final) :
      named.Preserves final := by
    obtain ⟨⟨moved, result⟩, lifted, rfl⟩ := Except.map_ok.mp moving
    have frame := repointEdges_frame (Store.lift_ok.mp lifted)
    exact .of_eq (by rw [frame]) (by rw [frame])
  cases kind with
  | tag => exact repointed done
  | performer =>
    refine .trans ?_ (repointed done)
    split
    · exact creditSourceName_preserves store source target
    · exact .refl store
  | studio =>
    refine .foldlM (fun state next key redirected => ?_) done
    exact .foldlM (fun current following referrer => redirectReferrer_preserves) redirected
  | scene =>
    cases done
    exact .refl store

/-! ### Forests -/

/-- A redirect leads from a removed record to a record of the same kind. -/
def JoinsKind (store : Store) (source target : EntityId) : Prop :=
  ∃ first second, store.entity? source = some first ∧ store.entity? target = some second ∧
    first.deleted = true ∧ first.kind = second.kind

/-- Redirects lead from removed records to records of the same kind, at most one from each, and
nowhere in a circle: some rank grows along all of them. -/
structure Forest (store : Store) : Prop where
  ends : ∀ row ∈ store.redirects, store.JoinsKind row.source row.target
  distinct : (store.redirects.map Redirect.source).Nodup
  ranked : ∃ rank : EntityId → ℕ, ∀ row ∈ store.redirects, rank row.source < rank row.target

namespace Forest

theorem empty : Store.empty.Forest where
  ends _ member := (nomatch member)
  distinct := List.nodup_nil
  ranked := ⟨fun _ => 0, fun _ member => (nomatch member)⟩

theorem mono (forest : store.Forest) (preserves : store.Preserves after) : after.Forest where
  ends row member := by
    rw [preserves.redirects] at member
    obtain ⟨first, second, foundFirst, foundSecond, removed, sameKind⟩ := forest.ends row member
    obtain ⟨source, foundSource, sourceKind, stays⟩ := preserves.records _ first foundFirst
    obtain ⟨target, foundTarget, targetKind, -⟩ := preserves.records _ second foundSecond
    exact ⟨source, target, foundSource, foundTarget, stays removed,
      sourceKind.trans (sameKind.trans targetKind.symm)⟩
  distinct := by
    rw [preserves.redirects]
    exact forest.distinct
  ranked := by
    rw [preserves.redirects]
    exact forest.ranked

/-- A live record is not redirected. -/
theorem unredirected (forest : store.Forest) (live : store.IsLive id kind) :
    ∀ row ∈ store.redirects, row.source ≠ id := by
  rintro row member rfl
  obtain ⟨first, -, foundFirst, -, removed, -⟩ := forest.ends row member
  obtain ⟨same, found, -, kept⟩ := live
  rw [foundFirst] at found
  cases found
  rw [removed] at kept
  cases kept

/-- **One more redirect**, to a live record from one that has none. The rank of the target is raised
above that of the source; no redirect starts at the target, so that no other has to grow. -/
theorem insertRedirect (forest : store.Forest) (live : store.IsLive target kind)
    (unredirected : ∀ row ∈ store.redirects, row.source ≠ source)
    (joins : store.JoinsKind source target) (apart : source ≠ target)
    (done : store.insertRedirect source target now = .ok after) : after.Forest := by
  have frame : after = { store with redirects := store.redirects ++ [⟨source, target, now⟩] } := by
    have new : store.redirects.any (fun row => row.source = source) = false := by
      rw [List.any_eq_false]
      intro row member
      simpa using unredirected row member
    unfold Store.insertRedirect at done
    rw [new] at done
    split at done
    · cases done
      rfl
    · cases done
  obtain ⟨rank, grows⟩ := forest.ranked
  subst frame
  refine ⟨fun row member => ?_, ?_, Function.update rank target (max (rank target) (rank source + 1)),
    fun row member => ?_⟩
  · rcases List.mem_append.mp member with earlier | added
    · exact forest.ends row earlier
    · rw [List.mem_singleton.mp added]
      exact joins
  · show ((store.redirects ++ [_]).map Redirect.source).Nodup
    rw [List.map_append, List.map_singleton, List.nodup_append']
    refine ⟨forest.distinct, List.nodup_singleton _, fun id listed same => ?_⟩
    obtain ⟨row, member, rfl⟩ := List.mem_map.mp listed
    exact unredirected row member (List.mem_singleton.mp same)
  · rcases List.mem_append.mp member with earlier | added
    · have fixed := forest.unredirected live row earlier
      rw [Function.update_of_ne fixed]
      by_cases raised : row.target = target
      · have lower := grows row earlier
        rw [raised, Function.update_self]
        rw [raised] at lower
        omega
      · rw [Function.update_of_ne raised]
        exact grows row earlier
    · rw [List.mem_singleton.mp added]
      show Function.update rank target _ source < Function.update rank target _ target
      rw [Function.update_of_ne apart, Function.update_self]
      omega

end Forest

/-- **The merge of one source adds one redirect to a forest.** -/
theorem mergeSource_forest (forest : store.Forest) (sound : store.Sound)
    (live : store.IsLive target kind) (apart : source ≠ target)
    (done : store.mergeSource source target kind details now = .ok after) : after.Forest := by
  obtain ⟨_, there, done⟩ := Except.bind_ok.mp done
  obtain ⟨moved, moving, done⟩ := Except.bind_ok.mp done
  obtain ⟨removed, removing, redirecting⟩ := Except.bind_ok.mp done
  have sourceLive := requireStillLive_ok.mp there
  obtain ⟨⟨-, movedLive⟩, -⟩ := moveReferences_sound sound sourceLive live apart moving
  have movedPreserves := moveReferences_preserves moving
  have preserves := movedPreserves.trans (tombstoneEntity_preserves (Store.lift_ok.mp removing))
  have targetLive := (isLive_tombstoneEntity (Store.lift_ok.mp removing)).mpr
    ⟨apart.symm, movedLive _ _ live⟩
  refine (forest.mono preserves).insertRedirect targetLive ?_ ?_ apart
    (Store.lift_ok.mp redirecting)
  · rw [preserves.redirects]
    exact forest.unredirected sourceLive
  · obtain ⟨row, found, sameKind, -⟩ := movedLive _ _ sourceLive
    obtain ⟨targetRow, targetFound, targetKind, -⟩ := targetLive
    have removedRow := entity?_tombstoneEntity (Store.lift_ok.mp removing) source
    rw [found, Option.map_some, if_pos rfl] at removedRow
    exact ⟨_, targetRow, removedRow, targetFound, rfl, sameKind.trans targetKind.symm⟩

theorem merge_forest {sources : List EntityId} (forest : store.Forest) (sound : store.Sound)
    (same : details.kind = kind) (admitted : details.change.IsAdmitted) (apart : target ∉ sources)
    (done : store.merge target sources kind details now = .ok after) : after.Forest := by
  obtain ⟨modified, modifying, merging⟩ := Except.bind_ok.mp done
  have start := modify_sound sound same admitted modifying
  have every := Except.foldlM_keeps
    (fun state : Store => (state.Sound ∧ state.IsLive target kind) ∧ state.Forest) sources ?_
    ⟨start, forest.mono (modify_preserves modifying)⟩ merging
  · exact every.2
  · rintro source member state next ⟨⟨stateSound, stateLive⟩, stateForest⟩ merged
    have distinct : source ≠ target := fun same => apart (same ▸ member)
    exact ⟨mergeSource_sound stateSound stateLive distinct merged,
      mergeSource_forest stateForest stateSound stateLive distinct merged⟩

/-! ### Walks in a forest -/

theorem redirects_of_mem (distinct : (store.redirects.map Redirect.source).Nodup) {row : Redirect}
    (member : row ∈ store.redirects) : store.Redirects row.source row.target := by
  have listed : row.source ∈ store.redirectsTo row.target := by
    refine List.mem_map_of_mem (mem_sortBy.mpr (List.mem_filter.mpr ⟨member, ?_⟩))
    exact decide_eq_true rfl
  exact (mem_redirectsTo distinct).mp listed

theorem Redirects.row (redirects : store.Redirects source target) :
    ∃ row ∈ store.redirects, row.source = source ∧ row.target = target := by
  obtain ⟨row, looked, leads⟩ := Option.map_eq_some_iff.mp redirects
  have starts := List.find?_some looked
  exact ⟨row, List.mem_of_find?_eq_some looked, of_decide_eq_true starts, leads⟩

/-- No record of a forest leads round to itself. -/
theorem Forest.no_circle (forest : store.Forest) (id : EntityId) :
    ¬ TransGen store.Redirects id id := by
  obtain ⟨rank, grows⟩ := forest.ranked
  have oneStep {first second : EntityId} (step : store.Redirects first second) :
      rank first < rank second := by
    obtain ⟨row, member, rfl, rfl⟩ := step.row
    exact grows row member
  have climbs {last : EntityId} (walk : TransGen store.Redirects id last) : rank id < rank last := by
    induction walk with
    | single step => exact oneStep step
    | tail earlier step hypothesis => exact hypothesis.trans (oneStep step)
  exact fun circle => (climbs circle).false

/-- A record of a forest leads to records of its kind only. -/
theorem Forest.leadsTo_kind (forest : store.Forest) {row : EntityRow}
    (found : store.entity? id = some row) (leads : store.LeadsTo id target) :
    ∃ last, store.entity? target = some last ∧ last.kind = row.kind := by
  induction leads with
  | refl => exact ⟨row, found, rfl⟩
  | tail earlier step hypothesis =>
    obtain ⟨between, foundBetween, sameKind⟩ := hypothesis
    obtain ⟨redirect, member, rfl, rfl⟩ := step.row
    obtain ⟨first, second, foundFirst, foundSecond, -, joined⟩ := forest.ends redirect member
    rw [foundBetween] at foundFirst
    cases foundFirst
    exact ⟨second, foundSecond, joined.symm.trans sameKind⟩

end Store

/-! ### Edits and runs -/

/-- **The application of a proper edit keeps a forest.** -/
theorem Edit.apply_forest {edit : Edit} {fresh target : EntityId} {now : Instant}
    {store after : Store} (forest : store.Forest) (sound : store.Sound) (proper : edit.Proper)
    (applied : edit.apply fresh now store = .ok (target, after)) : after.Forest := by
  have writes := Edit.apply_ok.mp applied
  split at writes
  all_goals obtain ⟨aims, done⟩ := writes
  · exact forest.mono (Store.create_preserves done)
  · exact forest.mono (Store.modify_preserves done)
  · exact forest.mono (Store.destroy_preserves done)
  · exact Store.merge_forest forest sound proper.kind proper.admitted (proper.sources target aims)
      done

theorem Store.SameCatalogue.preserves {first second : Store} (same : first.SameCatalogue second) :
    first.Preserves second := by
  rw [same]
  exact .of_eq rfl rfl

namespace Desk

open Relation (TransGen)

/-- The redirects of every store that can be reached form a forest. -/
theorem run_forest (desk : Desk) (calls : List (Instant × Call)) :
    (desk.run calls).store.Forest := by
  refine desk.run_catalogue calls .empty (fun same forest => forest.mono same.preserves) ?_
  intro edit fresh target now store after sound proper forest applied
  exact edit.apply_forest forest sound proper applied

/-- **Redirects form a forest after every run, and both walks along them agree on it.** Each
redirect leads from a removed record to a record of its kind, no record has two, and none leads
round to itself. From every record the redirects lead to one that has none, which is what the walk
forward finds, unless the record has none itself; a stored record ends at one of its kind. The walk
back from a record finds, once each, the others whose redirects lead to it. -/
theorem run_redirects (desk : Desk) (calls : List (Instant × Call)) :
    (∀ row ∈ (desk.run calls).store.redirects,
      (desk.run calls).store.JoinsKind row.source row.target ∧
        (desk.run calls).store.Redirects row.source row.target) ∧
    (∀ id, ¬ TransGen (desk.run calls).store.Redirects id id) ∧
    (∀ id, ∃ last, (desk.run calls).store.LeadsTo id last ∧
      (desk.run calls).store.redirect? last = none ∧
      (desk.run calls).store.mergedInto id =
        .ok (((desk.run calls).store.redirect? id).map fun _ => last) ∧
      ∀ row, (desk.run calls).store.entity? id = some row →
        ∃ final, (desk.run calls).store.entity? last = some final ∧ final.kind = row.kind) ∧
    (∀ target, ((desk.run calls).store.mergedIds target).Nodup ∧
      ∀ id, id ∈ (desk.run calls).store.mergedIds target ↔
        id ≠ target ∧ (desk.run calls).store.LeadsTo id target) := by
  have forest := desk.run_forest calls
  refine ⟨fun row member => ⟨forest.ends row member, Store.redirects_of_mem forest.distinct member⟩,
    forest.no_circle, fun id => ?_, Store.mergedIds_spec forest.distinct⟩
  rcases (desk.run calls).store.mergedInto_spec id with
    ⟨last, found, leads, final⟩ | ⟨again, -, -, circle⟩
  · exact ⟨last, leads, final, found, fun row stored => forest.leadsTo_kind stored leads⟩
  · exact absurd circle (forest.no_circle again)

end Desk

end Curation
