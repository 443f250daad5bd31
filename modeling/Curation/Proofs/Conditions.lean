/-
**Which records there are.** A record has a kind, and it is there or has been removed. Making a record
adds one, and removing and merging remove some; no other part of an application adds, loses, removes
or restores any.

* `Store.condition?`: the kind of a record, and whether it was removed;
* `Store.modify_condition?`, `Store.moveReferences_condition?`: what leaves all records as they are;
* `Store.mergeSource_condition?`, `Store.destroy_condition?`: what removes one;
* `Edit.apply_hasEntity`: what makes one.
-/

import Curation.Proofs.Locality

namespace Curation

namespace Store

variable {store after : Store} {id source target : EntityId} {kind : Kind} {details : Details}
  {now : Instant}

/-- The kind of a record, and whether it was removed. -/
def condition? (store : Store) (id : EntityId) : Option (Kind × Bool) :=
  (store.entity? id).map fun row => (row.kind, row.deleted)

/-- The condition of records when one of them has been removed. -/
def conditionWithout? (store : Store) (removed id : EntityId) : Option (Kind × Bool) :=
  (store.condition? id).map fun condition =>
    if id = removed then (condition.1, true) else condition

theorem isLive_iff : store.IsLive id kind ↔ store.condition? id = some (kind, false) := by
  unfold IsLive condition?
  rw [Option.map_eq_some_iff]
  simp only [Prod.mk.injEq]

theorem hasEntity_eq (store : Store) (id : EntityId) :
    store.hasEntity id = (store.condition? id).isSome := by
  rw [condition?, Option.isSome_map, entity?_isSome]

theorem isLive_of_condition {first second : Store} (same : second.condition? = first.condition?) :
    second.IsLive id kind ↔ first.IsLive id kind := by
  rw [isLive_iff, isLive_iff, same]

theorem hasEntity_of_condition {first second : Store}
    (same : second.condition? = first.condition?) (id : EntityId) :
    second.hasEntity id = first.hasEntity id := by
  rw [hasEntity_eq, hasEntity_eq, same]

/-- A record that is live stays so unless it is removed. -/
theorem isLive_without (removed : ∀ other, after.condition? other = store.conditionWithout? source other) :
    after.IsLive id kind ↔ id ≠ source ∧ store.IsLive id kind := by
  rw [isLive_iff, isLive_iff, removed, conditionWithout?]
  cases store.condition? id with
  | none => simp
  | some condition =>
    by_cases same : id = source <;> simp [same]

theorem hasEntity_without
    (removed : ∀ other, after.condition? other = store.conditionWithout? source other)
    (id : EntityId) : after.hasEntity id = store.hasEntity id := by
  rw [hasEntity_eq, hasEntity_eq, removed, conditionWithout?, Option.isSome_map]

/-! ### Primitive writes -/

theorem condition?_congr {first second : Store} (entities : second.entities = first.entities) :
    second.condition? = first.condition? := by
  funext id
  unfold condition?
  rw [entity?_congr entities]

theorem condition?_touchEntity (store : Store) (touched : EntityId) (now : Instant) :
    (store.touchEntity touched now).condition? = store.condition? := by
  funext id
  unfold condition?
  rw [entity?_touchEntity, Option.map_map]
  refine Option.map_congr fun row _ => ?_
  rw [Function.comp_apply]
  split <;> rfl

theorem condition?_tombstoneEntity (done : store.tombstoneEntity target now = .ok after)
    (id : EntityId) : after.condition? id = store.conditionWithout? target id := by
  unfold conditionWithout? condition?
  rw [entity?_tombstoneEntity done, Option.map_map, Option.map_map]
  refine Option.map_congr fun row _ => ?_
  rw [Function.comp_apply, Function.comp_apply]
  split <;> rfl

theorem condition?_foldl {α : Type} {write : Store → α → Store}
    (each : ∀ (state : Store) value, (write state value).condition? = state.condition?)
    (values : List α) (store : Store) : (values.foldl write store).condition? = store.condition? :=
  List.foldlRecOn (motive := fun state => state.condition? = store.condition?) values write rfl
    fun state same value _ => (each state value).trans same

theorem condition?_foldlM {ε α : Type} {write : Store → α → Except ε Store} {values : List α}
    (each : ∀ (state next : Store) value, write state value = .ok next →
      next.condition? = state.condition?)
    (done : values.foldlM write store = .ok after) : after.condition? = store.condition? :=
  Except.foldlM_keeps (fun state => state.condition? = store.condition?) values
    (fun value _ state next same written => (each state next value written).trans same) rfl done

/-! ### The operations on records -/

theorem create_condition? (done : store.create target kind details now = .ok after)
    (id : EntityId) :
    after.condition? id = if id = target then some (kind, false) else store.condition? id := by
  obtain ⟨inserted, filled, listed, -, insertion, filling, listing, linking⟩ := create_split done
  have same : after.condition? = inserted.condition? := by
    refine condition?_congr ?_
    rw [writeDetailLinks_frame linking, writeLists_frame listing, writeScalars_frame filling]
  rw [same, condition?, entity?_insertEntity insertion]
  split <;> rfl

theorem keepCredits_condition? (store : Store) (id : EntityId) (details : Details) :
    (store.keepCredits id details).condition? = store.condition? := by
  unfold keepCredits
  split
  · split
    · unfold creditOldName
      split
      · split
        · rfl
        · refine condition?_foldl (fun state edge => ?_) _ _
          unfold creditOldNameOn
          split
          · exact condition?_congr rfl
          · split
            · exact condition?_congr rfl
            · rfl
      · rfl
    · rfl
  · rfl

theorem modify_condition? (done : store.modify target kind details now = .ok after) :
    after.condition? = store.condition? := by
  obtain ⟨filled, listed, linked, -, filling, listing, linking, rfl⟩ := modify_split done
  rw [condition?_touchEntity, keepCredits_condition?]
  refine condition?_congr ?_
  rw [writeDetailLinks_frame linking, writeLists_frame listing, clearDropped_frame,
    writeScalars_frame filling]

theorem detachStudio_condition? (store : Store) (studio : EntityId) (now : Instant) :
    (store.detachStudio studio now).condition? = store.condition? := by
  refine condition?_foldl (fun state key => condition?_foldl (fun current referrer => ?_) _ _) _ _
  rw [detachReferrer, condition?_touchEntity]
  exact condition?_congr rfl

theorem destroy_condition? (done : store.destroy target kind now = .ok after) (id : EntityId) :
    after.condition? id = store.conditionWithout? target id := by
  obtain ⟨_, -, removal⟩ := Except.bind_ok.mp done
  have same : (if kind = .studio then store.detachStudio target now else store).condition? =
      store.condition? := by
    split
    · exact detachStudio_condition? store target now
    · rfl
  rw [condition?_tombstoneEntity (Store.lift_ok.mp removal), conditionWithout?, conditionWithout?,
    same]

theorem redirectReferrer_condition? {referrer : EntityId} {key : String}
    (done : redirectReferrer target key now store referrer = .ok after) :
    after.condition? = store.condition? := by
  unfold redirectReferrer at done
  split at done
  · cases done
    rw [condition?_touchEntity]
    exact condition?_congr rfl
  · obtain ⟨given, setting, finish⟩ := Except.bind_ok.mp done
    cases finish
    rw [condition?_touchEntity]
    refine condition?_congr ?_
    rw [(setField_frame (Store.lift_ok.mp setting)).1]

theorem creditSourceName_condition? (store : Store) (source target : EntityId) :
    (store.creditSourceName source target).condition? = store.condition? := by
  refine condition?_foldl (fun state edge => ?_) _ _
  unfold creditSourceNameOn
  split
  · exact condition?_congr rfl
  · split
    · exact condition?_congr rfl
    · rfl

theorem moveReferences_condition?
    (done : store.moveReferences source target kind details now = .ok after) :
    after.condition? = store.condition? := by
  cases kind with
  | tag =>
    obtain ⟨⟨moved, repointed⟩, lifted, rfl⟩ := Except.map_ok.mp done
    refine condition?_congr ?_
    rw [repointEdges_frame (Store.lift_ok.mp lifted)]
  | performer =>
    obtain ⟨⟨moved, repointed⟩, lifted, rfl⟩ := Except.map_ok.mp done
    have same : repointed.condition? = (if keepsNames details
        then store.creditSourceName source target else store).condition? :=
      condition?_congr (by rw [repointEdges_frame (Store.lift_ok.mp lifted)])
    show repointed.condition? = _
    rw [same]
    split
    · exact creditSourceName_condition? store source target
    · rfl
  | studio =>
    exact condition?_foldlM (fun state next key redirected =>
      condition?_foldlM (fun _ _ _ => redirectReferrer_condition?) redirected) done
  | scene =>
    cases done
    rfl

theorem mergeSource_condition?
    (done : store.mergeSource source target kind details now = .ok after) (id : EntityId) :
    after.condition? id = store.conditionWithout? source id := by
  obtain ⟨_, -, done⟩ := Except.bind_ok.mp done
  obtain ⟨moved, moving, done⟩ := Except.bind_ok.mp done
  obtain ⟨removed, removing, redirecting⟩ := Except.bind_ok.mp done
  have same : after.condition? = removed.condition? := by
    refine condition?_congr ?_
    rw [(insertRedirect_frame (Store.lift_ok.mp redirecting)).1]
  rw [same, condition?_tombstoneEntity (Store.lift_ok.mp removing), conditionWithout?,
    moveReferences_condition? moving]
  rfl

theorem merge_hasEntity {sources : List EntityId}
    (done : store.merge target sources kind details now = .ok after) (id : EntityId) :
    after.hasEntity id = store.hasEntity id := by
  obtain ⟨modified, modifying, merging⟩ := Except.bind_ok.mp done
  refine Except.foldlM_keeps (fun state => state.hasEntity id = store.hasEntity id) sources ?_
    (hasEntity_of_condition (modify_condition? modifying) id) merging
  exact fun _ _ _ _ same merged => (hasEntity_without (mergeSource_condition? merged) id).trans same

end Store

/-- **An application makes no record but the one for which it is given an identifier.** -/
theorem Edit.apply_hasEntity {edit : Edit} {fresh target id : EntityId} {now : Instant}
    {store after : Store} (applied : edit.apply fresh now store = .ok (target, after))
    (found : after.hasEntity id = true) : id = fresh ∨ store.hasEntity id = true := by
  have writes := Edit.apply_ok.mp applied
  split at writes
  all_goals obtain ⟨-, done⟩ := writes
  · rw [Store.hasEntity_eq, Store.create_condition? done] at found
    by_cases same : id = fresh
    · exact .inl same
    · rw [if_neg same, ← Store.hasEntity_eq] at found
      exact .inr found
  · rw [Store.hasEntity_of_condition (Store.modify_condition? done)] at found
    exact .inr found
  · rw [Store.hasEntity_without (Store.destroy_condition? done)] at found
    exact .inr found
  · rw [Store.merge_hasEntity done] at found
    exact .inr found

end Curation
