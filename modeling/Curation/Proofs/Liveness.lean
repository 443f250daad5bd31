/-
**Records that are there.** A record is live while it is stored and has not been removed. Checks ask
for that, and only a few writes change it.

* `Store.requireLive_ok`, `Store.requireStillLive_ok`: what the checks make sure of;
* `Store.insertEntity_isLive`, `Store.isLive_touchEntity`, `Store.isLive_tombstoneEntity`: the writes
  that matter.
-/

import Curation.Proofs.Steps

namespace Curation

/-- The kind of record to which an association links scenes. -/
def Association.linked : Association → Kind
  | .sceneTag => .tag
  | .scenePerformer => .performer

namespace Store

variable {store after : Store} {id other : EntityId} {kind : Kind} {now : Instant}

/-! ### Looking a record up after a write -/

theorem entity?_congr {first second : Store} (entities : second.entities = first.entities)
    (id : EntityId) : second.entity? id = first.entity? id := by
  unfold entity?
  rw [entities]

theorem entity?_isSome : (store.entity? id).isSome = store.hasEntity id := by
  unfold entity? hasEntity
  rw [Option.isSome_map, Bool.eq_iff_iff, List.find?_isSome, List.any_eq_true]

/-- What is found after a write to the rows is what the write makes of the row. -/
theorem entity?_mapRows {change image : EntityRow → EntityRow}
    (entities : after.entities = store.entities.map change) (keeps : ∀ row, (change row).id = row.id)
    (reads : ∀ row, row.id = id → (change row).toMillisecond = image row.toMillisecond) :
    after.entity? id = (store.entity? id).map image := by
  unfold entity?
  rw [entities, List.find?_map_keeps fun row => by rw [keeps], Option.map_map, Option.map_map]
  refine Option.map_congr fun row member => ?_
  have rowId := List.find?_some member
  exact reads row (of_decide_eq_true rowId)

theorem entity?_touchEntity (store : Store) (id other : EntityId) (now : Instant) :
    (store.touchEntity id now).entity? other = (store.entity? other).map fun row =>
      if other = id then { row with updated := now.toMillisecond } else row := by
  refine entity?_mapRows rfl (fun row => ?_) fun row rowId => ?_
  · split <;> rfl
  · subst rowId
    show (if row.id = id then _ else row).toMillisecond = _
    split <;> rfl

theorem entity?_tombstoneEntity (done : store.tombstoneEntity id now = .ok after)
    (other : EntityId) :
    after.entity? other = (store.entity? other).map fun row =>
      if other = id then { row with updated := now.toMillisecond, deleted := true } else row := by
  unfold tombstoneEntity at done
  split at done
  · cases done
    refine entity?_mapRows rfl (fun row => ?_) fun row rowId => ?_
    · split <;> rfl
    · subst rowId
      show (if row.id = id then _ else row).toMillisecond = _
      split <;> rfl
  · cases done

theorem insertEntity_frame (done : store.insertEntity id kind now = .ok after) :
    store.hasEntity id = false ∧
      after = { store with entities := store.entities ++ [⟨id, kind, now, now, false⟩] } := by
  unfold insertEntity at done
  split at done
  · cases done
  · next unused =>
    cases done
    exact ⟨by simpa using unused, rfl⟩

theorem entity?_insertEntity (done : store.insertEntity id kind now = .ok after)
    (other : EntityId) :
    after.entity? other =
      if other = id then some (EntityRow.toMillisecond ⟨id, kind, now, now, false⟩)
      else store.entity? other := by
  obtain ⟨unused, rfl⟩ := insertEntity_frame done
  unfold entity?
  rw [List.find?_append]
  split
  next same =>
    have missing : store.entities.find? (fun row => row.id = other) = none := by
      rw [same]
      rw [hasEntity, List.any_eq_false] at unused
      exact List.find?_eq_none.mpr unused
    rw [missing, Option.none_or, List.find?_cons_of_pos (by simp [same])]
    rfl
  next different =>
    have passes : List.find? (fun row : EntityRow => decide (row.id = other))
        [⟨id, kind, now, now, false⟩] = none := by
      simp [Ne.symm different]
    rw [passes, Option.or_none]

/-! ### Live records -/

/-- A record is there, of a given kind and not removed. -/
def IsLive (store : Store) (id : EntityId) (kind : Kind) : Prop :=
  ∃ row, store.entity? id = some row ∧ row.kind = kind ∧ row.deleted = false

theorem requireLive_ok {result : Unit} :
    store.requireLive id kind = .ok result ↔ store.IsLive id kind := by
  unfold requireLive IsLive
  cases store.entity? id with
  | none => simp
  | some row =>
    by_cases same : row.kind = kind
    · cases deleted : row.deleted <;> simp [same, deleted]
    · simp [same]

theorem requireStillLive_ok {result : Unit} :
    store.requireStillLive id kind = .ok result ↔ store.IsLive id kind := by
  unfold requireStillLive
  cases found : store.entity? id with
  | none => exact requireLive_ok
  | some row =>
    cases deleted : row.deleted with
    | false => simpa [deleted] using requireLive_ok
    | true => simp [IsLive, found, deleted]

theorem IsLive.kind_unique {first second : Kind} (left : store.IsLive id first)
    (right : store.IsLive id second) : first = second := by
  obtain ⟨row, found, rfl, -⟩ := left
  obtain ⟨same, looked, rfl, -⟩ := right
  rw [found] at looked
  cases looked
  rfl

theorem IsLive.hasEntity (live : store.IsLive id kind) : store.hasEntity id = true := by
  obtain ⟨row, found, -⟩ := live
  rw [← entity?_isSome, found]
  rfl

theorem isLive_congr {first second : Store} (entities : second.entities = first.entities) :
    second.IsLive id kind ↔ first.IsLive id kind := by
  unfold IsLive
  rw [entity?_congr entities]

theorem isLive_touchEntity : (store.touchEntity other now).IsLive id kind ↔ store.IsLive id kind := by
  unfold IsLive
  rw [entity?_touchEntity]
  cases store.entity? id with
  | none => simp
  | some row => split <;> simp

theorem isLive_tombstoneEntity (done : store.tombstoneEntity other now = .ok after) :
    after.IsLive id kind ↔ id ≠ other ∧ store.IsLive id kind := by
  unfold IsLive
  rw [entity?_tombstoneEntity done]
  cases store.entity? id with
  | none => simp
  | some row => by_cases same : id = other <;> simp [same]

/-- A new record is live, and so is every record that was. -/
theorem insertEntity_isLive (done : store.insertEntity id kind now = .ok after) :
    after.IsLive id kind ∧ ¬ store.IsLive id kind ∧
      ∀ other otherKind, store.IsLive other otherKind → after.IsLive other otherKind := by
  have unused := (insertEntity_frame done).1
  have found := entity?_insertEntity done id
  rw [if_pos rfl] at found
  refine ⟨⟨_, found, rfl, rfl⟩, fun live => ?_, fun other otherKind live => ?_⟩
  · rw [live.hasEntity] at unused
    cases unused
  · have different : other ≠ id := by
      rintro rfl
      rw [live.hasEntity] at unused
      cases unused
    obtain ⟨row, found, sameKind, kept⟩ := live
    refine ⟨row, ?_, sameKind, kept⟩
    rw [entity?_insertEntity done, if_neg different, found]

end Store

end Curation
