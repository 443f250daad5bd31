/-
**What a primitive write leaves.** Each write changes one table of the catalogue, and the row that it
writes is the only one that differs afterwards.

* `Store.setField_frame`, `Store.insertEdge_frame`, `Store.repointEdges_frame`: the rows of the table
  that was written;
* `Store.field?_setField`, `Store.credit?_insertEdge`, `Store.credit?_repointEdges`: what is read.
-/

import Curation.Proofs.Liveness

namespace Curation

/-- What tells two links apart. -/
def Edge.ends (edge : Edge) : Association × EntityId × EntityId :=
  (edge.association, edge.source, edge.target)

namespace Store

variable {store after : Store}

/-! ### Fields -/

/-- The field that was given a value holds it, and every other row was there before. -/
theorem setField_frame {entity : EntityId} {key : String} {value : Value}
    (done : store.setField entity key value = .ok after) :
    after = { store with fields := after.fields } ∧
      ∀ row ∈ after.fields, row = ⟨entity, key, value⟩ ∨
        (row ∈ store.fields ∧ ¬ (row.entity = entity ∧ row.key = key)) := by
  unfold setField at done
  split at done
  · split at done
    · cases done
      refine ⟨rfl, fun row member => ?_⟩
      obtain ⟨earlier, stored, rfl⟩ := List.mem_map.mp member
      split
      next same => exact .inl (by rw [← same.1, ← same.2])
      next other => exact .inr ⟨stored, other⟩
    · next missing =>
      cases done
      refine ⟨rfl, fun row member => ?_⟩
      rcases List.mem_append.mp member with earlier | added
      · refine .inr ⟨earlier, fun same => missing ?_⟩
        unfold field?
        rw [Option.isSome_map, List.find?_isSome]
        exact ⟨row, earlier, decide_eq_true same⟩
      · exact .inl (List.mem_singleton.mp added)
  · cases done

/-- What a field holds after one was given a value. -/
theorem field?_setField {entity : EntityId} {key : String} {value : Value}
    (done : store.setField entity key value = .ok after) (other : EntityId) (name : String) :
    after.field? other name =
      if other = entity ∧ name = key then some value else store.field? other name := by
  unfold setField at done
  split at done
  · split at done
    next known =>
      cases done
      obtain ⟨held, holds⟩ := Option.isSome_iff_exists.mp known
      obtain ⟨row, found, -⟩ := Option.map_eq_some_iff.mp holds
      unfold field?
      rw [List.find?_map_keeps fun row => by split <;> rfl, Option.map_map]
      split
      next same =>
        obtain ⟨rfl, rfl⟩ := same
        have named := List.find?_some found
        rw [found, Option.map_some, Function.comp_apply, if_pos (of_decide_eq_true named)]
      next different =>
        refine Option.map_congr fun row picked => ?_
        have picks := List.find?_some picked
        have named := of_decide_eq_true picks
        rw [Function.comp_apply, if_neg fun same => different ?_]
        exact ⟨named.1.symm.trans same.1, named.2.symm.trans same.2⟩
    next unknown =>
      cases done
      rw [Bool.not_eq_true, Option.isSome_eq_false_iff, Option.isNone_iff_eq_none] at unknown
      split
      next same =>
        obtain ⟨rfl, rfl⟩ := same
        unfold field? at unknown ⊢
        rw [List.find?_append, Option.map_eq_none_iff.mp unknown, Option.none_or,
          List.find?_cons_of_pos (by simp), Option.map_some]
      next different =>
        unfold field?
        rw [List.find?_append, List.find?_cons_of_neg, List.find?_nil, Option.or_none]
        intro picked
        have named := of_decide_eq_true picked
        exact different ⟨named.1.symm, named.2.symm⟩
  · cases done

theorem field?_clearField (store : Store) (entity : EntityId) (key : String) (other : EntityId)
    (name : String) :
    (store.clearField entity key).field? other name =
      if other = entity ∧ name = key then none else store.field? other name := by
  unfold field? clearField
  rw [List.find?_filter]
  split
  next same =>
    rw [Option.map_eq_none_iff, List.find?_eq_none]
    intro row _ picked
    have both := of_decide_eq_true picked
    have found := of_decide_eq_true both.2
    rw [same.1, same.2] at found
    exact of_decide_eq_true both.1 found
  next different =>
    congr 2
    funext row
    rw [Bool.eq_iff_iff, decide_eq_true_iff, decide_eq_true_iff, decide_eq_true_iff]
    refine ⟨fun both => both.2, fun found => ⟨fun cleared => different ?_, found⟩⟩
    exact ⟨found.1.symm.trans cleared.1, found.2.symm.trans cleared.2⟩

/-! ### Collections -/

theorem addMember_frame {entity : EntityId} {list : String} {value : Value} {isNew : Bool}
    (done : store.addMember entity list value = .ok (isNew, after)) :
    after = { store with
      members :=
        if ⟨entity, list, value⟩ ∈ store.members then store.members
        else store.members ++ [⟨entity, list, value⟩] } := by
  unfold addMember at done
  split at done
  next known =>
    cases done
    rw [if_pos known]
  next unknown =>
    rw [if_neg unknown]
    split at done
    · cases done
      rfl
    · cases done

/-! ### Links -/

theorem joins_iff {association : Association} {source target : EntityId} {edge : Edge} :
    joins association source target edge = true ↔ edge.ends = (association, source, target) := by
  simp [joins, Edge.ends, and_assoc]

theorem any_joins {edges : List Edge} {association : Association} {source target : EntityId} :
    edges.any (joins association source target) = true ↔
      (association, source, target) ∈ edges.map Edge.ends := by
  rw [List.any_eq_true, List.mem_map]
  simp only [joins_iff]

theorem insertEdge_frame {association : Association} {source target : EntityId}
    {credit : Option String} {isNew : Bool}
    (done : store.insertEdge association source target credit = .ok (isNew, after)) :
    isNew = !store.edges.any (joins association source target) ∧
      after = { store with
        edges :=
          if store.edges.any (joins association source target) = true then store.edges
          else store.edges ++ [⟨association, source, target, credit⟩] } := by
  unfold insertEdge at done
  split at done
  next known =>
    cases done
    rw [known]
    exact ⟨rfl, rfl⟩
  next unknown =>
    rw [if_neg unknown, Bool.eq_false_iff.mpr unknown]
    split at done
    · cases done
      exact ⟨rfl, rfl⟩
    · cases done

/-- A link to one record that the same record has to another as well. -/
def collides (edges : List Edge) (association : Association) (origin destination : EntityId)
    (edge : Edge) : Prop :=
  edge.association = association ∧ edge.target = origin ∧
    edges.any (joins association edge.source destination) = true

instance (edges : List Edge) (association : Association) (origin destination : EntityId)
    (edge : Edge) : Decidable (collides edges association origin destination edge) := by
  unfold collides
  infer_instance

/-- The same link, to another record if it led to a given one. -/
def repoint (association : Association) (origin destination : EntityId) (edge : Edge) : Edge :=
  if edge.association = association ∧ edge.target = origin then { edge with target := destination }
  else edge

/-- **The links that are moved are those that do not collide.** -/
theorem repointEdges_frame {association : Association} {origin destination : EntityId} {moved : Nat}
    (done : store.repointEdges association origin destination = .ok (moved, after)) :
    after = { store with
      edges :=
        (store.edges.filter fun edge =>
          ¬ collides store.edges association origin destination edge).map
            (repoint association origin destination) } := by
  unfold repointEdges at done
  dsimp only at done
  split at done
  next none =>
    cases done
    congr 1
    refine ((List.map_congr_left fun edge member => ?_).trans (List.map_id _)).symm
    have stays := List.countP_eq_zero.mp none edge member
    unfold repoint
    rw [if_neg (by simpa using stays), id]
  next =>
    split at done
    · cases done
      congr 1
      refine List.map_congr_left fun edge _ => ?_
      simp [repoint]
    · cases done

theorem tombstoneEntity_frame {id : EntityId} {now : Instant}
    (done : store.tombstoneEntity id now = .ok after) :
    after = { store with
      entities := after.entities
      edges := store.edges.filter fun edge => edge.source ≠ id ∧ edge.target ≠ id } := by
  unfold tombstoneEntity at done
  split at done
  · cases done
    rfl
  · cases done

/-! ### Redirects -/

theorem insertRedirect_frame {source target : EntityId} {now : Instant}
    (done : store.insertRedirect source target now = .ok after) :
    after = { store with redirects := after.redirects } ∧ after.redirect? source = some target ∧
      ∀ other, other ≠ source → after.redirect? other = store.redirect? other := by
  unfold insertRedirect at done
  split at done
  · split at done
    next known =>
      cases done
      have keeps (id : EntityId) (row : Redirect) :
          decide ((if row.source = source then ⟨source, target, now⟩ else row).source = id) =
            decide (row.source = id) := by
        split
        next same => rw [same]
        · rfl
      refine ⟨rfl, ?_, fun other apart => ?_⟩
      · obtain ⟨row, found⟩ := Option.isSome_iff_exists.mp
          (List.find?_isSome.mpr (List.any_eq_true.mp known))
        have picked := List.find?_some found
        unfold redirect?
        dsimp only
        rw [List.find?_map_keeps (keeps source), found, Option.map_some, Option.map_some,
          if_pos (of_decide_eq_true picked)]
      · unfold redirect?
        dsimp only
        rw [List.find?_map_keeps (keeps other), Option.map_map]
        refine Option.map_congr fun row found => ?_
        have picked := List.find?_some found
        rw [Function.comp_apply, if_neg fun same => apart ?_]
        exact (of_decide_eq_true picked).symm.trans same
    next unknown =>
      cases done
      refine ⟨rfl, ?_, fun other apart => ?_⟩
      · have none : store.redirects.find? (fun row => row.source = source) = none := by
          rw [Bool.not_eq_true, List.any_eq_false] at unknown
          exact List.find?_eq_none.mpr unknown
        unfold redirect?
        rw [List.find?_append, none, Option.none_or, List.find?_cons_of_pos (by simp)]
        rfl
      · unfold redirect?
        rw [List.find?_append, List.find?_cons_of_neg (by simpa using apart.symm), List.find?_nil,
          Option.or_none]
  · cases done

/-! ### Credits -/

/-- The credit of the link between two records, if there is one. -/
def credit? (store : Store) (association : Association) (source target : EntityId) :
    Option (Option String) :=
  (store.edges.find? (joins association source target)).map Edge.credit

section Credits

variable {association other : Association} {source target scene record : EntityId}

theorem credit?_congr {first second : Store} (edges : second.edges = first.edges)
    (association : Association) (source target : EntityId) :
    second.credit? association source target = first.credit? association source target := by
  unfold credit?
  rw [edges]

theorem credit?_isSome :
    (store.credit? association source target).isSome =
      store.edges.any (joins association source target) := by
  unfold credit?
  rw [Option.isSome_map, Bool.eq_iff_iff, List.find?_isSome, List.any_eq_true]

theorem credit?_eq_none :
    store.credit? association source target = none ↔
      ∀ edge ∈ store.edges, edge.ends ≠ (association, source, target) := by
  unfold credit?
  rw [Option.map_eq_none_iff, List.find?_eq_none]
  simp only [joins_iff, ne_eq]

/-- A write to links that keeps their ends changes credits only. -/
theorem credit?_mapEdges {change : Edge → Edge} {image : Option String → Option String}
    (edges : after.edges = store.edges.map change)
    (keeps : ∀ edge, (change edge).ends = edge.ends)
    (credits : ∀ edge, edge.ends = (association, source, target) →
      (change edge).credit = image edge.credit) :
    after.credit? association source target =
      (store.credit? association source target).map image := by
  have joined (edge : Edge) :
      joins association source target (change edge) = joins association source target edge := by
    rw [Bool.eq_iff_iff, joins_iff, joins_iff, keeps]
  unfold credit?
  rw [edges, List.find?_map_keeps joined, Option.map_map, Option.map_map]
  refine Option.map_congr fun edge member => ?_
  have same := List.find?_some member
  exact credits edge (joins_iff.mp same)

theorem credit?_setCredit (store : Store) (association : Association) (source target : EntityId)
    (credit : Option String) :
    (store.setCredit association source target credit).credit? other scene record =
      (store.credit? other scene record).map fun earlier =>
        if (other, scene, record) = (association, source, target) then credit else earlier := by
  refine credit?_mapEdges rfl (fun edge => ?_) fun edge same => ?_
  · split <;> rfl
  · rw [← same]
    by_cases joined : joins association source target edge = true
    · rw [if_pos joined, if_pos (joins_iff.mp joined)]
    · rw [if_neg joined, if_neg fun ends => joined (joins_iff.mpr ends)]

theorem credit?_filter {test : Edge → Bool} (edges : after.edges = store.edges.filter test)
    (keeps : ∀ edge, edge.ends = (association, source, target) → test edge = true) :
    after.credit? association source target = store.credit? association source target := by
  unfold credit?
  rw [edges, List.find?_filter]
  congr 2
  funext edge
  rw [Bool.eq_iff_iff, decide_eq_true_iff]
  exact ⟨fun both => both.2, fun joined => ⟨keeps edge (joins_iff.mp joined), joined⟩⟩

theorem credit?_insertEdge {credit : Option String} {isNew : Bool}
    (done : store.insertEdge association source target credit = .ok (isNew, after)) :
    after.credit? other scene record =
      if (other, scene, record) = (association, source, target)
      then (store.credit? other scene record).or (some credit)
      else store.credit? other scene record := by
  obtain ⟨-, frame⟩ := insertEdge_frame done
  rw [frame]
  by_cases known : store.edges.any (joins association source target) = true
  · rw [if_pos known]
    split
    next same =>
      cases same
      rw [← credit?_isSome] at known
      obtain ⟨earlier, found⟩ := Option.isSome_iff_exists.mp known
      exact found.trans (by rw [found, Option.some_or])
    · rfl
  · rw [if_neg known]
    have joined : joins other scene record ⟨association, source, target, credit⟩ = true ↔
        (association, source, target) = (other, scene, record) := joins_iff
    unfold credit?
    rw [List.find?_append, List.find?_singleton, Option.map_or]
    by_cases same : (other, scene, record) = (association, source, target)
    · rw [if_pos same, if_pos (joined.mpr same.symm)]
      rfl
    · rw [if_neg same, if_neg fun joins => same (joined.mp joins).symm, Option.map_none,
        Option.or_none]

theorem credit?_deleteEdge (store : Store) (association : Association) (source target : EntityId) :
    (store.deleteEdge association source target).2.credit? other scene record =
      if (other, scene, record) = (association, source, target) then none
      else store.credit? other scene record := by
  split
  next same =>
    rw [credit?_eq_none]
    intro edge member ends
    have apart := (List.mem_filter.mp member).2
    rw [same] at ends
    rw [joins_iff.mpr ends] at apart
    cases apart
  next different =>
    refine credit?_filter rfl fun edge ends => ?_
    rw [Bool.not_eq_true', Bool.eq_false_iff]
    exact fun joined => different (ends.symm.trans (joins_iff.mp joined))

@[simp] theorem credit_repoint (association : Association) (origin destination : EntityId)
    (edge : Edge) : (repoint association origin destination edge).credit = edge.credit := by
  unfold repoint
  split <;> rfl

/-- The ends of a link that may have been moved. -/
theorem ends_repoint {origin destination : EntityId} (edge : Edge) :
    (repoint association origin destination edge).ends =
      if edge.association = association ∧ edge.target = origin
      then (association, edge.source, destination) else edge.ends := by
  unfold repoint
  split
  next moves => rw [← moves.1, Edge.ends]
  · rfl

/-- The credits of links that were moved are found with the links that were not in the way. -/
theorem credit?_repoint {origin destination : EntityId} {moved : Nat}
    (done : store.repointEdges association origin destination = .ok (moved, after))
    {test : Edge → Bool}
    (same : ∀ edge ∈ store.edges,
      (¬ collides store.edges association origin destination edge ∧
        (repoint association origin destination edge).ends = (other, scene, record)) ↔
          test edge = true) :
    after.credit? other scene record = (store.edges.find? test).map Edge.credit := by
  rw [repointEdges_frame done]
  unfold credit?
  dsimp only
  rw [List.find?_map, List.find?_filter, Option.map_map]
  have sameCredit : Edge.credit ∘ repoint association origin destination = Edge.credit :=
    funext (credit_repoint association origin destination)
  rw [sameCredit]
  congr 1
  refine List.find?_congr fun edge member => ?_
  rw [Bool.eq_iff_iff, ← same edge member, decide_eq_true_iff, decide_eq_true_iff,
    Function.comp_apply, joins_iff]

/-- **What a link to a record carries after the links to another were moved there**: its own credit,
or else that of the link which was moved. -/
theorem credit?_repointEdges {origin destination : EntityId} {moved : Nat}
    (apart : origin ≠ destination)
    (done : store.repointEdges association origin destination = .ok (moved, after)) :
    after.credit? association scene destination =
        (store.credit? association scene destination).or
          (store.credit? association scene origin) := by
  by_cases taken : store.edges.any (joins association scene destination) = true
  · have kept : after.credit? association scene destination =
        store.credit? association scene destination := by
      refine credit?_repoint done fun edge member => ?_
      rw [joins_iff, ends_repoint]
      constructor
      · rintro ⟨free, ends⟩
        split at ends
        next moves =>
          cases ends
          exact absurd ⟨moves.1, moves.2, taken⟩ free
        · exact ends
      · intro ends
        have stays : ¬ (edge.association = association ∧ edge.target = origin) := by
          rintro ⟨-, target⟩
          cases ends
          exact apart target.symm
        exact ⟨fun hit => stays ⟨hit.1, hit.2.1⟩, by rw [if_neg stays, ends]⟩
    rw [kept]
    rw [← credit?_isSome] at taken
    obtain ⟨credit, found⟩ := Option.isSome_iff_exists.mp taken
    rw [found, Option.some_or]
  · have free : store.credit? association scene destination = none := by
      rw [← Option.not_isSome_iff_eq_none, credit?_isSome]
      exact taken
    rw [free, Option.none_or]
    refine credit?_repoint done fun edge member => ?_
    rw [joins_iff, ends_repoint]
    constructor
    · rintro ⟨-, ends⟩
      split at ends
      next moves =>
        cases ends
        rw [Edge.ends, moves.1, moves.2]
      · exact absurd ends (credit?_eq_none.mp free edge member)
    · intro ends
      cases ends
      rw [if_pos ⟨rfl, rfl⟩]
      exact ⟨fun hit => taken hit.2.2, rfl⟩

/-- Moving links leaves those to other records alone. -/
theorem filter_repointEdges {origin destination : EntityId} {moved : Nat} {test : Edge → Bool}
    (done : store.repointEdges association origin destination = .ok (moved, after))
    (others : ∀ edge, test edge = true → edge.target ≠ origin ∧ edge.target ≠ destination) :
    after.edges.filter test = store.edges.filter test := by
  rw [repointEdges_frame done]
  dsimp only
  rw [List.filter_map, List.filter_filter]
  have stays : ∀ edge, test edge = true → repoint association origin destination edge = edge :=
    fun edge passes => if_neg fun moves => (others edge passes).1 moves.2
  have sameTest : (fun edge => (test ∘ repoint association origin destination) edge &&
      decide (¬ collides store.edges association origin destination edge)) = test := by
    funext edge
    rw [Function.comp_apply, Bool.eq_iff_iff, Bool.and_eq_true, decide_eq_true_iff]
    constructor
    · rintro ⟨passes, -⟩
      unfold repoint at passes
      split at passes
      · exact absurd rfl (others _ passes).2
      · exact passes
    · intro passes
      rw [stays edge passes]
      exact ⟨passes, fun hit => (others edge passes).1 hit.2.1⟩
  rw [sameTest]
  exact (List.map_congr_left fun edge member => stays edge (List.mem_filter.mp member).2).trans
    (List.map_id _)

/-- The links to a record determine their credits. -/
theorem credit?_of_filter
    (same : after.edges.filter (fun edge => edge.target = record) =
      store.edges.filter fun edge => edge.target = record) :
    after.credit? other scene record = store.credit? other scene record := by
  have alone (state : Store) : state.credit? other scene record =
      ({ state with edges := state.edges.filter fun edge => edge.target = record } : Store).credit?
        other scene record := by
    refine (credit?_filter rfl fun edge ends => ?_).symm
    cases ends
    exact decide_eq_true rfl
  rw [alone after, alone store, same]
  rfl

end Credits

end Store

end Curation
