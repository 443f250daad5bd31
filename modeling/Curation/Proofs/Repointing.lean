/-
**Links move to another record.** When the links of one record are moved to another, those of sources that
are linked to the other already are dropped, and the rest are moved in place. So the other record is then
linked to the sources of both, and each of them keeps the link to it that it had, or else its link to the
first.

A record whose links are moved to itself loses them: the source of each is linked to it already.

* `Store.fate`, `Store.edges_repointEdges`: what becomes of each link;
* `Store.Repointed`: what is linked to the two records afterwards;
* `Store.repointEdges_moves`: that this is so, unless they are the same.
-/

import Curation.Proofs.Successes
import Curation.Proofs.Tidiness

namespace Curation.Store

variable {store after : Store} {association : Association} {origin destination source target : EntityId}
  {edge : Edge} {moved : Nat}

/-! ### What becomes of a link -/

/-- A link leads to a record by an association. -/
def leadsTo (association : Association) (target : EntityId) (edge : Edge) : Bool :=
  edge.association = association && edge.target = target

/-- The links of a source to a record by an association; at most one, in a tidy store. -/
def between (store : Store) (association : Association) (source target : EntityId) : List Edge :=
  store.edges.filter (joins association source target)

/-- What becomes of a link when links are moved: it goes if its source is linked to the other record
already, and otherwise it is the same link to that record. -/
def fate (store : Store) (association : Association) (origin destination : EntityId) (edge : Edge) :
    Option Edge :=
  if leadsTo association origin edge then
    if store.edges.any (joins association edge.source destination) then none
    else some { edge with target := destination }
  else some edge

theorem leadsTo_iff : leadsTo association target edge = true ↔
    edge.association = association ∧ edge.target = target := by
  simp [leadsTo]

theorem joins_eq : joins association source target edge =
    (leadsTo association target edge && edge.source = source) := by
  unfold joins leadsTo
  rw [Bool.and_right_comm]

theorem edgesTo_eq : store.edgesTo target association =
    store.edges.filter (leadsTo association target) := by
  unfold edgesTo
  refine List.filter_congr fun edge _ => ?_
  rw [Bool.eq_iff_iff, leadsTo_iff, decide_eq_true_iff, and_comm]

/-- A source of a record is linked to it. -/
theorem mem_sources : source ∈ (store.edgesTo target association).map Edge.source ↔
    store.edges.any (joins association source target) = true := by
  rw [edgesTo_eq, List.mem_map, List.any_eq_true]
  refine exists_congr fun edge => ?_
  rw [List.mem_filter, joins_eq, Bool.and_eq_true, decide_eq_true_iff, and_assoc]

theorem between_ne_nil : store.between association source target ≠ [] ↔
    store.edges.any (joins association source target) = true := by
  unfold between
  rw [Ne, List.filter_eq_nil_iff, List.any_eq_true]
  simp

theorem edges_repointEdges
    (done : store.repointEdges association origin destination = .ok (moved, after)) :
    after.edges = store.edges.filterMap (store.fate association origin destination) := by
  rw [repointEdges_frame done]
  dsimp only
  rw [← List.filterMap_eq_map, List.filterMap_filter]
  refine List.filterMap_congr fun edge _ => ?_
  unfold fate leadsTo collides repoint
  by_cases leads : edge.association = association ∧ edge.target = origin
  · by_cases taken : store.edges.any (joins association edge.source destination) = true <;>
      simp [leads, taken]
  · simp [leads, ← and_assoc]

/-- The links that pass a test afterwards, given how each link fares in it. -/
theorem filter_fate {test keep : Edge → Bool} {change : Edge → Edge}
    (each : ∀ edge ∈ store.edges, (store.fate association origin destination edge).filter test =
      if keep edge then some (change edge) else none) :
    (store.edges.filterMap (store.fate association origin destination)).filter test =
      (store.edges.filter keep).map change := by
  rw [List.filter_filterMap, ← List.filterMap_eq_map, List.filterMap_filter]
  exact List.filterMap_congr each

theorem fate_of_stays (stays : leadsTo association origin edge = false) :
    store.fate association origin destination edge = some edge := if_neg (by simp [stays])

theorem fate_of_taken (leads : leadsTo association origin edge = true)
    (taken : store.edges.any (joins association edge.source destination) = true) :
    store.fate association origin destination edge = none := by
  rw [fate, if_pos leads, if_pos taken]

theorem fate_of_free (leads : leadsTo association origin edge = true)
    (free : store.edges.any (joins association edge.source destination) = false) :
    store.fate association origin destination edge = some { edge with target := destination } := by
  rw [fate, if_pos leads, if_neg (by simp [free])]

/-- A link that leads to the first record no longer does so, whether it goes or moves. -/
theorem filter_fate_of_leads (leads : leadsTo association origin edge = true) {test : Edge → Bool}
    (fails : store.edges.any (joins association edge.source destination) = false →
      test { edge with target := destination } = false) :
    (store.fate association origin destination edge).filter test = none := by
  cases taken : store.edges.any (joins association edge.source destination) with
  | true => rw [fate_of_taken leads taken, Option.filter_none]
  | false => rw [fate_of_free leads taken, Option.filter_some, fails taken, if_neg Bool.false_ne_true]

/-! ### What is linked to each record -/

/-- The links by other associations or to records other than two given ones. -/
def elsewhere (association : Association) (origin destination : EntityId) (edge : Edge) : Bool :=
  !(leadsTo association origin edge || leadsTo association destination edge)

/-- They stay as they are. -/
theorem filter_elsewhere :
    (store.edges.filterMap (store.fate association origin destination)).filter
        (elsewhere association origin destination) =
      store.edges.filter (elsewhere association origin destination) := by
  conv_rhs => rw [← List.map_id (List.filter _ _)]
  refine filter_fate fun edge _ => ?_
  cases leads : leadsTo association origin edge with
  | false =>
    rw [fate_of_stays leads, Option.filter_some]
    rfl
  | true =>
    have there : elsewhere association origin destination { edge with target := destination } = false := by
      have associated : edge.association = association :=
        of_decide_eq_true (Bool.and_eq_true_iff.mp leads).1
      simp [elsewhere, leadsTo, associated]
    have here : elsewhere association origin destination edge = false := by simp [elsewhere, leads]
    rw [filter_fate_of_leads leads fun _ => there, here, if_neg Bool.false_ne_true]

/-- A source that was linked to the other record keeps its link. -/
theorem filter_joins_of_linked (apart : origin ≠ destination)
    (linked : store.edges.any (joins association source destination) = true) :
    (store.edges.filterMap (store.fate association origin destination)).filter
        (joins association source destination) = store.between association source destination := by
  unfold between
  conv_rhs => rw [← List.map_id (List.filter _ _)]
  refine filter_fate fun edge _ => ?_
  cases leads : leadsTo association origin edge with
  | false =>
    rw [fate_of_stays leads, Option.filter_some]
    rfl
  | true =>
    have other : joins association source destination edge = false := by
      have target : edge.target = origin := of_decide_eq_true (Bool.and_eq_true_iff.mp leads).2
      simp [joins, target, apart]
    rw [other, if_neg Bool.false_ne_true]
    refine filter_fate_of_leads leads fun free => ?_
    have different : edge.source ≠ source := by
      rintro rfl
      exact Bool.false_ne_true (free.symm.trans linked)
    simp [joins, different]

/-- A source that was not has its link to the first record moved. -/
theorem filter_joins_of_unlinked
    (unlinked : store.edges.any (joins association source destination) = false) :
    (store.edges.filterMap (store.fate association origin destination)).filter
        (joins association source destination) =
      (store.between association source origin).map fun edge => { edge with target := destination } := by
  refine filter_fate fun edge stored => ?_
  cases leads : leadsTo association origin edge with
  | false =>
    have missing : joins association source destination edge = false :=
      Bool.eq_false_iff.mpr (List.any_eq_false.mp unlinked edge stored)
    rw [fate_of_stays leads, Option.filter_some, missing, joins_eq, leads]
    rfl
  | true =>
    obtain ⟨associated, leading⟩ := leadsTo_iff.mp leads
    by_cases same : edge.source = source
    · subst same
      rw [fate_of_free leads unlinked]
      simp [joins, associated, leading]
    · have fails : joins association source destination { edge with target := destination } = false := by
        simp [joins, same]
      rw [filter_fate_of_leads leads fun _ => fails]
      simp [joins, same]

/-- No link to the first record is left. -/
theorem filter_leadsTo_origin (apart : origin ≠ destination) :
    (store.edges.filterMap (store.fate association origin destination)).filter
      (leadsTo association origin) = [] := by
  have none : (store.edges.filterMap (store.fate association origin destination)).filter
      (leadsTo association origin) = (store.edges.filter fun _ => false).map id := by
    refine filter_fate fun edge _ => ?_
    cases leads : leadsTo association origin edge with
    | false =>
      rw [fate_of_stays leads, Option.filter_some, leads]
      rfl
    | true => exact filter_fate_of_leads leads fun _ => by simp [leadsTo, apart.symm]
  rw [none, List.filter_false, List.map_nil]

/-- What is linked to two records after the links of the first were moved to the second. -/
structure Repointed (store after : Store) (association : Association) (origin destination : EntityId) :
    Prop where
  /-- The second is linked to the sources of both. -/
  sources : ∀ source, source ∈ (after.edgesTo destination association).map Edge.source ↔
    source ∈ (store.edgesTo origin association).map Edge.source ∨
      source ∈ (store.edgesTo destination association).map Edge.source
  /-- Sources that were linked to it keep that link, with its credit. -/
  kept : ∀ source ∈ (store.edgesTo destination association).map Edge.source,
    after.between association source destination = store.between association source destination
  /-- The others keep their link to the first, with its credit, and only its end has moved. -/
  carried : ∀ source, source ∉ (store.edgesTo destination association).map Edge.source →
    after.between association source destination =
      (store.between association source origin).map fun edge => { edge with target := destination }
  /-- Nothing is linked to the first. -/
  gone : after.edgesTo origin association = []

/-- How a table of links is written when links are moved. -/
structure Rewritten (store after : Store) (association : Association) (origin destination : EntityId)
    (moved : Nat) : Prop where
  /-- Every link that does not go keeps its place. -/
  place : after.edges = store.edges.filterMap (store.fate association origin destination)
  elsewhere : after.edges.filter (elsewhere association origin destination) =
    store.edges.filter (elsewhere association origin destination)
  count : moved = store.edges.countP fun edge => leadsTo association origin edge &&
    !store.edges.any (joins association edge.source destination)
  /-- No two links meet at the same ends, so that the constraint of the table is not in the way. -/
  apart : (store.edges.map Edge.ends).Nodup → (after.edges.map Edge.ends).Nodup
  rest : after = { store with edges := after.edges }

theorem repointed (apart : origin ≠ destination)
    (done : store.repointEdges association origin destination = .ok (moved, after)) :
    store.Repointed after association origin destination := by
  have edges := edges_repointEdges done
  have kept : ∀ source ∈ (store.edgesTo destination association).map Edge.source,
      after.between association source destination =
        store.between association source destination := fun source linked => by
    rw [between, edges]
    exact filter_joins_of_linked apart (mem_sources.mp linked)
  have carried : ∀ source, source ∉ (store.edgesTo destination association).map Edge.source →
      after.between association source destination =
        (store.between association source origin).map fun edge =>
          { edge with target := destination } := fun source unlinked => by
    rw [between, edges]
    exact filter_joins_of_unlinked (Bool.eq_false_iff.mpr (mem_sources.not.mp unlinked))
  refine ⟨fun source => ?_, kept, carried, ?_⟩
  · by_cases linked : source ∈ (store.edgesTo destination association).map Edge.source
    · rw [mem_sources, ← between_ne_nil, kept source linked, between_ne_nil, ← mem_sources]
      exact (or_iff_right_of_imp fun _ => linked).symm
    · rw [mem_sources, ← between_ne_nil, carried source linked, Ne, List.map_eq_nil_iff, ← Ne,
        between_ne_nil, ← mem_sources]
      exact (or_iff_left linked).symm
  · rw [edgesTo_eq, edges]
    exact filter_leadsTo_origin apart

/-- The links that are counted are those that move. -/
theorem count_repointEdges
    (done : store.repointEdges association origin destination = .ok (moved, after)) :
    moved = store.edges.countP fun edge => leadsTo association origin edge &&
      !store.edges.any (joins association edge.source destination) := by
  have counted : (store.edges.filter fun edge =>
      ¬ (edge.association = association ∧ edge.target = origin ∧
        store.edges.any (joins association edge.source destination))).countP
          (leadsTo association origin) =
      store.edges.countP fun edge => leadsTo association origin edge &&
        !store.edges.any (joins association edge.source destination) := by
    rw [List.countP_filter]
    refine List.countP_congr fun edge _ => ?_
    simp only [leadsTo]
    grind
  rw [← counted]
  unfold repointEdges at done
  dsimp only at done
  split at done
  next none =>
    cases done
    exact none.symm
  next =>
    split at done
    · cases done
      rfl
    · cases done

theorem rewritten (done : store.repointEdges association origin destination = .ok (moved, after)) :
    store.Rewritten after association origin destination moved where
  place := edges_repointEdges done
  elsewhere := by rw [edges_repointEdges done, filter_elsewhere]
  count := count_repointEdges done
  apart unique := by
    rw [repointEdges_frame done]
    exact nodup_ends_repoint association origin destination unique
  rest := by rw [repointEdges_frame done]

/-- A link to the record to which links are moved finds itself there already. -/
theorem linked_self (stored : edge ∈ store.edges) (leads : leadsTo association origin edge = true) :
    store.edges.any (joins association edge.source origin) = true :=
  List.any_eq_true.mpr ⟨edge, stored, by rw [joins_eq, leads, decide_eq_true rfl]; rfl⟩

/-- Links that are moved to where they are go. -/
theorem repointEdges_self (done : store.repointEdges association origin origin = .ok (moved, after)) :
    moved = 0 ∧ after.edges = store.edges.filter fun edge => !leadsTo association origin edge := by
  constructor
  · rw [count_repointEdges done, List.countP_eq_zero]
    intro edge stored both
    obtain ⟨leads, free⟩ := Bool.and_eq_true_iff.mp both
    rw [linked_self stored leads] at free
    cases free
  · rw [edges_repointEdges done, ← List.filterMap_eq_filter]
    refine List.filterMap_congr fun edge stored => ?_
    cases leads : leadsTo association origin edge with
    | false =>
      rw [fate_of_stays leads]
      simp [Option.guard, leads]
    | true =>
      rw [fate_of_taken leads (linked_self stored leads)]
      simp [Option.guard, leads]

/-- **The links of a record are moved to another that exists**, which succeeds. The other is then linked to
the sources of both, those that were linked to it keep that link, the rest keep theirs with its credit and
its place, and no other link changes. Only if both are the same record are its links lost instead. -/
theorem repointEdges_moves (known : store.hasEntity destination = true) :
    Yields (store.repointEdges association origin destination) fun done =>
      store.Rewritten done.2 association origin destination done.1 ∧
      (origin ≠ destination → store.Repointed done.2 association origin destination) ∧
      (origin = destination → done.1 = 0 ∧
        done.2.edges = store.edges.filter fun edge => !leadsTo association origin edge) := by
  have succeeds : Yields (store.repointEdges association origin destination) _ :=
    repointEdges_yields known
  obtain ⟨⟨moved, after⟩, done, -⟩ := succeeds
  refine ⟨(moved, after), done, rewritten done, fun apart => repointed apart done, ?_⟩
  rintro rfl
  exact repointEdges_self done

/-- A performer with credits on two scenes, on one of which another performer has one too. -/
def crossed : Store :=
  { empty with
    entities := [⟨⟨Uuid.serial 1⟩, .scene, .epoch, .epoch, false⟩,
      ⟨⟨Uuid.serial 2⟩, .scene, .epoch, .epoch, false⟩,
      ⟨⟨Uuid.serial 3⟩, .performer, .epoch, .epoch, false⟩,
      ⟨⟨Uuid.serial 4⟩, .performer, .epoch, .epoch, false⟩]
    edges := [⟨.scenePerformer, ⟨Uuid.serial 1⟩, ⟨Uuid.serial 3⟩, some "J"⟩,
      ⟨.scenePerformer, ⟨Uuid.serial 2⟩, ⟨Uuid.serial 3⟩, some "Jane"⟩,
      ⟨.scenePerformer, ⟨Uuid.serial 1⟩, ⟨Uuid.serial 4⟩, none⟩] }

theorem crossed_moves : crossed.hasEntity ⟨Uuid.serial 4⟩ = true ∧
    Yields (crossed.repointEdges .scenePerformer ⟨Uuid.serial 3⟩ ⟨Uuid.serial 4⟩) fun done =>
      crossed.Rewritten done.2 .scenePerformer ⟨Uuid.serial 3⟩ ⟨Uuid.serial 4⟩ 1 ∧
      crossed.Repointed done.2 .scenePerformer ⟨Uuid.serial 3⟩ ⟨Uuid.serial 4⟩ ∧
      done.2.edges = [⟨.scenePerformer, ⟨Uuid.serial 2⟩, ⟨Uuid.serial 4⟩, some "Jane"⟩,
        ⟨.scenePerformer, ⟨Uuid.serial 1⟩, ⟨Uuid.serial 4⟩, none⟩] := by
  have known : crossed.hasEntity ⟨Uuid.serial 4⟩ = true := by decide
  refine ⟨known, ?_⟩
  have moves : Yields (crossed.repointEdges .scenePerformer ⟨Uuid.serial 3⟩ ⟨Uuid.serial 4⟩) _ :=
    repointEdges_moves known
  obtain ⟨⟨moved, after⟩, done, rewritten, repointed, -⟩ := moves
  have count : moved = 1 := rewritten.count
  have edges := rewritten.place
  subst count
  exact ⟨_, done, rewritten, repointed (by decide), edges⟩

/-- A link that is moved to where it is gets lost, although its source is linked there already. -/
theorem crossed_loses : crossed.hasEntity ⟨Uuid.serial 4⟩ = true ∧
    crossed.edgesTo ⟨Uuid.serial 4⟩ .scenePerformer =
      [⟨.scenePerformer, ⟨Uuid.serial 1⟩, ⟨Uuid.serial 4⟩, none⟩] ∧
    (crossed.repointEdges .scenePerformer ⟨Uuid.serial 4⟩ ⟨Uuid.serial 4⟩).map
      (fun done => done.2.edgesTo ⟨Uuid.serial 4⟩ .scenePerformer) = .ok [] := by
  decide

end Curation.Store
