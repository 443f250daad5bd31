/-
**Tables stay tidy.** Two records are linked at most once by an association, a collection lists a
value once, and whatever is stored about a record belongs to one that exists. Every primitive write
keeps the tables so, whatever it is given.

* `Store.Tidy`, `Store.Written.tidy`: the three statements, and that they are kept;
* `Desk.run_tidy`: they hold after every run.
-/

import Curation.Proofs.Frames
import Curation.Proofs.Liveness
import Curation.Proofs.Origins

namespace Curation

namespace Store

variable {store after : Store}

/-- Links and members are listed once, and what is stored belongs to records that exist. -/
structure Tidy (store : Store) : Prop where
  edges : (store.edges.map Edge.ends).Nodup
  members : store.members.Nodup
  fieldOwners : ∀ row ∈ store.fields, store.hasEntity row.entity = true
  memberOwners : ∀ row ∈ store.members, store.hasEntity row.entity = true

/-! ### Links -/

/-- A write that leaves the ends of links alone keeps them apart. -/
theorem nodup_ends_map {edges : List Edge} {change : Edge → Edge}
    (keeps : ∀ edge, (change edge).ends = edge.ends) (unique : (edges.map Edge.ends).Nodup) :
    ((edges.map change).map Edge.ends).Nodup := by
  have same : Edge.ends ∘ change = Edge.ends := funext keeps
  rw [List.map_map, same]
  exact unique

theorem nodup_ends_filter {edges : List Edge} (test : Edge → Bool)
    (unique : (edges.map Edge.ends).Nodup) : ((edges.filter test).map Edge.ends).Nodup :=
  unique.sublist (List.filter_sublist.map Edge.ends)

/-- **Links that are moved to another record do not meet there**, because those that would are
dropped before. -/
theorem nodup_ends_repoint {edges : List Edge} (association : Association)
    (origin destination : EntityId) (unique : (edges.map Edge.ends).Nodup) :
    (((edges.filter fun edge => ¬ collides edges association origin destination edge).map
      (repoint association origin destination)).map Edge.ends).Nodup := by
  rw [List.map_map]
  have kept := nodup_ends_filter (fun edge => ¬ collides edges association origin destination edge)
    unique
  rw [List.Nodup, List.pairwise_map] at kept ⊢
  refine kept.imp_of_mem fun {first second} firstKept secondKept apart same => apart ?_
  obtain ⟨firstStored, firstFree⟩ := List.mem_filter.mp firstKept
  obtain ⟨secondStored, secondFree⟩ := List.mem_filter.mp secondKept
  have meets : ∀ moved stays : Edge, stays ∈ edges → moved.association = association →
      moved.target = origin → (association, moved.source, destination) = stays.ends →
      collides edges association origin destination moved := by
    intro moved stays stored associated originates same
    exact ⟨associated, originates, any_joins.mpr (List.mem_map.mpr ⟨stays, stored, same.symm⟩)⟩
  unfold repoint at same
  rw [Function.comp_apply, Function.comp_apply] at same
  by_cases firstMoves : first.association = association ∧ first.target = origin
  · rw [if_pos firstMoves] at same
    by_cases secondMoves : second.association = association ∧ second.target = origin
    · rw [if_pos secondMoves] at same
      simp only [Edge.ends, Prod.mk.injEq] at same
      simp [Edge.ends, same.2.1, firstMoves, secondMoves]
    · rw [if_neg secondMoves, Edge.ends, firstMoves.1] at same
      exact absurd (meets first second secondStored firstMoves.1 firstMoves.2 same)
        (of_decide_eq_true firstFree)
  · rw [if_neg firstMoves] at same
    by_cases secondMoves : second.association = association ∧ second.target = origin
    · rw [if_pos secondMoves, Edge.ends, Edge.ends, secondMoves.1] at same
      exact absurd (meets second first firstStored secondMoves.1 secondMoves.2 same.symm)
        (of_decide_eq_true secondFree)
    · rw [if_neg secondMoves] at same
      exact same

/-! ### Records that exist -/

theorem hasEntity_mapRows {change : EntityRow → EntityRow}
    (entities : after.entities = store.entities.map change) (keeps : ∀ row, (change row).id = row.id)
    (id : EntityId) : after.hasEntity id = store.hasEntity id := by
  unfold hasEntity
  rw [entities, List.any_map]
  congr 1
  funext row
  rw [Function.comp_apply, keeps]

/-- A write that touches neither fields nor members keeps a store tidy if it keeps the links apart
and no record is lost. -/
theorem Tidy.of_edges (tidy : store.Tidy) (unique : (after.edges.map Edge.ends).Nodup)
    (fields : after.fields = store.fields) (members : after.members = store.members)
    (exist : ∀ id, store.hasEntity id = true → after.hasEntity id = true) : after.Tidy where
  edges := unique
  members := by
    rw [members]
    exact tidy.members
  fieldOwners := by
    rw [fields]
    exact fun row member => exist _ (tidy.fieldOwners row member)
  memberOwners := by
    rw [members]
    exact fun row member => exist _ (tidy.memberOwners row member)

/-! ### Primitive writes -/

theorem setField_tidy {entity : EntityId} {key : String} {value : Value} (tidy : store.Tidy)
    (done : store.setField entity key value = .ok after) : after.Tidy := by
  obtain ⟨frame, rows⟩ := setField_frame done
  have exists? : store.hasEntity entity = true := by
    unfold setField at done
    split at done
    · assumption
    · cases done
  rw [frame]
  refine ⟨tidy.edges, tidy.members, fun row member => ?_, tidy.memberOwners⟩
  rcases rows row member with rfl | ⟨stored, -⟩
  · exact exists?
  · exact tidy.fieldOwners row stored

theorem addMember_tidy {entity : EntityId} {list : String} {value : Value} {isNew : Bool}
    (tidy : store.Tidy) (done : store.addMember entity list value = .ok (isNew, after)) :
    after.Tidy := by
  unfold addMember at done
  split at done
  · cases done
    exact tidy
  · next unknown =>
    split at done
    · next exists? =>
      cases done
      refine ⟨tidy.edges, ?_, tidy.fieldOwners, fun row member => ?_⟩
      · refine List.nodup_append.mpr ⟨tidy.members, List.pairwise_singleton _ _, ?_⟩
        rintro row stored other added rfl
        exact unknown (List.mem_singleton.mp added ▸ stored)
      · rcases List.mem_append.mp member with stored | added
        · exact tidy.memberOwners row stored
        · rw [List.mem_singleton.mp added]
          exact exists?
    · cases done

theorem insertEdge_tidy {association : Association} {source target : EntityId}
    {credit : Option String} {isNew : Bool} (tidy : store.Tidy)
    (done : store.insertEdge association source target credit = .ok (isNew, after)) :
    after.Tidy := by
  obtain ⟨-, frame⟩ := insertEdge_frame done
  rw [frame]
  refine tidy.of_edges ?_ rfl rfl fun _ found => found
  dsimp only
  split
  · exact tidy.edges
  · next unknown =>
    rw [any_joins] at unknown
    rw [List.map_append, List.map_singleton]
    refine List.nodup_append.mpr ⟨tidy.edges, List.pairwise_singleton _ _, ?_⟩
    rintro ends stored other added rfl
    rw [List.mem_singleton.mp added] at stored
    exact unknown stored

/-- **Every primitive write keeps a store tidy.** -/
theorem Written.tidy (written : store.Written after) (tidy : store.Tidy) : after.Tidy := by
  induction written with
  | keep => exact tidy
  | insertEntity id kind now _ done hypothesis =>
    rw [(insertEntity_frame done).2]
    refine hypothesis.of_edges hypothesis.edges rfl rfl fun other found => ?_
    exact List.any_append.trans (Bool.or_eq_true_iff.mpr (.inl found))
  | touchEntity id now _ hypothesis =>
    refine hypothesis.of_edges hypothesis.edges rfl rfl fun other found => ?_
    rwa [hasEntity_mapRows rfl fun row => ?_]
    split <;> rfl
  | tombstoneEntity id now _ done hypothesis =>
    unfold Store.tombstoneEntity at done
    split at done
    · cases done
      refine hypothesis.of_edges (nodup_ends_filter _ hypothesis.edges) rfl rfl fun other found => ?_
      rwa [hasEntity_mapRows rfl fun row => ?_]
      split <;> rfl
    · cases done
  | setField entity key value _ done hypothesis => exact setField_tidy hypothesis done
  | clearField entity key _ hypothesis =>
    exact ⟨hypothesis.edges, hypothesis.members,
      fun row member => hypothesis.fieldOwners row (List.mem_filter.mp member).1,
      hypothesis.memberOwners⟩
  | addMember entity list value _ done hypothesis => exact addMember_tidy hypothesis done
  | removeMember entity list value _ hypothesis =>
    exact ⟨hypothesis.edges, hypothesis.members.sublist List.filter_sublist,
      hypothesis.fieldOwners,
      fun row member => hypothesis.memberOwners row (List.mem_filter.mp member).1⟩
  | insertEdge association source target credit _ done hypothesis =>
    exact insertEdge_tidy hypothesis done
  | deleteEdge association source target _ hypothesis =>
    exact hypothesis.of_edges (nodup_ends_filter _ hypothesis.edges) rfl rfl fun _ found => found
  | setCredit association source target credit _ hypothesis =>
    refine hypothesis.of_edges (nodup_ends_map (fun edge => ?_) hypothesis.edges) rfl rfl
      fun _ found => found
    split <;> rfl
  | repointEdges association origin destination _ done hypothesis =>
    rw [repointEdges_frame done]
    exact hypothesis.of_edges (nodup_ends_repoint association origin destination hypothesis.edges)
      rfl rfl fun _ found => found
  | insertRedirect source target now _ done hypothesis =>
    unfold Store.insertRedirect at done
    split at done
    · split at done <;> cases done <;>
        exact ⟨hypothesis.edges, hypothesis.members, hypothesis.fieldOwners, hypothesis.memberOwners⟩
    · cases done

theorem SameCatalogue.tidy {first second : Store} (same : first.SameCatalogue second)
    (tidy : first.Tidy) : second.Tidy := by
  rw [same]
  exact ⟨tidy.edges, tidy.members, tidy.fieldOwners, tidy.memberOwners⟩

end Store

/-- **Every store that can be reached is tidy.** -/
theorem Desk.run_tidy (desk : Desk) (calls : List (Instant × Call)) :
    (desk.run calls).store.Tidy := by
  refine @run_keeps Store.Tidy desk calls ?_ ?_
  · exact ⟨List.nodup_nil, List.nodup_nil, fun row member => (nomatch member),
      fun row member => (nomatch member)⟩
  · intro now _ call before after turn tidy
    rcases turn.catalogue with same | ⟨edit, fresh, target, store, applied, same, -⟩
    · exact same.tidy tidy
    · exact same.tidy ((Edit.apply_written applied).tidy tidy)

end Curation
