/-
**Where stored values come from.** What is stored once an edit has been applied was there before, or
the details of the edit propose it for the record that is their target, or it is a reference to a
studio that takes the place of another. So whatever has been checked of all proposed values holds of
all stored ones, and a link to a tag never carries a credit.

* `Store.Stems`: the origin of fields and members, and what is kept of links;
* `Store.create_stems`, `Store.modify_stems`, `Store.destroy_stems`, `Store.merge_stems`: the
  operations;
* `Edit.apply_stems`: the application of an edit.
-/

import Curation.Proofs.Integrity

namespace Curation

namespace Store

/-- No link to a tag has a credit. -/
def Uncredited (store : Store) : Prop :=
  ∀ edge ∈ store.edges, edge.association = .sceneTag → edge.credit = none

/-- What is stored in a second state was stored in a first, or some details propose it for a record,
or it refers to a studio. -/
structure Stems (id : EntityId) (details : Details) (before after : Store) : Prop where
  fields : ∀ row ∈ after.fields, row ∈ before.fields ∨
    (row.entity = id ∧ (row.key, row.value) ∈ details.change.new.scalars) ∨
      (row.key ∈ studioKeys ∧ ∃ studio, row.value = .reference studio)
  members : ∀ row ∈ after.members, row ∈ before.members ∨
    (row.entity = id ∧ ∃ change, (row.list, change) ∈ details.change.new.lists ∧
      row.value ∈ change.added)
  credits : before.Uncredited → after.Uncredited

variable {store after : Store} {id target : EntityId} {kind : Kind} {details : Details}
  {now : Instant}

namespace Stems

variable {first second third : Store}

theorem refl (store : Store) : Stems id details store store :=
  ⟨fun _ member => .inl member, fun _ member => .inl member, fun credits => credits⟩

theorem trans (left : Stems id details first second) (right : Stems id details second third) :
    Stems id details first third where
  fields row member := (right.fields row member).elim (left.fields row) .inr
  members row member := (right.members row member).elim (left.members row) .inr
  credits before := right.credits (left.credits before)

/-- A write that adds nothing. -/
theorem of_subset (fields : ∀ row ∈ second.fields, row ∈ first.fields)
    (members : ∀ row ∈ second.members, row ∈ first.members)
    (credits : first.Uncredited → second.Uncredited) : Stems id details first second :=
  ⟨fun row member => .inl (fields row member), fun row member => .inl (members row member), credits⟩

/-- A write to the records themselves or to their redirects. -/
theorem of_same (fields : second.fields = first.fields) (members : second.members = first.members)
    (edges : ∀ edge ∈ second.edges, edge ∈ first.edges) : Stems id details first second :=
  of_subset (fun _ member => fields ▸ member) (fun _ member => members ▸ member)
    fun credits edge member => credits edge (edges edge member)

theorem foldl {α : Type} {write : Store → α → Store}
    (each : ∀ (store : Store) value, Stems id details store (write store value)) (values : List α)
    (store : Store) : Stems id details store (values.foldl write store) :=
  List.foldlRecOn (motive := Stems id details store) values write (refl store)
    fun state earlier value _ => earlier.trans (each state value)

theorem foldlM {ε α : Type} {write : Store → α → Except ε Store} {values : List α}
    (each : ∀ value ∈ values, ∀ state next, write state value = .ok next →
      Stems id details state next)
    (done : values.foldlM write store = .ok after) : Stems id details store after :=
  Except.foldlM_keeps (Stems id details store) values
    (fun value member state next earlier written => earlier.trans (each value member state next written))
    (refl store) done

end Stems

/-! ### Primitive writes -/

theorem touchEntity_stems (store : Store) (touched : EntityId) (now : Instant) :
    Stems id details store (store.touchEntity touched now) :=
  .of_same rfl rfl fun _ member => member

theorem tombstoneEntity_stems {removed : EntityId}
    (done : store.tombstoneEntity removed now = .ok after) : Stems id details store after := by
  rw [tombstoneEntity_frame done]
  exact .of_same rfl rfl fun edge member => (List.mem_filter.mp member).1

theorem clearField_stems (store : Store) (entity : EntityId) (key : String) :
    Stems id details store (store.clearField entity key) :=
  .of_subset (fun _ member => (List.mem_filter.mp member).1) (fun _ member => member)
    fun credits => credits

/-- A field is given a value that the details propose, or that refers to a studio. -/
theorem setField_stems {entity : EntityId} {key : String} {value : Value}
    (proposed : (entity = id ∧ (key, value) ∈ details.change.new.scalars) ∨
      (key ∈ studioKeys ∧ ∃ studio, value = .reference studio))
    (done : store.setField entity key value = .ok after) : Stems id details store after := by
  obtain ⟨frame, rows⟩ := setField_frame done
  refine ⟨fun row member => ?_, ?_, ?_⟩
  · rcases rows row member with rfl | ⟨earlier, -⟩
    · exact .inr proposed
    · exact .inl earlier
  · rw [frame]
    exact fun _ member => .inl member
  · rw [frame]
    exact fun credits => credits

theorem removeMember_stems (store : Store) (entity : EntityId) (list : String) (value : Value) :
    Stems id details store (store.removeMember entity list value).2 :=
  .of_subset (fun _ member => member) (fun _ member => (List.mem_filter.mp member).1)
    fun credits => credits

/-- A collection gets a member that the details propose. -/
theorem addMember_stems {list : String} {change : ListChange Value} {value : Value} {isNew : Bool}
    (proposed : (list, change) ∈ details.change.new.lists) (added : value ∈ change.added)
    (done : store.addMember id list value = .ok (isNew, after)) : Stems id details store after := by
  rw [addMember_frame done]
  refine ⟨fun _ member => .inl member, fun row member => ?_, fun credits => credits⟩
  dsimp only at member
  split at member
  · exact .inl member
  · rcases List.mem_append.mp member with earlier | new
    · exact .inl earlier
    · rw [List.mem_singleton.mp new]
      exact .inr ⟨rfl, change, proposed, added⟩

/-- A link to a tag is made without a credit. -/
theorem insertEdge_stems {association : Association} {source other : EntityId}
    {credit : Option String} {isNew : Bool}
    (uncredited : association = .sceneTag → credit = none)
    (done : store.insertEdge association source other credit = .ok (isNew, after)) :
    Stems id details store after := by
  rw [(insertEdge_frame done).2]
  refine .of_subset (fun _ member => member) (fun _ member => member) fun credits edge member => ?_
  dsimp only at member
  split at member
  · exact credits edge member
  · rcases List.mem_append.mp member with earlier | new
    · exact credits edge earlier
    · rw [List.mem_singleton.mp new]
      exact uncredited

theorem deleteEdge_stems (store : Store) (association : Association) (source other : EntityId) :
    Stems id details store (store.deleteEdge association source other).2 :=
  .of_same rfl rfl fun _ member => (List.mem_filter.mp member).1

/-- Only links to performers have their credits changed. -/
theorem setCredit_stems (store : Store) (source other : EntityId) (credit : Option String) :
    Stems id details store (store.setCredit .scenePerformer source other credit) := by
  refine .of_subset (fun _ member => member) (fun _ member => member) fun credits edge member => ?_
  obtain ⟨earlier, stored, rfl⟩ := List.mem_map.mp member
  split
  next joins =>
    intro tagged
    cases (congrArg Prod.fst (joins_iff.mp joins)).symm.trans tagged
  · exact credits earlier stored

theorem repointEdges_stems {association : Association} {origin destination : EntityId} {moved : Nat}
    (done : store.repointEdges association origin destination = .ok (moved, after)) :
    Stems id details store after := by
  rw [repointEdges_frame done]
  refine .of_subset (fun _ member => member) (fun _ member => member) fun credits edge member => ?_
  obtain ⟨earlier, kept, rfl⟩ := List.mem_map.mp member
  have holds := credits earlier (List.mem_filter.mp kept).1
  unfold repoint
  split <;> exact holds

theorem insertRedirect_stems {source other : EntityId}
    (done : store.insertRedirect source other now = .ok after) : Stems id details store after := by
  rw [(insertRedirect_frame done).1]
  exact .of_same rfl rfl fun _ member => member

/-! ### Writing what a side proposes -/

theorem writeScalars_stems
    (done : store.writeScalars id details.change.new.scalars = .ok after) :
    Stems id details store after := by
  refine .foldlM ?_ done
  rintro ⟨key, value⟩ member state next written
  exact setField_stems (.inl ⟨rfl, member⟩) (Store.lift_ok.mp written)

theorem writeLists_stems (done : store.writeLists id details.change.new.lists = .ok after) :
    Stems id details store after := by
  refine .foldlM ?_ done
  rintro ⟨list, change⟩ proposed state next written
  refine (Stems.foldl (fun current value => removeMember_stems current id list value)
    change.removed state).trans (.foldlM ?_ written)
  intro value added current following adding
  obtain ⟨⟨isNew, _⟩, lifted, rfl⟩ := Except.map_ok.mp adding
  exact addMember_stems proposed added (Store.lift_ok.mp lifted)

theorem linkTag_stems {scene tag : EntityId} (done : store.linkTag scene tag = .ok after) :
    Stems id details store after := by
  obtain ⟨⟨isNew, _⟩, lifted, rfl⟩ := Except.map_ok.mp done
  exact insertEdge_stems (fun _ => rfl) (Store.lift_ok.mp lifted)

theorem linkPerformer_stems {scene : EntityId} {appearance : Appearance}
    (done : store.linkPerformer scene appearance = .ok after) : Stems id details store after := by
  obtain ⟨⟨isNew, linked⟩, lifted, finish⟩ := Except.bind_ok.mp done
  have uncredited : Association.scenePerformer = .sceneTag → appearance.creditedAs = none :=
    fun same => (nomatch same)
  have linking : Stems id details store linked :=
    insertEdge_stems uncredited (Store.lift_ok.mp lifted)
  cases isNew with
  | true =>
    cases finish
    exact linking
  | false =>
    cases finish
    exact linking.trans (setCredit_stems linked scene appearance.performer appearance.creditedAs)

theorem writeDetailLinks_stems (done : store.writeDetailLinks target details = .ok after) :
    Stems id details store after := by
  unfold writeDetailLinks at done
  split at done
  next change =>
    obtain ⟨tagged, tagging, performing⟩ := Except.bind_ok.mp done
    refine (Stems.foldl (fun current tag => deleteEdge_stems current _ _ _) _ store).trans
      (.trans (.foldlM (fun tag _ _ _ linked => linkTag_stems linked) tagging) ?_)
    refine (Stems.foldl (fun current (appearance : Appearance) => deleteEdge_stems current
      .scenePerformer target appearance.performer)
      (change.new.links .scenePerformers).removed tagged).trans ?_
    exact .foldlM (fun appearance _ _ _ linked => linkPerformer_stems linked) performing
  · cases done
    exact .refl _

/-! ### The operations on records -/

theorem create_stems (done : store.create id kind details now = .ok after) :
    Stems id details store after := by
  obtain ⟨inserted, filled, listed, -, insertion, filling, listing, linking⟩ := create_split done
  refine .trans ?_ ((writeScalars_stems filling).trans
    ((writeLists_stems listing).trans (writeDetailLinks_stems linking)))
  rw [(insertEntity_frame insertion).2]
  exact .of_same rfl rfl fun _ member => member

theorem clearDropped_stems (store : Store) (entity : EntityId) (change : Change kind) :
    Stems id details store (store.clearDropped entity change) := by
  refine .foldl (fun current field => ?_) _ _
  split
  · exact clearField_stems current entity field.key
  · exact .refl current

theorem keepCredits_stems (store : Store) (entity : EntityId) (given : Details) :
    Stems id details store (store.keepCredits entity given) := by
  unfold keepCredits creditOldName
  split
  · split
    · split
      · split
        · exact .refl store
        · refine .foldl (fun current edge => ?_) _ _
          unfold creditOldNameOn
          split
          · exact setCredit_stems _ _ _ _
          · split
            · exact setCredit_stems _ _ _ _
            · exact .refl current
      · exact .refl store
    · exact .refl store
  · exact .refl store

theorem modify_stems (done : store.modify id kind details now = .ok after) :
    Stems id details store after := by
  obtain ⟨filled, listed, linked, -, filling, listing, linking, rfl⟩ := modify_split done
  exact (writeScalars_stems filling).trans ((clearDropped_stems filled id details.change).trans
    ((writeLists_stems listing).trans ((writeDetailLinks_stems linking).trans
      ((keepCredits_stems linked id details).trans (touchEntity_stems _ id now)))))

theorem destroy_stems (done : store.destroy target kind now = .ok after) :
    Stems id details store after := by
  obtain ⟨_, -, removal⟩ := Except.bind_ok.mp done
  refine .trans ?_ (tombstoneEntity_stems (Store.lift_ok.mp removal))
  split
  · exact .foldl (fun state key => .foldl (fun current referrer =>
      (clearField_stems current referrer key).trans (touchEntity_stems _ referrer now)) _ state) _ _
  · exact .refl store

theorem redirectStudio_stems {source : EntityId}
    (done : store.redirectStudio source target now = .ok after) : Stems id details store after := by
  refine .foldlM (fun key listed state next redirects => ?_) done
  refine .foldlM (fun referrer _ current following redirected => ?_) redirects
  unfold redirectReferrer at redirected
  split at redirected
  · cases redirected
    exact (clearField_stems current referrer key).trans (touchEntity_stems _ referrer now)
  · obtain ⟨given, setting, finish⟩ := Except.bind_ok.mp redirected
    cases finish
    exact (setField_stems (.inr ⟨listed, target, rfl⟩) (Store.lift_ok.mp setting)).trans
      (touchEntity_stems given referrer now)

theorem creditSourceName_stems (store : Store) (source other : EntityId) :
    Stems id details store (store.creditSourceName source other) := by
  refine .foldl (fun current edge => ?_) _ _
  unfold creditSourceNameOn
  dsimp only
  split
  · exact setCredit_stems _ _ _ _
  · split
    · exact setCredit_stems _ _ _ _
    · exact .refl current

theorem moveReferences_stems {source : EntityId} {given : Details}
    (done : store.moveReferences source target kind given now = .ok after) :
    Stems id details store after := by
  cases kind with
  | tag =>
    obtain ⟨⟨moved, repointed⟩, lifted, rfl⟩ := Except.map_ok.mp done
    exact repointEdges_stems (Store.lift_ok.mp lifted)
  | performer =>
    obtain ⟨⟨moved, repointed⟩, lifted, rfl⟩ := Except.map_ok.mp done
    refine .trans ?_ (repointEdges_stems (Store.lift_ok.mp lifted))
    split
    · exact creditSourceName_stems store source target
    · exact .refl store
  | studio => exact redirectStudio_stems done
  | scene =>
    cases done
    exact .refl store

theorem merge_stems {sources : List EntityId}
    (done : store.merge id sources kind details now = .ok after) : Stems id details store after := by
  obtain ⟨modified, modifying, merging⟩ := Except.bind_ok.mp done
  refine (modify_stems modifying).trans (.foldlM (fun source _ state next merged => ?_) merging)
  obtain ⟨_, -, merged⟩ := Except.bind_ok.mp merged
  obtain ⟨moved, moving, merged⟩ := Except.bind_ok.mp merged
  obtain ⟨removed, removing, redirecting⟩ := Except.bind_ok.mp merged
  exact (moveReferences_stems moving).trans
    ((tombstoneEntity_stems (Store.lift_ok.mp removing)).trans
      (insertRedirect_stems (Store.lift_ok.mp redirecting)))

end Store

/-- **What is stored once an edit has been applied** was there before, or the edit proposes it, or it
refers to a studio. -/
theorem Edit.apply_stems {edit : Edit} {fresh target : EntityId} {now : Instant}
    {store after : Store} (applied : edit.apply fresh now store = .ok (target, after)) :
    Store.Stems target edit.details store after := by
  have writes := Edit.apply_ok.mp applied
  split at writes
  all_goals obtain ⟨aims, done⟩ := writes
  · rw [aims]
    exact Store.create_stems done
  · exact Store.modify_stems done
  · exact Store.destroy_stems done
  · exact Store.merge_stems done

end Curation
