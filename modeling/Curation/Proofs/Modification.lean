/-
**What making and changing a record leaves.** The parts of these operations write to one table each:
scalars to the fields, lists to the members, links and credits to the edges.

* `Store.modify_split`, `Store.create_split`: the parts, in their order;
* `Store.writeScalars_frame`, `Store.writeLists_frame`, `Store.writeDetailLinks_frame`: the tables.
-/

import Curation.Proofs.Credits

namespace Curation.Store

variable {store after : Store} {id : EntityId} {kind : Kind} {details : Details} {now : Instant}

/-! ### One table each -/

theorem writeScalars_frame {scalars : List (String × Value)}
    (done : store.writeScalars id scalars = .ok after) :
    after = { store with fields := after.fields } := by
  refine Except.foldlM_keeps (fun state => state = { store with fields := state.fields }) scalars
    ?_ rfl done
  rintro ⟨key, value⟩ - state next same written
  rw [(setField_frame (Store.lift_ok.mp written)).1, same]

theorem clearDropped_frame (store : Store) (id : EntityId) (change : Change kind) :
    store.clearDropped id change =
      { store with fields := (store.clearDropped id change).fields } := by
  refine List.foldlRecOn _ _
    (motive := fun state : Store => state = { store with fields := state.fields }) rfl ?_
  intro state same field _
  split
  · unfold clearField
    rw [same]
  · exact same

theorem writeList_frame {key : String} {change : ListChange Value}
    (done : store.writeList id key change = .ok after) :
    after = { store with members := after.members } := by
  refine Except.foldlM_keeps (fun state => state = { store with members := state.members })
    change.added ?_ ?_ done
  · intro value _ state next same written
    obtain ⟨⟨isNew, added⟩, lifted, rfl⟩ := Except.map_ok.mp written
    rw [addMember_frame (Store.lift_ok.mp lifted), same]
  · refine List.foldlRecOn _ _
      (motive := fun state : Store => state = { store with members := state.members }) rfl ?_
    intro state same value _
    unfold removeMember
    rw [same]

theorem writeLists_frame {lists : List (String × ListChange Value)}
    (done : store.writeLists id lists = .ok after) :
    after = { store with members := after.members } := by
  refine Except.foldlM_keeps (fun state => state = { store with members := state.members }) lists
    ?_ rfl done
  rintro ⟨key, change⟩ - state next same written
  rw [writeList_frame written, same]

theorem linkTag_frame {scene tag : EntityId} (done : store.linkTag scene tag = .ok after) :
    after = { store with edges := after.edges } := by
  obtain ⟨⟨isNew, linked⟩, lifted, rfl⟩ := Except.map_ok.mp done
  rw [(insertEdge_frame (Store.lift_ok.mp lifted)).2]

theorem linkPerformer_frame {scene : EntityId} {appearance : Appearance}
    (done : store.linkPerformer scene appearance = .ok after) :
    after = { store with edges := after.edges } := by
  obtain ⟨⟨isNew, linked⟩, lifted, finish⟩ := Except.bind_ok.mp done
  have frame := (insertEdge_frame (Store.lift_ok.mp lifted)).2
  cases isNew with
  | true =>
    cases finish
    rw [frame]
  | false =>
    cases finish
    unfold setCredit
    rw [frame]

theorem writeLinks_frame {scene : EntityId} {tags : ListChange EntityId}
    {performers : ListChange Appearance}
    (done : store.writeLinks scene tags performers = .ok after) :
    after = { store with edges := after.edges } := by
  obtain ⟨tagged, tagging, performing⟩ := Except.bind_ok.mp done
  have edgesOnly (state : Store) (keeps : state = { store with edges := state.edges })
      {α : Type} {write : Store → α → Store} (values : List α)
      (each : ∀ (state : Store) value, write state value =
        { state with edges := (write state value).edges }) :
      values.foldl write state = { store with edges := (values.foldl write state).edges } := by
    refine List.foldlRecOn values write
      (motive := fun state : Store => state = { store with edges := state.edges }) keeps ?_
    intro state same value _
    rw [each state value, same]
  have taggedFrame : tagged = { store with edges := tagged.edges } := by
    refine Except.foldlM_keeps (fun state => state = { store with edges := state.edges }) tags.added
      ?_ (edgesOnly store rfl _ fun _ _ => rfl) tagging
    intro tag _ state next same linked
    rw [linkTag_frame linked, same]
  refine Except.foldlM_keeps (fun state => state = { store with edges := state.edges })
    performers.added ?_ (edgesOnly tagged taggedFrame _ fun _ _ => rfl) performing
  intro appearance _ state next same linked
  rw [linkPerformer_frame linked, same]

theorem writeDetailLinks_frame (done : store.writeDetailLinks id details = .ok after) :
    after = { store with edges := after.edges } := by
  obtain ⟨kind, change⟩ := details
  cases kind with
  | scene => exact writeLinks_frame done
  | tag =>
    cases done
    rfl
  | performer =>
    cases done
    rfl
  | studio =>
    cases done
    rfl

/-- Only scenes have links of their own. -/
theorem writeDetailLinks_other (other : details.kind ≠ .scene)
    (done : store.writeDetailLinks id details = .ok after) : after = store := by
  obtain ⟨kind, change⟩ := details
  cases kind with
  | scene => exact absurd rfl other
  | tag =>
    cases done
    rfl
  | performer =>
    cases done
    rfl
  | studio =>
    cases done
    rfl

/-! ### The parts -/

/-- **The parts of a modification.** -/
theorem modify_split (done : store.modify id kind details now = .ok after) :
    ∃ filled listed linked : Store,
      (store.IsLive id kind ∧ store.checkFound id details.change = .ok () ∧
        details.change.checkReferences store (some id) = .ok ()) ∧
      store.writeScalars id details.change.new.scalars = .ok filled ∧
      (filled.clearDropped id details.change).writeLists id details.change.new.lists = .ok listed ∧
      listed.writeDetailLinks id details = .ok linked ∧
      after = (linked.keepCredits id details).touchEntity id now := by
  obtain ⟨_, there, done⟩ := Except.bind_ok.mp done
  obtain ⟨_, found, done⟩ := Except.bind_ok.mp done
  obtain ⟨_, checked, done⟩ := Except.bind_ok.mp done
  obtain ⟨filled, filling, done⟩ := Except.bind_ok.mp done
  obtain ⟨listed, listing, done⟩ := Except.bind_ok.mp done
  obtain ⟨linked, linking, finish⟩ := Except.bind_ok.mp done
  cases finish
  exact ⟨filled, listed, linked, ⟨requireStillLive_ok.mp there, found, checked⟩, filling, listing,
    linking, rfl⟩

/-- **The parts of a creation.** -/
theorem create_split (done : store.create id kind details now = .ok after) :
    ∃ inserted filled listed : Store,
      details.change.checkReferences store none = .ok () ∧
      store.insertEntity id kind now = .ok inserted ∧
      inserted.writeScalars id details.change.new.scalars = .ok filled ∧
      filled.writeLists id details.change.new.lists = .ok listed ∧
      listed.writeDetailLinks id details = .ok after := by
  obtain ⟨_, checked, done⟩ := Except.bind_ok.mp done
  obtain ⟨inserted, insertion, done⟩ := Except.bind_ok.mp done
  obtain ⟨filled, filling, done⟩ := Except.bind_ok.mp done
  obtain ⟨listed, listing, linking⟩ := Except.bind_ok.mp done
  exact ⟨inserted, filled, listed, checked, Store.lift_ok.mp insertion, filling, listing, linking⟩

/-- The links after a modification of a record other than a scene. -/
theorem modify_edges (unique : (store.edges.map Edge.ends).Nodup) (other : details.kind ≠ .scene)
    (done : store.modify id kind details now = .ok after) :
    after.edges = store.edges.map (recredit id (renamedBy details)) := by
  obtain ⟨filled, listed, linked, -, filling, listing, linking, rfl⟩ := modify_split done
  have same : linked.edges = store.edges := by
    rw [writeDetailLinks_other other linking, writeLists_frame listing, clearDropped_frame,
      writeScalars_frame filling]
  show (linked.keepCredits id details).edges = _
  rw [keepCredits_eq (same ▸ unique), same]

end Curation.Store
