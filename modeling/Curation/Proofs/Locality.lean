/-
**Changes are local.** What is written while a record is made or changed concerns that record: all
others read as before, apart from the credits that the renaming of a performer rewrites.

* `Store.Touches`: a write touches one record only, closed under sequencing;
* `Store.create_touches`, `Store.modify_touches`: making and changing a record touch no other;
* `Store.record?_touched`, `Store.modify_others`: what that means for reading the others.
-/

import Curation.Proofs.Modification
import Curation.Review.Reading

namespace Curation

namespace Store

variable {store middle after : Store} {id : EntityId} {now : Instant}

/-- What one store holds of any record but a given one, another holds as well. -/
structure Touches (store after : Store) (id : EntityId) : Prop where
  entities : ∀ other, other ≠ id → after.entity? other = store.entity? other
  fields : ∀ other key, other ≠ id → after.field? other key = store.field? other key
  members : ∀ other list, other ≠ id → after.collection other list = store.collection other list
  links : ∀ other association, other ≠ id →
    after.edgesFrom other association = store.edgesFrom other association

namespace Touches

theorem refl (store : Store) (id : EntityId) : store.Touches store id :=
  ⟨fun _ _ => rfl, fun _ _ _ => rfl, fun _ _ _ => rfl, fun _ _ _ => rfl⟩

theorem trans (first : store.Touches middle id) (second : middle.Touches after id) :
    store.Touches after id where
  entities other apart := (second.entities other apart).trans (first.entities other apart)
  fields other key apart := (second.fields other key apart).trans (first.fields other key apart)
  members other list apart :=
    (second.members other list apart).trans (first.members other list apart)
  links other association apart :=
    (second.links other association apart).trans (first.links other association apart)

theorem foldl {α : Type} {write : Store → α → Store}
    (each : ∀ (store : Store) value, store.Touches (write store value) id) (values : List α)
    (store : Store) : store.Touches (values.foldl write store) id :=
  List.foldlRecOn (motive := fun state => store.Touches state id) values write (refl store id)
    (fun state earlier value _ => earlier.trans (each state value))

theorem foldlM {ε α : Type} {write : Store → α → Except ε Store} {values : List α}
    (each : ∀ (state next : Store) value, write state value = .ok next → state.Touches next id)
    (done : values.foldlM write store = .ok after) : store.Touches after id :=
  Except.foldlM_keeps (fun state => store.Touches state id) values
    (fun value _ state next earlier written => earlier.trans (each state next value written))
    (refl store id) done

end Touches

/-! ### Primitive writes -/

theorem setField_touches {key : String} {value : Value}
    (done : store.setField id key value = .ok after) : store.Touches after id := by
  have frame := (setField_frame done).1
  refine ⟨fun other _ => entity?_congr (by rw [frame]) other, fun other name apart => ?_,
    fun other list _ => ?_, fun other association _ => ?_⟩
  · rw [field?_setField done, if_neg fun same => apart same.1]
  · rw [frame]
    rfl
  · rw [frame]
    rfl

theorem clearField_touches (store : Store) (id : EntityId) (key : String) :
    store.Touches (store.clearField id key) id := by
  refine ⟨fun _ _ => rfl, fun other name apart => ?_, fun _ _ _ => rfl, fun _ _ _ => rfl⟩
  rw [field?_clearField, if_neg fun same => apart same.1]

theorem addMember_touches {list : String} {value : Value} {isNew : Bool}
    (done : store.addMember id list value = .ok (isNew, after)) : store.Touches after id := by
  rw [addMember_frame done]
  refine ⟨fun _ _ => rfl, fun _ _ _ => rfl, fun other name apart => ?_, fun _ _ _ => rfl⟩
  unfold collection
  dsimp only
  split
  · rfl
  · rw [List.filter_append, List.filter_cons_of_neg (by simp [apart.symm]), List.filter_nil,
      List.append_nil]

theorem removeMember_touches (store : Store) (id : EntityId) (list : String) (value : Value) :
    store.Touches (store.removeMember id list value).2 id := by
  refine ⟨fun _ _ => rfl, fun _ _ _ => rfl, fun other name apart => ?_, fun _ _ _ => rfl⟩
  unfold collection removeMember
  dsimp only
  rw [List.filter_filter]
  congr 1
  refine List.filter_congr fun row _ => ?_
  rw [Bool.eq_iff_iff, Bool.and_eq_true, decide_eq_true_iff, decide_eq_true_iff]
  refine ⟨fun both => both.1, fun listed => ⟨listed, ?_⟩⟩
  rintro rfl
  exact apart listed.1.symm

/-- Links that a write changes, all of which start at one record. -/
theorem touches_of_edges {edges : List Edge}
    (same : ∀ test : Edge → Bool, (∀ edge, test edge = true → edge.source ≠ id) →
      edges.filter test = store.edges.filter test) :
    store.Touches { store with edges } id := by
  refine ⟨fun _ _ => rfl, fun _ _ _ => rfl, fun _ _ _ => rfl, fun other association apart => ?_⟩
  refine same _ fun edge starts => ?_
  rw [(of_decide_eq_true starts).1]
  exact apart

theorem insertEdge_touches {association : Association} {target : EntityId}
    {credit : Option String} {isNew : Bool}
    (done : store.insertEdge association id target credit = .ok (isNew, after)) :
    store.Touches after id := by
  rw [(insertEdge_frame done).2]
  refine touches_of_edges fun test starts => ?_
  split
  · rfl
  · rw [List.filter_append, List.filter_cons_of_neg fun passes => starts _ passes rfl,
      List.filter_nil, List.append_nil]

theorem deleteEdge_touches (store : Store) (association : Association) (id target : EntityId) :
    store.Touches (store.deleteEdge association id target).2 id := by
  refine touches_of_edges fun test starts => ?_
  rw [List.filter_filter]
  refine List.filter_congr fun edge _ => ?_
  rw [Bool.eq_iff_iff, Bool.and_eq_true, Bool.not_eq_true', Bool.eq_false_iff]
  refine ⟨fun both => both.1, fun passes => ⟨passes, fun joined => starts edge passes ?_⟩⟩
  exact congrArg (fun ends => ends.2.1) (joins_iff.mp joined)

theorem setCredit_touches (store : Store) (association : Association) (id target : EntityId)
    (credit : Option String) :
    store.Touches (store.setCredit association id target credit) id := by
  refine ⟨fun _ _ => rfl, fun _ _ _ => rfl, fun _ _ _ => rfl, fun other name apart => ?_⟩
  unfold edgesFrom setCredit
  dsimp only
  rw [List.filter_map_keeps fun edge => by split <;> rfl]
  refine (List.map_congr_left fun edge member => if_neg fun joined => ?_).trans (List.map_id _)
  have starts := of_decide_eq_true (List.mem_filter.mp member).2
  have ends := congrArg (fun ends => ends.2.1) (joins_iff.mp joined)
  exact apart (starts.1.symm.trans ends)

theorem touchEntity_touches (store : Store) (id : EntityId) (now : Instant) :
    store.Touches (store.touchEntity id now) id := by
  refine ⟨fun other apart => ?_, fun _ _ _ => rfl, fun _ _ _ => rfl, fun _ _ _ => rfl⟩
  rw [entity?_touchEntity]
  simp only [if_neg apart, Option.map_id']

theorem insertEntity_touches {kind : Kind} (done : store.insertEntity id kind now = .ok after) :
    store.Touches after id := by
  refine ⟨fun other apart => ?_, ?_, ?_, ?_⟩
  · rw [entity?_insertEntity done, if_neg apart]
  all_goals
    rw [(insertEntity_frame done).2]
    exact fun _ _ _ => rfl

/-! ### Parts of an application -/

theorem writeScalars_touches {scalars : List (String × Value)}
    (done : store.writeScalars id scalars = .ok after) : store.Touches after id := by
  refine .foldlM ?_ done
  rintro state next ⟨key, value⟩ written
  exact setField_touches (Store.lift_ok.mp written)

theorem clearDropped_touches {kind : Kind} (store : Store) (id : EntityId) (change : Change kind) :
    store.Touches (store.clearDropped id change) id := by
  refine .foldl (fun state field => ?_) _ store
  split
  · exact clearField_touches state id field.key
  · exact .refl state id

theorem writeList_touches {key : String} {change : ListChange Value}
    (done : store.writeList id key change = .ok after) : store.Touches after id := by
  have removing := Touches.foldl (fun state value => state.removeMember_touches id key value)
    change.removed store
  refine removing.trans (.foldlM (fun state next value written => ?_) done)
  obtain ⟨⟨isNew, added⟩, lifted, rfl⟩ := Except.map_ok.mp written
  exact addMember_touches (Store.lift_ok.mp lifted)

theorem writeLists_touches {lists : List (String × ListChange Value)}
    (done : store.writeLists id lists = .ok after) : store.Touches after id := by
  refine .foldlM ?_ done
  rintro state next ⟨key, change⟩ written
  exact writeList_touches written

theorem linkTag_touches {tag : EntityId} (done : store.linkTag id tag = .ok after) :
    store.Touches after id := by
  obtain ⟨⟨isNew, linked⟩, lifted, rfl⟩ := Except.map_ok.mp done
  exact insertEdge_touches (Store.lift_ok.mp lifted)

theorem linkPerformer_touches {appearance : Appearance}
    (done : store.linkPerformer id appearance = .ok after) : store.Touches after id := by
  obtain ⟨⟨isNew, linked⟩, lifted, finish⟩ := Except.bind_ok.mp done
  have inserted := insertEdge_touches (Store.lift_ok.mp lifted)
  cases isNew with
  | true =>
    cases finish
    exact inserted
  | false =>
    cases finish
    exact inserted.trans (setCredit_touches ..)

theorem writeLinks_touches {tags : ListChange EntityId} {performers : ListChange Appearance}
    (done : store.writeLinks id tags performers = .ok after) : store.Touches after id := by
  obtain ⟨tagged, tagging, performing⟩ := Except.bind_ok.mp done
  have untagging := Touches.foldl (fun state tag => state.deleteEdge_touches .sceneTag id tag)
    tags.removed store
  have dismissing := Touches.foldl (fun state (appearance : Appearance) =>
    state.deleteEdge_touches .scenePerformer id appearance.performer) performers.removed tagged
  have tagging := untagging.trans (.foldlM (fun _ _ _ => linkTag_touches) tagging)
  exact tagging.trans (dismissing.trans (.foldlM (fun _ _ _ => linkPerformer_touches) performing))

theorem writeDetailLinks_touches {details : Details}
    (done : store.writeDetailLinks id details = .ok after) : store.Touches after id := by
  by_cases scene : details.kind = .scene
  · obtain ⟨kind, change⟩ := details
    cases scene
    exact writeLinks_touches done
  · rw [writeDetailLinks_other scene done]
    exact .refl store id

/-! ### Creation and modification -/

section Application

variable {kind : Kind} {details : Details}

/-- **Making a record touches no other.** -/
theorem create_touches (done : store.create id kind details now = .ok after) :
    store.Touches after id := by
  obtain ⟨inserted, filled, listed, -, insertion, filling, listing, linking⟩ := create_split done
  exact (insertEntity_touches insertion).trans ((writeScalars_touches filling).trans
    ((writeLists_touches listing).trans (writeDetailLinks_touches linking)))

/-- The same store with the credits of the links to a performer rewritten. -/
def recreditLinks (store : Store) (record : EntityId) (image : Option String → Option String) :
    Store :=
  { store with edges := store.edges.map (recredit record image) }

theorem parts_tidy {filled listed linked : Store} (tidy : store.Tidy)
    (filling : store.writeScalars id details.change.new.scalars = .ok filled)
    (listing :
      (filled.clearDropped id details.change).writeLists id details.change.new.lists = .ok listed)
    (linking : listed.writeDetailLinks id details = .ok linked) : linked.Tidy := by
  have filledTidy := ((writeScalars_isWrite id _).written filling).tidy tidy
  have clearing : filled.Written (filled.clearDropped id details.change) :=
    (clearDropped_isWrite (ε := ReviewError) id details.change).written rfl
  have listedTidy := ((writeLists_isWrite id _).written listing).tidy (clearing.tidy filledTidy)
  exact ((writeDetailLinks_isWrite id details).written linking).tidy listedTidy

/-- **Changing a record touches no other**, up to the credits that the details rewrite. -/
theorem modify_touches (tidy : store.Tidy) (done : store.modify id kind details now = .ok after) :
    ∃ linked : Store, store.Touches linked id ∧
      after = (linked.recreditLinks id (renamedBy details)).touchEntity id now := by
  obtain ⟨filled, listed, linked, -, filling, listing, linking, rfl⟩ := modify_split done
  refine ⟨linked, ?_, ?_⟩
  · exact (writeScalars_touches filling).trans ((clearDropped_touches filled id _).trans
      ((writeLists_touches listing).trans (writeDetailLinks_touches linking)))
  · rw [keepCredits_eq (parts_tidy tidy filling listing linking).edges]
    rfl

end Application

/-! ### Reading -/

theorem contents_touched (touches : store.Touches after id) {other : EntityId}
    (apart : other ≠ id) (kind : Kind) : after.contents kind other = store.contents kind other := by
  unfold contents
  simp only [touches.fields other _ apart, touches.members other _ apart,
    touches.links other _ apart]

theorem record?_touched (touches : store.Touches after id) {other : EntityId}
    (apart : other ≠ id) (kind : Kind) : after.record? kind other = store.record? kind other := by
  unfold record?
  rw [touches.entities other apart, contents_touched touches apart]

end Store

/-- The same contents with the credits of a performer rewritten. -/
def Contents.recredit (performer : EntityId) (image : Option String → Option String) {kind : Kind}
    (contents : Contents kind) : Contents kind :=
  { contents with
    links := fun link => match link with
      | .sceneTags => contents.links .sceneTags
      | .scenePerformers => (contents.links .scenePerformers).map fun appearance =>
        if appearance.performer = performer
        then { appearance with creditedAs := image appearance.creditedAs } else appearance }

/-- The same record with the credits of a performer rewritten. -/
def Record.recredit (performer : EntityId) (image : Option String → Option String) {kind : Kind}
    (record : Record kind) : Record kind :=
  { record with contents := record.contents.recredit performer image }

theorem Record.recredit_id (performer : EntityId) {kind : Kind} (record : Record kind) :
    record.recredit performer id = record := by
  have kept : (fun appearance : Appearance => if appearance.performer = performer
      then { appearance with creditedAs := id appearance.creditedAs } else appearance) = id :=
    funext fun appearance => ite_self appearance
  have same : record.contents.recredit performer id = record.contents := by
    refine Contents.ext rfl rfl (funext fun link => ?_)
    cases link with
    | sceneTags => rfl
    | scenePerformers => exact (congrArg (List.map · _) kept).trans (List.map_id _)
  unfold recredit
  rw [same]

namespace Store

/-- Rewriting the credits of links is rewriting the credits in what is read. -/
theorem contents_recreditLinks (store : Store) (performer : EntityId)
    (image : Option String → Option String) (kind : Kind) (id : EntityId) :
    (store.recreditLinks performer image).contents kind id =
      (store.contents kind id).recredit performer image := by
  have starts (association : Association) :
      (store.recreditLinks performer image).edgesFrom id association =
        (store.edgesFrom id association).map (Store.recredit performer image) := by
    refine List.filter_map_keeps (fun edge => ?_) store.edges
    unfold Store.recredit
    split <;> rfl
  refine Contents.ext rfl rfl (funext fun link => ?_)
  cases link with
  | sceneTags =>
    refine (congrArg (List.map _) (starts .sceneTag)).trans (List.map_map.trans ?_)
    refine List.map_congr_left fun edge _ => ?_
    exact congrArg (fun ends => ends.2.2) (ends_recredit performer image edge)
  | scenePerformers =>
    refine (congrArg (List.map _) (starts .scenePerformer)).trans (List.map_map.trans ?_)
    refine Eq.trans (List.map_congr_left fun edge member => ?_) List.map_map.symm
    have performs := (of_decide_eq_true (List.mem_filter.mp member).2).2
    rw [Function.comp_apply, Function.comp_apply, Store.recredit]
    by_cases leads : edge.target = performer
    · rw [if_pos ⟨performs, leads⟩]
      exact (if_pos leads).symm
    · rw [if_neg fun both => leads both.2]
      exact (if_neg leads).symm

theorem record?_recreditLinks (store : Store) (performer : EntityId)
    (image : Option String → Option String) (kind : Kind) (id : EntityId) :
    (store.recreditLinks performer image).record? kind id =
      (store.record? kind id).map (Record.recredit performer image) := by
  unfold record?
  rw [contents_recreditLinks, Option.map_map]
  rfl

/-- **What other records read after one was changed**: the same, up to the credits that the details
rewrite. -/
theorem modify_others {id other : EntityId} {kind : Kind} {details : Details} {now : Instant}
    {store after : Store} (tidy : store.Tidy) (done : store.modify id kind details now = .ok after)
    (apart : other ≠ id) (read : Kind) :
    after.record? read other =
      (store.record? read other).map (Record.recredit id (renamedBy details)) := by
  obtain ⟨linked, touches, rfl⟩ := modify_touches tidy done
  rw [record?_touched (touchEntity_touches _ id now) apart, record?_recreditLinks,
    record?_touched touches apart]

end Store

end Curation
