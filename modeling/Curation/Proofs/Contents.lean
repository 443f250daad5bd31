/-
**What a record reads after a write.** What an application writes to a record is read back: a field
reads the value that it was given, a list reads what its change leaves of it, and a link reads the
last listing of each record that it leads to.

* `Store.scalar_written`: fields, from what the two sides of a change hold;
* `ListChange.Leaves`, `Store.mem_members_written`: the members of a collection;
* `Store.listing?`, `Store.mem_links_written`: the links, by the record at their other end.
-/

import Curation.Proofs.Locality

namespace Curation

/-- **What a change leaves of a list**: a value that was there and is not removed, or one that is
added. -/
def ListChange.Leaves {α : Type} (change : ListChange α) (before : List α) (value : α) : Prop :=
  (value ∈ before ∧ value ∉ change.removed) ∨ value ∈ change.added

/-- The last of several listings that leads to a given record. -/
def Link.last? {kind : Kind} (link : Link kind) (listings : List link.Carrier)
    (target : EntityId) : Option link.Carrier :=
  listings.reverse.find? fun listed => link.target listed = target

/-- **What a change leaves of links**, which tell the records that they lead to apart: the last listing
of a record that is added, or the listing that was there of one that is neither added nor removed. -/
def Link.Leaves {kind : Kind} (link : Link kind) (change : ListChange link.Carrier)
    (before : List link.Carrier) (listed : link.Carrier) : Prop :=
  link.last? change.added (link.target listed) = some listed ∨
    (link.target listed ∉ change.added.map link.target ∧
      link.target listed ∉ change.removed.map link.target ∧ listed ∈ before)

/-- Making the same change twice leaves what making it once does. -/
theorem ListChange.leaves_leaves {α : Type} {change : ListChange α} {before middle : List α}
    {value : α} (same : ∀ value, value ∈ middle ↔ change.Leaves before value) :
    change.Leaves middle value ↔ change.Leaves before value := by
  unfold ListChange.Leaves at same ⊢
  rw [same]
  tauto

namespace Store

variable {store after : Store} {id : EntityId} {kind : Kind}

/-! ### Fields -/

/-- What a field reads after several were written, if its entries agree on a value. -/
theorem field?_writeScalars {scalars : List (String × Value)} {key : String}
    {wanted : Option Value} (agrees : ∀ entry ∈ scalars, entry.1 = key → some entry.2 = wanted)
    (done : store.writeScalars id scalars = .ok after) :
    after.field? id key =
      if key ∈ scalars.map Prod.fst then wanted else store.field? id key := by
  induction scalars generalizing store with
  | nil =>
    cases done
    rfl
  | cons entry rest hypothesis =>
    obtain ⟨middle, first, later⟩ := Except.bind_ok.mp done
    have head := agrees entry List.mem_cons_self
    rw [hypothesis (fun other member => agrees other (List.mem_cons_of_mem _ member)) later,
      field?_setField (Store.lift_ok.mp first), List.map_cons]
    simp only [List.mem_cons, true_and]
    by_cases listed : key ∈ rest.map Prod.fst
    · rw [if_pos listed, if_pos (.inr listed)]
    · rw [if_neg listed]
      by_cases same : key = entry.1
      · rw [if_pos same, if_pos (.inl same), head same.symm]
      · rw [if_neg same, if_neg (not_or.mpr ⟨same, listed⟩)]

theorem field?_writeSide {side : Side kind}
    (done : store.writeScalars id side.scalars = .ok after) (field : Field kind) :
    after.field? id field.key = (side.value? field).or (store.field? id field.key) := by
  have agrees : ∀ entry ∈ side.scalars, entry.1 = field.key → some entry.2 = side.value? field := by
    intro entry member same
    obtain ⟨other, valued, named⟩ := Side.mem_scalars.mp member
    cases Field.key_inj (named.trans same)
    exact valued.symm
  rw [field?_writeScalars agrees done]
  cases valued : side.value? field with
  | none =>
    refine if_neg fun listed => ?_
    obtain ⟨entry, member, same⟩ := List.mem_map.mp listed
    have proposes := agrees entry member same
    rw [valued] at proposes
    cases proposes
  | some value =>
    refine if_pos ?_
    exact List.mem_map_of_mem (f := Prod.fst)
      (Side.mem_scalars.mpr ⟨field, valued, rfl⟩ : (field.key, value) ∈ side.scalars)

/-- A change found a value for a field and proposes none. -/
def Drops (change : Change kind) (field : Field kind) : Prop :=
  ((change.old.value? field).isSome && (change.new.value? field).isNone) = true

instance (change : Change kind) (field : Field kind) : Decidable (Drops change field) := by
  unfold Drops
  infer_instance

theorem field?_clearDropped (store : Store) (id : EntityId) (change : Change kind)
    (field : Field kind) :
    (store.clearDropped id change).field? id field.key =
      if Drops change field then none else store.field? id field.key := by
  let step (state : Store) (other : Field kind) : Store :=
    if Drops change other then state.clearField id other.key else state
  have single : ∀ (state : Store) (other : Field kind), (step state other).field? id field.key =
      if other = field ∧ Drops change field then none else state.field? id field.key := by
    intro state other
    by_cases drops : Drops change other
    · rw [show step state other = state.clearField id other.key from if_pos drops,
        field?_clearField]
      refine if_congr ⟨fun both => ?_, fun both => ⟨rfl, by rw [both.1]⟩⟩ rfl rfl
      cases Field.key_inj both.2
      exact ⟨rfl, drops⟩
    · rw [show step state other = state from if_neg drops, if_neg]
      rintro ⟨rfl, drops'⟩
      exact drops drops'
  have every : ∀ (fields : List (Field kind)) (state : Store),
      (fields.foldl step state).field? id field.key =
        if field ∈ fields ∧ Drops change field then none else state.field? id field.key := by
    intro fields
    induction fields with
    | nil => exact fun state => (if_neg fun both => (nomatch both.1)).symm
    | cons head rest hypothesis =>
      intro state
      rw [List.foldl_cons, hypothesis, single, ← ite_or]
      refine if_congr ?_ rfl rfl
      rw [List.mem_cons, ← or_and_right, or_comm, eq_comm]
  refine (every (Field.byKey kind) store).trans (if_congr ?_ rfl rfl)
  exact and_iff_right (Field.mem_byKey field)

/-- **What a field reads after both sides of a change were written**: the value proposed, or none if
there was one and none is proposed, or else what it read before. -/
theorem scalar_written {change : Change kind}
    (done : store.writeScalars id change.new.scalars = .ok after) (field : Field kind) :
    ((after.clearDropped id change).contents kind id).scalar field =
      (change.new.scalar field).or
        (if (change.old.scalar field).isSome then none
          else (store.contents kind id).scalar field) := by
  show ((after.clearDropped id change).field? id field.key).bind field.sort.ofValue? = _
  rw [field?_clearDropped, field?_writeSide done]
  have drops : Drops change field ↔
      (change.old.scalar field).isSome = true ∧ change.new.scalar field = none := by
    simp [Drops, Side.value?]
  cases new : change.new.value? field with
  | none =>
    have proposes : change.new.scalar field = none := Option.map_eq_none_iff.mp new
    rw [proposes, Option.none_or, Option.none_or, if_congr (drops.trans (and_iff_left proposes)) rfl
      rfl]
    split <;> rfl
  | some value =>
    obtain ⟨wanted, proposes, rfl⟩ := Option.map_eq_some_iff.mp new
    rw [if_neg fun dropped => ?_, proposes, Option.some_or, Option.some_or]
    · exact Scalar.ofValue?_value _ wanted
    · have none := (drops.mp dropped).2
      rw [proposes] at none
      cases none

/-! ### Collections -/

section Members

variable {key list : String} {value : Value}

theorem mem_collection : value ∈ store.collection id list ↔ ⟨id, list, value⟩ ∈ store.members := by
  unfold collection
  rw [List.mem_map]
  constructor
  · rintro ⟨⟨owner, name, held⟩, member, rfl⟩
    obtain ⟨stored, same⟩ := List.mem_filter.mp member
    obtain ⟨rfl, rfl⟩ := of_decide_eq_true same
    exact stored
  · intro stored
    exact ⟨⟨id, list, value⟩, List.mem_filter.mpr ⟨stored, decide_eq_true ⟨rfl, rfl⟩⟩, rfl⟩

theorem mem_collection_removeMember (store : Store) (removed : Value) :
    value ∈ (store.removeMember id key removed).2.collection id list ↔
      value ∈ store.collection id list ∧ (list = key → value ≠ removed) := by
  rw [mem_collection, mem_collection]
  unfold removeMember
  rw [List.mem_filter, decide_eq_true_iff]
  refine and_congr_right fun _ => ?_
  simp only [ne_eq, MemberRow.mk.injEq, true_and, not_and]

theorem mem_collection_addMember {added : Value} {isNew : Bool}
    (done : store.addMember id key added = .ok (isNew, after)) :
    value ∈ after.collection id list ↔
      value ∈ store.collection id list ∨ (list = key ∧ value = added) := by
  rw [mem_collection, mem_collection, addMember_frame done]
  dsimp only
  have same : (⟨id, list, value⟩ : MemberRow) = ⟨id, key, added⟩ ↔ list = key ∧ value = added := by
    simp only [MemberRow.mk.injEq, true_and]
  split
  next known =>
    refine (or_iff_left_of_imp fun both => ?_).symm
    rwa [same.mpr both]
  next => rw [List.mem_append, List.mem_singleton, same]

/-- What a change of one list leaves of it, and of the others. -/
theorem mem_writeList {change : ListChange Value}
    (done : store.writeList id key change = .ok after) :
    value ∈ after.collection id list ↔
      if list = key then change.Leaves (store.collection id list) value
      else value ∈ store.collection id list := by
  have removing : ∀ (removed : List Value) (state : Store),
      value ∈ (removed.foldl (fun store value => (store.removeMember id key value).2)
        state).collection id list ↔
        value ∈ state.collection id list ∧ (list = key → value ∉ removed) := by
    intro removed
    induction removed with
    | nil => simp
    | cons head rest hypothesis =>
      intro state
      rw [List.foldl_cons, hypothesis, mem_collection_removeMember, and_assoc, List.mem_cons,
        not_or, ← forall_and]
  have adding : ∀ (added : List Value) (state : Store), added.foldlM (fun store value =>
      (lift (store.addMember id key value)).map Prod.snd) state = .ok after →
        (value ∈ after.collection id list ↔
          value ∈ state.collection id list ∨ (list = key ∧ value ∈ added)) := by
    intro added
    induction added with
    | nil =>
      intro state finish
      cases finish
      simp
    | cons head rest hypothesis =>
      intro state writing
      obtain ⟨middle, first, later⟩ := Except.bind_ok.mp writing
      obtain ⟨⟨isNew, joined⟩, lifted, rfl⟩ := Except.map_ok.mp first
      rw [hypothesis _ later, mem_collection_addMember (Store.lift_ok.mp lifted), or_assoc,
        List.mem_cons, ← and_or_left]
  rw [adding _ _ done, removing]
  split
  next same => simp only [same, true_and, forall_const, ListChange.Leaves]
  next other => simp only [other, false_and, or_false, false_implies, and_true]

/-- What changes of several lists leave of one, if they agree on its change. -/
theorem mem_writeLists {lists : List (String × ListChange Value)} {wanted : ListChange Value}
    (agrees : ∀ entry ∈ lists, entry.1 = list → entry.2 = wanted)
    (done : store.writeLists id lists = .ok after) :
    value ∈ after.collection id list ↔
      if list ∈ lists.map Prod.fst then wanted.Leaves (store.collection id list) value
      else value ∈ store.collection id list := by
  induction lists generalizing store value with
  | nil =>
    cases done
    rfl
  | cons entry rest hypothesis =>
    obtain ⟨middle, first, later⟩ := Except.bind_ok.mp done
    have head := agrees entry List.mem_cons_self
    rw [hypothesis (fun other member => agrees other (List.mem_cons_of_mem _ member)) later,
      List.map_cons]
    simp only [List.mem_cons]
    by_cases same : list = entry.1
    · have left : ∀ value, value ∈ middle.collection id list ↔
          wanted.Leaves (store.collection id list) value := by
        intro value
        rw [mem_writeList first, if_pos same, head same.symm]
      have listed : list = entry.1 ∨ list ∈ rest.map Prod.fst := .inl same
      rw [if_pos listed]
      split
      · exact ListChange.leaves_leaves left
      · exact left value
    · have kept : ∀ value, value ∈ middle.collection id list ↔
          value ∈ store.collection id list := by
        intro value
        rw [mem_writeList first, if_neg same]
      simp only [same, false_or, ListChange.Leaves, kept]

theorem mem_members {collection : Collection kind} {held : collection.Carrier} :
    held ∈ (store.contents kind id).members collection ↔
      collection.sort.value held ∈ store.collection id collection.key := by
  show held ∈ List.filterMap _ _ ↔ _
  rw [List.mem_filterMap]
  constructor
  · rintro ⟨value, listed, reads⟩
    rwa [← Member.ofValue?_eq_some.mp reads]
  · intro listed
    exact ⟨_, listed, Member.ofValue?_value _ held⟩

theorem nodup_collection (tidy : store.Tidy) (id : EntityId) (list : String) :
    (store.collection id list).Nodup := by
  refine List.Nodup.map_on ?_ (tidy.members.filter _)
  intro first firstListed second secondListed same
  obtain ⟨firstOwner, firstList⟩ := of_decide_eq_true (List.mem_filter.mp firstListed).2
  obtain ⟨secondOwner, secondList⟩ := of_decide_eq_true (List.mem_filter.mp secondListed).2
  exact (MemberRow.mk.injEq ..).mpr
    ⟨firstOwner.trans secondOwner.symm, firstList.trans secondList.symm, same⟩

theorem nodup_members (tidy : store.Tidy) (id : EntityId) (collection : Collection kind) :
    ((store.contents kind id).members collection).Nodup := by
  refine List.Nodup.filterMap (fun first second held reads alsoReads => ?_)
    (nodup_collection tidy id collection.key)
  rw [Member.ofValue?_eq_some.mp reads, Member.ofValue?_eq_some.mp alsoReads]

/-- **What a collection reads after the lists of a side were written.** -/
theorem mem_members_written {side : Side kind} (done : store.writeLists id side.lists = .ok after)
    (collection : Collection kind) (held : collection.Carrier) :
    held ∈ (after.contents kind id).members collection ↔
      (side.members collection).Leaves ((store.contents kind id).members collection) held := by
  have agrees : ∀ entry ∈ side.lists, entry.1 = collection.key →
      entry.2 = (side.members collection).map collection.sort.value := by
    intro entry member same
    obtain ⟨other, -, rfl⟩ := Side.mem_lists.mp member
    cases Collection.key_inj same
    rfl
  have listed : ∀ values : List collection.Carrier,
      collection.sort.value held ∈ values.map collection.sort.value ↔ held ∈ values :=
    fun values => List.mem_map_of_injective fun _ _ same => Member.value_inj same
  rw [mem_members, mem_writeLists agrees done]
  split
  next =>
    simp only [ListChange.Leaves, ListChange.map, listed, mem_members]
  next unlisted =>
    have empty : (side.members collection).isEmpty = true := by
      by_contra changes
      refine unlisted (List.mem_map.mpr ⟨_, Side.mem_lists.mpr ⟨collection, ?_, rfl⟩, rfl⟩)
      exact Bool.eq_false_iff.mpr changes
    obtain ⟨noneAdded, noneRemoved⟩ := Bool.and_eq_true_iff.mp empty
    rw [← mem_members, ListChange.Leaves, List.isEmpty_iff.mp noneAdded,
      List.isEmpty_iff.mp noneRemoved]
    simp

end Members

/-! ### Links -/

section Links

variable {link : Link kind} {other : EntityId}

/-- What the link between two records reads, if there is one. -/
def listing? (store : Store) (link : Link kind) (id other : EntityId) : Option link.Carrier :=
  (store.credit? link.association id other).map (link.ofEdge other)

theorem Tidy.credit?_of_mem (tidy : store.Tidy) {edge : Edge} (stored : edge ∈ store.edges) :
    store.credit? edge.association edge.source edge.target = some edge.credit := by
  unfold credit?
  have found : (store.edges.find? (joins edge.association edge.source edge.target)).isSome := by
    rw [List.find?_isSome]
    exact ⟨edge, stored, joins_iff.mpr rfl⟩
  obtain ⟨first, picked⟩ := Option.isSome_iff_exists.mp found
  have same := joins_iff.mp (List.find?_some picked)
  rw [picked, eq_of_ends tidy.edges (List.mem_of_find?_eq_some picked) stored same]
  rfl

theorem mem_links (tidy : store.Tidy) {listed : link.Carrier} :
    listed ∈ (store.contents kind id).links link ↔
      store.listing? link id (link.target listed) = some listed := by
  show listed ∈ List.map _ _ ↔ _
  rw [List.mem_map]
  constructor
  · rintro ⟨edge, member, rfl⟩
    obtain ⟨stored, starts⟩ := List.mem_filter.mp member
    obtain ⟨rfl, association⟩ := of_decide_eq_true starts
    rw [Link.target_ofEdge, listing?, ← association, tidy.credit?_of_mem stored]
    rfl
  · intro found
    obtain ⟨credit, credited, same⟩ := Option.map_eq_some_iff.mp found
    obtain ⟨edge, picked, rfl⟩ := Option.map_eq_some_iff.mp credited
    have ends := joins_iff.mp (List.find?_some picked)
    simp only [Edge.ends, Prod.mk.injEq] at ends
    refine ⟨edge, List.mem_filter.mpr ⟨List.mem_of_find?_eq_some picked, ?_⟩, ?_⟩
    · exact decide_eq_true ⟨ends.2.1, ends.1⟩
    · rw [ends.2.2]
      exact same

theorem nodup_links (tidy : store.Tidy) (id : EntityId) (link : Link kind) :
    (((store.contents kind id).links link).map link.target).Nodup := by
  show (List.map _ (List.map _ _)).Nodup
  rw [List.map_map]
  have targets : (link.target ∘ fun edge : Edge => link.ofEdge edge.target edge.credit) =
      Edge.target := funext fun edge => link.target_ofEdge edge.target edge.credit
  rw [targets]
  refine List.Nodup.map_on ?_ ((List.Nodup.of_map _ tidy.edges).filter _)
  intro first firstListed second secondListed same
  obtain ⟨firstStored, firstStarts⟩ := List.mem_filter.mp firstListed
  obtain ⟨secondStored, secondStarts⟩ := List.mem_filter.mp secondListed
  obtain ⟨firstSource, firstAssociation⟩ := of_decide_eq_true firstStarts
  obtain ⟨secondSource, secondAssociation⟩ := of_decide_eq_true secondStarts
  refine eq_of_ends tidy.edges firstStored secondStored ?_
  rw [Edge.ends, Edge.ends, firstSource, secondSource, firstAssociation, secondAssociation, same]

theorem listing?_deleteEdge (store : Store) (association : Association) (target : EntityId) :
    (store.deleteEdge association id target).2.listing? link id other =
      if link.association = association ∧ other = target then none
      else store.listing? link id other := by
  unfold listing?
  rw [credit?_deleteEdge, apply_ite (Option.map (link.ofEdge other))]
  refine if_congr ?_ rfl rfl
  simp only [Prod.mk.injEq, true_and]

theorem listing?_insertEdge {association : Association} {target : EntityId}
    {credit : Option String} {isNew : Bool}
    (done : store.insertEdge association id target credit = .ok (isNew, after)) :
    after.listing? link id other =
      if link.association = association ∧ other = target
      then (store.listing? link id other).or (some (link.ofEdge other credit))
      else store.listing? link id other := by
  unfold listing?
  rw [credit?_insertEdge done, apply_ite (Option.map (link.ofEdge other)), Option.map_or]
  refine if_congr ?_ rfl rfl
  simp only [Prod.mk.injEq, true_and]

theorem listing?_setCredit (store : Store) (association : Association) (target : EntityId)
    (credit : Option String) :
    (store.setCredit association id target credit).listing? link id other =
      if link.association = association ∧ other = target
      then (store.listing? link id other).map fun _ => link.ofEdge other credit
      else store.listing? link id other := by
  unfold listing?
  rw [credit?_setCredit, Option.map_map, Option.map_map]
  by_cases same : link.association = association ∧ other = target
  · obtain ⟨rfl, rfl⟩ := same
    simp only [and_self, if_true]
    rfl
  · rw [if_neg same]
    refine congrArg (Option.map · _) (funext fun earlier => ?_)
    rw [Function.comp_apply, if_neg]
    simpa using same

theorem listing?_linkTag {id tag other : EntityId} (done : store.linkTag id tag = .ok after) :
    after.listing? .sceneTags id other =
        (if tag = other then some tag else store.listing? .sceneTags id other) ∧
      after.listing? .scenePerformers id other = store.listing? .scenePerformers id other := by
  obtain ⟨⟨isNew, linked⟩, lifted, rfl⟩ := Except.map_ok.mp done
  have inserted := Store.lift_ok.mp lifted
  refine ⟨?_, (listing?_insertEdge inserted).trans (if_neg fun both => (nomatch both.1))⟩
  rw [listing?_insertEdge inserted]
  by_cases same : tag = other
  · subst same
    rw [if_pos rfl, if_pos ⟨rfl, rfl⟩]
    unfold listing?
    cases store.credit? _ id tag <;> rfl
  · rw [if_neg same, if_neg fun both => same both.2.symm]

theorem listing?_linkPerformer {id other : EntityId} {appearance : Appearance}
    (done : store.linkPerformer id appearance = .ok after) :
    after.listing? .scenePerformers id other =
        (if appearance.performer = other then some appearance
          else store.listing? .scenePerformers id other) ∧
      after.listing? .sceneTags id other = store.listing? .sceneTags id other := by
  obtain ⟨⟨isNew, linked⟩, lifted, finish⟩ := Except.bind_ok.mp done
  have inserted := Store.lift_ok.mp lifted
  have tags : linked.listing? .sceneTags id other = store.listing? .sceneTags id other :=
    (listing?_insertEdge inserted).trans (if_neg fun both => (nomatch both.1))
  cases isNew with
  | true =>
    cases finish
    refine ⟨?_, tags⟩
    rw [listing?_insertEdge inserted]
    by_cases same : appearance.performer = other
    · subst same
      have free : store.listing? .scenePerformers id appearance.performer = none := by
        unfold listing?
        rw [Option.map_eq_none_iff, ← Option.not_isSome_iff_eq_none, credit?_isSome,
          Bool.not_eq_true]
        exact Bool.not_eq_eq_eq_not.mp (insertEdge_frame inserted).1.symm
      rw [if_pos rfl, if_pos ⟨rfl, rfl⟩, free]
      rfl
    · rw [if_neg same, if_neg fun both => same both.2.symm]
  | false =>
    cases finish
    refine ⟨?_, (listing?_setCredit ..).trans ((if_neg fun both => (nomatch both.1)).trans tags)⟩
    rw [listing?_setCredit, listing?_insertEdge inserted]
    by_cases same : appearance.performer = other
    · subst same
      rw [if_pos rfl, if_pos ⟨rfl, rfl⟩, if_pos ⟨rfl, rfl⟩]
      cases store.listing? _ id appearance.performer <;> rfl
    · rw [if_neg same, if_neg fun both => same both.2.symm]
      exact if_neg fun both => same both.2.symm

/-- Of several listings that are written one after the other, the last one counts. -/
theorem listing?_foldlM {write : Store → link.Carrier → Except ReviewError Store}
    (each : ∀ state next listed, write state listed = .ok next →
      next.listing? link id other =
        if link.target listed = other then some listed else state.listing? link id other)
    {added : List link.Carrier} (done : added.foldlM write store = .ok after) :
    after.listing? link id other = (link.last? added other).or (store.listing? link id other) := by
  induction added generalizing store with
  | nil =>
    cases done
    rfl
  | cons head rest hypothesis =>
    obtain ⟨middle, first, later⟩ := Except.bind_ok.mp done
    rw [hypothesis later, each store middle head first]
    unfold Link.last?
    rw [List.reverse_cons, List.find?_append, Option.or_assoc, List.find?_singleton]
    congr 1
    by_cases leads : link.target head = other
    · rw [if_pos leads, if_pos (decide_eq_true leads), Option.some_or]
    · rw [if_neg leads, if_neg (by simpa using leads), Option.none_or]

theorem listing?_foldl_deleteEdge (link : Link kind) (removed : List link.Carrier)
    (store : Store) :
    (removed.foldl (fun store listed =>
        (store.deleteEdge link.association id (link.target listed)).2) store).listing? link id other =
      if other ∈ removed.map link.target then none else store.listing? link id other := by
  induction removed generalizing store with
  | nil => rfl
  | cons head rest hypothesis =>
    rw [List.foldl_cons, hypothesis, listing?_deleteEdge, ← ite_or]
    refine if_congr ?_ rfl rfl
    rw [List.map_cons, List.mem_cons, or_comm, eq_self_iff_true, true_and]

/-- **What the links of a scene read after they were written.** -/
theorem listing?_writeLinks {id : EntityId} {change : (link : Link .scene) → ListChange link.Carrier}
    (done : store.writeLinks id (change .sceneTags) (change .scenePerformers) = .ok after)
    (link : Link .scene) (other : EntityId) :
    after.listing? link id other = (link.last? (change link).added other).or
      (if other ∈ (change link).removed.map link.target then none
        else store.listing? link id other) := by
  obtain ⟨tagged, tagging, performing⟩ := Except.bind_ok.mp done
  cases link with
  | sceneTags =>
    let keeps (state : Store) : Prop :=
      state.listing? .sceneTags id other = tagged.listing? .sceneTags id other
    have kept : keeps after := by
      refine Except.foldlM_keeps keeps _ ?_ (List.foldlRecOn (motive := keeps) _ _ rfl ?_) performing
      · exact fun appearance _ state next same linked => (listing?_linkPerformer linked).2.trans same
      · exact fun state same appearance _ => (listing?_deleteEdge state _ _).trans
          ((if_neg fun both => (nomatch both.1)).trans same)
    refine Eq.trans kept ?_
    rw [listing?_foldlM (fun _ _ _ linked => (listing?_linkTag linked).1) tagging]
    exact congrArg _ (listing?_foldl_deleteEdge .sceneTags _ store)
  | scenePerformers =>
    let keeps (state : Store) : Prop :=
      state.listing? .scenePerformers id other = store.listing? .scenePerformers id other
    have kept : keeps tagged := by
      refine Except.foldlM_keeps keeps _ ?_ (List.foldlRecOn (motive := keeps) _ _ rfl ?_) tagging
      · exact fun tag _ state next same linked => (listing?_linkTag linked).2.trans same
      · exact fun state same tag _ => (listing?_deleteEdge state _ _).trans
          ((if_neg fun both => (nomatch both.1)).trans same)
    rw [listing?_foldlM (fun _ _ _ linked => (listing?_linkPerformer linked).1) performing]
    refine congrArg _ ((listing?_foldl_deleteEdge .scenePerformers _ tagged).trans ?_)
    exact if_congr Iff.rfl rfl kept

theorem listing?_writeDetailLinks {details : Details}
    (done : store.writeDetailLinks id details = .ok after) (link : Link details.kind)
    (other : EntityId) :
    after.listing? link id other = (link.last? (details.change.new.links link).added other).or
      (if other ∈ (details.change.new.links link).removed.map link.target then none
        else store.listing? link id other) := by
  obtain ⟨kind, change⟩ := details
  cases kind with
  | scene => exact listing?_writeLinks done link other
  | tag => nomatch link
  | performer => nomatch link
  | studio => nomatch link

/-- **What a link reads after the links of a side were written.** -/
theorem mem_links_written {change : ListChange link.Carrier} (tidy : store.Tidy)
    (afterTidy : after.Tidy)
    (written : ∀ other, after.listing? link id other = (link.last? change.added other).or
      (if other ∈ change.removed.map link.target then none else store.listing? link id other))
    (listed : link.Carrier) :
    listed ∈ (after.contents kind id).links link ↔
      link.Leaves change ((store.contents kind id).links link) listed := by
  have unlisted : link.last? change.added (link.target listed) = none ↔
      link.target listed ∉ change.added.map link.target := by
    unfold Link.last?
    rw [List.find?_eq_none, List.mem_map]
    simp
  rw [mem_links afterTidy, written, Link.Leaves, mem_links tidy]
  cases last : link.last? change.added (link.target listed) with
  | some other =>
    have added : ¬ link.target listed ∉ change.added.map link.target := by
      rw [← unlisted, last]
      exact Option.some_ne_none other
    rw [Option.some_or, or_iff_left fun kept => added kept.1]
  | none =>
    have kept := unlisted.mp last
    rw [Option.none_or, or_iff_right (fun found => (nomatch found)), and_iff_right kept]
    by_cases removed : link.target listed ∈ change.removed.map link.target
    · rw [if_pos removed]
      exact ⟨fun found => (nomatch found), fun both => absurd removed both.1⟩
    · rw [if_neg removed, and_iff_right removed]

end Links

end Store

end Curation
