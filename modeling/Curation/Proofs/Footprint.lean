/-
**What a modification touches.** A catalogue falls into parts: the fields with one key, the members
of the collections with one key, and the links of one association. A write acts on each part by what
is in that part, and a modification acts on no others than its details touch and, if they name a
performer anew, the links of performers.

* `Store.ActsWithin`: a write acts part by part, and on some parts only;
* `Store.modify_acts`: on which parts a modification does;
* `Store.modify_field?`: what the fields of the record hold then.
-/

import Curation.Proofs.Contents

namespace Curation

/-- A part of a catalogue. -/
inductive Part where
  | field (key : String)
  | list (key : String)
  | links (association : Association)
deriving DecidableEq

/-- What the rows of a part are. -/
abbrev Part.Row : Part → Type
  | .field _ => FieldRow
  | .list _ => MemberRow
  | .links _ => Edge

/-! ### Lists -/

/-- A change that a test does not see leaves alone what passes if it only changes what does not. -/
theorem List.filter_map_fixes {α : Type} {change : α → α} {test : α → Bool}
    (keeps : ∀ value, test (change value) = test value)
    (fixes : ∀ value, test value = true → change value = value) (values : List α) :
    (values.map change).filter test = values.filter test := by
  rw [List.filter_map_keeps keeps]
  refine (List.map_congr_left fun value member => ?_).trans (List.map_id _)
  exact fixes value (List.mem_filter.mp member).2

namespace Store

/-- The rows of a part, in their order. -/
def rowsIn (store : Store) : (part : Part) → List part.Row
  | .field key => store.fields.filter fun row => row.key = key
  | .list key => store.members.filter fun row => row.list = key
  | .links association => store.edges.filter fun edge => edge.association = association

/-- A write acts on each part by what is in that part, and leaves all but some parts alone. -/
def ActsWithin {ε : Type} (within : Part → Prop) (write : Store → Except ε Store) : Prop :=
  ∃ image : (part : Part) → List part.Row → List part.Row,
    (∀ part, ¬ within part → ∀ rows, image part rows = rows) ∧
      ∀ {store after : Store}, write store = .ok after →
        ∀ part, after.rowsIn part = image part (store.rowsIn part)

namespace ActsWithin

variable {ε α : Type} {within : Part → Prop} {first second : Store → Except ε Store}

theorem mono (wider : Part → Prop) (acts : ActsWithin within first)
    (widens : ∀ part, within part → wider part) :
    ActsWithin wider first := by
  obtain ⟨image, fixes, each⟩ := acts
  exact ⟨image, fun part outside => fixes part fun inside => outside (widens part inside), each⟩

theorem congr (acts : ActsWithin within first) (same : ∀ store, first store = second store) :
    ActsWithin within second := by
  rwa [← funext same]

theorem keep : ActsWithin (ε := ε) within fun store => .ok store := by
  refine ⟨fun _ rows => rows, fun _ _ _ => rfl, fun done part => ?_⟩
  cases done
  rfl

theorem bind (left : ActsWithin within first) (right : ActsWithin within second) :
    ActsWithin within fun store => first store >>= second := by
  obtain ⟨early, earlyFixes, earlyEach⟩ := left
  obtain ⟨late, lateFixes, lateEach⟩ := right
  refine ⟨fun part rows => late part (early part rows), fun part outside rows => ?_,
    fun done part => ?_⟩
  · exact (congrArg (late part) (earlyFixes part outside rows)).trans (lateFixes part outside rows)
  · obtain ⟨middle, one, other⟩ := Except.bind_ok.mp done
    rw [lateEach other part, earlyEach one part]

/-- A write after one that cannot fail. -/
theorem after {early : Store → Store}
    (left : ActsWithin (ε := ε) within fun store => .ok (early store))
    (right : ActsWithin within second) : ActsWithin within fun store => second (early store) :=
  bind left right

theorem foldlM {write : Store → α → Except ε Store} (values : List α)
    (each : ∀ value ∈ values, ActsWithin within fun store => write store value) :
    ActsWithin within fun store => values.foldlM write store := by
  induction values with
  | nil => exact keep
  | cons value rest hypothesis =>
    obtain ⟨head, others⟩ := List.forall_mem_cons.mp each
    simp only [List.foldlM_cons]
    exact bind head (hypothesis others)

theorem foldl {write : Store → α → Store} (values : List α)
    (each : ∀ value ∈ values, ActsWithin (ε := ε) within fun store => .ok (write store value)) :
    ActsWithin (ε := ε) within fun store => .ok (values.foldl write store) := by
  induction values with
  | nil => exact keep
  | cons value rest hypothesis =>
    obtain ⟨head, others⟩ := List.forall_mem_cons.mp each
    exact bind head (hypothesis others)

theorem lift {write : Store → Except StoreError Store} (acts : ActsWithin within write) :
    ActsWithin within fun store => Store.lift (write store) := by
  obtain ⟨image, fixes, each⟩ := acts
  exact ⟨image, fixes, fun done => each (Store.lift_ok.mp done)⟩

/-- A write that acts on one part only. -/
theorem single {write : Store → Except ε Store} (acted : Part)
    (image : List acted.Row → List acted.Row)
    (acts : ∀ {store after : Store}, write store = .ok after →
      after.rowsIn acted = image (store.rowsIn acted) ∧
        ∀ part, part ≠ acted → after.rowsIn part = store.rowsIn part) :
    ActsWithin (· = acted) write := by
  refine ⟨Function.update (fun _ rows => rows) acted image, fun part other rows => ?_,
    fun done part => ?_⟩
  · rw [Function.update_of_ne other]
  · by_cases same : part = acted
    · subst same
      rw [Function.update_self]
      exact (acts done).1
    · rw [Function.update_of_ne same]
      exact (acts done).2 part same

end ActsWithin

variable {store after : Store} {id : EntityId}

theorem lift_map {α β : Type} (value : Except StoreError α) (image : α → β) :
    (lift value).map image = lift (value.map image) := by
  cases value <;> rfl

/-! ### Primitive writes -/

/-- Rows of fields after one field was given a value. -/
def writeRow (id : EntityId) (key : String) (value : Value) (rows : List FieldRow) :
    List FieldRow :=
  if (rows.any fun row => row.entity = id ∧ row.key = key) = true then
    rows.map fun row =>
      if row.entity = id ∧ row.key = key then { row with value := value } else row
  else rows ++ [⟨id, key, value⟩]

theorem setField_rows {key : String} {value : Value}
    (done : store.setField id key value = .ok after) :
    after = { store with fields := writeRow id key value store.fields } := by
  have known : (store.field? id key).isSome =
      store.fields.any fun row => row.entity = id ∧ row.key = key := by
    unfold field?
    rw [Option.isSome_map, List.isSome_find?]
  unfold setField at done
  rw [known] at done
  unfold writeRow
  split at done
  · split at done
    next there =>
      cases done
      rw [if_pos there]
    next absent =>
      cases done
      rw [if_neg absent]
  · cases done

theorem filter_writeRow (id : EntityId) (key name : String) (value : Value) (rows : List FieldRow) :
    (writeRow id key value rows).filter (fun row => row.key = name) =
      if name = key then writeRow id key value (rows.filter fun row => row.key = name)
      else rows.filter fun row => row.key = name := by
  have keeps (row : FieldRow) :
      decide ((if row.entity = id ∧ row.key = key then { row with value := value } else row).key =
        name) = decide (row.key = name) := by
    split <;> rfl
  by_cases same : name = key
  · subst same
    have known : ((rows.filter fun row => row.key = name).any fun row =>
        row.entity = id ∧ row.key = name) =
          rows.any fun row => row.entity = id ∧ row.key = name := by
      rw [List.any_filter]
      congr 1
      funext row
      simp
    unfold writeRow
    rw [if_pos rfl, known]
    split
    · exact List.filter_map_keeps keeps rows
    · rw [List.filter_append, List.filter_cons_of_pos (by simp), List.filter_nil]
  · rw [if_neg same]
    unfold writeRow
    split
    · refine List.filter_map_fixes keeps (fun row named => if_neg fun both => same ?_) rows
      exact (of_decide_eq_true named).symm.trans both.2
    · rw [List.filter_append, List.filter_cons_of_neg (by simpa using Ne.symm same),
        List.filter_nil, List.append_nil]

theorem setField_acts (id : EntityId) (key : String) (value : Value) :
    ActsWithin (· = .field key) fun store => store.setField id key value := by
  refine .single (.field key) (writeRow id key value) fun {store after} done => ?_
  rw [setField_rows done]
  refine ⟨(filter_writeRow ..).trans (if_pos rfl), fun part other => ?_⟩
  cases part with
  | field name => exact (filter_writeRow ..).trans (if_neg fun same => other (congrArg _ same))
  | list name => rfl
  | links association => rfl

theorem clearField_acts {ε : Type} (id : EntityId) (key : String) :
    ActsWithin (ε := ε) (· = .field key) fun store => .ok (store.clearField id key) := by
  refine .single (.field key) (fun rows : List FieldRow =>
    rows.filter fun row => ¬ (row.entity = id ∧ row.key = key)) fun {store after} done => ?_
  cases done
  refine ⟨List.filter_comm .., fun part other => ?_⟩
  cases part with
  | field name =>
    refine (List.filter_filter ..).trans (List.filter_congr fun row _ => ?_)
    rw [Bool.and_eq_left_iff_imp, decide_eq_true_iff, decide_eq_true_iff]
    exact fun named both => other (congrArg Part.field (named.symm.trans both.2))
  | list name => rfl
  | links association => rfl

/-- Rows that have a row added if they do not have it. -/
def addRow {α : Type} [DecidableEq α] (row : α) (rows : List α) : List α :=
  if row ∈ rows then rows else rows ++ [row]

theorem filter_addRow {α : Type} [DecidableEq α] (row : α) (rows : List α) (test : α → Bool) :
    (addRow row rows).filter test =
      if test row = true then addRow row (rows.filter test) else rows.filter test := by
  unfold addRow
  by_cases passes : test row = true
  · rw [if_pos passes, if_congr (List.mem_filter.trans (and_iff_left passes)) rfl rfl]
    split
    · rfl
    · rw [List.filter_append, List.filter_cons_of_pos passes, List.filter_nil]
  · rw [if_neg passes]
    split
    · rfl
    · rw [List.filter_append, List.filter_cons_of_neg passes, List.filter_nil, List.append_nil]

theorem addMember_acts (id : EntityId) (key : String) (value : Value) :
    ActsWithin (· = .list key) fun store => (store.addMember id key value).map Prod.snd := by
  refine .single (.list key) (addRow (⟨id, key, value⟩ : MemberRow)) fun {store after} done => ?_
  obtain ⟨⟨isNew, added⟩, adding, rfl⟩ := Except.map_ok.mp done
  rw [addMember_frame adding]
  refine ⟨(filter_addRow ..).trans (if_pos (decide_eq_true rfl)), fun part other => ?_⟩
  cases part with
  | field name => rfl
  | list name =>
    refine (filter_addRow ..).trans (if_neg fun same => other ?_)
    exact congrArg Part.list (of_decide_eq_true same).symm
  | links association => rfl

theorem removeMember_acts {ε : Type} (id : EntityId) (key : String) (value : Value) :
    ActsWithin (ε := ε) (· = .list key) fun store => .ok (store.removeMember id key value).2 := by
  refine .single (.list key) (fun rows : List MemberRow =>
    rows.filter fun row => row ≠ ⟨id, key, value⟩) fun {store after} done => ?_
  cases done
  refine ⟨List.filter_comm .., fun part other => ?_⟩
  cases part with
  | field name => rfl
  | list name =>
    refine (List.filter_filter ..).trans (List.filter_congr fun row _ => ?_)
    rw [Bool.and_eq_left_iff_imp, decide_eq_true_iff, decide_eq_true_iff]
    exact fun listed same =>
      other (congrArg Part.list (listed.symm.trans (congrArg MemberRow.list same)))
  | links association => rfl

/-- Links that have one added unless its ends are linked. -/
def addEdge (edge : Edge) (edges : List Edge) : List Edge :=
  if edges.any (joins edge.association edge.source edge.target) = true then edges
  else edges ++ [edge]

/-- Links between two records by an association are among those of the association. -/
theorem any_joins_filter (edges : List Edge) (association : Association)
    (source target : EntityId) :
    (edges.filter fun edge => edge.association = association).any
        (joins association source target) =
      edges.any (joins association source target) := by
  rw [List.any_filter]
  congr 1
  funext edge
  simp [joins, Bool.and_assoc]

theorem filter_addEdge (edge : Edge) (edges : List Edge) (association : Association) :
    (addEdge edge edges).filter (fun edge => edge.association = association) =
      if edge.association = association
      then addEdge edge (edges.filter fun edge => edge.association = association)
      else edges.filter fun edge => edge.association = association := by
  unfold addEdge
  by_cases same : edge.association = association
  · subst same
    rw [if_pos rfl, any_joins_filter]
    split
    · rfl
    · rw [List.filter_append, List.filter_cons_of_pos (by simp), List.filter_nil]
  · rw [if_neg same]
    split
    · rfl
    · rw [List.filter_append, List.filter_cons_of_neg (by simpa using same), List.filter_nil,
        List.append_nil]

theorem insertEdge_acts (edge : Edge) :
    ActsWithin (· = .links edge.association) fun store =>
      (store.insertEdge edge.association edge.source edge.target edge.credit).map Prod.snd := by
  refine .single (.links edge.association) (addEdge edge) fun {store after} done => ?_
  obtain ⟨⟨isNew, linked⟩, linking, rfl⟩ := Except.map_ok.mp done
  rw [(insertEdge_frame linking).2]
  refine ⟨(filter_addEdge ..).trans (if_pos rfl), fun part other => ?_⟩
  cases part with
  | field name => rfl
  | list name => rfl
  | links association =>
    refine (filter_addEdge ..).trans (if_neg fun same => other ?_)
    exact congrArg Part.links same.symm

theorem deleteEdge_acts {ε : Type} (association : Association) (source target : EntityId) :
    ActsWithin (ε := ε) (· = .links association) fun store =>
      .ok (store.deleteEdge association source target).2 := by
  refine .single (.links association) (fun edges : List Edge =>
    edges.filter fun edge => !joins association source target edge) fun {store after} done => ?_
  cases done
  refine ⟨List.filter_comm .., fun part apart => ?_⟩
  cases part with
  | field name => rfl
  | list name => rfl
  | links other =>
    refine (List.filter_filter ..).trans (List.filter_congr fun edge _ => ?_)
    rw [Bool.and_eq_left_iff_imp, decide_eq_true_iff, Bool.not_eq_true', Bool.eq_false_iff]
    exact fun linked joined => apart
      (congrArg Part.links (linked.symm.trans (congrArg Prod.fst (joins_iff.mp joined))))

/-- Changing links in a way that keeps their ends, and those of all but one association. -/
theorem mapEdges_acts {ε : Type} (association : Association) {change : Edge → Edge}
    (keeps : ∀ edge, (change edge).association = edge.association)
    (fixes : ∀ edge, edge.association ≠ association → change edge = edge) :
    ActsWithin (ε := ε) (· = .links association) fun store =>
      .ok { store with edges := store.edges.map change } := by
  refine .single (.links association) (fun edges : List Edge => edges.map change)
    fun {store after} done => ?_
  cases done
  have unseen (other : Association) (edge : Edge) :
      decide ((change edge).association = other) = decide (edge.association = other) := by
    rw [keeps]
  refine ⟨List.filter_map_keeps (unseen association) store.edges, fun part apart => ?_⟩
  cases part with
  | field name => rfl
  | list name => rfl
  | links other =>
    refine List.filter_map_fixes (unseen other)
      (fun edge linked => fixes edge fun same => apart ?_) _
    rw [← same, ← of_decide_eq_true linked]

/-! ### Fields, collections and links -/

theorem writeScalars_acts (id : EntityId) (scalars : List (String × Value)) :
    ActsWithin (fun part => ∃ entry ∈ scalars, part = .field entry.1) fun store =>
      store.writeScalars id scalars :=
  .foldlM scalars fun entry member => (setField_acts id entry.1 entry.2).lift.mono _
    fun _ same => ⟨entry, member, same⟩

theorem clearDropped_acts {ε : Type} {kind : Kind} (id : EntityId) (change : Change kind) :
    ActsWithin (ε := ε) (fun part => ∃ field, Drops change field ∧ part = .field field.key)
      fun store => .ok (store.clearDropped id change) := by
  refine .foldl (Field.byKey kind) fun field _ => ?_
  by_cases drops : Drops change field
  · have clears (store : Store) : (if Drops change field then store.clearField id field.key
        else store) = store.clearField id field.key := if_pos drops
    refine ((clearField_acts id field.key).mono _ fun _ same => ⟨field, drops, same⟩).congr ?_
    exact fun store => congrArg Except.ok (clears store).symm
  · exact ActsWithin.keep.congr fun store => congrArg Except.ok (if_neg drops).symm

theorem writeList_acts (id : EntityId) (key : String) (change : ListChange Value) :
    ActsWithin (· = .list key) fun store => store.writeList id key change := by
  have removing := ActsWithin.foldl (ε := ReviewError) change.removed fun value _ =>
    removeMember_acts id key value
  have adding := ActsWithin.foldlM change.added fun value _ =>
    (addMember_acts id key value).lift.congr fun _ => (lift_map ..).symm
  exact removing.after adding

theorem writeLists_acts (id : EntityId) (lists : List (String × ListChange Value)) :
    ActsWithin (fun part => ∃ entry ∈ lists, part = .list entry.1) fun store =>
      store.writeLists id lists :=
  .foldlM lists fun entry member => (writeList_acts id entry.1 entry.2).mono _
    fun _ same => ⟨entry, member, same⟩

theorem linkTag_acts (scene tag : EntityId) :
    ActsWithin (· = .links .sceneTag) fun store => store.linkTag scene tag :=
  (insertEdge_acts ⟨.sceneTag, scene, tag, none⟩).lift.congr fun _ => (lift_map ..).symm

theorem setCredit_acts {ε : Type} (association : Association) (source target : EntityId)
    (credit : Option String) : ActsWithin (ε := ε) (· = .links association) fun store =>
      .ok (store.setCredit association source target credit) := by
  refine mapEdges_acts association (fun edge => ?_) fun edge other => if_neg fun joined => other ?_
  · split <;> rfl
  · exact congrArg Prod.fst (joins_iff.mp joined)

/-- A link that is new has the credit that is given to it. -/
theorem linkPerformer_eq (store : Store) (scene : EntityId) (appearance : Appearance) :
    store.linkPerformer scene appearance =
      ((lift (store.insertEdge .scenePerformer scene appearance.performer
        appearance.creditedAs)).map Prod.snd >>= fun linked => .ok
          (linked.setCredit .scenePerformer scene appearance.performer appearance.creditedAs)) := by
  unfold linkPerformer
  cases linking : store.insertEdge .scenePerformer scene appearance.performer
    appearance.creditedAs with
  | error error => rfl
  | ok result =>
    obtain ⟨isNew, linked⟩ := result
    cases isNew with
    | false => rfl
    | true =>
      obtain ⟨isNew, frame⟩ := insertEdge_frame linking
      have none := Bool.not_eq_true' _ ▸ isNew.symm
      rw [none, if_neg Bool.false_ne_true] at frame
      have fixed : linked.setCredit .scenePerformer scene appearance.performer
          appearance.creditedAs = linked := by
        unfold setCredit
        rw [frame]
        congr 1
        refine (List.map_congr_left fun edge member => ?_).trans (List.map_id _)
        rcases List.mem_append.mp member with stored | added
        · exact if_neg (List.any_eq_false.mp none edge stored)
        · rw [List.mem_singleton.mp added]
          exact ite_self _
      exact congrArg Except.ok fixed.symm

theorem linkPerformer_acts (scene : EntityId) (appearance : Appearance) :
    ActsWithin (· = .links .scenePerformer) fun store => store.linkPerformer scene appearance := by
  refine ActsWithin.congr ?_ fun store => (linkPerformer_eq store scene appearance).symm
  refine .bind ?_ (setCredit_acts ..)
  exact (insertEdge_acts ⟨.scenePerformer, scene, appearance.performer,
    appearance.creditedAs⟩).lift.congr fun _ => (lift_map ..).symm

/-- The links that are written are those of which a change is proposed. -/
theorem writeLinks_acts (scene : EntityId) (tags : ListChange EntityId)
    (performers : ListChange Appearance) :
    ActsWithin (fun part => (part = .links .sceneTag ∧ tags.isEmpty = false) ∨
        (part = .links .scenePerformer ∧ performers.isEmpty = false)) fun store =>
      store.writeLinks scene tags performers := by
  let written (part : Part) : Prop := (part = .links .sceneTag ∧ tags.isEmpty = false) ∨
    (part = .links .scenePerformer ∧ performers.isEmpty = false)
  have nonempty {α : Type} {change : ListChange α} {value : α}
      (listed : value ∈ change.removed ∨ value ∈ change.added) : change.isEmpty = false := by
    rcases listed with removed | added
    · exact Bool.and_eq_false_imp.mpr fun _ => List.isEmpty_eq_false_iff.mpr
        (List.ne_nil_of_mem removed)
    · exact Bool.and_eq_false_iff.mpr (.inl (List.isEmpty_eq_false_iff.mpr
        (List.ne_nil_of_mem added)))
  have unlinkTags := ActsWithin.foldl (ε := ReviewError) tags.removed fun tag member =>
    (deleteEdge_acts .sceneTag scene tag).mono written fun _ same =>
      .inl ⟨same, nonempty (.inl member)⟩
  have linkTags := ActsWithin.foldlM tags.added fun tag member =>
    (linkTag_acts scene tag).mono written fun _ same =>
      .inl ⟨same, nonempty (.inr member)⟩
  have unlinkPerformers := ActsWithin.foldl (ε := ReviewError) performers.removed
    fun appearance member =>
      (deleteEdge_acts .scenePerformer scene appearance.performer).mono written
        fun _ same => .inr ⟨same, nonempty (.inl member)⟩
  have linkPerformers := ActsWithin.foldlM performers.added fun appearance member =>
    (linkPerformer_acts scene appearance).mono written fun _ same =>
      .inr ⟨same, nonempty (.inr member)⟩
  exact (unlinkTags.after linkTags).bind (unlinkPerformers.after linkPerformers)

end Store

/-! ### Modifications -/

/-- Details touch a part when one of their sides has something for it. -/
def Details.Touches (details : Details) : Part → Prop
  | .field key => ∃ field : Field details.kind, field.key = key ∧
      ((details.change.old.value? field).isSome = true ∨
        (details.change.new.value? field).isSome = true)
  | .list key => ∃ collection : Collection details.kind, collection.key = key ∧
      (details.change.new.members collection).isEmpty = false
  | .links association => ∃ link : Link details.kind, link.association = association ∧
      (details.change.new.links link).isEmpty = false

/-- The parts that details touch. -/
def Details.touched (details : Details) : List Part :=
  ((Field.byKey details.kind).filter fun field =>
      (details.change.old.value? field).isSome || (details.change.new.value? field).isSome).map
    (fun field => .field field.key) ++
  ((Collection.ofKind details.kind).filter fun collection =>
      !(details.change.new.members collection).isEmpty).map
    (fun collection => .list collection.key) ++
  ((Link.ofKind details.kind).filter fun link => !(details.change.new.links link).isEmpty).map
    fun link => .links link.association

theorem Details.mem_touched {details : Details} {part : Part} :
    part ∈ details.touched ↔ details.Touches part := by
  have collections (collection : Collection details.kind) :
      collection ∈ Collection.ofKind details.kind := Enumerated.mem_all collection
  have links (link : Link details.kind) : link ∈ Link.ofKind details.kind := Enumerated.mem_all link
  unfold touched Touches
  cases part <;> simp [Field.mem_byKey, collections, links, and_comm]

/-- Two details touch no part in common. -/
def Details.Apart (one other : Details) : Prop :=
  ∀ part, ¬ (one.Touches part ∧ other.Touches part)

instance (one other : Details) : Decidable (one.Apart other) :=
  decidable_of_iff (∀ part ∈ one.touched, part ∉ other.touched) <| by
    simp only [Details.mem_touched, Details.Apart, not_and]

/-- A modification changes the parts that its details touch, and the credits of a performer whose
name it changes. -/
def Details.Changes (details : Details) (part : Part) : Prop :=
  details.Touches part ∨
    (part = .links .scenePerformer ∧ Store.renamedBy details ≠ fun credit => credit)

namespace Store

variable {store after : Store} {id : EntityId} {kind : Kind} {details : Details} {now : Instant}

theorem writeDetailLinks_acts (id : EntityId) (details : Details) :
    ActsWithin details.Touches fun store => store.writeDetailLinks id details := by
  obtain ⟨kind, change⟩ := details
  cases kind with
  | scene =>
    refine (writeLinks_acts id (change.new.links .sceneTags)
      (change.new.links .scenePerformers)).mono _ ?_
    rintro part (⟨rfl, changes⟩ | ⟨rfl, changes⟩)
    · exact ⟨.sceneTags, rfl, changes⟩
    · exact ⟨.scenePerformers, rfl, changes⟩
  | tag => exact .keep
  | performer => exact .keep
  | studio => exact .keep

theorem recredit_acts {ε : Type} (id : EntityId) (image : Option String → Option String) :
    ActsWithin (ε := ε)
      (fun part => part = .links .scenePerformer ∧ image ≠ fun credit => credit) fun store =>
        .ok { store with edges := store.edges.map (recredit id image) } := by
  by_cases trivial : image = fun credit => credit
  · subst trivial
    refine ActsWithin.keep.congr fun store => ?_
    exact congrArg (fun edges => Except.ok { store with edges }) (recredit_id id store.edges).symm
  · refine (mapEdges_acts .scenePerformer (fun edge => ?_) fun edge other => ?_).mono _
      fun _ same => ⟨same, trivial⟩
    · exact congrArg Prod.fst (ends_recredit id image edge)
    · exact if_neg fun leads => other leads.1

/-- Credits are rewritten only for a performer whose name changes. -/
theorem renames_of_renamedBy (renames : renamedBy details ≠ fun credit => credit) :
    details.kind = .performer ∧ details.Touches (.field Field.performerName.key) := by
  obtain ⟨kind, change⟩ := details
  cases kind with
  | performer =>
    refine ⟨rfl, Field.performerName, rfl, .inl ?_⟩
    show ((change.old.scalar .performerName).map _).isSome = true
    rw [Option.isSome_map, Option.isSome_iff_ne_none]
    intro nothing
    refine renames ?_
    show (if change.modifyAliases = true then renamedCredit (change.old.scalar .performerName)
      (change.new.scalar .performerName) else fun credit => credit) = _
    rw [renamedCredit_trivial (.inl nothing)]
    exact ite_self _
  | tag => exact absurd rfl renames
  | studio => exact absurd rfl renames
  | scene => exact absurd rfl renames

/-- **A modification acts part by part**, and leaves alone the parts that it does not change. -/
theorem modify_acts (id : EntityId) (kind : Kind) (details : Details) (now : Instant) :
    ∃ image : (part : Part) → List part.Row → List part.Row,
      (∀ part, ¬ details.Changes part → ∀ rows, image part rows = rows) ∧
        ∀ {store after : Store}, store.Tidy → store.modify id kind details now = .ok after →
          ∀ part, after.rowsIn part = image part (store.rowsIn part) := by
  have filling : ActsWithin details.Changes fun store =>
      store.writeScalars id details.change.new.scalars := by
    refine (writeScalars_acts id _).mono _ ?_
    rintro _ ⟨entry, member, rfl⟩
    obtain ⟨field, proposes, same⟩ := Side.mem_scalars.mp member
    exact .inl ⟨field, same, .inr (Option.isSome_of_eq_some proposes)⟩
  have clearing : ActsWithin (ε := ReviewError) details.Changes fun store =>
      .ok (store.clearDropped id details.change) := by
    refine (clearDropped_acts id details.change).mono _ ?_
    rintro _ ⟨field, drops, rfl⟩
    exact .inl ⟨field, rfl, .inl (Bool.and_eq_true_iff.mp drops).1⟩
  have listing : ActsWithin details.Changes fun store =>
      store.writeLists id details.change.new.lists := by
    refine (writeLists_acts id _).mono _ ?_
    rintro _ ⟨entry, member, rfl⟩
    obtain ⟨collection, changes, rfl⟩ := Side.mem_lists.mp member
    exact .inl ⟨collection, rfl, changes⟩
  have linking := (writeDetailLinks_acts id details).mono details.Changes
    fun _ touches => .inl touches
  have crediting := (recredit_acts (ε := ReviewError) id (renamedBy details)).mono
    details.Changes fun _ renames => .inr renames
  obtain ⟨image, fixes, each⟩ :=
    (filling.bind (clearing.after listing)).bind (linking.bind crediting)
  refine ⟨image, fixes, fun {store after} tidy done part => ?_⟩
  obtain ⟨filled, listed, linked, -, fill, list, link, rfl⟩ := modify_split done
  have linkedTidy := parts_tidy tidy fill list link
  have written := each (Except.bind_ok.mpr ⟨listed, Except.bind_ok.mpr ⟨filled, fill, list⟩,
    Except.bind_ok.mpr ⟨linked, link, rfl⟩⟩) part
  rw [keepCredits_eq linkedTidy.edges]
  exact written

/-- **What a field of the record holds after a modification**: the value proposed, or none if there
was one and none is proposed, or else what it held before. -/
theorem modify_field? (tidy : store.Tidy) (done : store.modify id kind details now = .ok after)
    (field : Field details.kind) :
    after.field? id field.key =
      (details.change.new.value? field).or
        (if (details.change.old.value? field).isSome then none else store.field? id field.key) := by
  obtain ⟨filled, listed, linked, -, filling, listing, linking, rfl⟩ := modify_split done
  have linkedTidy := parts_tidy tidy filling listing linking
  rw [keepCredits_eq linkedTidy.edges, writeDetailLinks_frame linking, writeLists_frame listing]
  show (filled.clearDropped id details.change).field? id field.key = _
  rw [field?_clearDropped, field?_writeSide filling]
  have drops : Drops details.change field ↔ (details.change.old.value? field).isSome = true ∧
      details.change.new.value? field = none := by
    unfold Drops
    rw [Bool.and_eq_true, Option.isNone_iff_eq_none]
  cases proposed : details.change.new.value? field with
  | none =>
    rw [if_congr (drops.trans (and_iff_left proposed)) rfl rfl, Option.none_or, Option.none_or]
  | some value =>
    rw [if_neg fun dropped => ?_, Option.some_or, Option.some_or]
    exact Option.some_ne_none value (proposed.symm.trans (drops.mp dropped).2)

end Store

end Curation
