/-
**Fields hold values of their sorts.** Whatever is stored in a field of a record has the sort of the
field of that key that records of its kind have. So a field that reads nothing holds nothing, and what
is read of a field is all that there is to know about what it holds.

* `Store.Typed`: every field that is stored fits the kind of its record;
* `Edit.apply_typed`, `Desk.run_typed`: applications keep that, and it holds after every run;
* `Edit.apply_kind?`: a record keeps its kind;
* `Store.Typed.field?_eq`: what a field holds is what is read of it.
-/

import Curation.Proofs.Conditions
import Curation.Proofs.Integrity

namespace Curation

/-- A key is that of a field of a kind, and a value is of the sort of that field. -/
def Field.Fits (kind : Kind) (key : String) (value : Value) : Prop :=
  ∃ (field : Field kind) (held : field.Carrier), key = field.key ∧ value = field.sort.value held

theorem Side.fits {kind : Kind} {side : Side kind} {key : String} {value : Value}
    (member : (key, value) ∈ side.scalars) : Field.Fits kind key value := by
  obtain ⟨field, valued, rfl⟩ := Side.mem_scalars.mp member
  obtain ⟨held, -, rfl⟩ := Option.map_eq_some_iff.mp valued
  exact ⟨field, held, rfl, rfl⟩

/-- A field that may refer to one record may refer to any. -/
theorem Field.Fits.reference {kind : Kind} {key : String} {source : EntityId}
    (fits : Fits kind key (.reference source)) (target : EntityId) :
    Fits kind key (.reference target) := by
  obtain ⟨field, held, named, refers⟩ := fits
  cases field <;> first
    | exact ⟨_, target, named, rfl⟩
    | cases refers

namespace Store

variable {store after : Store} {id source target : EntityId} {kind : Kind} {details : Details}
  {now : Instant}

/-! ### Kinds of records -/

/-- The kind of a record. -/
def kind? (store : Store) (id : EntityId) : Option Kind := (store.condition? id).map Prod.fst

theorem IsLive.kind? (live : store.IsLive id kind) : store.kind? id = some kind := by
  rw [Store.kind?, isLive_iff.mp live]
  rfl

theorem kind?_of_condition {first second : Store} (same : second.condition? = first.condition?) :
    second.kind? = first.kind? := by
  funext id
  rw [kind?, kind?, same]

theorem kind?_without {removed : EntityId}
    (without : ∀ id, after.condition? id = store.conditionWithout? removed id) :
    after.kind? = store.kind? := by
  funext id
  rw [kind?, kind?, without, conditionWithout?, Option.map_map]
  refine Option.map_congr fun condition _ => ?_
  rw [Function.comp_apply]
  split <;> rfl

/-! ### Typed stores -/

/-- Every field that is stored fits the kind of its record. -/
def Typed (store : Store) : Prop :=
  ∀ row ∈ store.fields, ∃ kind, store.kind? row.entity = some kind ∧
    Field.Fits kind row.key row.value

theorem Typed.mono (typed : store.Typed)
    (kinds : ∀ id kind, store.kind? id = some kind → after.kind? id = some kind)
    (fields : ∀ row ∈ after.fields, row ∈ store.fields) : after.Typed := by
  intro row member
  obtain ⟨kind, known, fits⟩ := typed row (fields row member)
  exact ⟨kind, kinds _ _ known, fits⟩

theorem Typed.of_kinds (typed : store.Typed) (kinds : after.kind? = store.kind?)
    (fields : ∀ row ∈ after.fields, row ∈ store.fields) : after.Typed :=
  typed.mono (fun id kind known => by rw [kinds, known]) fields

/-- **What a field of a typed store holds is what is read of it.** -/
theorem Typed.field?_eq (typed : store.Typed) (live : store.IsLive id kind) (field : Field kind) :
    store.field? id field.key =
      ((store.contents kind id).scalar field).map field.sort.value := by
  show _ = ((store.field? id field.key).bind field.sort.ofValue?).map field.sort.value
  cases found : store.field? id field.key with
  | none => rfl
  | some value =>
    obtain ⟨row, picked, rfl⟩ := Option.map_eq_some_iff.mp found
    have named := List.find?_some picked
    obtain ⟨owner, key⟩ := of_decide_eq_true named
    obtain ⟨kind', known, other, held, otherKey, valued⟩ :=
      typed row (List.mem_of_find?_eq_some picked)
    rw [owner, live.kind?] at known
    cases known
    cases Field.key_inj (otherKey.symm.trans key)
    rw [valued, Option.bind_some, Scalar.ofValue?_value, Option.map_some]

/-! ### Writes -/

theorem setField_typed {entity : EntityId} {key : String} {value : Value} (typed : store.Typed)
    (known : store.kind? entity = some kind) (fits : Field.Fits kind key value)
    (done : store.setField entity key value = .ok after) :
    after.Typed ∧ after.condition? = store.condition? := by
  obtain ⟨frame, rows⟩ := setField_frame done
  have same : after.condition? = store.condition? := condition?_congr (by rw [frame])
  refine ⟨fun row member => ?_, same⟩
  rw [kind?_of_condition same]
  rcases rows row member with rfl | ⟨earlier, -⟩
  · exact ⟨kind, known, fits⟩
  · exact typed row earlier

theorem writeScalars_typed {scalars : List (String × Value)} (typed : store.Typed)
    (known : store.kind? id = some kind)
    (fits : ∀ key value, (key, value) ∈ scalars → Field.Fits kind key value)
    (done : store.writeScalars id scalars = .ok after) :
    after.Typed ∧ after.condition? = store.condition? := by
  refine Except.foldlM_keeps
    (fun state => state.Typed ∧ state.condition? = store.condition?) scalars ?_ ⟨typed, rfl⟩ done
  rintro ⟨key, value⟩ member state next ⟨stateTyped, same⟩ written
  have stateKnown : state.kind? id = some kind := by rw [kind?_of_condition same, known]
  obtain ⟨nextTyped, nextSame⟩ := setField_typed stateTyped stateKnown (fits key value member)
    (Store.lift_ok.mp written)
  exact ⟨nextTyped, nextSame.trans same⟩

/-- Making a record leaves the kinds of the others alone. -/
theorem insertEntity_kind? {other : Kind} (done : store.insertEntity target kind now = .ok after)
    (known : store.kind? id = some other) : after.kind? id = some other := by
  have apart : id ≠ target := by
    rintro rfl
    have unused := (insertEntity_frame done).1
    rw [hasEntity_eq, Option.isSome_eq_false_iff, Option.isNone_iff_eq_none] at unused
    rw [kind?, unused] at known
    cases known
  rw [kind?, condition?, entity?_insertEntity done, if_neg apart]
  exact known

theorem create_typed (typed : store.Typed) (same : details.kind = kind)
    (done : store.create target kind details now = .ok after) : after.Typed := by
  obtain ⟨inserted, filled, listed, -, insertion, filling, listing, linking⟩ := create_split done
  have frame := (insertEntity_frame insertion).2
  have insertedTyped : inserted.Typed :=
    typed.mono (fun _ _ => insertEntity_kind? insertion) (by rw [frame]; exact fun _ member => member)
  have known : inserted.kind? target = some details.kind := by
    rw [same]
    exact (insertEntity_isLive insertion).1.kind?
  obtain ⟨filledTyped, filledSame⟩ :=
    writeScalars_typed insertedTyped known (fun _ _ member => Side.fits member) filling
  refine filledTyped.of_kinds (kind?_of_condition (condition?_congr ?_)) ?_
  · rw [writeDetailLinks_frame linking, writeLists_frame listing]
  · rw [writeDetailLinks_frame linking, writeLists_frame listing]
    exact fun _ member => member

theorem modify_typed (typed : store.Typed) (same : details.kind = kind)
    (done : store.modify target kind details now = .ok after) : after.Typed := by
  have kinds := kind?_of_condition (modify_condition? done)
  obtain ⟨filled, listed, linked, ⟨live, -, -⟩, filling, listing, linking, rfl⟩ := modify_split done
  have known : store.kind? target = some details.kind := by
    rw [same]
    exact live.kind?
  obtain ⟨filledTyped, filledSame⟩ :=
    writeScalars_typed typed known (fun _ _ member => Side.fits member) filling
  refine filledTyped.of_kinds (kinds.trans (kind?_of_condition filledSame).symm) fun row member => ?_
  have kept := (keepCredits_lessens linked target details).fields row member
  rw [writeDetailLinks_frame linking, writeLists_frame listing] at kept
  exact (clearDropped_lessens filled target details.change).fields row kept

theorem destroy_typed (typed : store.Typed) (done : store.destroy target kind now = .ok after) :
    after.Typed := by
  refine typed.of_kinds (kind?_without (destroy_condition? done)) fun row member => ?_
  obtain ⟨_, -, removal⟩ := Except.bind_ok.mp done
  rw [tombstoneEntity_frame (Store.lift_ok.mp removal)] at member
  dsimp only at member
  split at member
  · exact (detachStudio_unreferenced store target now).1.fields row member
  · exact member

theorem redirectReferrer_typed {referrer : EntityId} {key : String} (typed : store.Typed)
    (known : store.kind? referrer = some kind) (fits : Field.Fits kind key (.reference target))
    (done : redirectReferrer target key now store referrer = .ok after) :
    after.Typed ∧ after.condition? = store.condition? := by
  have same := redirectReferrer_condition? done
  refine ⟨?_, same⟩
  unfold redirectReferrer at done
  split at done
  · cases done
    exact typed.of_kinds (kind?_of_condition same) fun row member => (List.mem_filter.mp member).1
  · obtain ⟨given, setting, finish⟩ := Except.bind_ok.mp done
    cases finish
    have givenTyped := (setField_typed typed known fits (Store.lift_ok.mp setting)).1
    exact givenTyped.of_kinds (kind?_of_condition (condition?_touchEntity given referrer now))
      fun row member => member

/-- Redirecting references puts references in place of references. -/
theorem redirectStudio_typed (typed : store.Typed)
    (done : store.redirectStudio source target now = .ok after) : after.Typed := by
  refine Except.foldlM_keeps Store.Typed studioKeys ?_ typed done
  intro key _ state next stateTyped redirects
  have every := Except.foldlM_keeps
    (fun current => current.Typed ∧ current.condition? = state.condition?) _ ?_ ⟨stateTyped, rfl⟩
    redirects
  · exact every.1
  rintro referrer listed current following ⟨currentTyped, same⟩ redirected
  obtain ⟨row, stored, ⟨named, refers⟩, rfl⟩ := mem_referrers.mp listed
  obtain ⟨kind, known, fits⟩ := stateTyped row stored
  rw [named, refers] at fits
  rw [← kind?_of_condition same] at known
  obtain ⟨followingTyped, followingSame⟩ :=
    redirectReferrer_typed currentTyped known (fits.reference target) redirected
  exact ⟨followingTyped, followingSame.trans same⟩

theorem moveReferences_typed (typed : store.Typed)
    (done : store.moveReferences source target kind details now = .ok after) : after.Typed := by
  have kinds := kind?_of_condition (moveReferences_condition? done)
  cases kind with
  | tag =>
    obtain ⟨⟨moved, repointed⟩, lifted, rfl⟩ := Except.map_ok.mp done
    refine typed.of_kinds kinds ?_
    rw [repointEdges_frame (Store.lift_ok.mp lifted)]
    exact fun _ member => member
  | performer =>
    obtain ⟨⟨moved, repointed⟩, lifted, rfl⟩ := Except.map_ok.mp done
    refine typed.of_kinds kinds fun row member => ?_
    rw [repointEdges_frame (Store.lift_ok.mp lifted)] at member
    dsimp only at member
    split at member
    · exact (creditSourceName_lessens store source target).fields row member
    · exact member
  | studio => exact redirectStudio_typed typed done
  | scene =>
    cases done
    exact typed

theorem mergeSource_typed (typed : store.Typed)
    (done : store.mergeSource source target kind details now = .ok after) : after.Typed := by
  have kinds := kind?_without (mergeSource_condition? done)
  obtain ⟨_, -, done⟩ := Except.bind_ok.mp done
  obtain ⟨moved, moving, done⟩ := Except.bind_ok.mp done
  obtain ⟨removed, removing, redirecting⟩ := Except.bind_ok.mp done
  refine (moveReferences_typed typed moving).of_kinds ?_ fun row member => ?_
  · rw [kinds, kind?_of_condition (moveReferences_condition? moving)]
  · rw [(insertRedirect_frame (Store.lift_ok.mp redirecting)).1] at member
    rw [tombstoneEntity_frame (Store.lift_ok.mp removing)] at member
    exact member

theorem merge_typed {sources : List EntityId} (typed : store.Typed) (same : details.kind = kind)
    (done : store.merge target sources kind details now = .ok after) : after.Typed := by
  obtain ⟨modified, modifying, merging⟩ := Except.bind_ok.mp done
  exact Except.foldlM_keeps Store.Typed sources
    (fun _ _ _ _ stateTyped merged => mergeSource_typed stateTyped merged)
    (modify_typed typed same modifying) merging

theorem SameCatalogue.typed {first second : Store} (same : first.SameCatalogue second)
    (typed : first.Typed) : second.Typed := by
  rw [same]
  exact typed

end Store

/-- **The application of an edit keeps a store typed.** -/
theorem Edit.apply_typed {edit : Edit} {fresh target : EntityId} {now : Instant}
    {store after : Store} (typed : store.Typed) (proper : edit.Proper)
    (applied : edit.apply fresh now store = .ok (target, after)) : after.Typed := by
  have writes := Edit.apply_ok.mp applied
  split at writes
  all_goals obtain ⟨-, done⟩ := writes
  · exact Store.create_typed typed proper.kind done
  · exact Store.modify_typed typed proper.kind done
  · exact Store.destroy_typed typed done
  · exact Store.merge_typed typed proper.kind done

/-- **A record keeps its kind whatever edit is applied**, also if it is removed. -/
theorem Edit.apply_kind? {edit : Edit} {fresh target id : EntityId} {now : Instant} {kind : Kind}
    {store after : Store} (applied : edit.apply fresh now store = .ok (target, after))
    (known : store.kind? id = some kind) : after.kind? id = some kind := by
  have writes := Edit.apply_ok.mp applied
  split at writes
  all_goals obtain ⟨-, done⟩ := writes
  · obtain ⟨inserted, filled, listed, -, insertion, filling, listing, linking⟩ :=
      Store.create_split done
    have same : after.kind? = inserted.kind? := by
      refine Store.kind?_of_condition (Store.condition?_congr ?_)
      rw [Store.writeDetailLinks_frame linking, Store.writeLists_frame listing,
        Store.writeScalars_frame filling]
    rw [same]
    exact Store.insertEntity_kind? insertion known
  · rwa [Store.kind?_of_condition (Store.modify_condition? done)]
  · rwa [Store.kind?_without (Store.destroy_condition? done)]
  · obtain ⟨modified, modifying, merging⟩ := Except.bind_ok.mp done
    refine Except.foldlM_keeps (fun state => state.kind? id = some kind) edit.sources ?_ ?_ merging
    · exact fun _ _ _ _ before merged =>
        (congrFun (Store.kind?_without (Store.mergeSource_condition? merged)) id).trans before
    · rwa [Store.kind?_of_condition (Store.modify_condition? modifying)]

/-- **Every store that can be reached is typed.** -/
theorem Desk.run_typed (desk : Desk) (calls : List (Instant × Call)) :
    (desk.run calls).store.Typed :=
  @run_catalogue Store.Typed desk calls (fun _ member => nomatch member)
    (fun same typed => same.typed typed)
    fun _ proper typed applied => Edit.apply_typed typed proper applied

end Curation
