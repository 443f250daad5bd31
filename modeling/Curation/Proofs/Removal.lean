/-
**Removal detaches exactly.** A record that is removed is marked as such; it keeps what its fields
and collections hold and loses its links. Every other record reads as it did, without the one that was
removed: that is gone from its links, which keep their order and their credits, and from the fields
that refer to studios. Nothing else differs, except that a record of which a field was cleared counts
as updated.

* `Contents.without`: what contents are without a record;
* `Store.Clears`: what detaching a studio does to the tables, by induction on the keys by which
  records refer to it, and for each on those records;
* `Store.Detaches`: what is read after a removal, and `Store.destroy_detaches`: removals do it;
* `Desk.run_detaches`: so does every removal that is applied.
-/

import Curation.Proofs.Readback
import Curation.Proofs.Substitution
import Curation.Proofs.Typing

namespace Curation

/-! ### Records without another -/

section Contents

variable {kind : Kind}

/-- A field refers to a studio by what it holds. -/
def Field.refersTo (field : Field kind) (studio : EntityId) (held : field.Carrier) : Bool :=
  decide (field.key ∈ Store.studioKeys ∧ field.sort.value held = .reference studio)

namespace Contents

/-- Some field refers to a studio. -/
def refersTo (contents : Contents kind) (studio : EntityId) : Bool :=
  (Field.ofKind kind).any fun field => (contents.scalar field).any (field.refersTo studio)

/-- **What contents are without a record**: no field refers to it as a studio, and no link leads to
it. -/
def without (removed : EntityId) (contents : Contents kind) : Contents kind where
  scalar field := (contents.scalar field).filter fun held => !field.refersTo removed held
  members := contents.members
  links link := (contents.links link).filter fun listed => link.target listed ≠ removed

/-- The studio of a scene is gone if it was the one that was removed. -/
theorem without_sceneStudio (removed : EntityId) (contents : Contents .scene) :
    (contents.without removed).scalar .sceneStudio =
      (contents.scalar .sceneStudio : Option EntityId).filter (· ≠ removed) := by
  refine congrArg (Option.filter · _) (funext fun held => ?_)
  have refers : Field.sceneStudio.refersTo removed held = decide ((held : EntityId) = removed) := by
    simp [Field.refersTo, Store.studioKeys, Scalar.value]
  rw [refers, decide_not]

/-- So is the parent of a studio. -/
theorem without_studioParent (removed : EntityId) (contents : Contents .studio) :
    (contents.without removed).scalar .studioParent =
      (contents.scalar .studioParent : Option EntityId).filter (· ≠ removed) := by
  refine congrArg (Option.filter · _) (funext fun held => ?_)
  have refers : Field.studioParent.refersTo removed held = decide ((held : EntityId) = removed) := by
    simp [Field.refersTo, Store.studioKeys, Scalar.value]
  rw [refers, decide_not]

/-- Every other field stays as it is. -/
theorem without_scalar {removed : EntityId} {contents : Contents kind} {field : Field kind}
    (plain : field.key ∉ Store.studioKeys) :
    (contents.without removed).scalar field = contents.scalar field := by
  have kept : ∀ held, (!field.refersTo removed held) = true := by
    intro held
    rw [Bool.not_eq_true', Field.refersTo, decide_eq_false_iff_not]
    exact fun refers => plain refers.1
  show (contents.scalar field).filter _ = _
  cases contents.scalar field with
  | none => rfl
  | some held => exact Option.filter_some_pos (kept held)

end Contents

/-- A field from which a reference to a studio was cleared reads what it read, unless it referred to
that studio. -/
theorem Field.bind_cleared (field : Field kind) (studio : EntityId) (stored : Option Value) :
    (if field.key ∈ Store.studioKeys ∧ stored = some (.reference studio) then none
      else stored).bind field.sort.ofValue? =
      (stored.bind field.sort.ofValue?).filter fun held => !field.refersTo studio held := by
  cases reads : stored.bind field.sort.ofValue? with
  | none =>
    split
    next => rfl
    next => exact reads
  | some held =>
    obtain ⟨value, rfl, means⟩ := Option.bind_eq_some_iff.mp reads
    cases Scalar.ofValue?_eq_some.mp means
    rw [Option.filter_some, Field.refersTo]
    by_cases refers : field.key ∈ Store.studioKeys ∧ field.sort.value held = .reference studio
    · rw [if_pos ⟨refers.1, congrArg some refers.2⟩, decide_eq_true refers]
      rfl
    · rw [if_neg fun both => refers ⟨both.1, Option.some.inj both.2⟩, decide_eq_false refers]
      exact reads

/-- A record that was removed: it has lost its links. -/
def Record.tombstoned (now : Instant) (record : Record kind) : Record kind :=
  ⟨{ record.header with updated := now.toMillisecond, deleted := true },
    { record.contents with links := fun _ => [] }⟩

/-- A record after another was removed. It was updated if one of its fields was cleared. -/
def Record.detached (removed : EntityId) (now : Instant) (record : Record kind) : Record kind :=
  ⟨if record.contents.refersTo removed then { record.header with updated := now.toMillisecond }
    else record.header, record.contents.without removed⟩

end Contents

namespace Store

variable {store middle after : Store} {id studio : EntityId} {kind : Kind} {key : String}
  {keys : List String} {now : Instant}

/-! ### Detaching a studio -/

/-- A field of some keys refers to a studio. -/
def RefersBy (store : Store) (keys : List String) (entity studio : EntityId) : Prop :=
  ∃ key ∈ keys, store.field? entity key = some (.reference studio)

instance (store : Store) (keys : List String) (entity studio : EntityId) :
    Decidable (store.RefersBy keys entity studio) := by
  unfold RefersBy
  infer_instance

/-- **Clearing references to a studio**: the fields of some keys that refer to it are cleared, and
their records are updated. -/
structure Clears (store after : Store) (keys : List String) (studio : EntityId) (now : Instant) :
    Prop where
  fields : ∀ entity key, after.field? entity key =
    if key ∈ keys ∧ store.field? entity key = some (.reference studio) then none
    else store.field? entity key
  entities : ∀ entity, after.entity? entity = (store.entity? entity).map fun row =>
    if store.RefersBy keys entity studio then { row with updated := now.toMillisecond } else row
  frame : after = { store with entities := after.entities, fields := after.fields }

/-- Nothing is cleared where nothing refers to a studio. -/
theorem Clears.refl (unreferenced : ∀ entity, ¬ store.RefersBy keys entity studio) (now : Instant) :
    store.Clears store keys studio now where
  fields entity key := by
    rw [if_neg]
    exact fun refers => unreferenced entity ⟨key, refers⟩
  entities entity := by
    have same : (fun row : EntityRow => if store.RefersBy keys entity studio then
        { row with updated := now.toMillisecond } else row) = id :=
      funext fun row => if_neg (unreferenced entity)
    rw [same, Option.map_id, id]
  frame := rfl

/-- References by one key are cleared before those by others. -/
theorem Clears.cons (absent : key ∉ keys) (first : store.Clears middle [key] studio now)
    (rest : middle.Clears after keys studio now) :
    store.Clears after (key :: keys) studio now := by
  have untouched : ∀ entity, ∀ name ∈ keys, middle.field? entity name = store.field? entity name := by
    intro entity name listed
    rw [first.fields, if_neg]
    rintro ⟨same, -⟩
    exact absent (List.mem_singleton.mp same ▸ listed)
  have later : ∀ entity, middle.RefersBy keys entity studio ↔ store.RefersBy keys entity studio := by
    intro entity
    refine exists_congr fun name => and_congr_right fun listed => ?_
    rw [untouched entity name listed]
  refine ⟨fun entity name => ?_, fun entity => ?_, by rw [rest.frame, first.frame]⟩
  · rw [rest.fields]
    by_cases listed : name ∈ keys
    · rw [untouched entity name listed]
      simp only [listed, List.mem_cons, or_true]
    · rw [if_neg fun both => listed both.1, first.fields]
      simp only [List.mem_cons, List.not_mem_nil, listed, or_false]
  · rw [rest.entities, first.entities, Option.map_map]
    refine Option.map_congr fun row _ => ?_
    rw [Function.comp_apply, if_congr (later entity) rfl rfl]
    have either : store.RefersBy (key :: keys) entity studio ↔
        store.RefersBy [key] entity studio ∨ store.RefersBy keys entity studio := by
      simp only [RefersBy, List.mem_cons, List.not_mem_nil, or_false, or_and_right, exists_or]
    by_cases head : store.RefersBy [key] entity studio
    · simp only [either, head, true_or, if_true, ite_self]
    · simp only [either, head, false_or, if_false]

/-- What detaching some records does to the tables, by induction on them. -/
theorem detachReferrers_reads (store : Store) (referrers : List EntityId) (key : String)
    (now : Instant) :
    let after := referrers.foldl (detachReferrer key now) store
    (∀ entity name, after.field? entity name =
      if entity ∈ referrers ∧ name = key then none else store.field? entity name) ∧
    (∀ entity, after.entity? entity = (store.entity? entity).map fun row =>
      if entity ∈ referrers then { row with updated := now.toMillisecond } else row) ∧
    after = { store with entities := after.entities, fields := after.fields } := by
  induction referrers generalizing store with
  | nil =>
    refine ⟨fun entity name => (if_neg fun both => nomatch both.1).symm, fun entity => ?_, rfl⟩
    simp only [List.foldl_nil, List.not_mem_nil, if_false, Option.map_id']
  | cons head rest hypothesis =>
    obtain ⟨fields, entities, frame⟩ := hypothesis (detachReferrer key now store head)
    refine ⟨fun entity name => (fields entity name).trans ?_, fun entity => ?_, frame⟩
    · have cleared : (detachReferrer key now store head).field? entity name =
          if entity = head ∧ name = key then none else store.field? entity name :=
        field?_clearField store head key entity name
      rw [cleared, ← ite_or]
      refine if_congr ?_ rfl rfl
      rw [List.mem_cons, or_and_right, or_comm]
    · have touched : (detachReferrer key now store head).entity? entity =
          (store.entity? entity).map fun row =>
            if entity = head then { row with updated := now.toMillisecond } else row :=
        entity?_touchEntity (store.clearField head key) head entity now
      rw [List.foldl_cons, entities, touched, Option.map_map]
      refine Option.map_congr fun row _ => ?_
      rw [Function.comp_apply]
      by_cases same : entity = head
      · simp only [same, if_true, List.mem_cons, true_or, ite_self]
      · simp only [same, if_false, List.mem_cons, false_or]

/-- The references by one key are cleared when the records that hold them are detached. -/
theorem detachReferrers_clears (keyed : store.Keyed) (key : String) (studio : EntityId)
    (now : Instant) :
    store.Clears ((store.referrers key studio).foldl (detachReferrer key now) store) [key] studio
      now := by
  obtain ⟨fields, entities, frame⟩ :=
    detachReferrers_reads store (store.referrers key studio) key now
  refine ⟨fun entity name => (fields entity name).trans (if_congr ?_ rfl rfl),
    fun entity => (entities entity).trans ?_, frame⟩
  · rw [keyed.mem_referrers, List.mem_singleton, and_comm]
    refine and_congr_right fun named => ?_
    rw [named]
  · simp only [RefersBy, List.mem_singleton, exists_eq_left, keyed.mem_referrers]

/-- **Detaching a studio clears the references to it**, key by key. -/
theorem detachKeys_clears (keyed : store.Keyed) (once : keys.Nodup) (studio : EntityId)
    (now : Instant) :
    store.Clears (keys.foldl (fun store key =>
      (store.referrers key studio).foldl (detachReferrer key now) store) store) keys studio now := by
  induction keys generalizing store with
  | nil =>
    refine .refl (fun entity refers => ?_) now
    obtain ⟨key, listed, -⟩ := refers
    cases listed
  | cons key rest hypothesis =>
    obtain ⟨absent, restOnce⟩ := List.nodup_cons.mp once
    have writes : IsWrite (ε := ReviewError) fun store => .ok
        ((store.referrers key studio).foldl (detachReferrer key now) store) :=
      .foldlOver (fun _ _ => rfl) (detachReferrer_isWrite key now)
    have middleKeyed := (writes.written rfl).keyed keyed
    exact .cons absent (detachReferrers_clears keyed key studio now)
      (hypothesis middleKeyed restOnce)

/-! ### Removing a record -/

/-- **What is read after a removal.** The record is marked as removed and has lost its links, and every
other record, of whatever kind, reads as before without it. -/
structure Detaches (before after : Store) (removed : EntityId) (kind : Kind) (now : Instant) :
    Prop where
  there : ∃ record, before.record? kind removed = some record ∧ record.header.deleted = false
  target : ∀ read, after.record? read removed =
    (before.record? read removed).map (Record.tombstoned now)
  others : ∀ read other, other ≠ removed →
    after.record? read other = (before.record? read other).map (Record.detached removed now)
  redirects : after.redirects = before.redirects

/-- What is read can be read off the catalogue. -/
theorem Detaches.congr {later : Store} (detaches : store.Detaches after id kind now)
    (same : after.SameCatalogue later) : store.Detaches later id kind now := by
  rw [same]
  exact ⟨detaches.there, detaches.target, detaches.others, detaches.redirects⟩

/-- **What a removal does to the tables**: references to the record are cleared, its row is marked, and
the links that touch it are dropped. -/
theorem destroy_clears (sound : store.Sound) (keyed : store.Keyed)
    (done : store.destroy id kind now = .ok after) :
    store.IsLive id kind ∧ ∃ cleared, store.Clears cleared studioKeys id now ∧
      cleared.tombstoneEntity id now = .ok after := by
  obtain ⟨_, there, removal⟩ := Except.bind_ok.mp done
  have live := requireStillLive_ok.mp there
  refine ⟨live, _, ?_, Store.lift_ok.mp removal⟩
  by_cases isStudio : kind = .studio
  · rw [if_pos isStudio]
    have once : studioKeys.Nodup := by decide
    exact detachKeys_clears keyed once id now
  · rw [if_neg isStudio]
    refine .refl (fun entity refers => ?_) now
    obtain ⟨key, listed, holds⟩ := refers
    obtain ⟨row, found, held⟩ := Option.map_eq_some_iff.mp holds
    have picked := List.find?_some found
    have named := (of_decide_eq_true picked).2
    exact sound.unreferenced live isStudio listed row (List.mem_of_find?_eq_some found) named held

/-- No record refers to itself as a studio. -/
theorem Sound.not_own (sound : store.Sound) (live : store.IsLive id kind) {field : Field kind}
    (listed : field.key ∈ studioKeys) :
    store.field? id field.key ≠ some (.reference id) := by
  intro holds
  obtain ⟨row, found, held⟩ := Option.map_eq_some_iff.mp holds
  have stored := List.mem_of_find?_eq_some found
  have picked := List.find?_some found
  obtain ⟨owner, named⟩ := of_decide_eq_true picked
  by_cases isStudio : kind = .studio
  · subst isStudio
    have parent : row.key = Field.studioParent.key := by
      rw [named]
      cases field with
      | studioParent => rfl
      | studioName => exact absurd listed (by decide)
    exact (sound.fields row stored).ownParent parent (held.trans (congrArg _ owner.symm))
  · exact sound.unreferenced live isStudio listed row stored named held

/-- The record of a kind is read off its row. -/
theorem record?_found {row : EntityRow} (found : store.entity? id = some row) (read : Kind) :
    store.record? read id = if row.kind = read then
      some ⟨⟨row.id, row.created, row.updated, row.deleted⟩, store.contents read id⟩ else none := by
  unfold record?
  rw [found, Option.filter_some]
  by_cases same : row.kind = read
  · rw [if_pos (decide_eq_true same), if_pos same]
    rfl
  · rw [if_neg fun decided => same (of_decide_eq_true decided), if_neg same]
    rfl

/-- What another record holds after a removal is what it held, without the one that was removed. -/
theorem contents_without {cleared : Store} (clears : store.Clears cleared studioKeys id now)
    (removal : cleared.tombstoneEntity id now = .ok after) {other : EntityId} (apart : other ≠ id)
    (read : Kind) : after.contents read other = (store.contents read other).without id := by
  have frame := tombstoneEntity_frame removal
  have edges : after.edges = store.edges.filter fun edge => edge.source ≠ id ∧ edge.target ≠ id := by
    rw [frame, clears.frame]
  refine Contents.ext (funext fun field => ?_) (funext fun collection => ?_) (funext fun link => ?_)
  · have fields : after.field? other field.key = cleared.field? other field.key := by
      rw [frame]
      rfl
    show (after.field? other field.key).bind field.sort.ofValue? =
      ((store.field? other field.key).bind field.sort.ofValue?).filter _
    rw [fields, clears.fields]
    exact field.bind_cleared id _
  · rw [frame, clears.frame]
    rfl
  · show (after.edgesFrom other link.association).map _ =
      ((store.edgesFrom other link.association).map _).filter _
    unfold edgesFrom
    rw [edges, List.filter_filter, List.filter_map, List.filter_filter]
    refine congrArg _ (List.filter_congr fun edge _ => ?_)
    by_cases starts : edge.source = other ∧ edge.association = link.association
    · simp [starts, apart]
    · simp [starts]

/-- What the record itself holds after its removal is what it held, without its links: it did not refer
to itself. -/
theorem contents_tombstoned {cleared : Store} (sound : store.Sound) (live : store.IsLive id kind)
    (clears : store.Clears cleared studioKeys id now)
    (removal : cleared.tombstoneEntity id now = .ok after) :
    after.contents kind id = { store.contents kind id with links := fun _ => [] } := by
  have frame := tombstoneEntity_frame removal
  refine Contents.ext (funext fun field => ?_) (funext fun collection => ?_) (funext fun link => ?_)
  · have fields : after.field? id field.key = store.field? id field.key := by
      have cleared? : after.field? id field.key = cleared.field? id field.key := by
        rw [frame]
        rfl
      rw [cleared?, clears.fields, if_neg]
      rintro ⟨listed, holds⟩
      exact sound.not_own live listed holds
    exact congrArg (Option.bind · _) fields
  · rw [frame, clears.frame]
    rfl
  · show (after.edgesFrom id link.association).map _ = []
    rw [List.map_eq_nil_iff, edgesFrom, List.filter_eq_nil_iff, frame]
    intro edge kept starts
    have apart := of_decide_eq_true (List.mem_filter.mp kept).2
    exact apart.1 (of_decide_eq_true starts).1

/-- Who refers to a studio by what is stored does so by what is read. -/
theorem Typed.refersTo_iff (typed : store.Typed) {entity : EntityId} {row : EntityRow}
    (found : store.entity? entity = some row) :
    (store.contents row.kind entity).refersTo studio = true ↔
      store.RefersBy studioKeys entity studio := by
  unfold Contents.refersTo
  rw [List.any_eq_true]
  constructor
  · rintro ⟨field, -, refers⟩
    obtain ⟨held, reads, names⟩ := (Option.any_eq_true ..).mp refers
    obtain ⟨listed, same⟩ := of_decide_eq_true names
    obtain ⟨value, holds, means⟩ := Option.bind_eq_some_iff.mp reads
    rw [Scalar.ofValue?_eq_some.mp means, same] at holds
    exact ⟨field.key, listed, holds⟩
  · rintro ⟨key, listed, holds⟩
    obtain ⟨stored, picked, held⟩ := Option.map_eq_some_iff.mp holds
    have named := List.find?_some picked
    obtain ⟨owner, stores⟩ := of_decide_eq_true named
    obtain ⟨kind, known, field, content, key', value⟩ :=
      typed stored (List.mem_of_find?_eq_some picked)
    have own : store.kind? entity = some row.kind := by
      unfold kind? condition?
      rw [found]
      rfl
    rw [owner, own] at known
    cases known
    have names : field.key = key := key'.symm.trans stores
    rw [← names] at listed holds
    rw [held] at value
    refine ⟨field, Enumerated.mem_all field, (Option.any_eq_true ..).mpr ⟨content, ?_, ?_⟩⟩
    · show (store.field? entity field.key).bind field.sort.ofValue? = some content
      rw [holds, Option.bind_some, value, Scalar.ofValue?_value]
    · exact decide_eq_true ⟨listed, value.symm⟩

section Reading

variable {cleared : Store}

/-- The row of a record after one was removed. -/
theorem entity?_removed (clears : store.Clears cleared studioKeys id now)
    (removal : cleared.tombstoneEntity id now = .ok after) (entity : EntityId) :
    after.entity? entity = (store.entity? entity).map fun row =>
      if entity = id then { row with updated := now.toMillisecond, deleted := true }
      else if store.RefersBy studioKeys entity id then { row with updated := now.toMillisecond }
      else row := by
  rw [entity?_tombstoneEntity removal, clears.entities, Option.map_map]
  refine Option.map_congr fun row _ => ?_
  rw [Function.comp_apply]
  by_cases same : entity = id
  · rw [if_pos same, if_pos same]
    split <;> rfl
  · rw [if_neg same, if_neg same]

/-- What the record itself reads after its removal. -/
theorem record?_tombstoned (sound : store.Sound) (live : store.IsLive id kind)
    (clears : store.Clears cleared studioKeys id now)
    (removal : cleared.tombstoneEntity id now = .ok after) (read : Kind) :
    after.record? read id = (store.record? read id).map (Record.tombstoned now) := by
  obtain ⟨row, found, rfl, kept⟩ := live
  have marked := (entity?_removed clears removal id).trans (congrArg _ found)
  rw [Option.map_some, if_pos rfl] at marked
  rw [record?_found found, record?_found marked]
  by_cases same : row.kind = read
  · subst same
    rw [if_pos rfl, if_pos rfl, contents_tombstoned sound ⟨row, found, rfl, kept⟩ clears removal]
    rfl
  · rw [if_neg same, if_neg same]
    rfl

/-- What another record reads after a removal. -/
theorem record?_detached (typed : store.Typed) (clears : store.Clears cleared studioKeys id now)
    (removal : cleared.tombstoneEntity id now = .ok after) {other : EntityId} (apart : other ≠ id)
    (read : Kind) :
    after.record? read other = (store.record? read other).map (Record.detached id now) := by
  cases found : store.entity? other with
  | none =>
    have missing := (entity?_removed clears removal other).trans (congrArg _ found)
    unfold record?
    rw [found, missing]
    rfl
  | some row =>
    have noted := (entity?_removed clears removal other).trans (congrArg _ found)
    rw [Option.map_some, if_neg apart] at noted
    rw [record?_found found, record?_found noted]
    by_cases same : row.kind = read
    · subst same
      have refers : (store.contents row.kind other).refersTo id = true ↔
          store.RefersBy studioKeys other id := typed.refersTo_iff found
      rw [contents_without clears removal apart]
      by_cases refersBy : store.RefersBy studioKeys other id
      · rw [if_pos refersBy, if_pos rfl, if_pos rfl, Option.map_some, Record.detached,
          if_pos (refers.mpr refersBy)]
      · rw [if_neg refersBy, if_pos rfl, if_pos rfl, Option.map_some, Record.detached,
          if_neg fun reads => refersBy (refers.mp reads)]
    · rw [if_neg same, Option.map_none]
      split <;> rfl

end Reading

/-- **Removals detach exactly.** -/
theorem destroy_detaches (sound : store.Sound) (typed : store.Typed) (keyed : store.Keyed)
    (done : store.destroy id kind now = .ok after) : store.Detaches after id kind now := by
  obtain ⟨live, cleared, clears, removal⟩ := destroy_clears sound keyed done
  obtain ⟨record, found, kept, -⟩ := live.record?
  exact ⟨⟨record, found, kept⟩, record?_tombstoned sound live clears removal,
    fun read other apart => record?_detached typed clears removal apart read,
    by rw [tombstoneEntity_frame removal, clears.frame]⟩

end Store

/-! ### Runs -/

namespace Desk

/-- **Every removal that is applied detaches exactly**, whatever the record is, whatever was done before
and in whichever call the edit is applied. The transaction `step` of the call applies it, after the
others in `first`, which are none unless the call is a sweep. -/
theorem run_detaches (desk : Desk) (calls : List (Instant × Call)) (now : Instant) (call : Call)
    {id : EditId} {edit applied : Edit}
    (found : (desk.run calls).store.edit? id = some edit) (pending : edit.isPending = true)
    (destroys : edit.operation = .destroy)
    (later : (desk.run (calls ++ [(now, call)])).store.edit? id = some applied)
    (settled : applied.status.isApplied = true) :
    ∃ first step rest target,
      desk.transactions now (desk.run calls) call = first ++ (now, step) :: rest ∧
      edit.target = some target ∧ applied.target = some target ∧
      (desk.run (calls ++ first)).store.Detaches (desk.run (calls ++ first ++ [(now, step)])).store
        target edit.kind now := by
  obtain ⟨first, step, rest, standing, fresh, target, store, performed, -, -, asks, applies, same,
    given⟩ := desk.run_applies calls now call found pending later settled
  rw [← asks.operation] at destroys
  rw [← asks.kind, ← asks.target]
  have writes := Edit.apply_ok.mp applies
  rw [destroys] at writes
  obtain ⟨aims, done⟩ := writes
  have detaches := Store.destroy_detaches (desk.run_sound _) (desk.run_typed _) (desk.run_keyed _) done
  exact ⟨first, step, rest, target, performed, aims, given, detaches.congr same⟩

/-- There are a studio, another of which it is the parent, and a scene of it; and it is proposed to
remove it. -/
def studioFamily : List (Clock × Call) :=
  staffed ++ accepted 1 2 (.create (Rehearsal.studio "first" none)) ++
    accepted 2 4 (.create (Rehearsal.studio "second" (some ⟨Uuid.serial 3⟩))) ++
    accepted 3 6 (.create (Rehearsal.scene "beach" (some ⟨Uuid.serial 3⟩) [] [])) ++
    [(⟨4⟩, .createEdit ⟨Uuid.serial 0⟩ (.destroy .studio ⟨Uuid.serial 3⟩))]

/-- The vote by which it is removed. -/
def removalVote : Instant × Call :=
  (Clock.now ⟨200000000⟩, .vote ⟨Uuid.serial 1⟩ ⟨Uuid.serial 8⟩ .accept)

theorem studioFamily_detaches :
    Store.Detaches (swift.run (timed studioFamily)).store
      (swift.run (timed studioFamily ++ [removalVote])).store ⟨Uuid.serial 3⟩ .studio
      removalVote.1 ∧
    (swift.run (timed studioFamily)).store.field? ⟨Uuid.serial 7⟩ "studio_id" =
      some (.reference ⟨Uuid.serial 3⟩) ∧
    (swift.run (timed studioFamily ++ [removalVote])).store.field? ⟨Uuid.serial 5⟩ "parent_id" =
      none ∧
    (swift.run (timed studioFamily ++ [removalVote])).store.field? ⟨Uuid.serial 7⟩ "studio_id" =
      none := by
  have proposed : ((swift.run (timed studioFamily)).store.edit? ⟨Uuid.serial 8⟩).map
      (fun edit => (edit.isPending, edit.operation, edit.kind, edit.target)) =
        some (true, .destroy, .studio, some ⟨Uuid.serial 3⟩) := by
    decide +kernel
  have accepted : ((swift.run (timed studioFamily ++ [removalVote])).store.edit?
      ⟨Uuid.serial 8⟩).map (fun edit => edit.status.isApplied) = some true := by
    decide +kernel
  obtain ⟨edit, found, state⟩ := Option.map_eq_some_iff.mp proposed
  obtain ⟨applied, later, settled⟩ := Option.map_eq_some_iff.mp accepted
  simp only [Prod.mk.injEq] at state
  obtain ⟨pending, destroys, studio, aims⟩ := state
  obtain ⟨first, step, rest, target, performed, aimed, -, detaches⟩ :=
    run_detaches swift (timed studioFamily) removalVote.1 removalVote.2 found pending destroys later
      settled
  obtain ⟨rfl, rfl, -⟩ := transactions_single rfl performed
  cases aims.symm.trans aimed
  rw [List.append_nil, studio] at detaches
  exact ⟨detaches, by decide +kernel, by decide +kernel, by decide +kernel⟩

end Desk

end Curation
