/-
**Nothing that is stored is left unread.** A record is read through the fields, collections and links
of its kind, and a value of another sort than its reader expects is passed over in silence. No value
ever is: whatever edits were submitted, amended and applied, all that is stored of a record has a key
and a sort that its kind reads, and so the record shows all of it.

* `Store.Keyed`: a field holds one value, and `Store.Dated`: the dates that edits propose are dates;
* `Store.Legible`: members have the sort of their collection, dates are dates, and links to tags carry
  no credit;
* `Store.ShownBy`: what is read of a record is all that is stored of it;
* `Desk.run_legible`: every record shows all that is stored of it, after every run.
-/

import Curation.Proofs.Contents
import Curation.Proofs.Provenance
import Curation.Proofs.Typing

namespace Curation

/-- A key is that of a collection of a kind, and a value is of the sort of its members. -/
def Collection.Fits (kind : Kind) (key : String) (value : Value) : Prop :=
  ∃ (collection : Collection kind) (held : collection.Carrier),
    key = collection.key ∧ value = collection.sort.value held

theorem Side.listFits {kind : Kind} {side : Side kind} {key : String} {change : ListChange Value}
    {value : Value} (proposed : (key, change) ∈ side.lists) (added : value ∈ change.added) :
    Collection.Fits kind key value := by
  obtain ⟨collection, -, same⟩ := Side.mem_lists.mp proposed
  cases same
  obtain ⟨held, -, rfl⟩ := List.mem_map.mp added
  exact ⟨collection, held, rfl, rfl⟩

/-! ### Dates -/

/-- The keys of the fields that hold dates. -/
def dateKeys : List String := [Field.birthdate.key, Field.sceneDate.key]

/-- A value is a text that is a date. -/
def Value.IsDate (value : Value) : Prop :=
  ∃ written, value = .text written ∧ FuzzyDate.isDate written = true

/-- What a change that was checked proposes for a date is one. -/
theorem Change.isDate_of_scalars {kind : Kind} {change : Change kind} {key : String} {value : Value}
    (checked : change.checkDate = .ok ()) (proposed : (key, value) ∈ change.new.scalars)
    (dated : key ∈ dateKeys) : value.IsDate := by
  obtain ⟨field, valued, rfl⟩ := Side.mem_scalars.mp proposed
  obtain ⟨held, scalar, rfl⟩ := Option.map_eq_some_iff.mp valued
  have dating : Field.dating? kind = some field := by
    cases field <;> first
      | rfl
      | exact absurd dated (by decide)
  have textual : ∃ written, field.sort.value held = .text written := by
    cases field <;> first
      | exact ⟨held, rfl⟩
      | exact absurd dated (by decide)
  obtain ⟨written, same⟩ := textual
  refine ⟨written, same, ?_⟩
  unfold checkDate at checked
  rw [dating] at checked
  dsimp only at checked valued
  rw [valued, same, Option.bind_some] at checked
  dsimp only [Value.text?] at checked
  split at checked
  · assumption
  · cases checked

namespace Store

variable {store after : Store} {id target : EntityId} {kind : Kind}

/-- The dates that edits propose are dates. -/
def Dated (store : Store) : Prop :=
  ∀ id edit, store.edit? id = some edit → edit.details.change.checkDate = .ok ()

/-! ### One value for a field -/

/-- Each field of a record holds one value. -/
def Keyed (store : Store) : Prop :=
  (store.fields.map fun row => (row.entity, row.key)).Nodup

theorem setField_keyed {entity : EntityId} {key : String} {value : Value} (keyed : store.Keyed)
    (done : store.setField entity key value = .ok after) : after.Keyed := by
  unfold setField at done
  split at done
  · split at done
    · cases done
      unfold Keyed
      rw [List.map_map]
      refine (congrArg List.Nodup (List.map_congr_left fun row _ => ?_)).mpr keyed
      rw [Function.comp_apply]
      split <;> rfl
    next unset =>
      cases done
      unfold Keyed
      rw [List.map_append, List.map_singleton]
      refine List.nodup_append'.mpr ⟨keyed, List.nodup_singleton _, fun name stored new => unset ?_⟩
      obtain ⟨row, member, same⟩ := List.mem_map.mp stored
      rw [List.mem_singleton.mp new, Prod.mk.injEq] at same
      rw [field?, Option.isSome_map, List.find?_isSome]
      exact ⟨row, member, decide_eq_true same⟩
  · cases done

theorem Written.keyed (written : store.Written after) (keyed : store.Keyed) : after.Keyed := by
  induction written with
  | keep => exact keyed
  | insertEntity id kind now _ done hypothesis =>
    rw [(insertEntity_frame done).2]
    exact hypothesis
  | touchEntity id now _ hypothesis => exact hypothesis
  | tombstoneEntity id now _ done hypothesis =>
    rw [tombstoneEntity_frame done]
    exact hypothesis
  | setField entity key value _ done hypothesis => exact setField_keyed hypothesis done
  | clearField entity key _ hypothesis =>
    exact hypothesis.sublist (List.filter_sublist.map _)
  | addMember entity list value _ done hypothesis =>
    rw [addMember_frame done]
    exact hypothesis
  | removeMember entity list value _ hypothesis => exact hypothesis
  | insertEdge association source target credit _ done hypothesis =>
    rw [(insertEdge_frame done).2]
    exact hypothesis
  | deleteEdge association source target _ hypothesis => exact hypothesis
  | setCredit association source target credit _ hypothesis => exact hypothesis
  | repointEdges association origin destination _ done hypothesis =>
    rw [repointEdges_frame done]
    exact hypothesis
  | insertRedirect source target now _ done hypothesis =>
    rw [(insertRedirect_frame done).1]
    exact hypothesis

/-- A field that is stored reads what its row holds. -/
theorem Keyed.field?_eq (keyed : store.Keyed) {row : FieldRow} (stored : row ∈ store.fields) :
    store.field? row.entity row.key = some row.value := by
  have found : (store.fields.find? fun other =>
      other.entity = row.entity ∧ other.key = row.key).isSome := by
    rw [List.find?_isSome]
    exact ⟨row, stored, decide_eq_true ⟨rfl, rfl⟩⟩
  obtain ⟨first, picked⟩ := Option.isSome_iff_exists.mp found
  have named := List.find?_some picked
  have same := of_decide_eq_true named
  have one : first = row := List.inj_on_of_nodup_map keyed (List.mem_of_find?_eq_some picked) stored
    (Prod.ext same.1 same.2)
  rw [field?, picked, one]
  rfl

/-! ### Legible stores -/

/-- Members are of the sort that the collection of their key has for records of their kind, dates are
dates, and links to tags carry no credit. -/
structure Legible (store : Store) : Prop where
  members : ∀ row ∈ store.members, ∃ kind, store.kind? row.entity = some kind ∧
    Collection.Fits kind row.list row.value
  dates : ∀ row ∈ store.fields, row.key ∈ dateKeys → row.value.IsDate
  credits : store.Uncredited

theorem Legible.stems {details : Details} (legible : store.Legible)
    (stems : Stems target details store after) (checked : details.change.checkDate = .ok ())
    (kinds : ∀ id kind, store.kind? id = some kind → after.kind? id = some kind)
    (known : after.kind? target = some details.kind) : after.Legible where
  members row member := by
    rcases stems.members row member with earlier | ⟨owner, change, proposed, added⟩
    · obtain ⟨kind, owned, fits⟩ := legible.members row earlier
      exact ⟨kind, kinds _ _ owned, fits⟩
    · exact ⟨details.kind, owner ▸ known, Side.listFits proposed added⟩
  dates row member dated := by
    rcases stems.fields row member with earlier | ⟨-, proposed⟩ | ⟨refers, -⟩
    · exact legible.dates row earlier dated
    · exact Change.isDate_of_scalars checked proposed dated
    · -- no field holds a date and refers to a studio
      have apart : ∀ key ∈ studioKeys, key ∉ dateKeys := by decide
      exact absurd dated (apart _ refers)
  credits := stems.credits legible.credits

theorem SameCatalogue.legible {first second : Store} (same : first.SameCatalogue second)
    (legible : first.Legible) : second.Legible := by
  rw [same]
  exact ⟨legible.members, legible.dates, legible.credits⟩

end Store

/-- The target of an edit that has been applied is a record of its kind. -/
theorem Edit.apply_target {edit : Edit} {fresh target : EntityId} {now : Instant}
    {store after : Store} (applied : edit.apply fresh now store = .ok (target, after)) :
    after.kind? target = some edit.kind := by
  have kept (live : store.IsLive target edit.kind) : after.kind? target = some edit.kind :=
    Edit.apply_kind? applied live.kind?
  have writes := Edit.apply_ok.mp applied
  split at writes
  all_goals obtain ⟨aims, done⟩ := writes
  · rw [aims, Store.kind?, Store.create_condition? done, if_pos rfl]
    rfl
  · obtain ⟨_, live, -⟩ := Except.bind_ok.mp done
    exact kept (Store.requireStillLive_ok.mp live)
  · obtain ⟨_, live, -⟩ := Except.bind_ok.mp done
    exact kept (Store.requireStillLive_ok.mp live)
  · obtain ⟨_, modifying, -⟩ := Except.bind_ok.mp done
    obtain ⟨_, live, -⟩ := Except.bind_ok.mp modifying
    exact kept (Store.requireStillLive_ok.mp live)

namespace Desk

variable {desk : Desk} {now : Instant} {call : Call} {before after : Store}

/-! ### Runs -/

/-- A turn leaves edits that propose dates. -/
theorem Turn.dated (turn : desk.Turn now call before after) (dated : before.Dated) :
    after.Dated := by
  intro id edit found
  cases edit?_id found
  cases turn.origin found with
  | kept earlier votes => exact dated _ edit earlier
  | submitted caller submission details unused checked same catalogue =>
    rw [same]
    exact Submission.details_dated checked
  | enacted caller submission details number target store unused checked creates application
      catalogue same =>
    rw [same]
    exact Submission.details_dated checked
  | handled earlier written looked pending handles same =>
    have earlierDated := dated _ earlier looked
    rw [same]
    cases handles with
    | amended caller proposal remark details called mayChange limit kindKept checked catalogue votes =>
      exact Submission.details_dated checked
    | withdrawn catalogue votes => exact earlierDated
    | enforced caller voted number target store cast votes application catalogue =>
      exact earlierDated
    | decided tally verdict written counted decides settles =>
      cases settles with
      | pending catalogue => exact earlierDated
      | rejected catalogue => exact earlierDated
      | accepted number target store application catalogue => exact earlierDated
      | failed number error application catalogue => exact earlierDated

/-- A turn keeps a store legible. -/
theorem Turn.legible (turn : desk.Turn now call before after) (fit : before.KindsFit)
    (dated : before.Dated) (legible : before.Legible) : after.Legible := by
  rcases turn.catalogue with same | ⟨edit, fresh, target, store, applied, same, source⟩
  · exact same.legible legible
  · have proposes : edit.details.change.checkDate = .ok () ∧ edit.details.kind = edit.kind := by
      rcases source with ⟨found, -⟩ | ⟨id, caller, submission, details, checked, rfl⟩
      · exact ⟨dated _ edit found, fit _ edit found⟩
      · exact ⟨Submission.details_dated checked, Submission.details_kind checked⟩
    refine same.legible (legible.stems (Edit.apply_stems applied) proposes.1
      (fun _ _ => Edit.apply_kind? applied) ?_)
    rw [proposes.2]
    exact Edit.apply_target applied

/-- **Every store that can be reached is legible.** -/
theorem run_isLegible (desk : Desk) (calls : List (Instant × Call)) :
    (desk.run calls).store.Legible := by
  have every := @run_keeps (fun store => store.KindsFit ∧ store.Dated ∧ store.Legible) desk calls
    ⟨fun _ _ found => (nomatch found), fun _ _ found => (nomatch found),
      fun _ member => (nomatch member), fun _ member => (nomatch member),
      fun _ member => (nomatch member)⟩ ?_
  · exact every.2.2
  · rintro now - call before after turn ⟨fit, dated, legible⟩
    exact ⟨turn.kindsFit fit, turn.dated dated, turn.legible fit dated legible⟩

/-- **Every field holds one value**, after every run. -/
theorem run_keyed (desk : Desk) (calls : List (Instant × Call)) :
    (desk.run calls).store.Keyed :=
  @run_catalogue Store.Keyed desk calls List.nodup_nil
    (fun same keyed => by rw [same]; exact keyed)
    fun _ _ keyed applied => (Edit.apply_written applied).keyed keyed

end Desk

/-! ### What is shown -/

namespace Store

variable {store : Store} {id : EntityId} {kind : Kind}

/-- Contents show all that a store holds of a record. Every field that is stored is one of those that
its kind has, its value has the sort of the field and is admitted there, and it is shown; so is every
member of a collection and every link from the record, in their order and with their credits. -/
structure ShownBy (store : Store) (id : EntityId) (contents : Contents kind) : Prop where
  fields : ∀ row ∈ store.fields, row.entity = id →
    ∃ (field : Field kind) (held : field.Carrier),
      row = ⟨id, field.key, field.sort.value held⟩ ∧ field.admits held = true ∧
        contents.scalar field = some held
  dates : ∀ row ∈ store.fields, row.entity = id → row.key ∈ dateKeys → row.value.IsDate
  lists : ∀ row ∈ store.members, row.entity = id →
    ∃ collection : Collection kind, row.list = collection.key
  members : ∀ collection : Collection kind, store.collection id collection.key =
    (contents.members collection).map collection.sort.value
  associations : ∀ edge ∈ store.edges, edge.source = id →
    ∃ link : Link kind, edge.association = link.association
  links : ∀ link : Link kind, store.edgesFrom id link.association =
    (contents.links link).map fun shown =>
      ⟨link.association, id, link.target shown, link.credit shown⟩

/-- **Contents that are read of a legible store show all that it holds.** -/
theorem shownBy_contents (typed : store.Typed) (sound : store.Sound) (keyed : store.Keyed)
    (legible : store.Legible) (known : store.kind? id = some kind) :
    store.ShownBy id (store.contents kind id) where
  fields row member owner := by
    obtain ⟨owned, ownerKind, field, held, named, valued⟩ := typed row member
    rw [owner, known] at ownerKind
    cases ownerKind
    have reads : field.sort.ofValue? row.value = some held := by
      rw [valued, Scalar.ofValue?_value]
    refine ⟨field, held, ?_, (sound.fields row member).admitted _ field held named reads, ?_⟩
    · rw [← owner, ← named, ← valued]
    · show (store.field? id field.key).bind field.sort.ofValue? = some held
      rw [← owner, ← named, keyed.field?_eq member]
      exact reads
  dates row member _ dated := legible.dates row member dated
  lists row member owner := by
    obtain ⟨owned, ownerKind, collection, held, named, -⟩ := legible.members row member
    rw [owner, known] at ownerKind
    cases ownerKind
    exact ⟨collection, named⟩
  members collection := by
    show _ = List.map _ (List.filterMap _ _)
    rw [List.map_filterMap]
    refine ((List.filterMap_congr fun value listed => ?_).trans List.filterMap_some).symm
    obtain ⟨owned, ownerKind, other, held, named, valued⟩ :=
      legible.members _ (mem_collection.mp listed)
    rw [known] at ownerKind
    cases ownerKind
    cases Collection.key_inj named
    dsimp only at valued
    rw [valued, Member.ofValue?_value]
    rfl
  associations edge member source := by
    have live := (sound.edges edge member).1.kind?
    rw [source, known] at live
    cases live
    cases association : edge.association with
    | sceneTag => exact ⟨.sceneTags, rfl⟩
    | scenePerformer => exact ⟨.scenePerformers, rfl⟩
  links link := by
    show _ = List.map _ (List.map _ _)
    rw [List.map_map]
    refine ((List.map_congr_left fun edge listed => ?_).trans (List.map_id _)).symm
    obtain ⟨stored, starts⟩ := List.mem_filter.mp listed
    obtain ⟨source, association⟩ := of_decide_eq_true starts
    have credited : link.credit (link.ofEdge edge.target edge.credit) = edge.credit := by
      cases link with
      | sceneTags => exact (legible.credits edge stored association).symm
      | scenePerformers => rfl
    rw [Function.comp_apply, Link.target_ofEdge, credited, ← source, ← association, id_eq]

end Store

/-- **Nothing that is stored is left unread.** After every run, each record can be read as one of its
kind and shows all fields, members and links that are stored of it: their keys are those of its kind,
their values have the sort that is read and are words and dates where those are called for. And
whatever is stored is stored of some record. -/
theorem Desk.run_legible (desk : Desk) (calls : List (Instant × Call)) :
    (∀ id row, (desk.run calls).store.entity? id = some row →
      ∃ record, (desk.run calls).store.record? row.kind id = some record ∧
        record.header = ⟨id, row.created, row.updated, row.deleted⟩ ∧
        (desk.run calls).store.ShownBy id record.contents) ∧
      (∀ row ∈ (desk.run calls).store.fields, (desk.run calls).store.hasEntity row.entity = true) ∧
      (∀ row ∈ (desk.run calls).store.members, (desk.run calls).store.hasEntity row.entity = true) ∧
      ∀ edge ∈ (desk.run calls).store.edges, (desk.run calls).store.hasEntity edge.source = true := by
  have tidy := desk.run_tidy calls
  have sound := desk.run_sound calls
  refine ⟨fun id row found => ?_, tidy.fieldOwners, tidy.memberOwners,
    fun edge member => (sound.edges edge member).1.hasEntity⟩
  have known : (desk.run calls).store.kind? id = some row.kind := by
    rw [Store.kind?, Store.condition?, found]
    rfl
  have sameId : row.id = id := by
    obtain ⟨stored, picked, rfl⟩ := Option.map_eq_some_iff.mp found
    have same := List.find?_some picked
    exact of_decide_eq_true same
  refine ⟨⟨⟨row.id, row.created, row.updated, row.deleted⟩,
    (desk.run calls).store.contents row.kind id⟩, ?_, by rw [sameId],
    Store.shownBy_contents (desk.run_typed calls) sound (desk.run_keyed calls)
      (desk.run_isLegible calls) known⟩
  rw [Store.record?, found, Option.filter_some, if_pos (decide_eq_true rfl)]
  rfl

end Curation
