/-
**Referential integrity.** Links join records that are there, and so do the references between
studios and from scenes to studios. A sound store stays sound whatever is written to it in the course
of an application, so that a reference is never left behind, not even halfway.

* `Store.Sound`: links and fields refer to live records, and fields hold words that they admit;
* `Store.tombstoneEntity_sound`: what must be gone before a record is removed;
* `Edit.apply_sound`: an application keeps a store sound;
* `Desk.run_integrity`: after every run there is referential integrity.
-/

import Curation.Proofs.Checks
import Curation.Proofs.Modification

namespace Curation

namespace Store

variable {store after : Store} {id : EntityId} {kind : Kind} {now : Instant}

/-! ### Sound stores -/

/-- What a field of a record may hold. -/
structure MayHold (store : Store) (entity : EntityId) (key : String) (value : Value) : Prop where
  reference : key ∈ studioKeys →
    ∃ studio, value = .reference studio ∧ store.IsLive studio .studio
  ownParent : key = Field.studioParent.key → value ≠ .reference entity
  admitted : ∀ (kind : Kind) (field : Field kind) (held : field.Carrier), key = field.key →
    field.sort.ofValue? value = some held → field.admits held = true

/-- Two live records that an association may link. -/
def MayLink (store : Store) (association : Association) (source target : EntityId) : Prop :=
  store.IsLive source .scene ∧ store.IsLive target association.linked

/-- Links and references lead to live records, and fields hold what they may. -/
structure Sound (store : Store) : Prop where
  edges : ∀ edge ∈ store.edges, store.MayLink edge.association edge.source edge.target
  fields : ∀ row ∈ store.fields, store.MayHold row.entity row.key row.value

/-- Every record that is live in one store is live in another. -/
def KeepsLive (first second : Store) : Prop :=
  ∀ id kind, first.IsLive id kind → second.IsLive id kind

theorem KeepsLive.of_entities {first second : Store} (entities : second.entities = first.entities) :
    first.KeepsLive second :=
  fun _ _ live => (isLive_congr entities).mpr live

theorem MayHold.mono {first second : Store} (keeps : first.KeepsLive second) {entity : EntityId}
    {key : String} {value : Value} (holds : first.MayHold entity key value) :
    second.MayHold entity key value where
  reference member :=
    let ⟨studio, same, live⟩ := holds.reference member
    ⟨studio, same, keeps _ _ live⟩
  ownParent := holds.ownParent
  admitted := holds.admitted

theorem MayLink.mono {first second : Store} (keeps : first.KeepsLive second)
    {association : Association} {source target : EntityId}
    (links : first.MayLink association source target) :
    second.MayLink association source target :=
  ⟨keeps _ _ links.1, keeps _ _ links.2⟩

/-- One store has no more fields and links than another, whose live records it keeps. -/
structure Lessens (first second : Store) : Prop where
  live : first.KeepsLive second
  fields : ∀ row ∈ second.fields, row ∈ first.fields
  edges : ∀ edge ∈ second.edges, ∃ earlier ∈ first.edges,
    edge = { earlier with credit := edge.credit }

namespace Lessens

variable {first second third : Store}

theorem refl (store : Store) : store.Lessens store :=
  ⟨fun _ _ live => live, fun _ member => member, fun edge member => ⟨edge, member, rfl⟩⟩

theorem trans (left : first.Lessens second) (right : second.Lessens third) :
    first.Lessens third where
  live id kind live := right.live id kind (left.live id kind live)
  fields row member := left.fields row (right.fields row member)
  edges edge member := by
    obtain ⟨middle, member, same⟩ := right.edges edge member
    obtain ⟨earlier, member, origin⟩ := left.edges middle member
    refine ⟨earlier, member, ?_⟩
    rw [same, origin]

theorem sound (lessens : first.Lessens second) (sound : first.Sound) : second.Sound where
  edges edge member := by
    obtain ⟨earlier, member, same⟩ := lessens.edges edge member
    rw [same]
    exact (sound.edges earlier member).mono lessens.live
  fields row member := (sound.fields row (lessens.fields row member)).mono lessens.live

theorem foldl {α : Type} {write : Store → α → Store}
    (each : ∀ (store : Store) value, store.Lessens (write store value)) (values : List α)
    (store : Store) :
    store.Lessens (values.foldl write store) :=
  List.foldlRecOn (motive := store.Lessens) values write (refl store)
    (fun state earlier value _ => earlier.trans (each state value))

end Lessens

/-! ### Primitive writes -/

theorem insertEntity_lessens (done : store.insertEntity id kind now = .ok after) :
    store.Lessens after := by
  refine ⟨(insertEntity_isLive done).2.2, ?_, ?_⟩
  · rw [(insertEntity_frame done).2]
    exact fun _ member => member
  · rw [(insertEntity_frame done).2]
    exact fun edge member => ⟨edge, member, rfl⟩

theorem touchEntity_lessens (store : Store) (id : EntityId) (now : Instant) :
    store.Lessens (store.touchEntity id now) :=
  ⟨fun _ _ live => isLive_touchEntity.mpr live, fun _ member => member,
    fun edge member => ⟨edge, member, rfl⟩⟩

theorem clearField_lessens (store : Store) (entity : EntityId) (key : String) :
    store.Lessens (store.clearField entity key) :=
  ⟨.of_entities rfl, fun _ member => (List.mem_filter.mp member).1,
    fun edge member => ⟨edge, member, rfl⟩⟩

theorem addMember_lessens {entity : EntityId} {list : String} {value : Value} {isNew : Bool}
    (done : store.addMember entity list value = .ok (isNew, after)) : store.Lessens after := by
  unfold addMember at done
  split at done
  · cases done
    exact .refl _
  · split at done
    · cases done
      exact ⟨.of_entities rfl, fun _ member => member, fun edge member => ⟨edge, member, rfl⟩⟩
    · cases done

theorem removeMember_lessens (store : Store) (entity : EntityId) (list : String) (value : Value) :
    store.Lessens (store.removeMember entity list value).2 :=
  ⟨.of_entities rfl, fun _ member => member, fun edge member => ⟨edge, member, rfl⟩⟩

theorem deleteEdge_lessens (store : Store) (association : Association)
    (source target : EntityId) : store.Lessens (store.deleteEdge association source target).2 :=
  ⟨.of_entities rfl, fun _ member => member,
    fun edge member => ⟨edge, (List.mem_filter.mp member).1, rfl⟩⟩

theorem setCredit_lessens (store : Store) (association : Association) (source target : EntityId)
    (credit : Option String) : store.Lessens (store.setCredit association source target credit) := by
  refine ⟨.of_entities rfl, fun _ member => member, fun edge member => ?_⟩
  obtain ⟨earlier, stored, rfl⟩ := List.mem_map.mp member
  refine ⟨earlier, stored, ?_⟩
  split <;> rfl

theorem insertRedirect_lessens {source target : EntityId}
    (done : store.insertRedirect source target now = .ok after) : store.Lessens after := by
  unfold insertRedirect at done
  split at done
  · split at done <;> cases done <;>
      exact ⟨.of_entities rfl, fun _ member => member, fun edge member => ⟨edge, member, rfl⟩⟩
  · cases done

theorem setField_sound {entity : EntityId} {key : String} {value : Value} (sound : store.Sound)
    (holds : store.MayHold entity key value)
    (done : store.setField entity key value = .ok after) :
    after.Sound ∧ store.KeepsLive after := by
  obtain ⟨frame, rows⟩ := setField_frame done
  have live : store.KeepsLive after := .of_entities (by rw [frame])
  refine ⟨⟨fun edge member => ?_, fun row member => ?_⟩, live⟩
  · rw [frame] at member
    exact (sound.edges edge member).mono live
  · rcases rows row member with rfl | ⟨earlier, -⟩
    · exact holds.mono live
    · exact (sound.fields row earlier).mono live

theorem insertEdge_sound {association : Association} {source target : EntityId}
    {credit : Option String} {isNew : Bool} (sound : store.Sound)
    (links : store.MayLink association source target)
    (done : store.insertEdge association source target credit = .ok (isNew, after)) :
    after.Sound ∧ store.KeepsLive after := by
  obtain ⟨-, frame⟩ := insertEdge_frame done
  have same : store.KeepsLive after := .of_entities (by rw [frame])
  refine ⟨⟨fun edge member => ?_, fun row member => ?_⟩, same⟩
  · rw [frame] at member
    dsimp only at member
    split at member
    · exact (sound.edges edge member).mono same
    · rcases List.mem_append.mp member with earlier | added
      · exact (sound.edges edge earlier).mono same
      · rw [List.mem_singleton.mp added]
        exact links.mono same
  · rw [frame] at member
    exact (sound.fields row member).mono same

theorem repointEdges_sound {association : Association} {origin destination : EntityId} {moved : Nat}
    (sound : store.Sound) (live : store.IsLive destination association.linked)
    (done : store.repointEdges association origin destination = .ok (moved, after)) :
    after.Sound ∧ store.KeepsLive after := by
  have frame := repointEdges_frame done
  have same : store.KeepsLive after := .of_entities (by rw [frame])
  refine ⟨⟨fun edge member => ?_, fun row member => ?_⟩, same⟩
  · rw [frame] at member
    obtain ⟨earlier, kept, rfl⟩ := List.mem_map.mp member
    have links := sound.edges earlier (List.mem_filter.mp kept).1
    unfold repoint
    split
    next moves =>
      obtain ⟨rfl, -⟩ := moves
      exact ⟨same _ _ links.1, same _ _ live⟩
    · exact links.mono same
  · rw [frame] at member
    exact (sound.fields row member).mono same

/-- No field of a given key refers to a given record. -/
def Unreferenced (store : Store) (key : String) (id : EntityId) : Prop :=
  ∀ row ∈ store.fields, row.key = key → row.value ≠ .reference id

/-- Only studios are referred to. -/
theorem Sound.unreferenced (sound : store.Sound) (live : store.IsLive id kind)
    (other : kind ≠ .studio) {key : String} (member : key ∈ studioKeys) :
    store.Unreferenced key id := by
  intro row stored same refers
  obtain ⟨studio, value, studioLive⟩ := (sound.fields row stored).reference (same ▸ member)
  rw [refers] at value
  cases value
  exact other (live.kind_unique studioLive)

/-- **A record may be removed when nothing refers to it**: its links are dropped with it. -/
theorem tombstoneEntity_sound (sound : store.Sound)
    (unreferenced : ∀ key ∈ studioKeys, store.Unreferenced key id)
    (done : store.tombstoneEntity id now = .ok after) : after.Sound := by
  have live : ∀ other otherKind, other ≠ id → store.IsLive other otherKind →
      after.IsLive other otherKind :=
    fun other otherKind different live => (isLive_tombstoneEntity done).mpr ⟨different, live⟩
  have frame : after.fields = store.fields ∧
      after.edges = store.edges.filter fun edge => edge.source ≠ id ∧ edge.target ≠ id := by
    unfold tombstoneEntity at done
    split at done
    · cases done
      exact ⟨rfl, rfl⟩
    · cases done
  refine ⟨fun edge member => ?_, fun row member => ?_⟩
  · rw [frame.2] at member
    obtain ⟨stored, apart⟩ := List.mem_filter.mp member
    obtain ⟨sourceApart, targetApart⟩ := of_decide_eq_true apart
    obtain ⟨sourceLive, targetLive⟩ := sound.edges edge stored
    exact ⟨live _ _ sourceApart sourceLive, live _ _ targetApart targetLive⟩
  · rw [frame.1] at member
    obtain ⟨reference, ownParent, admitted⟩ := sound.fields row member
    refine ⟨fun key => ?_, ownParent, admitted⟩
    obtain ⟨studio, value, studioLive⟩ := reference key
    refine ⟨studio, value, live _ _ ?_ studioLive⟩
    rintro rfl
    exact unreferenced row.key key row member rfl value

/-! ### Writing what a side proposes -/

/-- What a change that has passed its checks proposes for a field, the field may hold. -/
theorem mayHold_of_scalars {kind : Kind} {change : Change kind} (admitted : change.IsAdmitted)
    (live : ∀ studio, change.studio? = some studio → store.IsLive studio .studio)
    (other : kind = .studio → ∀ studio, change.studio? = some studio → id ≠ studio)
    {key : String} {value : Value} (member : (key, value) ∈ change.new.scalars) :
    store.MayHold id key value := by
  obtain ⟨field, valued, rfl⟩ := Side.mem_scalars.mp member
  obtain ⟨held, scalar, rfl⟩ := Option.map_eq_some_iff.mp valued
  have refers : field.key ∈ studioKeys → ∃ studio, field.sort.value held = .reference studio ∧
      change.studio? = some studio := by
    intro listed
    cases field <;> first
      | exact ⟨held, rfl, scalar⟩
      | exact absurd listed (by decide)
  refine ⟨fun listed => ?_, fun parent refersToSelf => ?_, fun kind field read same reads => ?_⟩
  · obtain ⟨studio, value, named⟩ := refers listed
    exact ⟨studio, value, live studio named⟩
  · obtain ⟨studio, value, named⟩ := refers (by rw [parent]; decide)
    rw [refersToSelf] at value
    cases value
    have studioKind : kind = .studio := by
      cases field <;> first
        | rfl
        | exact absurd parent (by decide)
    exact other studioKind id named rfl
  · exact Field.admits_of_key same (admitted _ held scalar) reads

theorem writeScalars_sound {scalars : List (String × Value)} (sound : store.Sound)
    (holds : ∀ key value, (key, value) ∈ scalars → store.MayHold id key value)
    (done : store.writeScalars id scalars = .ok after) : after.Sound ∧ store.KeepsLive after := by
  refine Except.foldlM_keeps (fun current => current.Sound ∧ store.KeepsLive current) scalars
    ?_ ⟨sound, fun _ _ live => live⟩ done
  rintro ⟨key, value⟩ member current next ⟨currentSound, live⟩ written
  obtain ⟨nextSound, nextLive⟩ := setField_sound currentSound ((holds key value member).mono live)
    (Store.lift_ok.mp written)
  exact ⟨nextSound, fun _ _ earlier => nextLive _ _ (live _ _ earlier)⟩

theorem writeList_lessens {key : String} {change : ListChange Value}
    (done : store.writeList id key change = .ok after) : store.Lessens after := by
  have removed : store.Lessens
      (change.removed.foldl (fun store value => (store.removeMember id key value).2) store) :=
    .foldl (fun current value => removeMember_lessens current id key value) _ _
  refine Except.foldlM_keeps store.Lessens change.added ?_ removed done
  intro value _ current next lessens written
  obtain ⟨⟨isNew, added⟩, lifted, rfl⟩ := Except.map_ok.mp written
  exact lessens.trans (addMember_lessens (Store.lift_ok.mp lifted))

theorem writeLists_lessens {lists : List (String × ListChange Value)}
    (done : store.writeLists id lists = .ok after) : store.Lessens after := by
  refine Except.foldlM_keeps store.Lessens lists ?_ (.refl store) done
  rintro ⟨key, change⟩ _ current next lessens written
  exact lessens.trans (writeList_lessens written)

theorem linkTag_sound {scene tag : EntityId} (sound : store.Sound)
    (links : store.MayLink .sceneTag scene tag) (done : store.linkTag scene tag = .ok after) :
    after.Sound ∧ store.KeepsLive after := by
  obtain ⟨⟨isNew, linked⟩, lifted, rfl⟩ := Except.map_ok.mp done
  exact insertEdge_sound sound links (Store.lift_ok.mp lifted)

theorem linkPerformer_sound {scene : EntityId} {appearance : Appearance} (sound : store.Sound)
    (links : store.MayLink .scenePerformer scene appearance.performer)
    (done : store.linkPerformer scene appearance = .ok after) :
    after.Sound ∧ store.KeepsLive after := by
  obtain ⟨⟨isNew, linked⟩, lifted, finish⟩ := Except.bind_ok.mp done
  obtain ⟨linkedSound, live⟩ := insertEdge_sound sound links (Store.lift_ok.mp lifted)
  cases isNew with
  | true =>
    cases finish
    exact ⟨linkedSound, live⟩
  | false =>
    cases finish
    have credited := setCredit_lessens linked .scenePerformer scene appearance.performer
      appearance.creditedAs
    exact ⟨credited.sound linkedSound, fun _ _ earlier => credited.live _ _ (live _ _ earlier)⟩

theorem writeLinks_sound {scene : EntityId} {tags : ListChange EntityId}
    {performers : ListChange Appearance} (sound : store.Sound)
    (tagLinks : ∀ tag ∈ tags.added, store.MayLink .sceneTag scene tag)
    (performerLinks : ∀ appearance ∈ performers.added,
      store.MayLink .scenePerformer scene appearance.performer)
    (done : store.writeLinks scene tags performers = .ok after) :
    after.Sound ∧ store.KeepsLive after := by
  obtain ⟨tagged, tagging, performing⟩ := Except.bind_ok.mp done
  have untagged : store.Lessens
      (tags.removed.foldl (fun store tag => (store.deleteEdge .sceneTag scene tag).2) store) :=
    .foldl (fun current tag => deleteEdge_lessens current .sceneTag scene tag) _ _
  have taggedSound : tagged.Sound ∧ store.KeepsLive tagged := by
    refine Except.foldlM_keeps (fun current => current.Sound ∧ store.KeepsLive current) tags.added
      ?_ ⟨untagged.sound sound, untagged.live⟩ tagging
    rintro tag member current next ⟨currentSound, live⟩ linked
    obtain ⟨nextSound, nextLive⟩ :=
      linkTag_sound currentSound ((tagLinks tag member).mono live) linked
    exact ⟨nextSound, fun _ _ earlier => nextLive _ _ (live _ _ earlier)⟩
  have unperformed : tagged.Lessens (performers.removed.foldl
      (fun store appearance => (store.deleteEdge .scenePerformer scene appearance.performer).2)
      tagged) :=
    .foldl (fun current (appearance : Appearance) =>
      deleteEdge_lessens current .scenePerformer scene appearance.performer) _ _
  refine Except.foldlM_keeps (fun current => current.Sound ∧ store.KeepsLive current)
    performers.added ?_ ⟨unperformed.sound taggedSound.1, fun _ _ earlier =>
      unperformed.live _ _ (taggedSound.2 _ _ earlier)⟩ performing
  rintro appearance member current next ⟨currentSound, live⟩ linked
  obtain ⟨nextSound, nextLive⟩ :=
    linkPerformer_sound currentSound ((performerLinks appearance member).mono live) linked
  exact ⟨nextSound, fun _ _ earlier => nextLive _ _ (live _ _ earlier)⟩

theorem writeDetailLinks_sound {details : Details} (sound : store.Sound)
    (live : store.IsLive id details.kind)
    (linked : ∀ link, ∀ linked ∈ details.change.linked link,
      store.IsLive linked link.association.linked)
    (done : store.writeDetailLinks id details = .ok after) :
    after.Sound ∧ store.KeepsLive after := by
  obtain ⟨kind, change⟩ := details
  cases kind with
  | scene =>
    refine writeLinks_sound sound (fun tag added => ⟨live, ?_⟩) (fun appearance added => ⟨live, ?_⟩)
      done
    · exact linked .sceneTags tag (List.mem_map.mpr ⟨tag, added, rfl⟩)
    · exact linked .scenePerformers _ (List.mem_map.mpr ⟨appearance, added, rfl⟩)
  | tag =>
    cases done
    exact ⟨sound, fun _ _ live => live⟩
  | performer =>
    cases done
    exact ⟨sound, fun _ _ live => live⟩
  | studio =>
    cases done
    exact ⟨sound, fun _ _ live => live⟩

/-! ### The operations on records -/

theorem create_sound {details : Details} (sound : store.Sound) (same : details.kind = kind)
    (admitted : details.change.IsAdmitted) (done : store.create id kind details now = .ok after) :
    after.Sound ∧ after.IsLive id kind := by
  obtain ⟨inserted, filled, listed, checked, insertion, filling, listing, linking⟩ :=
    create_split done
  obtain ⟨studioLive, -, linkedLive⟩ := Change.checkReferences_ok checked
  have insertedLessens := insertEntity_lessens insertion
  obtain ⟨live, new, -⟩ := insertEntity_isLive insertion
  have unused := (insertEntity_frame insertion).1
  have filledSound : filled.Sound ∧ inserted.KeepsLive filled := by
    refine writeScalars_sound (insertedLessens.sound sound) (fun key value member => ?_) filling
    refine mayHold_of_scalars admitted
      (fun studio named => insertedLessens.live _ _ (studioLive studio named)) ?_ member
    rintro - studio named rfl
    rw [(studioLive id named).hasEntity] at unused
    cases unused
  have listedLessens := writeLists_lessens listing
  have toListed : store.KeepsLive listed := fun _ _ earlier =>
    listedLessens.live _ _ (filledSound.2 _ _ (insertedLessens.live _ _ earlier))
  have made : listed.IsLive id details.kind := by
    rw [same]
    exact listedLessens.live _ _ (filledSound.2 _ _ live)
  obtain ⟨linkedSound, linkedKeeps⟩ := writeDetailLinks_sound (listedLessens.sound filledSound.1)
    made (fun link linked member => toListed _ _ (linkedLive link linked member)) linking
  exact ⟨linkedSound, linkedKeeps _ _ (same ▸ made)⟩

theorem clearDropped_lessens (store : Store) (id : EntityId) (change : Change kind) :
    store.Lessens (store.clearDropped id change) := by
  refine .foldl (fun current field => ?_) _ _
  split
  · exact clearField_lessens current id field.key
  · exact .refl current

theorem creditOldName_lessens (store : Store) (performer : EntityId) (change : Change .performer) :
    store.Lessens (store.creditOldName performer change) := by
  unfold creditOldName
  split
  · split
    · exact .refl store
    · refine .foldl (fun current edge => ?_) _ _
      unfold creditOldNameOn
      split
      · exact setCredit_lessens _ _ _ _ _
      · split
        · exact setCredit_lessens _ _ _ _ _
        · exact .refl current
  · exact .refl store

theorem keepCredits_lessens (store : Store) (id : EntityId) (details : Details) :
    store.Lessens (store.keepCredits id details) := by
  unfold keepCredits
  split
  · split
    · exact creditOldName_lessens store id _
    · exact .refl store
  · exact .refl store

theorem modify_sound {details : Details} (sound : store.Sound) (same : details.kind = kind)
    (admitted : details.change.IsAdmitted) (done : store.modify id kind details now = .ok after) :
    after.Sound ∧ after.IsLive id kind := by
  obtain ⟨filled, listed, linked, ⟨live, -, checked⟩, filling, listing, linking, rfl⟩ :=
    modify_split done
  obtain ⟨studioLive, otherStudio, linkedLive⟩ := Change.checkReferences_ok checked
  have filledSound : filled.Sound ∧ store.KeepsLive filled := by
    refine writeScalars_sound sound (fun key value member => ?_) filling
    refine mayHold_of_scalars admitted studioLive ?_ member
    rintro studioKind studio named rfl
    exact otherStudio studioKind id named rfl
  have listedLessens := (clearDropped_lessens filled id details.change).trans
    (writeLists_lessens listing)
  have toListed : store.KeepsLive listed := fun _ _ earlier =>
    listedLessens.live _ _ (filledSound.2 _ _ earlier)
  have linkedSound : linked.Sound ∧ listed.KeepsLive linked := by
    refine writeDetailLinks_sound (listedLessens.sound filledSound.1) ?_
      (fun link linked member => toListed _ _ (linkedLive link linked member)) linking
    rw [same]
    exact toListed _ _ live
  have finished := (keepCredits_lessens linked id details).trans (touchEntity_lessens _ id now)
  exact ⟨finished.sound linkedSound.1, finished.live _ _ (linkedSound.2 _ _ (toListed _ _ live))⟩

/-! ### Taking references away -/

theorem mem_referrers {key : String} {studio entity : EntityId} :
    entity ∈ store.referrers key studio ↔
      ∃ row ∈ store.fields, (row.key = key ∧ row.value = .reference studio) ∧
        row.entity = entity := by
  unfold referrers
  rw [mem_sortBy, List.mem_map]
  simp only [List.mem_filter, decide_eq_true_eq, and_assoc]

theorem detachReferrer_lessens (key : String) (now : Instant) (store : Store) (referrer : EntityId) :
    store.Lessens (detachReferrer key now store referrer) :=
  (clearField_lessens store referrer key).trans (touchEntity_lessens _ referrer now)

/-- A field that is left when some records have been detached is not one of theirs. -/
theorem detachReferrers_fields {key : String} {referrers : List EntityId} {row : FieldRow}
    (member : row ∈ (referrers.foldl (detachReferrer key now) store).fields) :
    row ∈ store.fields ∧ ¬ (row.entity ∈ referrers ∧ row.key = key) := by
  induction referrers generalizing store with
  | nil => exact ⟨member, fun none => (nomatch none.1)⟩
  | cons head rest hypothesis =>
    obtain ⟨earlier, notRest⟩ := hypothesis member
    obtain ⟨stored, notHead⟩ := List.mem_filter.mp earlier
    refine ⟨stored, fun listed => ?_⟩
    rcases List.mem_cons.mp listed.1 with same | later
    · exact of_decide_eq_true notHead ⟨same, listed.2⟩
    · exact notRest ⟨later, listed.2⟩

/-- **When a studio has been detached, nothing refers to it.** -/
theorem detachStudio_unreferenced (store : Store) (studio : EntityId) (now : Instant) :
    store.Lessens (store.detachStudio studio now) ∧
      ∀ key ∈ studioKeys, (store.detachStudio studio now).Unreferenced key studio := by
  have each (current : Store) (key : String) : current.Lessens
      ((current.referrers key studio).foldl (detachReferrer key now) current) :=
    .foldl (detachReferrer_lessens key now) _ _
  have cleared : ∀ (current : Store) (key : String), Unreferenced
      ((current.referrers key studio).foldl (detachReferrer key now) current) key studio := by
    intro current key row member same refers
    obtain ⟨stored, notListed⟩ := detachReferrers_fields member
    exact notListed ⟨mem_referrers.mpr ⟨row, stored, ⟨same, refers⟩, rfl⟩, same⟩
  refine ⟨.foldl each _ _, ?_⟩
  unfold detachStudio
  -- a key that has been gone through stays clear, because only fewer fields are left
  have every : ∀ (keys : List String) (current : Store) (key : String),
      key ∈ keys ∨ current.Unreferenced key studio → Unreferenced (keys.foldl
        (fun store key => (store.referrers key studio).foldl (detachReferrer key now) store) current)
        key studio := by
    intro keys
    induction keys with
    | nil =>
      rintro current key (none | clear)
      · cases none
      · exact clear
    | cons head rest hypothesis =>
      rintro current key holds
      refine hypothesis _ key ?_
      rcases holds with listed | clear
      · rcases List.mem_cons.mp listed with rfl | later
        · exact .inr (cleared current key)
        · exact .inl later
      · exact .inr fun row member => clear row ((each current head).fields row member)
  exact fun key member => every studioKeys store key (.inl member)

/-- What a record holds when its reference has been redirected. -/
theorem redirectReferrer_frame {target referrer : EntityId} {key : String}
    (done : redirectReferrer target key now store referrer = .ok after) :
    ∀ row ∈ after.fields, (row ∈ store.fields ∧ ¬ (row.entity = referrer ∧ row.key = key)) ∨
      row = ⟨referrer, key, .reference target⟩ := by
  unfold redirectReferrer at done
  split at done
  · cases done
    intro row member
    obtain ⟨stored, apart⟩ := List.mem_filter.mp member
    exact .inl ⟨stored, of_decide_eq_true apart⟩
  · obtain ⟨given, setting, finish⟩ := Except.bind_ok.mp done
    cases finish
    intro row member
    exact ((setField_frame (Store.lift_ok.mp setting)).2 row member).symm

theorem redirectReferrer_sound {target referrer : EntityId} {key : String} (sound : store.Sound)
    (live : store.IsLive target .studio) (listed : key ∈ studioKeys)
    (done : redirectReferrer target key now store referrer = .ok after) :
    after.Sound ∧ store.KeepsLive after := by
  unfold redirectReferrer at done
  split at done
  · cases done
    have lessens := (clearField_lessens store referrer key).trans
      (touchEntity_lessens _ referrer now)
    exact ⟨lessens.sound sound, lessens.live⟩
  · next other =>
    obtain ⟨given, setting, finish⟩ := Except.bind_ok.mp done
    cases finish
    have holds : store.MayHold referrer key (.reference target) := by
      refine ⟨fun _ => ⟨target, rfl, live⟩, fun _ same => ?_, fun kind field held same reads => ?_⟩
      · cases same
        exact other rfl
      · rw [same] at listed
        cases field <;> first
          | rfl
          | exact absurd listed (by decide)
    obtain ⟨givenSound, givenLive⟩ := setField_sound sound holds (Store.lift_ok.mp setting)
    have touched := touchEntity_lessens given referrer now
    exact ⟨touched.sound givenSound, fun _ _ earlier => touched.live _ _ (givenLive _ _ earlier)⟩

/-- A field that is left when some references have been redirected was there before and is none of
them, or it refers to the target. -/
theorem redirectReferrers_fields {target : EntityId} {key : String} {referrers : List EntityId}
    (done : referrers.foldlM (redirectReferrer target key now) store = .ok after) :
    ∀ row ∈ after.fields, (row ∈ store.fields ∧ ¬ (row.entity ∈ referrers ∧ row.key = key)) ∨
      row.value = .reference target := by
  induction referrers generalizing store with
  | nil =>
    cases done
    exact fun row member => .inl ⟨member, fun none => (nomatch none.1)⟩
  | cons head rest hypothesis =>
    obtain ⟨middle, first, later⟩ := Except.bind_ok.mp done
    intro row member
    rcases hypothesis later row member with ⟨earlier, notRest⟩ | refers
    · rcases redirectReferrer_frame first row earlier with ⟨stored, notHead⟩ | rfl
      · refine .inl ⟨stored, fun listed => ?_⟩
        rcases List.mem_cons.mp listed.1 with same | others
        · exact notHead ⟨same, listed.2⟩
        · exact notRest ⟨others, listed.2⟩
      · exact .inr rfl
    · exact .inr refers

/-- **When a studio has been redirected, nothing refers to it**, and the store is sound. -/
theorem redirectStudio_sound {source target : EntityId} (sound : store.Sound)
    (live : store.IsLive target .studio) (apart : source ≠ target)
    (done : store.redirectStudio source target now = .ok after) :
    (after.Sound ∧ store.KeepsLive after) ∧
      ∀ key ∈ studioKeys, after.Unreferenced key source := by
  have each {current next : Store} {key : String} (listed : key ∈ studioKeys)
      (holds : current.Sound ∧ store.KeepsLive current)
      (redirects : (current.referrers key source).foldlM (redirectReferrer target key now) current =
        .ok next) :
      (next.Sound ∧ store.KeepsLive next) ∧ next.Unreferenced key source ∧
        ∀ other, current.Unreferenced other source → next.Unreferenced other source := by
    refine ⟨?_, fun row member same refers => ?_, fun other clear row member same refers => ?_⟩
    · refine Except.foldlM_keeps (fun state => state.Sound ∧ store.KeepsLive state) _ ?_ holds
        redirects
      rintro referrer - state following ⟨stateSound, stateLive⟩ redirected
      obtain ⟨nextSound, nextLive⟩ :=
        redirectReferrer_sound stateSound (stateLive _ _ live) listed redirected
      exact ⟨nextSound, fun _ _ earlier => nextLive _ _ (stateLive _ _ earlier)⟩
    · rcases redirectReferrers_fields redirects row member with ⟨stored, notListed⟩ | given
      · exact notListed ⟨mem_referrers.mpr ⟨row, stored, ⟨same, refers⟩, rfl⟩, same⟩
      · rw [refers] at given
        cases given
        exact apart rfl
    · rcases redirectReferrers_fields redirects row member with ⟨stored, -⟩ | given
      · exact clear row stored same refers
      · rw [refers] at given
        cases given
        exact apart rfl
  have every : ∀ (keys : List String) (current : Store), (∀ key ∈ keys, key ∈ studioKeys) →
      (current.Sound ∧ store.KeepsLive current) →
      keys.foldlM (fun store key =>
        (store.referrers key source).foldlM (redirectReferrer target key now) store) current =
          .ok after →
      (after.Sound ∧ store.KeepsLive after) ∧
        ∀ key, key ∈ keys ∨ current.Unreferenced key source → after.Unreferenced key source := by
    intro keys
    induction keys with
    | nil =>
      intro current _ holds done
      cases done
      refine ⟨holds, ?_⟩
      rintro key (none | clear)
      · cases none
      · exact clear
    | cons head rest hypothesis =>
      intro current listed holds done
      obtain ⟨next, first, later⟩ := Except.bind_ok.mp done
      obtain ⟨nextHolds, cleared, kept⟩ := each (listed head List.mem_cons_self) holds first
      obtain ⟨afterHolds, clear⟩ := hypothesis next
        (fun key member => listed key (List.mem_cons_of_mem _ member)) nextHolds later
      refine ⟨afterHolds, ?_⟩
      rintro key (member | earlier)
      · rcases List.mem_cons.mp member with rfl | others
        · exact clear key (.inr cleared)
        · exact clear key (.inl others)
      · exact clear key (.inr (kept key earlier))
  obtain ⟨holds, clear⟩ := every studioKeys store (fun _ member => member)
    ⟨sound, fun _ _ earlier => earlier⟩ done
  exact ⟨holds, fun key member => clear key (.inl member)⟩

/-! ### Removal and merging -/

theorem destroy_sound (sound : store.Sound) (done : store.destroy id kind now = .ok after) :
    after.Sound := by
  obtain ⟨_, there, removal⟩ := Except.bind_ok.mp done
  have live := requireStillLive_ok.mp there
  by_cases studio : kind = .studio
  · rw [if_pos studio] at removal
    obtain ⟨lessens, clear⟩ := detachStudio_unreferenced store id now
    exact tombstoneEntity_sound (lessens.sound sound) clear (Store.lift_ok.mp removal)
  · rw [if_neg studio] at removal
    exact tombstoneEntity_sound sound (fun key => sound.unreferenced live studio)
      (Store.lift_ok.mp removal)

theorem creditSourceName_lessens (store : Store) (source target : EntityId) :
    store.Lessens (store.creditSourceName source target) := by
  refine .foldl (fun current edge => ?_) _ _
  unfold creditSourceNameOn
  dsimp only
  split
  · exact setCredit_lessens _ _ _ _ _
  · split
    · exact setCredit_lessens _ _ _ _ _
    · exact .refl current

theorem moveReferences_sound {source target : EntityId} {details : Details} (sound : store.Sound)
    (sourceLive : store.IsLive source kind) (live : store.IsLive target kind)
    (apart : source ≠ target)
    (done : store.moveReferences source target kind details now = .ok after) :
    (after.Sound ∧ store.KeepsLive after) ∧
      ∀ key ∈ studioKeys, after.Unreferenced key source := by
  have other (holds : after.Sound ∧ store.KeepsLive after) (notStudio : kind ≠ .studio) :
      (after.Sound ∧ store.KeepsLive after) ∧ ∀ key ∈ studioKeys, after.Unreferenced key source :=
    ⟨holds, fun key => holds.1.unreferenced (holds.2 _ _ sourceLive) notStudio⟩
  cases kind with
  | tag =>
    obtain ⟨⟨moved, repointed⟩, lifted, rfl⟩ := Except.map_ok.mp done
    exact other (repointEdges_sound sound live (Store.lift_ok.mp lifted)) (by decide)
  | performer =>
    obtain ⟨⟨moved, repointed⟩, lifted, rfl⟩ := Except.map_ok.mp done
    have named : store.Lessens
        (if keepsNames details then store.creditSourceName source target else store) := by
      split
      · exact creditSourceName_lessens store source target
      · exact .refl store
    obtain ⟨movedSound, movedLive⟩ := repointEdges_sound (named.sound sound)
      (named.live _ _ live) (Store.lift_ok.mp lifted)
    exact other ⟨movedSound, fun _ _ earlier => movedLive _ _ (named.live _ _ earlier)⟩ (by decide)
  | studio => exact redirectStudio_sound sound live apart done
  | scene =>
    cases done
    exact other ⟨sound, fun _ _ earlier => earlier⟩ (by decide)

theorem mergeSource_sound {source target : EntityId} {details : Details} (sound : store.Sound)
    (live : store.IsLive target kind) (apart : source ≠ target)
    (done : store.mergeSource source target kind details now = .ok after) :
    after.Sound ∧ after.IsLive target kind := by
  obtain ⟨_, there, done⟩ := Except.bind_ok.mp done
  obtain ⟨moved, moving, done⟩ := Except.bind_ok.mp done
  obtain ⟨removed, removing, redirecting⟩ := Except.bind_ok.mp done
  obtain ⟨⟨movedSound, movedLive⟩, clear⟩ :=
    moveReferences_sound sound (requireStillLive_ok.mp there) live apart moving
  have removedSound := tombstoneEntity_sound movedSound clear (Store.lift_ok.mp removing)
  have removedLive := (isLive_tombstoneEntity (Store.lift_ok.mp removing)).mpr
    ⟨apart.symm, movedLive _ _ live⟩
  have redirected := insertRedirect_lessens (Store.lift_ok.mp redirecting)
  exact ⟨redirected.sound removedSound, redirected.live _ _ removedLive⟩

theorem merge_sound {target : EntityId} {sources : List EntityId} {details : Details}
    (sound : store.Sound) (same : details.kind = kind) (admitted : details.change.IsAdmitted)
    (apart : target ∉ sources) (done : store.merge target sources kind details now = .ok after) :
    after.Sound ∧ after.IsLive target kind := by
  obtain ⟨modified, modifying, merging⟩ := Except.bind_ok.mp done
  refine Except.foldlM_keeps (fun state => state.Sound ∧ state.IsLive target kind) sources ?_
    (modify_sound sound same admitted modifying) merging
  rintro source member state next ⟨stateSound, stateLive⟩ merged
  exact mergeSource_sound stateSound stateLive (fun same => apart (same ▸ member)) merged

end Store

/-! ### Edits and runs -/

/-- **The application of a proper edit keeps a store sound.** -/
theorem Edit.apply_sound {edit : Edit} {fresh target : EntityId} {now : Instant}
    {store after : Store} (sound : store.Sound) (proper : edit.Proper)
    (applied : edit.apply fresh now store = .ok (target, after)) : after.Sound := by
  have writes := Edit.apply_ok.mp applied
  split at writes
  all_goals obtain ⟨aims, done⟩ := writes
  · exact (Store.create_sound sound proper.kind proper.admitted done).1
  · exact (Store.modify_sound sound proper.kind proper.admitted done).1
  · exact Store.destroy_sound sound done
  · exact (Store.merge_sound sound proper.kind proper.admitted (proper.sources target aims) done).1

theorem Store.SameCatalogue.sound {first second : Store} (same : first.SameCatalogue second)
    (sound : first.Sound) : second.Sound := by
  rw [same]
  exact ⟨sound.edges, fun row member => ⟨(sound.fields row member).reference,
    (sound.fields row member).ownParent, (sound.fields row member).admitted⟩⟩

namespace Desk

/-- Every store that can be reached is sound. -/
theorem run_sound (desk : Desk) (calls : List (Instant × Call)) : (desk.run calls).store.Sound := by
  have both : (desk.run calls).store.PendingProper ∧ (desk.run calls).store.Sound := by
    refine @run_keeps (fun store => store.PendingProper ∧ store.Sound) desk calls ?_ ?_
    · refine ⟨fun id edit found => (nomatch found), fun edge member => (nomatch member),
        fun row member => (nomatch member)⟩
    · rintro now - call before after turn ⟨proper, sound⟩
      refine ⟨turn.pendingProper proper, ?_⟩
      rcases turn.applied_proper proper with
        same | ⟨edit, fresh, target, store, editProper, applied, same⟩
      · exact same.sound sound
      · exact same.sound (edit.apply_sound sound editProper applied)
  exact both.2

/-- What only looks at the catalogue, and what the application of a proper edit to a sound store keeps,
holds after every run. -/
theorem run_catalogue {property : Store → Prop} (desk : Desk) (calls : List (Instant × Call))
    (empty : property .empty)
    (same : ∀ {first second : Store}, first.SameCatalogue second → property first → property second)
    (applies : ∀ {edit : Edit} {fresh target : EntityId} {now : Instant} {store after : Store},
      store.Sound → edit.Proper → property store →
        edit.apply fresh now store = .ok (target, after) → property after) :
    property (desk.run calls).store := by
  have every : (desk.run calls).store.PendingProper ∧ (desk.run calls).store.Sound ∧
      property (desk.run calls).store := by
    refine @run_keeps (fun store => store.PendingProper ∧ store.Sound ∧ property store) desk calls
      ⟨desk.pending_proper [], desk.run_sound [], empty⟩ ?_
    rintro now - call before after turn ⟨proper, sound, holds⟩
    refine ⟨turn.pendingProper proper, ?_⟩
    rcases turn.applied_proper proper with
      kept | ⟨edit, fresh, target, store, editProper, applied, kept⟩
    · exact ⟨kept.sound sound, same kept holds⟩
    · exact ⟨kept.sound (edit.apply_sound sound editProper applied),
        same kept (applies sound editProper holds applied)⟩
  exact every.2.2

/-- **There is referential integrity after every run.** Every link joins a live scene to a live tag
or performer, every reference to a studio leads to a live one, no studio is its own parent, and no
link touches a record that was removed. -/
theorem run_integrity (desk : Desk) (calls : List (Instant × Call)) :
    (∀ edge ∈ (desk.run calls).store.edges,
      (desk.run calls).store.IsLive edge.source .scene ∧
        (desk.run calls).store.IsLive edge.target edge.association.linked) ∧
    (∀ row ∈ (desk.run calls).store.fields, row.key ∈ Store.studioKeys →
      ∃ studio, row.value = .reference studio ∧ (desk.run calls).store.IsLive studio .studio) ∧
    (∀ row ∈ (desk.run calls).store.fields, row.key = Field.studioParent.key →
      row.value ≠ .reference row.entity) ∧
    (∀ edge ∈ (desk.run calls).store.edges, ∀ id row,
      (desk.run calls).store.entity? id = some row → row.deleted = true →
        edge.source ≠ id ∧ edge.target ≠ id) := by
  obtain ⟨edges, fields⟩ := desk.run_sound calls
  refine ⟨edges, fun row member => (fields row member).reference,
    fun row member => (fields row member).ownParent, fun edge member id row found removed => ?_⟩
  obtain ⟨⟨source, sourceFound, -, sourceKept⟩, target, targetFound, -, targetKept⟩ :=
    edges edge member
  constructor
  · rintro rfl
    rw [found] at sourceFound
    cases sourceFound
    rw [removed] at sourceKept
    cases sourceKept
  · rintro rfl
    rw [found] at targetFound
    cases targetFound
    rw [removed] at targetKept
    cases targetKept

end Desk

end Curation
