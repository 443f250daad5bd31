/-
**Snapshots lose nothing.** All the records of which the snapshot of a deleted edit consists are read
back from their documents: each member is written under a name of its own, and each value in a shape
that reads it. So the snapshot in the audit of a deletion is the one that was put there.

* `Kind.fields_hold`, `Kind.member?_toData`: the members that a kind lists;
* `Snapshot.lossless`: snapshots and their texts;
* `Audit.snapshot?_ofDeletion`: the snapshot in an audit.
-/

import Curation.Audit.Snapshot
import Curation.Proofs.Portability

namespace Curation

open Portable

instance : Present Kind := Word.present Kind

instance : Present Operation := Word.present Operation

instance : Present Status := Word.present Status

instance : Present Choice := Word.present Choice

/-! ### Values -/

instance : Present Url where
  fits url := (Fields.Hold.of url.address (.of url.site .nil)).fits (by simp)
  returns url := by
    have written : toDatum url = .record [("url", toDatum url.address), ("site", toDatum url.site)] :=
      rfl
    rw [written]
    delta instPortableUrl
    simp [Datum.member?_others]
  present _ := nofun

instance : Present BodyModification where
  fits modification := (Fields.Hold.of modification.location
    (.maybe modification.description .nil)).fits (by simp)
  returns modification := by
    have written : toDatum modification = .record [("location", toDatum modification.location),
      ("description", toDatum modification.description)] := rfl
    rw [written]
    delta instPortableBodyModification
    simp [Datum.member?_others]
  present _ := nofun

instance : Present Appearance where
  fits appearance := (Fields.Hold.of appearance.performer
    (.maybe appearance.creditedAs .nil)).fits (by simp)
  returns appearance := by
    delta instPortableAppearance
    simp [Datum.member?_others]
  present _ := nofun

instance : (sort : Scalar) → Present sort.Carrier
  | .text => inferInstanceAs (Present String)
  | .integer => inferInstanceAs (Present Int64)
  | .reference => inferInstanceAs (Present EntityId)

instance : (sort : Member) → Present sort.Carrier
  | .alias => inferInstanceAs (Present String)
  | .url => inferInstanceAs (Present Url)
  | .image => inferInstanceAs (Present ImageId)
  | .modification => inferInstanceAs (Present BodyModification)

instance {kind : Kind} : (link : Link kind) → Present link.Carrier
  | .sceneTags => inferInstanceAs (Present EntityId)
  | .scenePerformers => inferInstanceAs (Present Appearance)

instance {α : Type} [Portable α] [Faithful α] : Present (ListChange α) where
  fits change := (Fields.Hold.of change.added (.of change.removed .nil)).fits (by simp)
  returns change := by
    delta instPortableListChange
    simp [Datum.member?_others]
  present _ := nofun

/-! ### The members that a kind lists -/

namespace Kind

variable {kind : Kind} {scalar : Field kind → Type} {members : Collection kind → Type}
  {links : Link kind → Type} [(field : Field kind) → Portable (scalar field)]
  [(collection : Collection kind) → Portable (members collection)]
  [(link : Link kind) → Portable (links link)] [∀ field, Faithful (scalar field)]
  [∀ collection, Faithful (members collection)] [∀ link, Faithful (links link)]
  (scalars : (field : Field kind) → scalar field)
  (lists : (collection : Collection kind) → members collection)
  (ends : (link : Link kind) → links link)

/-- What is given for each field, collection and link of a kind is read where it is written. -/
theorem fields_hold (absent : Option Datum) :
    (kind.fields scalar members links absent .nil).Hold (kind.toData scalars lists ends) := by
  unfold fields toData
  rw [Fields.ofList_append, Fields.ofList_append,
    ← List.append_nil (List.map _ (Field.ofKind kind) ++ _ ++ _)]
  refine .append (.append (.append ?_ ?_) ?_) .nil
  · exact Fields.hold_map _ _ absent fun field => Faithful.fits (scalars field)
  · exact Fields.hold_map _ _ none fun collection => Faithful.fits (lists collection)
  · exact Fields.hold_map _ _ none fun link => Faithful.fits (ends link)

omit [∀ field, Faithful (scalar field)] [∀ collection, Faithful (members collection)]
  [∀ link, Faithful (links link)] in
/-- The names of the members of a kind are distinct. -/
theorem nodup_toData : ((kind.toData scalars lists ends).map Prod.fst).Nodup := by
  have keys : (kind.toData scalars lists ends).map Prod.fst =
      (Field.ofKind kind).map Field.key ++ (Collection.ofKind kind).map Collection.key ++
        (Link.ofKind kind).map Link.key := by
    unfold toData
    rw [List.map_append, List.map_append, List.map_map, List.map_map, List.map_map]
    rfl
  rw [keys]
  cases kind <;> decide

/-- What is given is found under those names. -/
theorem member?_toData :
    (∀ field : Field kind, (Datum.record (kind.toData scalars lists ends)).member? field.key =
      some (scalars field)) ∧
      (∀ collection : Collection kind,
        (Datum.record (kind.toData scalars lists ends)).member? collection.key =
          some (lists collection)) ∧
      ∀ link : Link kind, (Datum.record (kind.toData scalars lists ends)).member? link.key =
        some (ends link) := by
  have distinct := nodup_toData scalars lists ends
  refine ⟨fun field => ?_, fun collection => ?_, fun link => ?_⟩
  · exact Datum.member?_record _ distinct (List.mem_append_left _
      (List.mem_append_left _ (List.mem_map.mpr ⟨field, Enumerated.mem_all field, rfl⟩)))
  · exact Datum.member?_record _ distinct (List.mem_append_left _ (List.mem_append_right _
      (List.mem_map.mpr ⟨collection, Enumerated.mem_all collection, rfl⟩)))
  · exact Datum.member?_record _ distinct
      (List.mem_append_right _ (List.mem_map.mpr ⟨link, Enumerated.mem_all link, rfl⟩))

end Kind

instance {kind : Kind} : Present (Side kind) where
  fits side := (Kind.fields_hold side.scalar side.members side.links (some .null)).fits
    (Kind.nodup_toData side.scalar side.members side.links)
  returns side := by
    obtain ⟨fields, collections, links⟩ :=
      Kind.member?_toData side.scalar side.members side.links
    delta instPortableSide
    dsimp only
    simp only [fields, collections, links, Enumerated.total?_some]
    rfl
  present _ := nofun

instance {kind : Kind} : Present (Change kind) where
  fits change := (Fields.Hold.of change.new (.of change.old (.of change.modifyAliases
    (.of change.mergeAliases .nil)))).fits (by simp)
  returns change := by
    have written : toDatum change = .record [("new", toDatum change.new), ("old", toDatum change.old),
      ("modify_aliases", toDatum change.modifyAliases),
      ("merge_aliases", toDatum change.mergeAliases)] := rfl
    rw [written]
    delta instPortableChange
    simp [Datum.member?_others]
  present _ := nofun

instance : Present Details where
  fits details := by
    obtain ⟨kind, change⟩ := details
    have read : (shape (Change kind)).ofJson? (toDatum change).toJson = some (toDatum change) :=
      Faithful.fits change
    show (Kind.cases fun kind => shape (Change kind)).ofMember? kind.title (toDatum change).toJson =
      some (.variant kind.title (toDatum change))
    cases kind <;> simp [Kind.cases, Kind.title, Cases.ofMember?, read]
  returns details := by
    obtain ⟨kind, change⟩ := details
    have title : Kind.ofTitle? kind.title = some kind := by cases kind <;> decide
    show (do
      let kind ← Kind.ofTitle? kind.title
      let change ← ofDatum? (toDatum change)
      return (⟨kind, change⟩ : Details)) = _
    rw [title]
    show (do
      let change ← ofDatum? (toDatum change)
      return (⟨kind, change⟩ : Details)) = _
    rw [Faithful.returns]
    rfl
  present _ := nofun

/-! ### Edits and what belongs to them -/

instance : Present Edit where
  fits edit := (Fields.Hold.of edit.id (.maybe edit.submitter (.of edit.kind (.of edit.operation
    (.of edit.status (.maybe edit.target (.of edit.sources (.of edit.details (.of edit.score
    (.of edit.amendments (.of edit.applied (.of edit.bot (.of edit.created (.maybe edit.updated
    (.maybe edit.closed .nil))))))))))))))).fits (by simp)
  returns edit := by
    delta instPortableEdit
    simp [Datum.member?_others]
  present _ := nofun

instance : Present Comment where
  fits comment := (Fields.Hold.of comment.id (.of comment.edit (.maybe comment.author
    (.of comment.text (.of comment.created .nil))))).fits (by simp)
  returns comment := by
    delta instPortableComment
    simp [Datum.member?_others]
  present _ := nofun

instance : Present Vote where
  fits vote := (Fields.Hold.of vote.edit (.of vote.voter (.of vote.choice
    (.of vote.created .nil)))).fits (by simp)
  returns vote := by
    delta instPortableVote
    simp [Datum.member?_others]
  present _ := nofun

instance : Present Snapshot where
  fits snapshot := (Fields.Hold.of snapshot.edit (.of snapshot.comments (.of snapshot.votes
    (.of snapshot.deletedBy (.of snapshot.deletedAt .nil))))).fits (by simp)
  returns snapshot := by
    delta instPortableSnapshot
    simp [Datum.member?_others]
  present _ := nofun

/-- **Snapshots survive as JSON text.** Whatever texts, numbers, words and instants they hold, leap
seconds and years of any sign and length among them, they are read back as they were, so that no text
stands for two of them. -/
theorem Snapshot.lossless :
    (∀ snapshot : Snapshot, ofJsonText? (toJsonText snapshot) = some snapshot) ∧
      ∀ first second : Snapshot, toJsonText first = toJsonText second ↔ first = second :=
  ⟨ofJsonText?_toJsonText, fun _ _ => toJsonText_inj⟩

namespace Audit

/-- **The audit of a deletion keeps the snapshot that it was made of**, -/
theorem snapshot?_ofDeletion (id : AuditId) (snapshot : Snapshot) (reason : String) :
    (ofDeletion id snapshot reason).snapshot? = .ok snapshot := by
  have read : ofJsonText? (ofDeletion id snapshot reason).data = some snapshot :=
    ofJsonText?_toJsonText snapshot
  rw [snapshot?, read]

/-- and its text has the digest that is kept with it. -/
theorem verifies_ofDeletion (id : AuditId) (snapshot : Snapshot) (reason : String) :
    (ofDeletion id snapshot reason).verifies = true := decide_eq_true rfl

end Audit

end Curation
