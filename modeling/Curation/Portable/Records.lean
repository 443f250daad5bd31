/-
**Portable records.** Values, records, and the two sides and requests of an edit. The members of a
record stand in the order in which its kind lists its fields, collections and links.
-/

import Curation.Portable.Scalars
import Curation.Proposal.Input

namespace Curation

open Portable

instance : Portable Kind := Word.portable Kind

/-! ### Values -/

instance : Portable Url where
  shape := .record false (.of "url" String (.of "site" String .nil))
  toDatum url := .record [("url", .text url.address), ("site", .text url.site)]
  ofDatum? datum := do
    let address ← datum.member? "url"
    let site ← datum.member? "site"
    return ⟨address, site⟩

instance : Portable BodyModification where
  shape := .record false (.of "location" String (.maybe "description" String .nil))
  toDatum modification :=
    .record [("location", .text modification.location),
      ("description", toDatum modification.description)]
  ofDatum? datum := do
    let location ← datum.member? "location"
    let description ← datum.member? "description"
    return ⟨location, description⟩

instance : Portable Appearance where
  shape := .record false (.of "performer_id" EntityId (.maybe "as_name" String .nil))
  toDatum appearance :=
    .record [("performer_id", toDatum appearance.performer),
      ("as_name", toDatum appearance.creditedAs)]
  ofDatum? datum := do
    let performer ← datum.member? "performer_id"
    let creditedAs ← datum.member? "as_name"
    return ⟨performer, creditedAs⟩

instance : Portable Value where
  shape := .choice
    (.variant "Text" (shape String)
    (.variant "Integer" (shape Int64)
    (.variant "Ref" (shape EntityId)
    (.variant "Url" (shape Url)
    (.variant "BodyMod" (shape BodyModification)
    (.variant "Image" (shape ImageId) .nil))))))
  toDatum
    | .text content => .variant "Text" (toDatum content)
    | .integer number => .variant "Integer" (toDatum number)
    | .reference target => .variant "Ref" (toDatum target)
    | .url url => .variant "Url" (toDatum url)
    | .modification modification => .variant "BodyMod" (toDatum modification)
    | .image image => .variant "Image" (toDatum image)
  ofDatum?
    | .variant "Text" payload => (ofDatum? payload).map .text
    | .variant "Integer" payload => (ofDatum? payload).map .integer
    | .variant "Ref" payload => (ofDatum? payload).map .reference
    | .variant "Url" payload => (ofDatum? payload).map .url
    | .variant "BodyMod" payload => (ofDatum? payload).map .modification
    | .variant "Image" payload => (ofDatum? payload).map .image
    | _ => none

instance : (sort : Scalar) → Portable sort.Carrier
  | .text => inferInstanceAs (Portable String)
  | .integer => inferInstanceAs (Portable Int64)
  | .reference => inferInstanceAs (Portable EntityId)

instance : (sort : Member) → Portable sort.Carrier
  | .alias => inferInstanceAs (Portable String)
  | .url => inferInstanceAs (Portable Url)
  | .image => inferInstanceAs (Portable ImageId)
  | .modification => inferInstanceAs (Portable BodyModification)

instance {kind : Kind} : (link : Link kind) → Portable link.Carrier
  | .sceneTags => inferInstanceAs (Portable EntityId)
  | .scenePerformers => inferInstanceAs (Portable Appearance)

instance {α : Type} [Portable α] : Portable (ListChange α) where
  shape := .record false (.of "added" (List α) (.of "removed" (List α) .nil))
  toDatum change := .record [("added", toDatum change.added), ("removed", toDatum change.removed)]
  ofDatum? datum := do
    let added ← datum.member? "added"
    let removed ← datum.member? "removed"
    return ⟨added, removed⟩

instance {α : Type} [Portable α] : Portable (Request α) where
  shape := .choice (.word "Untouched" (.word "Cleared" (.variant "Value" (shape α) .nil)))
  toDatum
    | .untouched => .word "Untouched"
    | .cleared => .word "Cleared"
    | .value wanted => .variant "Value" (toDatum wanted)
  ofDatum?
    | .word "Untouched" => some .untouched
    | .word "Cleared" => some .cleared
    | .variant "Value" payload => (ofDatum? payload).map .value
    | _ => none

/-! ### The members that a kind lists -/

/-- The members for the fields, collections and links of a kind. -/
def Kind.fields (kind : Kind) (scalar : Field kind → Type) (members : Collection kind → Type)
    (links : Link kind → Type) [(field : Field kind) → Portable (scalar field)]
    [(collection : Collection kind) → Portable (members collection)]
    [(link : Link kind) → Portable (links link)] (absent : Option Datum) (rest : Fields) : Fields :=
  (Fields.ofList
    ((Field.ofKind kind).map (fun field => (field.key, shape (scalar field), absent)) ++
      (Collection.ofKind kind).map (fun collection =>
        (collection.key, shape (members collection), none)) ++
      (Link.ofKind kind).map fun link => (link.key, shape (links link), none))).append rest

/-- The data of what is given for each field, collection and link of a kind. -/
def Kind.toData (kind : Kind) {scalar : Field kind → Type} {members : Collection kind → Type}
    {links : Link kind → Type} [(field : Field kind) → Portable (scalar field)]
    [(collection : Collection kind) → Portable (members collection)]
    [(link : Link kind) → Portable (links link)] (scalars : (field : Field kind) → scalar field)
    (lists : (collection : Collection kind) → members collection)
    (ends : (link : Link kind) → links link) : List (String × Datum) :=
  (Field.ofKind kind).map (fun field => (field.key, toDatum (scalars field))) ++
    (Collection.ofKind kind).map (fun collection =>
      (collection.key, toDatum (lists collection))) ++
    (Link.ofKind kind).map fun link => (link.key, toDatum (ends link))

instance {kind : Kind} : Portable (Side kind) where
  shape := .record false
    (kind.fields (fun field => Option field.Carrier)
      (fun collection => ListChange collection.Carrier) (fun link => ListChange link.Carrier)
      (some .null) .nil)
  toDatum side := .record (kind.toData side.scalar side.members side.links)
  ofDatum? datum := do
    let scalar ← Enumerated.total? fun field : Field kind => datum.member? field.key
    let members ← Enumerated.total? fun collection : Collection kind =>
      datum.member? collection.key
    let links ← Enumerated.total? fun link : Link kind => datum.member? link.key
    return ⟨scalar, members, links⟩

/-- The two flags of a record that has them. -/
def Fields.flags : Fields := .of "modify_aliases" Bool (.of "merge_aliases" Bool .nil)

instance {kind : Kind} : Portable (Change kind) where
  shape := .record false (.of "new" (Side kind) (.of "old" (Side kind) .flags))
  toDatum change :=
    .record [("new", toDatum change.new), ("old", toDatum change.old),
      ("modify_aliases", .bool change.modifyAliases), ("merge_aliases", .bool change.mergeAliases)]
  ofDatum? datum := do
    let new ← datum.member? "new"
    let old ← datum.member? "old"
    let modifyAliases ← datum.member? "modify_aliases"
    let mergeAliases ← datum.member? "merge_aliases"
    return ⟨new, old, modifyAliases, mergeAliases⟩

/-- The name of a kind where it is an alternative. -/
def Kind.title : Kind → String
  | .tag => "Tag"
  | .performer => "Performer"
  | .studio => "Studio"
  | .scene => "Scene"

/-- One alternative for each kind. -/
def Kind.cases (payload : Kind → Shape) : Cases :=
  .variant "Tag" (payload .tag)
    (.variant "Performer" (payload .performer)
      (.variant "Studio" (payload .studio) (.variant "Scene" (payload .scene) .nil)))

/-- The kind with a name. -/
def Kind.ofTitle? (name : String) : Option Kind :=
  Enumerated.all.find? fun kind => Kind.title kind = name

instance : Portable Details where
  shape := .choice (Kind.cases fun kind => shape (Change kind))
  toDatum details := .variant details.kind.title (toDatum details.change)
  ofDatum?
    | .variant name payload => do
      let kind ← Kind.ofTitle? name
      let change ← ofDatum? payload
      return ⟨kind, change⟩
    | _ => none

/-- Only inputs for performers have the two flags. -/
def Input.flags (kind : Kind) : Fields := if kind = .performer then .flags else .nil

instance {kind : Kind} : Portable (Input kind) where
  shape := .record false
    (kind.fields (fun field => Request field.Carrier)
      (fun collection => ListChange collection.Carrier) (fun link => ListChange link.Carrier)
      none (Input.flags kind))
  toDatum input := .record
    (kind.toData input.scalar input.members input.links ++
      if kind = .performer then
        [("modify_aliases", .bool input.modifyAliases), ("merge_aliases", .bool input.mergeAliases)]
      else [])
  ofDatum? datum := do
    let scalar ← Enumerated.total? fun field : Field kind => datum.member? field.key
    let members ← Enumerated.total? fun collection : Collection kind =>
      datum.member? collection.key
    let links ← Enumerated.total? fun link : Link kind => datum.member? link.key
    if kind = .performer then
      let modifyAliases ← datum.member? "modify_aliases"
      let mergeAliases ← datum.member? "merge_aliases"
      return ⟨scalar, members, links, modifyAliases, mergeAliases⟩
    else return ⟨scalar, members, links, false, false⟩

instance : Portable Proposal where
  shape := .choice (Kind.cases fun kind => shape (Input kind))
  toDatum proposal := .variant proposal.kind.title (toDatum proposal.input)
  ofDatum?
    | .variant name payload => do
      let kind ← Kind.ofTitle? name
      let input ← ofDatum? payload
      return ⟨kind, input⟩
    | _ => none

instance : Portable Header where
  shape := .record false
    (.of "id" EntityId (.of "created_at" Instant (.of "updated_at" Instant
      (.of "deleted" Bool .nil))))
  toDatum header :=
    .record [("id", toDatum header.id), ("created_at", toDatum header.created),
      ("updated_at", toDatum header.updated), ("deleted", .bool header.deleted)]
  ofDatum? datum := do
    let id ← datum.member? "id"
    let created ← datum.member? "created_at"
    let updated ← datum.member? "updated_at"
    let deleted ← datum.member? "deleted"
    return ⟨id, created, updated, deleted⟩

instance {kind : Kind} : Portable (Record kind) where
  shape := .record false
    (.of "meta" Header
      (kind.fields (fun field => Option field.Carrier)
        (fun collection => List collection.Carrier) (fun link => List link.Carrier)
        (some .null) .nil))
  toDatum record := .record
    (("meta", toDatum record.header) ::
      kind.toData record.contents.scalar record.contents.members record.contents.links)
  ofDatum? datum := do
    let header ← datum.member? "meta"
    let scalar ← Enumerated.total? fun field : Field kind => datum.member? field.key
    let members ← Enumerated.total? fun collection : Collection kind =>
      datum.member? collection.key
    let links ← Enumerated.total? fun link : Link kind => datum.member? link.key
    return ⟨header, ⟨scalar, members, links⟩⟩

end Curation
