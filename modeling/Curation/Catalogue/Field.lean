/-
**The fields of each kind of record.** A record has scalar fields with at most one value each,
collections of values, and links to other records. Each has a key, under which it is stored, and a
sort, which says what it holds.

* `Field.key_inj`, `Collection.key_inj`: keys tell the fields of one kind apart;
* `Scalar.value?_value`, `Member.value?_value`: what is stored under a key reads back.
-/

import Curation.Catalogue.Value
import Curation.Vocabulary

namespace Curation

/-! ### What fields hold -/

/-- The sorts of scalar field. -/
inductive Scalar where
  | text
  | integer
  | reference
deriving DecidableEq

/-- What a field of a sort holds. -/
abbrev Scalar.Carrier : Scalar → Type
  | .text => String
  | .integer => Int64
  | .reference => EntityId

instance : (sort : Scalar) → DecidableEq sort.Carrier
  | .text => inferInstanceAs (DecidableEq String)
  | .integer => inferInstanceAs (DecidableEq Int64)
  | .reference => inferInstanceAs (DecidableEq EntityId)

/-- The value that stores what a field holds. -/
def Scalar.value : (sort : Scalar) → sort.Carrier → Value
  | .text, content => .text content
  | .integer, number => .integer number
  | .reference, target => .reference target

/-- What a value means in a field of a sort; nothing if it is of another sort. -/
def Scalar.ofValue? : (sort : Scalar) → Value → Option sort.Carrier
  | .text => Value.text?
  | .integer => Value.integer?
  | .reference => Value.reference?

/-- The sorts of member of a collection. -/
inductive Member where
  | alias
  | url
  | image
  | modification
deriving DecidableEq

/-- What a collection of a sort holds. -/
abbrev Member.Carrier : Member → Type
  | .alias => String
  | .url => Url
  | .image => ImageId
  | .modification => BodyModification

instance : (sort : Member) → DecidableEq sort.Carrier
  | .alias => inferInstanceAs (DecidableEq String)
  | .url => inferInstanceAs (DecidableEq Url)
  | .image => inferInstanceAs (DecidableEq ImageId)
  | .modification => inferInstanceAs (DecidableEq BodyModification)

/-- The value that stores a member. -/
def Member.value : (sort : Member) → sort.Carrier → Value
  | .alias, content => .text content
  | .url, address => .url address
  | .image, picture => .image picture
  | .modification, change => .modification change

/-- What a value means in a collection of a sort; nothing if it is of another sort. -/
def Member.ofValue? : (sort : Member) → Value → Option sort.Carrier
  | .alias => Value.text?
  | .url => Value.url?
  | .image => Value.image?
  | .modification => Value.modification?

@[simp] theorem Scalar.ofValue?_value (sort : Scalar) (held : sort.Carrier) :
    sort.ofValue? (sort.value held) = some held := by
  cases sort <;> rfl

@[simp] theorem Member.ofValue?_value (sort : Member) (held : sort.Carrier) :
    sort.ofValue? (sort.value held) = some held := by
  cases sort <;> rfl

theorem Scalar.ofValue?_eq_some {sort : Scalar} {value : Value} {held : sort.Carrier} :
    sort.ofValue? value = some held ↔ value = sort.value held := by
  constructor
  · intro reads
    cases sort <;> cases value <;> first
      | cases reads; rfl
      | cases reads
  · rintro rfl
    exact sort.ofValue?_value held

theorem Member.ofValue?_eq_some {sort : Member} {value : Value} {held : sort.Carrier} :
    sort.ofValue? value = some held ↔ value = sort.value held := by
  constructor
  · intro reads
    cases sort <;> cases value <;> first
      | cases reads; rfl
      | cases reads
  · rintro rfl
    exact sort.ofValue?_value held

theorem Member.value_inj {sort : Member} {first second : sort.Carrier}
    (same : sort.value first = sort.value second) : first = second := by
  have reads := congrArg sort.ofValue? same
  rw [sort.ofValue?_value, sort.ofValue?_value] at reads
  exact Option.some.inj reads

/-! ### Scalar fields -/

/-- The scalar fields of each kind of record. -/
inductive Field : Kind → Type where
  | tagName : Field .tag
  | tagDescription : Field .tag
  | tagCategory : Field .tag
  | performerName : Field .performer
  | disambiguation : Field .performer
  | gender : Field .performer
  | birthdate : Field .performer
  | ethnicity : Field .performer
  | country : Field .performer
  | eyeColor : Field .performer
  | hairColor : Field .performer
  | height : Field .performer
  | careerStart : Field .performer
  | careerEnd : Field .performer
  | studioName : Field .studio
  | studioParent : Field .studio
  | sceneTitle : Field .scene
  | sceneDetails : Field .scene
  | sceneDate : Field .scene
  | sceneStudio : Field .scene
  | duration : Field .scene
  | director : Field .scene
  | code : Field .scene
deriving DecidableEq

namespace Field

/-- The fields of a kind in the order in which they are listed. -/
def ofKind : (kind : Kind) → List (Field kind)
  | .tag => [.tagName, .tagDescription, .tagCategory]
  | .performer =>
    [.performerName, .disambiguation, .gender, .birthdate, .ethnicity, .country, .eyeColor,
      .hairColor, .height, .careerStart, .careerEnd]
  | .studio => [.studioName, .studioParent]
  | .scene => [.sceneTitle, .sceneDetails, .sceneDate, .sceneStudio, .duration, .director, .code]

instance (kind : Kind) : Enumerated (Field kind) where
  all := ofKind kind
  mem_all field := by cases field <;> decide

/-- The key of a field. -/
def key {kind : Kind} : Field kind → String
  | .tagName => "name"
  | .tagDescription => "description"
  | .tagCategory => "category_id"
  | .performerName => "name"
  | .disambiguation => "disambiguation"
  | .gender => "gender"
  | .birthdate => "birthdate"
  | .ethnicity => "ethnicity"
  | .country => "country"
  | .eyeColor => "eye_color"
  | .hairColor => "hair_color"
  | .height => "height"
  | .careerStart => "career_start_year"
  | .careerEnd => "career_end_year"
  | .studioName => "name"
  | .studioParent => "parent_id"
  | .sceneTitle => "title"
  | .sceneDetails => "details"
  | .sceneDate => "date"
  | .sceneStudio => "studio_id"
  | .duration => "duration"
  | .director => "director"
  | .code => "code"

/-- What a field holds. -/
abbrev sort {kind : Kind} : Field kind → Scalar
  | .tagCategory => .reference
  | .height => .integer
  | .careerStart => .integer
  | .careerEnd => .integer
  | .studioParent => .reference
  | .sceneStudio => .reference
  | .duration => .integer
  | _ => .text

/-- The type of what a field holds. -/
abbrev Carrier {kind : Kind} (field : Field kind) : Type := field.sort.Carrier

/-- The fields of a kind, ordered by their keys. -/
def byKey : (kind : Kind) → List (Field kind)
  | .tag => [.tagCategory, .tagDescription, .tagName]
  | .performer =>
    [.birthdate, .careerEnd, .careerStart, .country, .disambiguation, .ethnicity, .eyeColor,
      .gender, .hairColor, .height, .performerName]
  | .studio => [.studioName, .studioParent]
  | .scene => [.code, .sceneDate, .sceneDetails, .director, .duration, .sceneStudio, .sceneTitle]

/-- The field that names a record of a kind. -/
def naming : (kind : Kind) → Field kind
  | .tag => .tagName
  | .performer => .performerName
  | .studio => .studioName
  | .scene => .sceneTitle

/-- The words that a field may hold, if its words are fixed. -/
def words? {kind : Kind} : Field kind → Option (List String)
  | .gender =>
    some ["male", "female", "transgender_male", "transgender_female", "intersex", "non_binary"]
  | .ethnicity =>
    some ["caucasian", "black", "asian", "indian", "latin", "middle_eastern", "mixed", "other"]
  | .eyeColor => some ["blue", "brown", "grey", "green", "hazel", "red"]
  | .hairColor =>
    some ["blonde", "brunette", "black", "red", "auburn", "grey", "bald", "various", "other"]
  | _ => none

theorem key_inj {kind : Kind} {first second : Field kind} (same : first.key = second.key) :
    first = second := by
  have checked : ∀ kind : Kind, ∀ first second : Field kind,
      first.key = second.key → first = second := by decide
  exact checked kind first second same

theorem mem_byKey {kind : Kind} (field : Field kind) : field ∈ byKey kind := by
  cases field <;> decide

theorem pairwise_byKey (kind : Kind) :
    (byKey kind).Pairwise fun first second => first.key < second.key := by
  cases kind <;> decide

end Field

/-! ### Collections and links -/

/-- The collections of each kind of record. -/
inductive Collection : Kind → Type where
  | tagAliases : Collection .tag
  | performerAliases : Collection .performer
  | performerUrls : Collection .performer
  | performerImages : Collection .performer
  | tattoos : Collection .performer
  | piercings : Collection .performer
  | studioAliases : Collection .studio
  | studioUrls : Collection .studio
  | studioImages : Collection .studio
  | sceneUrls : Collection .scene
  | sceneImages : Collection .scene
deriving DecidableEq

namespace Collection

/-- The collections of a kind in the order in which they are listed. -/
def ofKind : (kind : Kind) → List (Collection kind)
  | .tag => [.tagAliases]
  | .performer => [.performerAliases, .performerUrls, .performerImages, .tattoos, .piercings]
  | .studio => [.studioAliases, .studioUrls, .studioImages]
  | .scene => [.sceneUrls, .sceneImages]

instance (kind : Kind) : Enumerated (Collection kind) where
  all := ofKind kind
  mem_all collection := by cases collection <;> decide

/-- The key of a collection. -/
def key {kind : Kind} : Collection kind → String
  | .tagAliases => "aliases"
  | .performerAliases => "aliases"
  | .performerUrls => "urls"
  | .performerImages => "images"
  | .tattoos => "tattoos"
  | .piercings => "piercings"
  | .studioAliases => "aliases"
  | .studioUrls => "urls"
  | .studioImages => "images"
  | .sceneUrls => "urls"
  | .sceneImages => "images"

/-- What a collection holds. -/
abbrev sort {kind : Kind} : Collection kind → Member
  | .tagAliases => .alias
  | .performerAliases => .alias
  | .performerUrls => .url
  | .performerImages => .image
  | .tattoos => .modification
  | .piercings => .modification
  | .studioAliases => .alias
  | .studioUrls => .url
  | .studioImages => .image
  | .sceneUrls => .url
  | .sceneImages => .image

/-- The type of what a collection holds. -/
abbrev Carrier {kind : Kind} (collection : Collection kind) : Type := collection.sort.Carrier

theorem key_inj {kind : Kind} {first second : Collection kind} (same : first.key = second.key) :
    first = second := by
  have checked : ∀ kind : Kind, ∀ first second : Collection kind,
      first.key = second.key → first = second := by decide
  exact checked kind first second same

end Collection

/-- The links of each kind of record to others; only scenes have any. -/
inductive Link : Kind → Type where
  | sceneTags : Link .scene
  | scenePerformers : Link .scene
deriving DecidableEq

namespace Link

/-- The links of a kind in the order in which they are listed. -/
def ofKind : (kind : Kind) → List (Link kind)
  | .tag => []
  | .performer => []
  | .studio => []
  | .scene => [.sceneTags, .scenePerformers]

instance (kind : Kind) : Enumerated (Link kind) where
  all := ofKind kind
  mem_all link := by cases link <;> decide

/-- The key of a link. -/
def key {kind : Kind} : Link kind → String
  | .sceneTags => "tags"
  | .scenePerformers => "performers"

/-- The association that a link stands for. -/
def association {kind : Kind} : Link kind → Association
  | .sceneTags => .sceneTag
  | .scenePerformers => .scenePerformer

/-- What a link names: a tag, or a performer with a credit. -/
abbrev Carrier {kind : Kind} : Link kind → Type
  | .sceneTags => EntityId
  | .scenePerformers => Appearance

instance {kind : Kind} : (link : Link kind) → DecidableEq link.Carrier
  | .sceneTags => inferInstanceAs (DecidableEq EntityId)
  | .scenePerformers => inferInstanceAs (DecidableEq Appearance)

/-- The record at the other end of a link. -/
def target {kind : Kind} : (link : Link kind) → link.Carrier → EntityId
  | .sceneTags, tag => tag
  | .scenePerformers, appearance => appearance.performer

/-- The credit that goes with a link. -/
def credit {kind : Kind} : (link : Link kind) → link.Carrier → Option String
  | .sceneTags, _ => none
  | .scenePerformers, appearance => appearance.creditedAs

/-- The link with a given record at its other end and a given credit. -/
def ofEdge {kind : Kind} : (link : Link kind) → EntityId → Option String → link.Carrier
  | .sceneTags, tag, _ => tag
  | .scenePerformers, performer, credit => ⟨performer, credit⟩

@[simp] theorem target_ofEdge {kind : Kind} (link : Link kind) (target : EntityId)
    (credit : Option String) : link.target (link.ofEdge target credit) = target := by
  cases link <;> rfl

end Link

end Curation
