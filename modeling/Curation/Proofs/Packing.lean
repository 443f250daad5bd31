/-
**What is read from JSON is read from MessagePack.** A shape that reads a datum from its document reads
it from its bytes, too, with the members of records named or not and whatever comes after them. The bytes
hold less than the document, so some things must be small enough for them: the lengths of texts and
lists have 32 bits, and numbers have 64.

* `Datum.Packable`: the data that are small enough;
* `Shape.takeMessagePack?_encode`: data are read back, by recursion on their shape;
* `Portable.ofMessagePack?_toMessagePack`, `Portable.toMessagePack_inj`: from data to values.
-/

import Curation.Proofs.Fitting
import Curation.Proofs.Heads

namespace Curation

open Curation.Bytes Curation.MessagePack

/-! ### Data that are small enough -/

theorem Bytes.Utf8.encode_inj {first second : String}
    (same : Utf8.encode first = Utf8.encode second) : first = second := by
  have read := congrArg Utf8.decode? same
  rw [Utf8.decode_encode, Utf8.decode_encode] at read
  exact Option.some.inj read

/-- The length of a text in bytes can be written. -/
def MessagePack.ShortText (content : String) : Prop := (Utf8.encode content).length < lengthLimit

namespace Datum

mutual

/-- All lengths and numbers of a datum can be written. -/
def Packable : Datum → Prop
  | .null => True
  | .bool _ => True
  | .integer value => -9223372036854775808 ≤ value ∧ value < 18446744073709551616
  | .text content => ShortText content
  | .id _ => True
  | .instant moment => ShortText moment.toText
  | .list elements => elements.length < lengthLimit ∧ PackableElements elements
  | .record members => members.length < lengthLimit ∧ PackableMembers members
  | .word name => ShortText name
  | .variant name payload => ShortText name ∧ payload.Packable

/-- So can those of some data. -/
def PackableElements : List Datum → Prop
  | [] => True
  | first :: rest => first.Packable ∧ PackableElements rest

/-- So can those of the members of a record, and their names. -/
def PackableMembers : List (String × Datum) → Prop
  | [] => True
  | (name, value) :: rest => ShortText name ∧ value.Packable ∧ PackableMembers rest

end

theorem packableElements_iff {elements : List Datum} :
    PackableElements elements ↔ ∀ element ∈ elements, element.Packable := by
  induction elements with
  | nil => exact iff_of_true trivial (List.forall_mem_nil _)
  | cons first rest hypothesis => rw [PackableElements, hypothesis, List.forall_mem_cons]

theorem packableMembers_iff {members : List (String × Datum)} :
    PackableMembers members ↔ ∀ member ∈ members, ShortText member.1 ∧ member.2.Packable := by
  induction members with
  | nil => exact iff_of_true trivial (List.forall_mem_nil _)
  | cons first rest hypothesis =>
    obtain ⟨name, value⟩ := first
    rw [PackableMembers, hypothesis, List.forall_mem_cons, and_assoc]

end Datum

/-! ### Parts of bytes -/

namespace MessagePack

/-- Values that are each written and read are read one after the other. -/
theorem takeMany?_flatMap {α β : Type} {take? : List UInt8 → Option (α × List UInt8)}
    {write : β → List UInt8} {image : β → α} {values : List β}
    (reads : ∀ value ∈ values, ∀ rest, take? (write value ++ rest) = some (image value, rest))
    (rest : List UInt8) :
    takeMany? take? values.length (values.flatMap write ++ rest) = some (values.map image, rest) := by
  induction values with
  | nil => rfl
  | cons first others hypothesis =>
    have later := hypothesis fun value member => reads value (List.mem_cons_of_mem _ member)
    rw [List.length_cons, List.flatMap_cons, List.append_assoc, takeMany?,
      reads first List.mem_cons_self]
    show (takeMany? take? others.length (others.flatMap write ++ rest)).bind _ = _
    rw [later]
    rfl

theorem takeKey?_text {name : String} (short : ShortText name) (rest : List UInt8) :
    takeKey? (text name ++ rest) = some (.name (Utf8.encode name), rest) := by
  rw [takeKey?, text, List.append_assoc, takeHead?_text short]
  rfl

theorem encodeElements_eq (named : Bool) (elements : List Datum) :
    encodeElements named elements = elements.flatMap (encode named) := by
  induction elements with
  | nil => rfl
  | cons first rest hypothesis => rw [encodeElements, hypothesis, List.flatMap_cons]

/-- The members of a map, each with its name. -/
theorem encodeMembers_named (members : List (String × Datum)) :
    encodeMembers true members =
      members.flatMap fun member => text member.1 ++ encode true member.2 := by
  induction members with
  | nil => rfl
  | cons first rest hypothesis =>
    rw [encodeMembers, hypothesis, List.flatMap_cons]
    rfl

/-- A name is that of one member only. -/
theorem matches_name {name other : String} {position : Nat} :
    Key.matches name position (.name (Utf8.encode other)) = true ↔ other = name := by
  rw [Key.matches, decide_eq_true_iff]
  exact ⟨Utf8.encode_inj, congrArg Utf8.encode⟩

/-- A member is the only one under its name. -/
theorem filter_member {given : List (String × Datum)} {member : String × Datum}
    (distinct : (given.map Prod.fst).Nodup) (listed : member ∈ given) :
    given.filter (fun other => other.1 = member.1) = [member] := by
  induction given with
  | nil => cases listed
  | cons first others hypothesis =>
    rw [List.map_cons, List.nodup_cons] at distinct
    rcases List.mem_cons.mp listed with rfl | later
    · rw [List.filter_cons_of_pos (by simp), List.filter_eq_nil_iff.mpr]
      exact fun other stored same =>
        distinct.1 (List.mem_map.mpr ⟨other, stored, of_decide_eq_true same⟩)
    · have other : first.1 ≠ member.1 := fun same =>
        distinct.1 (same ▸ List.mem_map_of_mem (f := Prod.fst) later)
      rw [List.filter_cons_of_neg (by simpa using other)]
      exact hypothesis distinct.2 later

/-- The members of a record are put into its order, whatever order they are given in. -/
theorem arrange?_hold {fields : Fields} {given members : List (String × Datum)}
    (hold : fields.Hold members) (distinct : (given.map Prod.fst).Nodup) (part : members ⊆ given) :
    arrange? given fields = some members := by
  induction hold with
  | nil => rfl
  | @cons name shape absent rest datum others fits more hypothesis =>
    have only : given.filter (fun member => member.1 = name) = [(name, datum)] :=
      filter_member distinct (part List.mem_cons_self)
    rw [arrange?, only, hypothesis fun pair member => part (List.mem_cons_of_mem _ member)]
    rfl

/-- Only nothing is read where nothing is written. -/
theorem eq_null_of_take {shape : Shape} {depth : Nat} {datum : Datum} {bytes rest : List UInt8}
    (read : shape.takeMessagePack? depth (0xc0 :: bytes) = some (datum, rest)) : datum = .null := by
  cases shape with
  | optional inner =>
    cases read
    rfl
  | _ => cases read

end MessagePack

/-- A word is known by its name. -/
theorem Cases.ofKey?_encode (cases : Cases) {name : String}
    (known : cases.ofName? name = some (.word name)) {position : Nat} :
    cases.ofKey? position (.name (Utf8.encode name)) = some (.word name) := by
  cases cases with
  | nil => cases known
  | word first others =>
    rw [ofName?] at known
    rw [ofKey?]
    split at known
    next same => rw [if_pos (matches_name.mpr same.symm), same]
    next other =>
      rw [if_neg (matches_name.not.mpr (Ne.symm other))]
      exact others.ofKey?_encode known
  | variant first shape others =>
    rw [ofName?] at known
    rw [ofKey?]
    split at known
    next => cases known
    next other =>
      rw [if_neg (matches_name.not.mpr (Ne.symm other))]
      exact others.ofKey?_encode known

/-! ### One form of a shape at a time -/

namespace MessagePack

variable {depth : Nat} {named : Bool} (rest : List UInt8)

theorem take_integer {least most value : Int} (within : least ≤ value ∧ value ≤ most)
    (packable : (Datum.integer value).Packable) :
    (Shape.integer least most).takeMessagePack? depth (encode named (.integer value) ++ rest) =
      some (.integer value, rest) := by
  show (takeHead? (integer value ++ rest)).bind _ = _
  rw [takeHead?_integer packable]
  by_cases sign : 0 ≤ value
  · rw [Head.ofInteger, if_pos sign]
    show bounded least most (value.toNat : Int) rest = _
    rw [Int.toNat_of_nonneg sign, bounded, if_pos within, leaf]
  · rw [Head.ofInteger, if_neg sign]
    exact if_pos within

theorem take_text {content : String} (short : ShortText content) :
    Shape.text.takeMessagePack? depth (encode named (.text content) ++ rest) =
      some (.text content, rest) := by
  show (takeHead? (text content ++ rest)).bind _ = _
  rw [text, List.append_assoc, takeHead?_text short]
  show (Utf8.decode? (Utf8.encode content)).bind _ = _
  rw [Utf8.decode_encode]
  rfl

theorem take_id (uuid : Uuid) :
    Shape.id.takeMessagePack? depth (encode named (.id uuid) ++ rest) = some (.id uuid, rest) := by
  have short : uuid.bytes.length < lengthLimit := by
    rw [uuid.length_bytes]
    decide
  show (takeHead? (binaryHeader uuid.bytes.length ++ uuid.bytes ++ rest)).bind _ = _
  rw [List.append_assoc, takeHead?_binary short]
  show ((Uuid.ofBytes? uuid.bytes).bind fun uuid => leaf (.id uuid) rest) = _
  rw [uuid.ofBytes_bytes]
  rfl

theorem take_instant {moment : Instant} (short : ShortText moment.toText) :
    Shape.instant.takeMessagePack? depth (encode named (.instant moment) ++ rest) =
      some (.instant moment, rest) := by
  have parsed := moment.ofText?_toText
  rw [show encode named (.instant moment) = text moment.toText from rfl]
  generalize moment.toText = content at short parsed
  show (takeHead? (text content ++ rest)).bind _ = _
  rw [text, List.append_assoc, takeHead?_text short]
  show (Utf8.decode? (Utf8.encode content)).bind _ = _
  rw [Utf8.decode_encode]
  show (Instant.ofText? content).bind _ = _
  rw [parsed]
  rfl

/-- What is there is read as it would be if it had to be there. -/
theorem take_present {inner : Shape} {datum : Datum} (given : datum ≠ .null)
    (read : inner.takeMessagePack? depth (encode named datum ++ rest) = some (datum, rest)) :
    (Shape.optional inner).takeMessagePack? depth (encode named datum ++ rest) =
      some (datum, rest) := by
  rw [Shape.takeMessagePack?]
  · exact read
  · intro bytes same
    rw [same] at read
    exact given (eq_null_of_take read)

theorem take_list {element : Shape} {elements : List Datum} (short : elements.length < lengthLimit)
    (reads : ∀ datum ∈ elements, ∀ rest, element.takeMessagePack? (depth - 1)
      (encode named datum ++ rest) = some (datum, rest)) :
    (Shape.list element).takeMessagePack? depth (encode named (.list elements) ++ rest) =
      some (.list elements, rest) := by
  have read : takeMany? (element.takeMessagePack? (depth - 1)) elements.length
      (elements.flatMap (encode named) ++ rest) = some (elements.map id, rest) :=
    takeMany?_flatMap reads rest
  show (takeHead? (arrayHeader elements.length ++ encodeElements named elements ++ rest)).bind _ = _
  rw [List.append_assoc, takeHead?_array short, encodeElements_eq]
  show (takeMany? (element.takeMessagePack? (depth - 1)) elements.length
    (elements.flatMap (encode named) ++ rest)).bind _ = _
  rw [read, List.map_id]
  rfl

section

variable {mayBeShort : Bool} {fields : Fields} {members : List (String × Datum)}
  (short : members.length < lengthLimit)

include short

/-- A record without names is an array of its members. -/
theorem take_positions (read : fields.takeElements? (depth - 1) members.length
      (encodeMembers false members ++ rest) = some (members, rest)) :
    (Shape.record mayBeShort fields).takeMessagePack? depth
      (encode false (.record members) ++ rest) = some (.record members, rest) := by
  show (takeHead? (arrayHeader members.length ++ encodeMembers false members ++ rest)).bind _ = _
  rw [List.append_assoc, takeHead?_array short]
  show (fields.takeElements? (depth - 1) members.length
    (encodeMembers false members ++ rest)).bind _ = _
  rw [read]
  rfl

/-- A record with names is a map of its members. -/
theorem take_names (hold : fields.Hold members) (distinct : (members.map Prod.fst).Nodup)
    (names : ∀ member ∈ members, ShortText member.1)
    (reads : ∀ member ∈ members, ∀ rest, fields.takeValue? (depth - 1) 0
      (.name (Utf8.encode member.1)) (encode true member.2 ++ rest) = some (some member, rest)) :
    (Shape.record mayBeShort fields).takeMessagePack? depth
      (encode true (.record members) ++ rest) = some (.record members, rest) := by
  have read : takeMany? (takePair? (fields.takeValue? (depth - 1) 0)) members.length
      ((members.flatMap fun member => text member.1 ++ encode true member.2) ++ rest) =
        some (members.map some, rest) := by
    refine takeMany?_flatMap (fun member listed rest => ?_) rest
    rw [takePair?, List.append_assoc, takeKey?_text (names member listed)]
    exact reads member listed rest
  show (takeHead? (mapHeader members.length ++ encodeMembers true members ++ rest)).bind _ = _
  rw [List.append_assoc, takeHead?_map short, encodeMembers_named]
  show (takeMany? (takePair? (fields.takeValue? (depth - 1) 0)) members.length
    ((members.flatMap fun member => text member.1 ++ encode true member.2) ++ rest)).bind _ = _
  rw [read]
  show (arrange? ((members.map some).filterMap id) fields).bind _ = _
  rw [List.filterMap_map, Function.id_comp, List.filterMap_some,
    arrange?_hold hold distinct fun _ member => member]
  rfl

end

section

variable {cases : Cases} {name : String} (short : ShortText name)

include short

/-- An alternative with nothing attached is a text, -/
theorem take_word (known : cases.ofName? name = some (.word name)) :
    (Shape.choice cases).takeMessagePack? depth (encode named (.word name) ++ rest) =
      some (.word name, rest) := by
  show (takeHead? (text name ++ rest)).bind _ = _
  rw [text, List.append_assoc, takeHead?_text short]
  show (takeKey? (text name ++ rest)).bind _ = _
  rw [takeKey?_text short]
  show (cases.ofKey? 0 (.name (Utf8.encode name))).bind _ = _
  rw [cases.ofKey?_encode known]
  rfl

/-- and one with something attached is a map with one member. -/
theorem take_variant {payload : Datum}
    (read : cases.takePayload? depth 0 (.name (Utf8.encode name)) (encode named payload ++ rest) =
      some (.variant name payload, rest)) :
    (Shape.choice cases).takeMessagePack? depth (encode named (.variant name payload) ++ rest) =
      some (.variant name payload, rest) := by
  rw [encode, List.append_assoc, List.append_assoc, Shape.takeMessagePack?,
    takeHead?_map (by decide)]
  show (takeKey? (text name ++ (encode named payload ++ rest))).bind _ = _
  rw [takeKey?_text short]
  exact read

end

end MessagePack

/-! ### All forms -/

mutual

/-- **Data are read back from their bytes**, with the members of records named or not. -/
theorem Shape.takeMessagePack?_encode (named : Bool) (shape : Shape) {datum : Datum}
    (fits : datum.Fits shape) (packable : datum.Packable) (depth : Nat) (rest : List UInt8) :
    shape.takeMessagePack? depth (encode named datum ++ rest) = some (datum, rest) := by
  cases shape with
  | bool =>
    cases fits.admits with
    | bool value => cases value <;> rfl
  | integer least most =>
    cases fits.admits with
    | integer within => exact take_integer rest within packable
  | text =>
    cases fits.admits with
    | text content => exact take_text rest packable
  | id =>
    cases fits.admits with
    | id uuid => exact take_id rest uuid
  | instant =>
    cases fits.admits with
    | instant moment => exact take_instant rest packable
  | optional inner =>
    cases fits.admits with
    | absent => rfl
    | present given fits =>
      exact take_present rest given
        (Shape.takeMessagePack?_encode named inner fits packable depth rest)
  | list element =>
    cases fits.admits with
    | list all =>
      have each := Datum.packableElements_iff.mp packable.2
      refine take_list rest packable.1 fun datum member rest => ?_
      exact Shape.takeMessagePack?_encode named element (all datum member) (each datum member)
        (depth - 1) rest
  | record mayBeShort fields =>
    cases fits.admits with
    | record hold distinct =>
      cases named with
      | false =>
        exact take_positions rest packable.1
          (Fields.takeElements?_encode fields hold packable.2 (depth - 1) rest)
      | true =>
        have each := Datum.packableMembers_iff.mp packable.2
        refine take_names rest packable.1 hold distinct (fun member listed => (each member listed).1)
          fun member listed rest => ?_
        exact Fields.takeValue?_encode fields hold distinct listed packable.2 (depth - 1) 0 rest
  | choice cases =>
    cases fits.admits with
    | word known => exact take_word rest packable known
    | variant known =>
      exact take_variant rest packable.1
        (Cases.takePayload?_encode named cases known packable.2 depth 0 rest)

/-- The members of a record are read by position, -/
theorem Fields.takeElements?_encode (fields : Fields) {members : List (String × Datum)}
    (hold : fields.Hold members) (packable : Datum.PackableMembers members) (depth : Nat)
    (rest : List UInt8) :
    fields.takeElements? depth members.length (encodeMembers false members ++ rest) =
      some (members, rest) := by
  cases fields with
  | nil => cases hold; rfl
  | cons name shape absent others =>
    cases hold with
    | @cons _ _ _ _ datum members fits more =>
      have here := Shape.takeMessagePack?_encode false shape fits packable.2.1 depth
        (encodeMembers false members ++ rest)
      have later := Fields.takeElements?_encode others more packable.2.2 depth rest
      rw [encodeMembers, List.length_cons, Fields.takeElements?]
      simp only [Bool.false_eq_true, if_false, List.nil_append, List.append_assoc]
      rw [here]
      show (others.takeElements? depth members.length _).bind _ = _
      rw [later]
      rfl

/-- or by their names. -/
theorem Fields.takeValue?_encode (fields : Fields) {members : List (String × Datum)}
    (hold : fields.Hold members) (distinct : (members.map Prod.fst).Nodup)
    {member : String × Datum} (listed : member ∈ members)
    (packable : Datum.PackableMembers members) (depth position : Nat) (rest : List UInt8) :
    fields.takeValue? depth position (.name (Utf8.encode member.1))
      (encode true member.2 ++ rest) = some (some member, rest) := by
  cases fields with
  | nil =>
    cases hold
    cases listed
  | cons name shape absent others =>
    cases hold with
    | @cons _ _ _ _ datum members fits more =>
      rw [List.map_cons, List.nodup_cons] at distinct
      rw [Fields.takeValue?]
      rcases List.mem_cons.mp listed with rfl | later
      · rw [if_pos (matches_name.mpr rfl),
          Shape.takeMessagePack?_encode true shape fits packable.2.1 depth rest]
        rfl
      · have other : member.1 ≠ name := fun same =>
          distinct.1 (List.mem_map.mpr ⟨member, later, same⟩)
        rw [if_neg (matches_name.not.mpr other)]
        exact Fields.takeValue?_encode others more distinct.2 later packable.2.2 depth (position + 1)
          rest

/-- What is attached to an alternative is read under its name. -/
theorem Cases.takePayload?_encode (named : Bool) (cases : Cases) {name : String} {payload : Datum}
    (known : cases.ofMember? name payload.toJson = some (.variant name payload))
    (packable : payload.Packable) (depth position : Nat) (rest : List UInt8) :
    cases.takePayload? depth position (.name (Utf8.encode name)) (encode named payload ++ rest) =
      some (.variant name payload, rest) := by
  cases cases with
  | nil => cases known
  | word first others =>
    unfold Cases.ofMember? at known
    unfold Cases.takePayload?
    split at known
    next same =>
      split at known
      · cases known
      · cases known
    next other =>
      rw [if_neg (matches_name.not.mpr (Ne.symm other))]
      exact Cases.takePayload?_encode named others known packable depth (position + 1) rest
  | variant first shape others =>
    rw [Cases.ofMember?] at known
    rw [Cases.takePayload?]
    split at known
    next same =>
      obtain ⟨read, fits, alike⟩ := Option.map_eq_some_iff.mp known
      cases alike
      rw [if_pos (matches_name.mpr rfl),
        Shape.takeMessagePack?_encode named shape fits packable depth rest]
      rfl
    next other =>
      rw [if_neg (matches_name.not.mpr (Ne.symm other))]
      exact Cases.takePayload?_encode named others known packable depth (position + 1) rest

end

namespace Portable

variable {α : Type} [Portable α] [Faithful α]

/-- **A value is read back from its bytes** if its data can be written. -/
theorem ofMessagePack?_toMessagePack (named : Bool) {value : α} (packable : (toDatum value).Packable) :
    ofMessagePack? (toMessagePack named value) = some value := by
  have read := Shape.takeMessagePack?_encode named (shape α) (Faithful.fits value) packable deepest []
  rw [List.append_nil] at read
  rw [ofMessagePack?, toMessagePack, read]
  exact Faithful.returns value

/-- So values that are written alike are the same. -/
theorem toMessagePack_inj {named : Bool} {first second : α} (firstFits : (toDatum first).Packable)
    (secondFits : (toDatum second).Packable)
    (same : toMessagePack named first = toMessagePack named second) : first = second := by
  have read := ofMessagePack?_toMessagePack named secondFits
  rw [← same, ofMessagePack?_toMessagePack named firstFits] at read
  exact Option.some.inj read

end Portable

end Curation
