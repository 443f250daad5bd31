/-
**Portable data in MessagePack.** Numbers, texts and lists are written in the shortest of their forms,
identifiers as sixteen bytes, instants as texts, and an alternative with something attached as a map
with one entry. A record is written as a map, which names its members, or as an array, which does not.

The reader takes one datum from the front of the bytes and accepts every form of a number or text.
The members of a map may come in any order, under their names or positions, and unknown ones are
skipped, unless they are nested too deeply. A list may also be given as bytes, but only if it is empty.
-/

import Curation.Bytes.BigEndian
import Curation.Bytes.Utf8
import Curation.Datum
import Curation.Instant.Text

namespace Curation

open Curation.Bytes

namespace MessagePack

/-! ### Writing -/

/-- A number that is not negative. -/
def natural (value : Nat) : List UInt8 :=
  if value < 128 then [UInt8.ofNat value]
  else if value < 256 then 0xcc :: BigEndian.encode 1 value
  else if value < 65536 then 0xcd :: BigEndian.encode 2 value
  else if value < 4294967296 then 0xce :: BigEndian.encode 4 value
  else 0xcf :: BigEndian.encode 8 value

/-- A negative number, in two's complement. -/
def negative (value : Int) : List UInt8 :=
  let bits (width : Nat) : List UInt8 := BigEndian.encode width (value + BigEndian.capacity width).toNat
  if -32 ≤ value then bits 1
  else if -128 ≤ value then 0xd0 :: bits 1
  else if -32768 ≤ value then 0xd1 :: bits 2
  else if -2147483648 ≤ value then 0xd2 :: bits 4
  else 0xd3 :: bits 8

/-- A number. -/
def integer (value : Int) : List UInt8 :=
  if 0 ≤ value then natural value.toNat else negative value

/-- What goes before a text of a number of bytes. -/
def textHeader (length : Nat) : List UInt8 :=
  if length < 32 then [UInt8.ofNat (0xa0 + length)]
  else if length < 256 then 0xd9 :: BigEndian.encode 1 length
  else if length < 65536 then 0xda :: BigEndian.encode 2 length
  else 0xdb :: BigEndian.encode 4 length

/-- A text. -/
def text (content : String) : List UInt8 :=
  let bytes := Utf8.encode content
  textHeader bytes.length ++ bytes

/-- What goes before some bytes that are no text. -/
def binaryHeader (length : Nat) : List UInt8 :=
  if length < 256 then 0xc4 :: BigEndian.encode 1 length
  else if length < 65536 then 0xc5 :: BigEndian.encode 2 length
  else 0xc6 :: BigEndian.encode 4 length

/-- What goes before an array of a number of elements. -/
def arrayHeader (length : Nat) : List UInt8 :=
  if length < 16 then [UInt8.ofNat (0x90 + length)]
  else if length < 65536 then 0xdc :: BigEndian.encode 2 length
  else 0xdd :: BigEndian.encode 4 length

/-- What goes before a map of a number of entries. -/
def mapHeader (length : Nat) : List UInt8 :=
  if length < 16 then [UInt8.ofNat (0x80 + length)]
  else if length < 65536 then 0xde :: BigEndian.encode 2 length
  else 0xdf :: BigEndian.encode 4 length

mutual

/-- The bytes of a datum, with the members of records named or not. -/
def encode (named : Bool) : Datum → List UInt8
  | .null => [0xc0]
  | .bool false => [0xc2]
  | .bool true => [0xc3]
  | .integer value => integer value
  | .text content => text content
  | .id uuid => binaryHeader uuid.bytes.length ++ uuid.bytes
  | .instant moment => text moment.toText
  | .list elements => arrayHeader elements.length ++ encodeElements named elements
  | .record members =>
    (if named then mapHeader members.length else arrayHeader members.length) ++
      encodeMembers named members
  | .word name => text name
  | .variant name payload => mapHeader 1 ++ text name ++ encode named payload

/-- The bytes of some data, one after the other. -/
def encodeElements (named : Bool) : List Datum → List UInt8
  | [] => []
  | first :: rest => encode named first ++ encodeElements named rest

/-- The bytes of the members of a record, one after the other. -/
def encodeMembers (named : Bool) : List (String × Datum) → List UInt8
  | [] => []
  | (name, value) :: rest =>
    (if named then text name else []) ++ encode named value ++ encodeMembers named rest

end

/-! ### Heads of values -/

/-- What the head of a value says. -/
inductive Head where
  | null
  | bool (value : Bool)
  | unsigned (value : Nat)
  | signed (value : Int)
  | text (content : List UInt8)
  | binary (content : List UInt8)
  | array (length : Nat)
  | map (length : Nat)
  /-- An extension, of which nothing is kept. -/
  | extension
  /-- A floating point number, of which nothing is kept. -/
  | float

/-- Takes a number of bytes from the front. -/
def takeBytes? (count : Nat) (bytes : List UInt8) : Option (List UInt8 × List UInt8) :=
  if (bytes.take count).length = count then some (bytes.take count, bytes.drop count) else none

/-- Takes a number of a width in bytes from the front. -/
def takeNatural? (width : Nat) (bytes : List UInt8) : Option (Nat × List UInt8) := do
  let (taken, rest) ← takeBytes? width bytes
  return (BigEndian.decode taken, rest)

/-- Takes a number in two's complement of a width in bytes from the front. -/
def takeSigned? (width : Nat) (bytes : List UInt8) : Option (Int × List UInt8) := do
  let (value, rest) ← takeNatural? width bytes
  let half := BigEndian.capacity width / 2
  return (if value < half then (value : Int) else (value : Int) - BigEndian.capacity width, rest)

/-- Takes a length of a width in bytes, and then as many bytes. -/
def takeSized? (width : Nat) (bytes : List UInt8) : Option (List UInt8 × List UInt8) := do
  let (length, rest) ← takeNatural? width bytes
  takeBytes? length rest

/-- Takes an extension: its tag and its bytes. -/
def takeExtension? (length : Nat) (bytes : List UInt8) : Option (Head × List UInt8) := do
  let (_, rest) ← takeBytes? (length + 1) bytes
  return (.extension, rest)

/-- Takes the head of a value from the front. -/
def takeHead? : List UInt8 → Option (Head × List UInt8)
  | [] => none
  | marker :: rest =>
    let code := marker.toNat
    if code < 0x80 then some (.unsigned code, rest)
    else if code < 0x90 then some (.map (code - 0x80), rest)
    else if code < 0xa0 then some (.array (code - 0x90), rest)
    else if code < 0xc0 then do
      let (content, rest) ← takeBytes? (code - 0xa0) rest
      return (.text content, rest)
    else if code ≥ 0xe0 then some (.signed ((code : Int) - 256), rest)
    else
      match code with
      | 0xc0 => some (.null, rest)
      | 0xc2 => some (.bool false, rest)
      | 0xc3 => some (.bool true, rest)
      | 0xc4 => (takeSized? 1 rest).map fun (content, rest) => (.binary content, rest)
      | 0xc5 => (takeSized? 2 rest).map fun (content, rest) => (.binary content, rest)
      | 0xc6 => (takeSized? 4 rest).map fun (content, rest) => (.binary content, rest)
      | 0xc7 => do
        let (length, rest) ← takeNatural? 1 rest
        takeExtension? length rest
      | 0xc8 => do
        let (length, rest) ← takeNatural? 2 rest
        takeExtension? length rest
      | 0xc9 => do
        let (length, rest) ← takeNatural? 4 rest
        takeExtension? length rest
      | 0xca => (takeBytes? 4 rest).map fun (_, rest) => (.float, rest)
      | 0xcb => (takeBytes? 8 rest).map fun (_, rest) => (.float, rest)
      | 0xcc => (takeNatural? 1 rest).map fun (value, rest) => (.unsigned value, rest)
      | 0xcd => (takeNatural? 2 rest).map fun (value, rest) => (.unsigned value, rest)
      | 0xce => (takeNatural? 4 rest).map fun (value, rest) => (.unsigned value, rest)
      | 0xcf => (takeNatural? 8 rest).map fun (value, rest) => (.unsigned value, rest)
      | 0xd0 => (takeSigned? 1 rest).map fun (value, rest) => (.signed value, rest)
      | 0xd1 => (takeSigned? 2 rest).map fun (value, rest) => (.signed value, rest)
      | 0xd2 => (takeSigned? 4 rest).map fun (value, rest) => (.signed value, rest)
      | 0xd3 => (takeSigned? 8 rest).map fun (value, rest) => (.signed value, rest)
      | 0xd4 => takeExtension? 1 rest
      | 0xd5 => takeExtension? 2 rest
      | 0xd6 => takeExtension? 4 rest
      | 0xd7 => takeExtension? 8 rest
      | 0xd8 => takeExtension? 16 rest
      | 0xd9 => (takeSized? 1 rest).map fun (content, rest) => (.text content, rest)
      | 0xda => (takeSized? 2 rest).map fun (content, rest) => (.text content, rest)
      | 0xdb => (takeSized? 4 rest).map fun (content, rest) => (.text content, rest)
      | 0xdc => (takeNatural? 2 rest).map fun (length, rest) => (.array length, rest)
      | 0xdd => (takeNatural? 4 rest).map fun (length, rest) => (.array length, rest)
      | 0xde => (takeNatural? 2 rest).map fun (length, rest) => (.map length, rest)
      | 0xdf => (takeNatural? 4 rest).map fun (length, rest) => (.map length, rest)
      | _ => none

/-! ### Reading -/

/-- Does something a number of times, each time with what the last time left of the bytes. -/
def repeatSkip (skip : List UInt8 → Option (List UInt8)) : Nat → List UInt8 → Option (List UInt8)
  | 0, bytes => some bytes
  | count + 1, bytes => (skip bytes).bind (repeatSkip skip count)

/-- Skips a value that opens no more than `depth` levels of arrays and maps within each other. An
extension counts as a level, too. -/
def skip? : Nat → List UInt8 → Option (List UInt8)
  | 0, bytes => do
    let (head, rest) ← takeHead? bytes
    match head with
    | .array _ => none
    | .map _ => none
    | .extension => none
    | _ => some rest
  | depth + 1, bytes => do
    let (head, rest) ← takeHead? bytes
    match head with
    | .array length => repeatSkip (skip? depth) length rest
    | .map length => repeatSkip (skip? depth) (2 * length) rest
    | _ => some rest

/-- How many levels of arrays and maps may be open. -/
def deepest : Nat := 1023

/-- What names a member or an alternative: its name, or its position. -/
inductive Key where
  | name (bytes : List UInt8)
  | position (index : Nat)

/-- Takes a key from the front. -/
def takeKey? (bytes : List UInt8) : Option (Key × List UInt8) := do
  let (head, rest) ← takeHead? bytes
  match head with
  | .text content => some (.name content, rest)
  | .binary content => some (.name content, rest)
  | .unsigned value => some (.position value, rest)
  | _ => none

/-- A key stands for a name at a position. -/
def Key.matches (name : String) (position : Nat) : Key → Bool
  | .name bytes => bytes = Utf8.encode name
  | .position index => index = position

/-- Takes a number of values from the front, one after the other. -/
def takeMany? {α : Type} (take? : List UInt8 → Option (α × List UInt8)) :
    Nat → List UInt8 → Option (List α × List UInt8)
  | 0, bytes => some ([], bytes)
  | count + 1, bytes => do
    let (first, rest) ← take? bytes
    let (others, rest) ← takeMany? take? count rest
    return (first :: others, rest)

/-- Takes one entry of a map: a key and what the key calls for. -/
def takePair? {α : Type} (take? : Key → List UInt8 → Option (α × List UInt8))
    (bytes : List UInt8) : Option (α × List UInt8) := do
  let (key, rest) ← takeKey? bytes
  take? key rest

/-- The members of a record in its order, each given at most once. -/
def arrange? (given : List (String × Datum)) : Fields → Option (List (String × Datum))
  | .nil => some []
  | .cons name _ absent rest => do
    let value ←
      match given.filter fun member => member.1 = name with
      | [] => absent
      | [(_, value)] => some value
      | _ => none
    let others ← arrange? given rest
    return (name, value) :: others

/-- A datum with the bytes that are left. -/
def leaf (datum : Datum) (rest : List UInt8) : Option (Datum × List UInt8) := some (datum, rest)

/-- A number within bounds. -/
def bounded (least most value : Int) (rest : List UInt8) : Option (Datum × List UInt8) :=
  if least ≤ value ∧ value ≤ most then leaf (.integer value) rest else none

end MessagePack

open MessagePack

mutual

/-- Takes a datum of a shape from the front of some bytes. What is skipped within it may open `depth`
levels. -/
def Shape.takeMessagePack? (depth : Nat) : Shape → List UInt8 → Option (Datum × List UInt8)
  | .bool, bytes => do
    let (head, rest) ← takeHead? bytes
    match head with
    | .bool value => leaf (.bool value) rest
    | _ => none
  | .integer least most, bytes => do
    let (head, rest) ← takeHead? bytes
    match head with
    | .unsigned value => bounded least most value rest
    | .signed value => bounded least most value rest
    | _ => none
  | .text, bytes => do
    let (head, rest) ← takeHead? bytes
    match head with
    | .text content => (Utf8.decode? content).bind fun content => leaf (.text content) rest
    | .binary content => (Utf8.decode? content).bind fun content => leaf (.text content) rest
    | _ => none
  | .id, bytes => do
    let (head, rest) ← takeHead? bytes
    match head with
    | .binary content => (Uuid.ofBytes? content).bind fun uuid => leaf (.id uuid) rest
    | .text content =>
      if (Utf8.decode? content).isSome then none
      else (Uuid.ofBytes? content).bind fun uuid => leaf (.id uuid) rest
    | _ => none
  | .instant, bytes => do
    let (head, rest) ← takeHead? bytes
    match head with
    | .text content =>
      (Utf8.decode? content).bind fun content =>
        (Instant.ofText? content).bind fun moment => leaf (.instant moment) rest
    | _ => none
  | .optional inner, bytes =>
    match bytes with
    | 0xc0 :: rest => leaf .null rest
    | bytes => inner.takeMessagePack? depth bytes
  | .list element, bytes => do
    let (head, rest) ← takeHead? bytes
    match head with
    | .array length => do
      let (elements, rest) ← takeMany? (element.takeMessagePack? (depth - 1)) length rest
      leaf (.list elements) rest
    | .binary [] => leaf (.list []) rest
    | _ => none
  | .record _ fields, bytes => do
    let (head, rest) ← takeHead? bytes
    match head with
    | .array length => do
      let (members, rest) ← fields.takeElements? (depth - 1) length rest
      leaf (.record members) rest
    | .map length => do
      let (given, rest) ← takeMany? (takePair? (fields.takeValue? (depth - 1) 0)) length rest
      let members ← arrange? (given.filterMap id) fields
      leaf (.record members) rest
    | _ => none
  | .choice cases, bytes => do
    let (head, rest) ← takeHead? bytes
    match head with
    | .map 1 => do
      let (key, rest) ← takeKey? rest
      cases.takePayload? depth 0 key rest
    | .map _ => none
    | _ => do
      let (key, rest) ← takeKey? bytes
      let datum ← cases.ofKey? 0 key
      leaf datum rest

/-- Takes the members of a record by position, as many as the record has. -/
def Fields.takeElements? (depth : Nat) : Fields → Nat → List UInt8 →
    Option (List (String × Datum) × List UInt8)
  | .nil, length, bytes => if length = 0 then some ([], bytes) else none
  | .cons name shape _ rest, length, bytes =>
    match length with
    | 0 => none
    | length + 1 => do
      let (value, bytes) ← shape.takeMessagePack? depth bytes
      let (others, bytes) ← rest.takeElements? depth length bytes
      return ((name, value) :: others, bytes)

/-- Takes the value of the member that a key stands for; nothing is kept under an unknown key. -/
def Fields.takeValue? (depth : Nat) : Fields → Nat → Key → List UInt8 →
    Option (Option (String × Datum) × List UInt8)
  | .nil, _, _, bytes => (skip? depth bytes).map fun rest => (none, rest)
  | .cons name shape _ rest, position, key, bytes =>
    if key.matches name position then
      (shape.takeMessagePack? depth bytes).map fun (value, rest) => (some (name, value), rest)
    else rest.takeValue? depth (position + 1) key bytes

/-- Takes what is attached to the alternative that a key stands for. -/
def Cases.takePayload? (depth : Nat) : Cases → Nat → Key → List UInt8 → Option (Datum × List UInt8)
  | .nil, _, _, _ => none
  | .word name rest, position, key, bytes =>
    if key.matches name position then
      match bytes with
      | 0xc0 :: bytes => leaf (.word name) bytes
      | _ => none
    else rest.takePayload? depth (position + 1) key bytes
  | .variant name payload rest, position, key, bytes =>
    if key.matches name position then
      (payload.takeMessagePack? depth bytes).map fun (value, bytes) => (.variant name value, bytes)
    else rest.takePayload? depth (position + 1) key bytes

/-- The alternative that a key stands for, if nothing is attached to it. -/
def Cases.ofKey? : Cases → Nat → Key → Option Datum
  | .nil, _, _ => none
  | .word name rest, position, key =>
    if key.matches name position then some (.word name) else rest.ofKey? (position + 1) key
  | .variant name _ rest, position, key =>
    if key.matches name position then none else rest.ofKey? (position + 1) key

end

namespace Portable

variable {α : Type} [Portable α]

/-- The bytes of a value, with the members of records named or not. -/
def toMessagePack (named : Bool) (value : α) : List UInt8 := MessagePack.encode named (toDatum value)

/-- The value at the front of some bytes. -/
def ofMessagePack? (bytes : List UInt8) : Option α := do
  let (datum, _) ← (shape α).takeMessagePack? deepest bytes
  ofDatum? datum

end Portable

end Curation
