/-
**The heads of values are read back.** Numbers, texts and lengths are written in the shortest of their
forms. The first byte tells the form: it holds a small number or length itself, or it names the width of
what comes next. Whatever follows a head is left.

* `MessagePack.takeHead?_integer`: numbers of 64 bits;
* `MessagePack.takeHead?_text`, `MessagePack.takeHead?_binary`: texts and bytes with their lengths;
* `MessagePack.takeHead?_array`, `MessagePack.takeHead?_map`: the lengths of arrays and maps.
-/

import Curation.Datum.MessagePack

namespace Curation.MessagePack

open Curation.Bytes

/-- Lengths are written in at most four bytes. -/
def lengthLimit : Nat := 4294967296

/-! ### Forms with a width -/

section

variable {width : Nat}

theorem takeBytes?_append (content rest : List UInt8) :
    takeBytes? content.length (content ++ rest) = some (content, rest) := by
  rw [takeBytes?, List.take_left, if_pos rfl, List.drop_left]

theorem takeNatural?_encode {number : Nat} (fits : number < BigEndian.capacity width)
    (rest : List UInt8) :
    takeNatural? width (BigEndian.encode width number ++ rest) = some (number, rest) := by
  have taken := takeBytes?_append (BigEndian.encode width number) rest
  rw [BigEndian.length_encode] at taken
  rw [takeNatural?, taken]
  show some (BigEndian.decode (BigEndian.encode width number), rest) = _
  rw [BigEndian.decode_encode fits]

/-- A negative number is found in the upper half of the numbers of its width. -/
theorem takeSigned?_encode {value : Int}
    (fits : -((BigEndian.capacity width / 2 : Nat) : Int) ≤ value) (negative : value < 0)
    (rest : List UInt8) :
    takeSigned? width
      (BigEndian.encode width (value + BigEndian.capacity width).toNat ++ rest) =
        some (value, rest) := by
  have least := BigEndian.capacity_pos width
  rw [takeSigned?, takeNatural?_encode (by omega)]
  show some (if (value + BigEndian.capacity width).toNat < BigEndian.capacity width / 2 then _
    else _, rest) = _
  rw [if_neg (by omega),
    show ((value + BigEndian.capacity width).toNat : Int) - BigEndian.capacity width = value by omega]

theorem takeSized?_encode {content : List UInt8} (fits : content.length < BigEndian.capacity width)
    (rest : List UInt8) :
    takeSized? width (BigEndian.encode width content.length ++ (content ++ rest)) =
      some (content, rest) := by
  rw [takeSized?, takeNatural?_encode fits]
  exact takeBytes?_append content rest

/-- What is made into a head is the number that was written, -/
theorem map_takeNatural? (width : Nat) (head : Nat → Head) {number : Nat}
    (fits : number < BigEndian.capacity width) (rest : List UInt8) :
    ((takeNatural? width (BigEndian.encode width number ++ rest)).map
      fun (number, rest) => (head number, rest)) = some (head number, rest) := by
  rw [takeNatural?_encode fits]
  rfl

theorem map_takeSigned? (width : Nat) {value : Int}
    (fits : -((BigEndian.capacity width / 2 : Nat) : Int) ≤ value) (negative : value < 0)
    (rest : List UInt8) :
    ((takeSigned? width
      (BigEndian.encode width (value + BigEndian.capacity width).toNat ++ rest)).map
        fun (value, rest) => (Head.signed value, rest)) = some (.signed value, rest) := by
  rw [takeSigned?_encode fits negative]
  rfl

/-- or the bytes that were written after their length. -/
theorem map_takeSized? (width : Nat) (head : List UInt8 → Head) {content : List UInt8}
    (fits : content.length < BigEndian.capacity width) (rest : List UInt8) :
    ((takeSized? width (BigEndian.encode width content.length ++ (content ++ rest))).map
      fun (content, rest) => (head content, rest)) = some (head content, rest) := by
  rw [takeSized?_encode fits]
  rfl

end

/-- A code that fits into a byte is the code of that byte. -/
theorem toNat_byte {code : Nat} (fits : code < 256) : (UInt8.ofNat code).toNat = code :=
  UInt8.toNat_ofNat_of_lt' fits

/-! ### Numbers -/

theorem takeHead?_natural {value : Nat} (fits : value < 18446744073709551616)
    (rest : List UInt8) : takeHead? (natural value ++ rest) = some (.unsigned value, rest) := by
  unfold natural
  split
  next small =>
    rw [List.singleton_append, takeHead?]
    simp only [toNat_byte (show value < 256 by omega)]
    rw [if_pos small]
  split
  next fits => exact map_takeNatural? 1 .unsigned fits rest
  split
  next fits => exact map_takeNatural? 2 .unsigned fits rest
  split
  next fits => exact map_takeNatural? 4 .unsigned fits rest
  next => exact map_takeNatural? 8 .unsigned fits rest

theorem takeHead?_negative {value : Int} (fits : -9223372036854775808 ≤ value) (below : value < 0)
    (rest : List UInt8) : takeHead? (negative value ++ rest) = some (.signed value, rest) := by
  unfold negative
  dsimp only
  split
  next small =>
    have written : BigEndian.encode 1 (value + BigEndian.capacity 1).toNat =
        [UInt8.ofNat ((value + 256).toNat / 1)] := rfl
    rw [written, Nat.div_one, List.singleton_append, takeHead?]
    simp only [toNat_byte (show (value + 256).toNat < 256 by omega)]
    rw [if_neg (by omega), if_neg (by omega), if_neg (by omega), if_neg (by omega),
      if_pos (by omega), show ((value + 256).toNat : Int) - 256 = value by omega]
  split
  next fits => exact map_takeSigned? 1 fits below rest
  split
  next fits => exact map_takeSigned? 2 fits below rest
  split
  next fits => exact map_takeSigned? 4 fits below rest
  next => exact map_takeSigned? 8 fits below rest

/-- The head of a number. -/
def Head.ofInteger (value : Int) : Head :=
  if 0 ≤ value then .unsigned value.toNat else .signed value

/-- **A number of 64 bits is read back**, whether it has a sign or not. -/
theorem takeHead?_integer {value : Int}
    (fits : -9223372036854775808 ≤ value ∧ value < 18446744073709551616) (rest : List UInt8) :
    takeHead? (integer value ++ rest) = some (.ofInteger value, rest) := by
  unfold integer Head.ofInteger
  split
  · exact takeHead?_natural (by omega) rest
  · exact takeHead?_negative fits.1 (by omega) rest

/-! ### Texts and bytes -/

section

variable {content : List UInt8} (fits : content.length < lengthLimit) (rest : List UInt8)

include fits

/-- **The bytes of a text are read back** after their length. -/
theorem takeHead?_text :
    takeHead? (textHeader content.length ++ (content ++ rest)) = some (.text content, rest) := by
  unfold textHeader
  split
  next small =>
    rw [List.singleton_append, takeHead?]
    simp only [toNat_byte (show 0xa0 + content.length < 256 by omega)]
    rw [if_neg (by omega), if_neg (by omega), if_neg (by omega), if_pos (by omega),
      Nat.add_sub_cancel_left, takeBytes?_append]
    rfl
  split
  next fits => exact map_takeSized? 1 .text fits rest
  split
  next fits => exact map_takeSized? 2 .text fits rest
  next => exact map_takeSized? 4 .text fits rest

/-- So are bytes that are no text. -/
theorem takeHead?_binary :
    takeHead? (binaryHeader content.length ++ (content ++ rest)) =
      some (.binary content, rest) := by
  unfold binaryHeader
  split
  next fits => exact map_takeSized? 1 .binary fits rest
  split
  next fits => exact map_takeSized? 2 .binary fits rest
  next => exact map_takeSized? 4 .binary fits rest

end

/-! ### Arrays and maps -/

section

variable {length : Nat} (fits : length < lengthLimit) (rest : List UInt8)

include fits

/-- **The length of an array is read back**, -/
theorem takeHead?_array : takeHead? (arrayHeader length ++ rest) = some (.array length, rest) := by
  unfold arrayHeader
  split
  next small =>
    rw [List.singleton_append, takeHead?]
    simp only [toNat_byte (show 0x90 + length < 256 by omega)]
    rw [if_neg (by omega), if_neg (by omega), if_pos (by omega), Nat.add_sub_cancel_left]
  split
  next fits => exact map_takeNatural? 2 .array fits rest
  next => exact map_takeNatural? 4 .array fits rest

/-- and so is that of a map. -/
theorem takeHead?_map : takeHead? (mapHeader length ++ rest) = some (.map length, rest) := by
  unfold mapHeader
  split
  next small =>
    rw [List.singleton_append, takeHead?]
    simp only [toNat_byte (show 0x80 + length < 256 by omega)]
    rw [if_neg (by omega), if_pos (by omega), Nat.add_sub_cancel_left]
  split
  next fits => exact map_takeNatural? 2 .map fits rest
  next => exact map_takeNatural? 4 .map fits rest

end

end Curation.MessagePack
