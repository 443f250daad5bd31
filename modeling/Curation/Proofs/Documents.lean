/-
**What is written is read.** A document is read back from its text, provided that all its texts and
names have characters and all its numbers are integers. The reader is given the text of the document
with something after it, and stops where the document ends: after a number it can tell the end only
because a comma or a closing bracket comes next, or nothing at all.

* `Json.content?_flatMap`: a text between quotation marks is read back, whatever its characters are;
* `Json.number?_signed`: so is an integer;
* `Json.Plain`, `Json.ofText?_toText`: and so are documents.
-/

import Curation.Json.Printer
import Curation.Json.Reader

namespace Curation

namespace Text.Decimal

/-- A numeral begins with a digit. -/
theorem digits_cons (number : Nat) : ∃ first others, digits number = first :: others ∧
    first.isDigit = true := by
  cases front : digits number with
  | nil => exact absurd front Nat.toDigits_ne_nil
  | cons first others =>
    exact ⟨first, others, rfl, isDigit_of_mem_digits (front ▸ List.mem_cons_self)⟩

/-- It begins with a zero only if it is that of zero. -/
theorem eq_zero_of_digits {number : Nat} {rest : List Char}
    (begins : digits number = '0' :: rest) : number = 0 := by
  induction number using Nat.strongRecOn generalizing rest with
  | _ number hypothesis =>
    by_cases small : number < 10
    · rw [digits, Nat.toDigits_of_lt_base small, List.cons.injEq] at begins
      exact Nat.digitChar_eq_zero.mp begins.1
    · obtain ⟨first, others, front, -⟩ := digits_cons (number / 10)
      rw [digits, Nat.toDigits_of_base_le (by decide) (by omega), ← digits, front,
        List.cons_append, List.cons.injEq] at begins
      have none := hypothesis (number / 10) (by omega) (front.trans (by rw [begins.1]))
      omega

end Text.Decimal

namespace Json

open Curation.Text

/-! ### Texts -/

/-- A letter after a backslash is read as the character that it stands for. -/
theorem content?_letter {letter character : Char} (fuel : Nat) (rest : List Char)
    (other : letter ≠ 'u') (found : escaped? letter = some character) :
    content? (fuel + 1) ('\x5c' :: letter :: rest) =
      (content? fuel rest).map fun (content, rest) => (content.map (character :: ·), rest) := by
  rw [content?, if_neg (by decide), if_pos rfl, found]
  · cases content? fuel rest <;> rfl
  · exact other

/-- A control character is read from the four digits that it is written with. -/
theorem content?_control {character : Char} (fuel : Nat) (rest : List Char)
    (control : character.toNat < 32) :
    content? (fuel + 1) ('\x5c' :: 'u' :: '0' :: '0' :: Hex.digit (character.toNat / 16) ::
        Hex.digit (character.toNat % 16) :: rest) =
      (content? fuel rest).map fun (content, rest) => (content.map (character :: ·), rest) := by
  have unit : codeUnit? ('0' :: '0' :: Hex.digit (character.toNat / 16) ::
      Hex.digit (character.toNat % 16) :: rest) = some (character.toNat, rest) := by
    have zero : Hex.value? '0' = some 0 := by decide
    rw [codeUnit?, zero, Hex.value_digit (by omega), Hex.value_digit (by omega)]
    show some (((0 * 16 + 0) * 16 + character.toNat / 16) * 16 + character.toNat % 16, rest) = _
    rw [show ((0 * 16 + 0) * 16 + character.toNat / 16) * 16 + character.toNat % 16 =
      character.toNat by omega]
  have noLead : isLeading character.toNat = false := by
    unfold isLeading
    rw [decide_eq_false (by omega), Bool.false_and]
  have noTrail : isTrailing character.toNat = false := by
    unfold isTrailing
    rw [decide_eq_false (by omega), Bool.false_and]
  rw [content?, if_neg (by decide), if_pos rfl]
  simp only [unit, Option.bind_eq_bind, Option.bind_some, noLead, noTrail, Bool.false_eq_true,
    if_false, Char.ofNat_toNat]
  cases content? fuel rest <;> rfl

/-- A character that is written as it is. -/
theorem content?_plain {character : Char} (fuel : Nat) (rest : List Char)
    (noMark : character ≠ '\x22') (noSlash : character ≠ '\x5c') (plain : ¬ character.toNat < 32) :
    content? (fuel + 1) (character :: rest) =
      (content? fuel rest).map fun (content, rest) => (content.map (character :: ·), rest) := by
  rw [content?.eq_def]
  dsimp only
  rw [if_neg noMark, if_neg noSlash, if_neg plain]
  cases content? fuel rest <;> rfl

/-- Whatever a character is written as, it is read back and put before what comes next. -/
theorem content?_escape (character : Char) (fuel : Nat) (rest : List Char) :
    content? (fuel + 1) (escape character ++ rest) =
      (content? fuel rest).map fun (content, rest) => (content.map (character :: ·), rest) := by
  unfold escape
  by_cases mark : character = '\x22'
  · rw [if_pos mark, mark]
    exact content?_letter fuel rest (by decide) rfl
  rw [if_neg mark]
  by_cases slash : character = '\x5c'
  · rw [if_pos slash, slash]
    exact content?_letter fuel rest (by decide) rfl
  rw [if_neg slash]
  split
  next same => exact same ▸ content?_letter fuel rest (by decide) rfl
  split
  next same => exact same ▸ content?_letter fuel rest (by decide) rfl
  split
  next same => exact same ▸ content?_letter fuel rest (by decide) rfl
  split
  next same => exact same ▸ content?_letter fuel rest (by decide) rfl
  split
  next same => exact same ▸ content?_letter fuel rest (by decide) rfl
  split
  next control => exact content?_control fuel rest control
  next plain => exact content?_plain fuel rest mark slash plain

/-- **A text is read up to its closing mark**, whatever its characters are. -/
theorem content?_flatMap (content : List Char) {fuel : Nat} (rest : List Char)
    (enough : content.length < fuel) :
    content? fuel (content.flatMap escape ++ '\x22' :: rest) = some (some content, rest) := by
  induction content generalizing fuel with
  | nil =>
    obtain ⟨fuel, rfl⟩ := Nat.exists_eq_succ_of_ne_zero (by omega : fuel ≠ 0)
    rfl
  | cons character others hypothesis =>
    obtain ⟨fuel, rfl⟩ := Nat.exists_eq_succ_of_ne_zero (by omega : fuel ≠ 0)
    rw [List.flatMap_cons, List.append_assoc, content?_escape,
      hypothesis (Nat.lt_of_succ_lt_succ enough)]
    rfl

theorem escape_ne_nil (character : Char) : escape character ≠ [] := by
  unfold escape
  repeat' split
  all_goals exact List.cons_ne_nil _ _

theorem length_le_flatMap (content : List Char) :
    content.length ≤ (content.flatMap escape).length := by
  induction content with
  | nil => exact Nat.le_refl _
  | cons character others hypothesis =>
    have written := List.length_pos_iff.mpr (escape_ne_nil character)
    rw [List.flatMap_cons, List.length_append, List.length_cons]
    omega

/-- A string is read back after its opening mark. -/
theorem string?_quoted (content : String) (rest : List Char) :
    string? (content.toList.flatMap escape ++ '\x22' :: rest) = some (some content, rest) := by
  have long := length_le_flatMap content.toList
  rw [string?, content?_flatMap content.toList rest
    (by rw [List.length_append]; omega)]
  show some (some (String.ofList content.toList), rest) = _
  rw [String.ofList_toList]

/-! ### Numbers -/

/-- What may come after a document: a comma, a closing bracket or brace, or nothing. -/
def Ends (rest : List Char) : Prop :=
  rest = [] ∨ ∃ mark others, rest = mark :: others ∧ (mark = ',' ∨ mark = ']' ∨ mark = '\x7d')

theorem Ends.comma (rest : List Char) : Ends (',' :: rest) := .inr ⟨_, _, rfl, .inl rfl⟩

theorem Ends.bracket (rest : List Char) : Ends (']' :: rest) := .inr ⟨_, _, rfl, .inr (.inl rfl)⟩

theorem Ends.brace (rest : List Char) : Ends ('\x7d' :: rest) :=
  .inr ⟨_, _, rfl, .inr (.inr rfl)⟩

/-- Nothing after a document is taken for a part of a number. -/
theorem Ends.parts {rest : List Char} (ends : Ends rest) :
    (rest.head?.map Char.isDigit).getD false = false ∧ fraction? rest = some ([], rest) ∧
      exponent? rest = some ([], rest) := by
  rcases ends with rfl | ⟨mark, others, rfl, rfl | rfl | rfl⟩
  · exact ⟨rfl, rfl, rfl⟩
  all_goals exact ⟨rfl, rfl, rfl⟩

/-- The digits of a numeral are all the digits at the front. -/
theorem Ends.numeral {numeral rest : List Char} (ends : Ends rest)
    (digits : ∀ character ∈ numeral, character.isDigit = true) :
    (numeral ++ rest).takeWhile Char.isDigit = numeral ∧
      (numeral ++ rest).dropWhile Char.isDigit = rest := by
  rw [List.takeWhile_append_of_pos digits, List.dropWhile_append_of_pos digits]
  obtain ⟨noDigit, -, -⟩ := ends.parts
  cases rest with
  | nil => exact ⟨List.append_nil _, rfl⟩
  | cons first others =>
    have other : ¬ first.isDigit = true := by
      rw [show first.isDigit = false from noDigit]
      exact Bool.false_ne_true
    rw [List.takeWhile_cons_of_neg other, List.dropWhile_cons_of_neg other, List.append_nil]
    exact ⟨rfl, rfl⟩

/-- The numeral of a number is read as the integral part of one. -/
theorem integral?_digits (number : Nat) {rest : List Char} (ends : Ends rest) :
    integral? (Decimal.digits number ++ rest) = some (Decimal.digits number, rest) := by
  obtain ⟨noDigit, -, -⟩ := ends.parts
  obtain ⟨taken, left⟩ := ends.numeral fun _ digit => Decimal.isDigit_of_mem_digits digit
  have filled : (Decimal.digits number).isEmpty = false :=
    List.isEmpty_eq_false_iff.mpr Nat.toDigits_ne_nil
  rw [integral?.eq_def]
  split
  next tail zero =>
    obtain ⟨first, others, front, -⟩ := Decimal.digits_cons number
    have isZero : number = 0 := by
      rw [front, List.cons_append, List.cons.injEq] at zero
      exact Decimal.eq_zero_of_digits (front.trans (by rw [zero.1]))
    have written : Decimal.digits number = ['0'] := by rw [isZero]; rfl
    rw [written] at zero ⊢
    cases zero
    show (if (rest.head?.map Char.isDigit).getD false = true then none else _) = _
    rw [noDigit]
    rfl
  next =>
    dsimp only
    rw [taken, left, filled]
    rfl

/-- **An integer is read back.** -/
theorem number?_signed (value : Int) {rest : List Char} (ends : Ends rest) :
    number? (Decimal.signed value ++ rest) = some (.integer value, rest) := by
  obtain ⟨-, fraction, exponent⟩ := ends.parts
  have whole := integral?_digits value.natAbs ends
  have size := Decimal.value_digits value.natAbs
  unfold Decimal.signed
  split
  next negative =>
    have notZero : (Decimal.digits value.natAbs != ['0']) = true := by
      refine bne_iff_ne.mpr fun same => ?_
      have := Decimal.eq_zero_of_digits same
      omega
    rw [number?.eq_def]
    simp only [List.cons_append, Option.bind_eq_bind, whole, fraction, exponent, Option.bind_some,
      List.isEmpty_nil, List.isEmpty_cons, Bool.and_self, Bool.false_or, notZero, if_true, size,
      Bool.false_eq_true, if_false]
    rw [show (-(value.natAbs : Int)) = value by omega]
    rfl
  next positive =>
    have unsigned : ∀ others, Decimal.digits value.natAbs ++ rest ≠ '-' :: others := by
      intro others same
      obtain ⟨first, tail, front, digit⟩ := Decimal.digits_cons value.natAbs
      rw [front, List.cons_append, List.cons.injEq] at same
      rw [same.1] at digit
      exact absurd digit (by decide)
    generalize Decimal.digits value.natAbs ++ rest = characters at whole unsigned
    rw [number?.eq_def]
    split
    next sign others same =>
      split at same
      next tail => exact absurd rfl (unsigned tail)
      next =>
        cases same
        simp only [Option.bind_eq_bind, whole, fraction, exponent, Option.bind_some,
          List.isEmpty_nil, Bool.and_self, Bool.true_or, if_true, size]
        rw [show ((value.natAbs : Nat) : Int) = value by omega]
        rfl

/-! ### Documents -/

mutual

/-- All texts and names of a document have characters, and all its numbers are integers. -/
def Plain : Json → Prop
  | .null => True
  | .bool _ => True
  | .integer _ => True
  | .number _ => False
  | .string content => content.isSome = true
  | .array elements => PlainElements elements
  | .object members => PlainMembers members

/-- So is each of some documents. -/
def PlainElements : List Json → Prop
  | [] => True
  | first :: rest => first.Plain ∧ PlainElements rest

/-- So is each of some members, with its name. -/
def PlainMembers : List (Option String × Json) → Prop
  | [] => True
  | (name, value) :: rest => name.isSome = true ∧ value.Plain ∧ PlainMembers rest

end

theorem skipSpaces_cons {character : Char} {rest : List Char} (mark : isSpace character = false) :
    skipSpaces (character :: rest) = character :: rest :=
  List.dropWhile_cons_of_neg (by rw [mark]; exact Bool.false_ne_true)

/-- The numeral of an integer begins with a sign or a digit. -/
theorem signed_cons (value : Int) : ∃ mark others, Decimal.signed value = mark :: others ∧
    (mark = '-' ∨ mark.isDigit = true) := by
  unfold Decimal.signed
  split
  · exact ⟨'-', _, rfl, .inl rfl⟩
  · obtain ⟨first, others, front, digit⟩ := Decimal.digits_cons value.natAbs
    exact ⟨first, others, front, .inr digit⟩

section

variable {mark : Char} (number : mark = '-' ∨ mark.isDigit = true)

include number

theorem ne_of_number {character : Char} (unsigned : character ≠ '-')
    (noDigit : character.isDigit = false) : mark ≠ character := by
  rintro rfl
  rcases number with sign | digit
  · exact unsigned sign
  · rw [noDigit] at digit
    cases digit

theorem isSpace_of_number : isSpace mark = false := by
  unfold isSpace
  simp only [Bool.or_eq_false_iff, decide_eq_false_iff_not]
  refine ⟨⟨⟨?_, ?_⟩, ?_⟩, ?_⟩ <;> exact ne_of_number number (by decide) (by decide)

/-- A sign or a digit begins nothing but a number. -/
theorem value?_number (fuel : Nat) (others : List Char) :
    value? (fuel + 1) (mark :: others) = number? (mark :: others) := by
  rw [value?, skipSpaces_cons (isSpace_of_number number)]
  split
  next same => exact absurd (List.cons.inj same).1 (ne_of_number number (by decide) (by decide))
  next same => exact absurd (List.cons.inj same).1 (ne_of_number number (by decide) (by decide))
  next same => exact absurd (List.cons.inj same).1 (ne_of_number number (by decide) (by decide))
  next same => exact absurd (List.cons.inj same).1 (ne_of_number number (by decide) (by decide))
  next same => exact absurd (List.cons.inj same).1 (ne_of_number number (by decide) (by decide))
  next same => exact absurd (List.cons.inj same).1 (ne_of_number number (by decide) (by decide))
  next => rfl

end

/-- A document begins with no blank and with no closing bracket. -/
theorem print_cons {json : Json} (plain : json.Plain) : ∃ mark others,
    json.print = mark :: others ∧ isSpace mark = false ∧ mark ≠ ']' := by
  cases json with
  | null => exact ⟨_, _, rfl, rfl, by decide⟩
  | bool value => cases value <;> exact ⟨_, _, rfl, rfl, by decide⟩
  | integer value =>
    obtain ⟨mark, others, written, number⟩ := signed_cons value
    exact ⟨mark, others, written, isSpace_of_number number,
      ne_of_number number (by decide) (by decide)⟩
  | number written => exact absurd plain id
  | string content => exact ⟨_, _, rfl, rfl, by decide⟩
  | array elements => cases elements <;> exact ⟨_, _, rfl, rfl, by decide⟩
  | object members => cases members <;> exact ⟨_, _, rfl, rfl, by decide⟩

theorem length_print_pos {json : Json} (plain : json.Plain) : 0 < json.print.length := by
  obtain ⟨mark, others, begins, -, -⟩ := print_cons plain
  rw [begins]
  exact Nat.succ_pos _

/-- What comes after an element or a member ends it. -/
theorem ends_printElements (elements : List Json) (rest : List Char) :
    Ends (printElements elements ++ rest) := by
  cases elements with
  | nil => exact .bracket rest
  | cons first others => exact .comma _

theorem ends_printMembers (members : List (Option String × Json)) (rest : List Char) :
    Ends (printMembers members ++ rest) := by
  cases members with
  | nil => exact .brace rest
  | cons first others => exact .comma _

/-- An array with elements is read like them. -/
theorem value?_array (fuel : Nat) {first : Json} (plain : first.Plain) (more : List Char) :
    value? (fuel + 1) ('[' :: (first.print ++ more)) =
      (elements? fuel (first.print ++ more)).map fun (elements, rest) =>
        (.array elements, rest) := by
  obtain ⟨mark, others, begins, noSpace, noBracket⟩ := print_cons plain
  rw [value?, skipSpaces_cons rfl, begins, List.cons_append]
  split
  next rest same =>
    obtain rfl := (List.cons.inj same).2
    rw [skipSpaces_cons noSpace]
    split
    next same => exact absurd (List.cons.inj same).1 noBracket
    next => cases elements? fuel (mark :: (others ++ more)) <;> rfl
  next same => exact absurd (List.cons.inj same).1 (by decide)
  next same => exact absurd (List.cons.inj same).1 (by decide)
  next same => exact absurd (List.cons.inj same).1 (by decide)
  next same => exact absurd (List.cons.inj same).1 (by decide)
  next same => exact absurd (List.cons.inj same).1 (by decide)
  next bracket _ _ _ _ _ => exact (bracket _ rfl).elim

/-- An object with members is read like them. -/
theorem value?_object (fuel : Nat) (more : List Char) :
    value? (fuel + 1) ('\x7b' :: '\x22' :: more) =
      (members? fuel ('\x22' :: more)).map fun (members, rest) => (.object members, rest) := by
  show (do
    let (members, rest) ← members? fuel ('\x22' :: more)
    return (object members, rest)) = _
  cases members? fuel ('\x22' :: more) <;> rfl

/-- A text is read after its opening mark. -/
theorem value?_string (fuel : Nat) (more : List Char) :
    value? (fuel + 1) ('\x22' :: more) =
      (string? more).map fun (content, rest) => (.string content, rest) := by
  show (do
    let (content, rest) ← string? more
    return (string content, rest)) = _
  cases string? more <;> rfl

section

variable {fuel : Nat} (name : String) {more rest : List Char} {value : Json}

/-- A member is read after its name: the last one before the closing brace, -/
theorem members?_last (read : value? fuel more = some (value, '\x7d' :: rest)) :
    members? (fuel + 1) ('\x22' :: (name.toList.flatMap escape ++ '\x22' :: ':' :: more)) =
      some ([(some name, value)], rest) := by
  refine Option.bind_eq_some_iff.mpr ⟨_, string?_quoted name _, ?_⟩
  exact Option.bind_eq_some_iff.mpr ⟨_, read, rfl⟩

/-- and every other before a comma and those after it. -/
theorem members?_more {others : List (Option String × Json)} {last : List Char}
    (read : value? fuel more = some (value, ',' :: rest))
    (following : members? fuel rest = some (others, last)) :
    members? (fuel + 1) ('\x22' :: (name.toList.flatMap escape ++ '\x22' :: ':' :: more)) =
      some ((some name, value) :: others, last) := by
  refine Option.bind_eq_some_iff.mpr ⟨_, string?_quoted name _, ?_⟩
  refine Option.bind_eq_some_iff.mpr ⟨_, read, ?_⟩
  exact Option.bind_eq_some_iff.mpr ⟨_, following, rfl⟩

end

mutual

/-- **A document is read up to its end.** The reader needs no more steps than it has characters. -/
theorem value?_print (fuel : Nat) (json : Json) (plain : json.Plain) {rest : List Char}
    (enough : json.print.length ≤ fuel) (ends : Ends rest) :
    value? fuel (json.print ++ rest) = some (json, rest) := by
  have long := length_print_pos plain
  cases fuel with
  | zero => omega
  | succ fuel =>
    cases json with
    | null => rfl
    | bool value => cases value <;> rfl
    | integer value =>
      obtain ⟨mark, others, written, number⟩ := signed_cons value
      have read := number?_signed value ends
      rw [print]
      rw [written, List.cons_append] at read ⊢
      rw [value?_number number, read]
    | number written => exact absurd plain id
    | string content =>
      obtain ⟨content, rfl⟩ := Option.isSome_iff_exists.mp plain
      rw [print, quotedText, quoted, Option.getD_some, List.cons_append, List.cons_append,
        List.append_assoc, List.singleton_append, value?_string, string?_quoted]
      rfl
    | array elements =>
      cases elements with
      | nil => rfl
      | cons first others =>
        simp only [print, List.cons_append, List.length_cons, Nat.add_le_add_iff_right] at enough
        have read := elements?_print fuel first others rest plain enough
        rw [print, List.cons_append, List.cons_append, List.append_assoc,
          value?_array fuel plain.1, read]
        rfl
    | object members =>
      cases members with
      | nil => rfl
      | cons member others =>
        obtain ⟨name, value⟩ := member
        obtain ⟨name, rfl⟩ := Option.isSome_iff_exists.mp plain.1
        have short : (value.print ++ printMembers others).length ≤ fuel := by
          simp only [print, List.cons_append, List.append_assoc, List.length_cons,
            List.length_append] at enough ⊢
          omega
        have read := members?_print fuel name value others rest plain short
        rw [print, quotedText, Option.getD_some]
        simp only [quoted, List.cons_append, List.append_assoc, List.nil_append]
        rw [value?_object, read]
        rfl

/-- The elements of an array are read up to its closing bracket. -/
theorem elements?_print (fuel : Nat) (first : Json) (others : List Json) (rest : List Char)
    (plain : PlainElements (first :: others))
    (enough : (first.print ++ printElements others).length ≤ fuel) :
    elements? fuel (first.print ++ (printElements others ++ rest)) = some (first :: others, rest) := by
  rw [List.length_append] at enough
  have long := length_print_pos plain.1
  cases fuel with
  | zero => omega
  | succ fuel =>
    have read := fun short =>
      value?_print fuel first plain.1 short (ends_printElements others rest)
    cases others with
    | nil =>
      rw [elements?, read (by simpa [printElements] using enough)]
      rfl
    | cons second more =>
      simp only [printElements, List.cons_append, List.length_cons] at enough
      have following := elements?_print fuel second more rest plain.2 (by omega)
      rw [elements?, read (by omega), printElements, List.cons_append, List.cons_append,
        List.append_assoc]
      show (do
        let (others, rest) ← elements? fuel _
        return (first :: others, rest)) = _
      rw [following]
      rfl

/-- The members of an object are read up to its closing brace. -/
theorem members?_print (fuel : Nat) (name : String) (value : Json)
    (others : List (Option String × Json)) (rest : List Char)
    (plain : PlainMembers ((some name, value) :: others))
    (enough : (value.print ++ printMembers others).length ≤ fuel) :
    members? fuel ('\x22' :: (name.toList.flatMap escape ++
        '\x22' :: ':' :: (value.print ++ (printMembers others ++ rest)))) =
      some ((some name, value) :: others, rest) := by
  rw [List.length_append] at enough
  have long := length_print_pos plain.2.1
  cases fuel with
  | zero => omega
  | succ fuel =>
    have read := fun short =>
      value?_print fuel value plain.2.1 short (ends_printMembers others rest)
    cases others with
    | nil => exact members?_last name (read (by simpa [printMembers] using enough))
    | cons member more =>
      obtain ⟨second, next⟩ := member
      obtain ⟨second, rfl⟩ := Option.isSome_iff_exists.mp plain.2.2.1
      simp only [printMembers, List.cons_append, List.append_assoc, List.length_cons,
        List.length_append] at enough
      have following := members?_print fuel second next more rest plain.2.2 (by
        rw [List.length_append]
        omega)
      have here := read (by omega)
      simp only [printMembers, quotedText, quoted, Option.getD_some, List.cons_append,
        List.append_assoc, List.nil_append] at following here ⊢
      exact members?_more name here following

end

/-- **A plain document is read back from its text.** -/
theorem ofText?_toText {json : Json} (plain : json.Plain) : ofText? json.toText = some json := by
  have read : value? (2 * json.print.length + 2) (json.print ++ []) = some (json, []) :=
    value?_print _ json plain (by omega) (.inl rfl)
  rw [List.append_nil] at read
  rw [ofText?, toText, String.toList_ofList, ofChars?, read]
  rfl

end Json

end Curation
