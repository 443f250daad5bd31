/-
**Blank characters.** A character is blank when Unicode gives it the property `White_Space`. Names,
comments and settings are judged after their surrounding blanks are dropped.
-/

namespace Curation.Text

/-- The code points with the Unicode property `White_Space`. -/
def isBlankCode (code : Nat) : Bool :=
  (0x09 ≤ code && code ≤ 0x0D) || code == 0x20 || code == 0x85 || code == 0xA0 ||
    code == 0x1680 || (0x2000 ≤ code && code ≤ 0x200A) || code == 0x2028 || code == 0x2029 ||
    code == 0x202F || code == 0x205F || code == 0x3000

/-- A character is blank when its code point has the property `White_Space`. -/
def isBlank (character : Char) : Bool := isBlankCode character.toNat

/-- The characters after the leading blanks. -/
def dropBlanks (characters : List Char) : List Char := characters.dropWhile isBlank

/-- The characters between the leading and the trailing blanks. -/
def trimChars (characters : List Char) : List Char :=
  (dropBlanks (dropBlanks characters).reverse).reverse

/-- A text without its leading and trailing blanks. -/
def trim (text : String) : String := String.ofList (trimChars text.toList)

/-- A text is void when nothing is left of it between the blanks. -/
def isVoid (text : String) : Bool := (trimChars text.toList).isEmpty

end Curation.Text
