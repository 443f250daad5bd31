/-
**Closed vocabularies.** A vocabulary is a listed type whose values are written as distinct words.

* `Word.ofText?_text`: the text of a word is read as that word;
* `Word.text_of_ofText?`: no other text is read as it.
-/

import Curation.Enumerated

namespace Curation

/-- A type of words, each with a text of its own, and the name of the vocabulary. -/
class Word (α : Type) extends Enumerated α where
  title : String
  text : α → String
  text_inj : ∀ first second, text first = text second → first = second

namespace Word

variable {α : Type} [Word α]

/-- The word with the given text. -/
def ofText? (written : String) : Option α :=
  Enumerated.all.find? fun word => text word = written

theorem text_of_ofText? {written : String} {word : α} (found : ofText? written = some word) :
    text word = written := by
  simpa using List.find?_some found

theorem ofText?_text (word : α) : ofText? (text word) = some word := by
  cases found : ofText? (α := α) (text word) with
  | none =>
    have missing := List.find?_eq_none.mp found word (Enumerated.mem_all word)
    simp at missing
  | some other => rw [text_inj _ _ (text_of_ofText? found)]

end Word

end Curation
