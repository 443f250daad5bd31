/-
**Types with finitely many values, all listed.** Statements about every value of such a type are
decided by going through the list, and so is the equality of two functions on it.

* `Enumerated.decidableForall`: a decidable property is decided for all values at once;
* `Enumerated.total?`: values found one by one make a function, unless one of them is missing.
-/

namespace Curation

/-- A type whose values are all listed. -/
class Enumerated (α : Type) where
  all : List α
  mem_all : ∀ value, value ∈ all

namespace Enumerated

variable {α : Type} [Enumerated α]

instance decidableForall (property : α → Prop) [DecidablePred property] :
    Decidable (∀ value, property value) :=
  decidable_of_iff (∀ value ∈ all, property value)
    ⟨fun holds value => holds value (mem_all value), fun holds value _ => holds value⟩

/-- Functions on a listed type are equal when they agree on the list. -/
def decideFunctionEq {β : α → Type} [∀ value, DecidableEq (β value)]
    (first second : (value : α) → β value) : Decidable (first = second) :=
  decidable_of_iff (∀ value, first value = second value)
    ⟨funext, fun same value => congrFun same value⟩

/-- The function with the given values, if none of them is missing. -/
def total? {β : α → Type} (value? : (value : α) → Option (β value)) :
    Option ((value : α) → β value) :=
  if found : ∀ value, (value? value).isSome = true then
    some fun value => (value? value).get (found value)
  else none

theorem total?_some {β : α → Type} (function : (value : α) → β value) :
    total? (fun value => some (function value)) = some function := by
  simp [total?]

end Enumerated

end Curation
