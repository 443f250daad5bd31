/-
**Stable sorting.** Rows with equal keys stay in the order in which they came.

* `perm_sortBy`, `mem_sortBy`: sorting loses and adds nothing;
* `pairwise_sortBy`: the result is in order.
-/

namespace Curation

variable {α : Type}

/-- Puts a value before the first one that it does not follow. -/
def insertBy (before : α → α → Bool) (value : α) : List α → List α
  | [] => [value]
  | first :: rest =>
    if before value first then value :: first :: rest
    else first :: insertBy before value rest

/-- Sorts a list; `before first second` says that `first` may stand before `second`. -/
def sortBy (before : α → α → Bool) : List α → List α
  | [] => []
  | first :: rest => insertBy before first (sortBy before rest)

theorem perm_insertBy (before : α → α → Bool) (value : α) (values : List α) :
    (insertBy before value values).Perm (value :: values) := by
  induction values with
  | nil => exact .refl _
  | cons first rest hypothesis =>
    rw [insertBy]
    split
    · exact .refl _
    · exact (hypothesis.cons first).trans (.swap value first rest)

theorem perm_sortBy (before : α → α → Bool) (values : List α) :
    (sortBy before values).Perm values := by
  induction values with
  | nil => exact .refl _
  | cons first rest hypothesis => exact (perm_insertBy before first _).trans (hypothesis.cons first)

theorem mem_insertBy {before : α → α → Bool} {value other : α} {values : List α} :
    other ∈ insertBy before value values ↔ other = value ∨ other ∈ values := by
  induction values with
  | nil => simp [insertBy]
  | cons first rest hypothesis =>
    rw [insertBy]
    split
    · simp
    · simp only [List.mem_cons, hypothesis]
      constructor
      · rintro (same | same | member)
        · exact .inr (.inl same)
        · exact .inl same
        · exact .inr (.inr member)
      · rintro (same | same | member)
        · exact .inr (.inl same)
        · exact .inl same
        · exact .inr (.inr member)

theorem mem_sortBy {before : α → α → Bool} {value : α} {values : List α} :
    value ∈ sortBy before values ↔ value ∈ values := by
  induction values with
  | nil => simp [sortBy]
  | cons first rest hypothesis => rw [sortBy, mem_insertBy, hypothesis, List.mem_cons]

theorem pairwise_sortBy {before : α → α → Bool}
    (total : ∀ first second, before first second = true ∨ before second first = true)
    (trans : ∀ first second third, before first second = true → before second third = true →
      before first third = true) (values : List α) :
    (sortBy before values).Pairwise fun first second => before first second = true := by
  have inserted : ∀ (value : α) (sorted : List α),
      sorted.Pairwise (fun first second => before first second = true) →
      (insertBy before value sorted).Pairwise fun first second => before first second = true := by
    intro value sorted ordered
    induction sorted with
    | nil => simp [insertBy]
    | cons first rest hypothesis =>
      obtain ⟨least, ordered⟩ := List.pairwise_cons.mp ordered
      rw [insertBy]
      split
      next early =>
        refine List.pairwise_cons.mpr ⟨?_, List.pairwise_cons.mpr ⟨least, ordered⟩⟩
        intro other member
        rcases List.mem_cons.mp member with rfl | member
        · exact early
        · exact trans _ _ _ early (least _ member)
      next late =>
        refine List.pairwise_cons.mpr ⟨?_, hypothesis ordered⟩
        intro other member
        rcases mem_insertBy.mp member with rfl | member
        · exact (total first other).resolve_right late
        · exact least _ member
  induction values with
  | nil => exact List.Pairwise.nil
  | cons first rest hypothesis => exact inserted first _ hypothesis

end Curation
