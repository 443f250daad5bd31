/-
**Writes to the catalogue.** The tables of a store fall into two parts: the catalogue, which edits are
applied to, and the review. Applying an edit is a sequence of primitive writes to the catalogue, and
neither its success nor what it writes depends on the review.

* `Store.graft`: the catalogue of one store beside the review of another;
* `Store.Written`: a store that primitive writes make of another;
* `Store.IsWrite`: what a sequence of such writes satisfies, and how sequences are put together;
* `Edit.apply_graft`, `Edit.apply_written`: applying an edit is one.
-/

import Curation.Proofs.Steps

namespace Curation.Store

/-! ### The two parts of a store -/

/-- The catalogue of one store beside the review of another. -/
def graft (store review : Store) : Store :=
  { review with
    entities := store.entities
    fields := store.fields
    members := store.members
    edges := store.edges
    redirects := store.redirects }

@[simp] theorem graft_self (store : Store) : store.graft store = store := rfl

/-- Two stores hold the same catalogue. -/
def SameCatalogue (first second : Store) : Prop := second = first.graft second

namespace SameCatalogue

variable {first second third : Store}

theorem refl (store : Store) : store.SameCatalogue store := rfl

theorem graft (store review : Store) : store.SameCatalogue (store.graft review) := rfl

theorem trans (left : first.SameCatalogue second) (right : second.SameCatalogue third) :
    first.SameCatalogue third := by
  show third = first.graft third
  rw [right, left]
  rfl

end SameCatalogue

/-! ### Sequences of primitive writes -/

/-- Primitive writes to the catalogue make one store of another. -/
inductive Written (before : Store) : Store → Prop where
  | keep : Written before before
  | insertEntity {store after : Store} (id : EntityId) (kind : Kind) (now : Instant)
      (earlier : Written before store) (done : store.insertEntity id kind now = .ok after) :
      Written before after
  | touchEntity {store : Store} (id : EntityId) (now : Instant) (earlier : Written before store) :
      Written before (store.touchEntity id now)
  | tombstoneEntity {store after : Store} (id : EntityId) (now : Instant)
      (earlier : Written before store) (done : store.tombstoneEntity id now = .ok after) :
      Written before after
  | setField {store after : Store} (entity : EntityId) (key : String) (value : Value)
      (earlier : Written before store) (done : store.setField entity key value = .ok after) :
      Written before after
  | clearField {store : Store} (entity : EntityId) (key : String) (earlier : Written before store) :
      Written before (store.clearField entity key)
  | addMember {store after : Store} {isNew : Bool} (entity : EntityId) (list : String)
      (value : Value) (earlier : Written before store)
      (done : store.addMember entity list value = .ok (isNew, after)) : Written before after
  | removeMember {store : Store} (entity : EntityId) (list : String) (value : Value)
      (earlier : Written before store) : Written before (store.removeMember entity list value).2
  | insertEdge {store after : Store} {isNew : Bool} (association : Association)
      (source target : EntityId) (credit : Option String) (earlier : Written before store)
      (done : store.insertEdge association source target credit = .ok (isNew, after)) :
      Written before after
  | deleteEdge {store : Store} (association : Association) (source target : EntityId)
      (earlier : Written before store) : Written before (store.deleteEdge association source target).2
  | setCredit {store : Store} (association : Association) (source target : EntityId)
      (credit : Option String) (earlier : Written before store) :
      Written before (store.setCredit association source target credit)
  | repointEdges {store after : Store} {moved : Nat} (association : Association)
      (origin destination : EntityId) (earlier : Written before store)
      (done : store.repointEdges association origin destination = .ok (moved, after)) :
      Written before after
  | insertRedirect {store after : Store} (source target : EntityId) (now : Instant)
      (earlier : Written before store) (done : store.insertRedirect source target now = .ok after) :
      Written before after

theorem Written.trans {first second third : Store} (left : first.Written second)
    (right : second.Written third) : first.Written third := by
  induction right with
  | keep => exact left
  | insertEntity id kind now _ done hypothesis => exact .insertEntity id kind now hypothesis done
  | touchEntity id now _ hypothesis => exact .touchEntity id now hypothesis
  | tombstoneEntity id now _ done hypothesis => exact .tombstoneEntity id now hypothesis done
  | setField entity key value _ done hypothesis => exact .setField entity key value hypothesis done
  | clearField entity key _ hypothesis => exact .clearField entity key hypothesis
  | addMember entity list value _ done hypothesis =>
    exact .addMember entity list value hypothesis done
  | removeMember entity list value _ hypothesis => exact .removeMember entity list value hypothesis
  | insertEdge association source target credit _ done hypothesis =>
    exact .insertEdge association source target credit hypothesis done
  | deleteEdge association source target _ hypothesis =>
    exact .deleteEdge association source target hypothesis
  | setCredit association source target credit _ hypothesis =>
    exact .setCredit association source target credit hypothesis
  | repointEdges association origin destination _ done hypothesis =>
    exact .repointEdges association origin destination hypothesis done
  | insertRedirect source target now _ done hypothesis =>
    exact .insertRedirect source target now hypothesis done

/-! ### Putting writes together -/

/-- A write to the catalogue: it is made of primitive writes and blind to the review. -/
structure IsWrite {ε : Type} (write : Store → Except ε Store) : Prop where
  blind : ∀ store review : Store,
    write (store.graft review) = (write store).map fun after => after.graft review
  written : ∀ {store after : Store}, write store = .ok after → store.Written after

namespace IsWrite

variable {ε α : Type} {first second : Store → Except ε Store}

theorem keep : IsWrite (ε := ε) fun store => .ok store where
  blind _ _ := rfl
  written done := by
    cases done
    exact .keep

theorem bind (left : IsWrite first) (right : IsWrite second) :
    IsWrite fun store => first store >>= second where
  blind store review := by
    show first (store.graft review) >>= second = Except.map _ (first store >>= second)
    rw [left.blind]
    cases first store with
    | ok middle => exact right.blind middle review
    | error error => rfl
  written done := by
    obtain ⟨middle, early, late⟩ := Except.bind_ok.mp done
    exact (left.written early).trans (right.written late)

/-- A write after one that cannot fail. -/
theorem after {early : Store → Store} {late : Store → Except ε Store}
    (left : IsWrite (ε := ε) fun store => .ok (early store)) (right : IsWrite late) :
    IsWrite fun store => late (early store) :=
  bind left right

/-- A check of the catalogue before a write. -/
theorem check {β : Type} {test : Store → Except ε β} {write : Store → Except ε Store}
    (blind : ∀ store review : Store, test (store.graft review) = test store)
    (next : IsWrite write) : IsWrite fun store => test store >>= fun _ => write store where
  blind store review := by
    show test (store.graft review) >>= (fun _ => write (store.graft review)) =
      Except.map _ (test store >>= fun _ => write store)
    rw [blind]
    cases test store with
    | ok value => exact next.blind store review
    | error error => rfl
  written done := by
    obtain ⟨_, _, late⟩ := Except.bind_ok.mp done
    exact next.written late

/-- A write that depends on something read from the catalogue. -/
theorem look {write : α → Store → Except ε Store} (view : Store → α)
    (blind : ∀ store review : Store, view (store.graft review) = view store)
    (each : ∀ value, IsWrite (write value)) : IsWrite fun store => write (view store) store where
  blind store review := by
    show write (view (store.graft review)) (store.graft review) = _
    rw [blind]
    exact (each _).blind store review
  written done := (each _).written done

theorem ite {condition : Prop} [Decidable condition] (yes : IsWrite first) (no : IsWrite second) :
    IsWrite fun store => if condition then first store else second store := by
  by_cases holds : condition
  · simpa only [if_pos holds] using yes
  · simpa only [if_neg holds] using no

theorem foldlM {write : Store → α → Except ε Store}
    (each : ∀ value, IsWrite fun store => write store value) (values : List α) :
    IsWrite fun store => values.foldlM write store := by
  induction values with
  | nil => exact keep
  | cons value rest hypothesis =>
    simp only [List.foldlM_cons]
    exact bind (each value) hypothesis

/-- Writes that cannot fail, one after the other. -/
theorem foldl {write : Store → α → Store}
    (each : ∀ value, IsWrite (ε := ε) fun store => .ok (write store value)) (values : List α) :
    IsWrite (ε := ε) fun store => .ok (values.foldl write store) := by
  induction values with
  | nil => exact keep
  | cons value rest hypothesis =>
    have both := after (each value) hypothesis
    exact both

/-- Writes for each of the rows that a look at the catalogue gives. -/
theorem foldlMOver {rows : Store → List α} {write : Store → α → Except ε Store}
    (blind : ∀ store review : Store, rows (store.graft review) = rows store)
    (each : ∀ value, IsWrite fun store => write store value) :
    IsWrite fun store => (rows store).foldlM write store := by
  have overList := foldlM each
  exact look rows blind overList

/-- Writes that cannot fail for each of the rows that a look at the catalogue gives. -/
theorem foldlOver {rows : Store → List α} {write : Store → α → Store}
    (blind : ∀ store review : Store, rows (store.graft review) = rows store)
    (each : ∀ value, IsWrite (ε := ε) fun store => .ok (write store value)) :
    IsWrite (ε := ε) fun store => .ok ((rows store).foldl write store) := by
  have overList := foldl each
  exact look rows blind overList

theorem lift {write : Store → Except StoreError Store} (isWrite : IsWrite write) :
    IsWrite fun store => Store.lift (write store) where
  blind store review := by
    show Store.lift (write (store.graft review)) = _
    rw [isWrite.blind]
    cases write store <;> rfl
  written done := isWrite.written (Store.lift_ok.mp done)

end IsWrite

end Curation.Store
