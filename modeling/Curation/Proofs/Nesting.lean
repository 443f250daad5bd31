/-
**Savepoints nest.** Whatever is done after a savepoint is set, as long as it stays open, what was on
record and which savepoints were open before can be had back exactly; and releasing it keeps what was
done and forgets it with all that were set within it. Where another savepoint of the same name was set
within it and is still open, that one is meant.

The names are texts that spell one name and nothing else. A comment after the name keeps a savepoint
from being discarded, as `Transaction.commented_staysOpen` shows.

A statement only ever sets a savepoint or closes some of the innermost ones, so an open savepoint is
told by the number of those around it.

* `Transaction.attempt_cases`: what a statement does to the open savepoints;
* `Transaction.pursue_frame`: a savepoint that stays open keeps the savepoints around it;
* `Transaction.pursue_opened`: an open savepoint goes back to the statement that set it;
* `Transaction.savepoints_nest`: what going back and releasing do.
-/

import Curation.Proofs.FailedApplications

namespace Curation.Transaction

variable {transaction : Transaction} {name : SavepointName} {statements : List Statement}

/-! ### Several statements -/

/-- The transaction after some statements, one after the other, of which some may fail. -/
def pursue (transaction : Transaction) (statements : List Statement) : Transaction :=
  statements.foldl (fun reached statement => (reached.attempt statement).2) transaction

theorem pursue_append (transaction : Transaction) (first second : List Statement) :
    transaction.pursue (first ++ second) = (transaction.pursue first).pursue second :=
  List.foldl_append

theorem pursue_concat (transaction : Transaction) (first : List Statement) (last : Statement) :
    transaction.pursue (first ++ [last]) = ((transaction.pursue first).attempt last).2 :=
  List.foldl_append

/-- After a savepoint is set the others go on from there. -/
theorem pursue_savepoint (transaction : Transaction) (first rest : List Statement)
    (name : SavepointName) :
    transaction.pursue (first ++ .savepoint name :: rest) =
      ((transaction.pursue first).savepoint name).pursue rest := by
  rw [pursue_append]
  rfl

/-- While some statements are carried out, at the beginning, in between and at the end, more savepoints
are open than a number: the one with so many around it is not closed. -/
def StaysOpen (transaction : Transaction) (around : Nat) (statements : List Statement) : Prop :=
  ∀ first, first <+: statements → around < (transaction.pursue first).savepoints.length

instance (transaction : Transaction) (around : Nat) (statements : List Statement) :
    Decidable (transaction.StaysOpen around statements) :=
  decidable_of_iff
    (∀ first ∈ statements.inits, around < (transaction.pursue first).savepoints.length)
    (forall_congr' fun _ => imp_congr (List.mem_inits _ _) Iff.rfl)

namespace StaysOpen

variable {around : Nat}

theorem of_append {later : List Statement}
    (stays : transaction.StaysOpen around (statements ++ later)) :
    transaction.StaysOpen around statements :=
  fun first early => stays first (early.trans (List.prefix_append _ _))

/-- It is open at the end. -/
theorem last (stays : transaction.StaysOpen around statements) :
    around < (transaction.pursue statements).savepoints.length :=
  stays statements List.prefix_rfl

/-- One more statement that does not close it. -/
theorem concat {statement : Statement} (stays : transaction.StaysOpen around statements)
    (last : around < (transaction.pursue (statements ++ [statement])).savepoints.length) :
    transaction.StaysOpen around (statements ++ [statement]) := by
  intro first early
  rcases List.prefix_concat_iff.mp early with rfl | earlier
  · exact last
  · exact stays first earlier

theorem nil (stays : around < transaction.savepoints.length) : transaction.StaysOpen around [] := by
  intro first early
  rw [List.prefix_nil.mp early]
  exact stays

end StaysOpen

/-! ### What a statement does to the savepoints -/

/-- A part writes to the store and does nothing else. -/
def Part.Writes (part : Part) : Prop :=
  ∀ (before next : Transaction) (answer : Statement.Answer),
    part before = .ok (answer, next) → ∃ store, next = { before with current := store }

/-- Parts that only write do so together, whether they succeed or not. -/
theorem carry_writes {parts : List Part} {answer : Statement.Answer}
    (writes : ∀ part ∈ parts, Part.Writes part) :
    ∃ store, (transaction.carry answer parts).2 = { transaction with current := store } := by
  induction parts generalizing transaction answer with
  | nil => exact ⟨transaction.current, rfl⟩
  | cons part rest hypothesis =>
    obtain ⟨first, others⟩ := List.forall_mem_cons.mp writes
    cases done : part transaction with
    | error error =>
      refine ⟨transaction.current, ?_⟩
      rw [carry, done]
    | ok pair =>
      obtain ⟨given, next⟩ := pair
      obtain ⟨written, rfl⟩ := first transaction next given done
      obtain ⟨store, same⟩ := hypothesis others
      rw [carry_ok done]
      exact ⟨store, same⟩

/-- The parts of a statement that is no step in the savepoints only write. -/
theorem parts_write {statement : Statement} (plain : statement.isStep = false) :
    ∀ part ∈ parts statement, Part.Writes part := by
  have whole : ∀ part ∈ [fun transaction : Transaction => transaction.perform statement],
      Part.Writes part :=
    List.forall_mem_singleton.mpr fun _ _ _ done => perform_write plain done
  cases statement with
  | savepoint name => cases plain
  | release name => cases plain
  | goBack name => cases plain
  | rollbackTo name => cases plain
  | tombstoneEntity id now =>
    refine List.forall_mem_cons.mpr ⟨fun _ _ _ done => ?_, List.forall_mem_singleton.mpr
      fun _ _ _ done => ?_⟩
    · obtain ⟨store, -, same⟩ := map_write_ok done
      exact ⟨store, same⟩
    · cases done
      exact ⟨_, rfl⟩
  | repointEdges association origin destination =>
    refine List.forall_mem_cons.mpr ⟨fun _ _ _ done => ?_, List.forall_mem_singleton.mpr
      fun _ _ _ done => ?_⟩
    · cases done
      exact ⟨_, rfl⟩
    · obtain ⟨count, store, -, same⟩ := map_writeCount_ok done
      exact ⟨store, same⟩
  | deleteEdit id =>
    refine List.forall_mem_cons.mpr ⟨fun _ _ _ done => ?_, List.forall_mem_cons.mpr
      ⟨fun _ _ _ done => ?_, List.forall_mem_singleton.mpr fun _ _ _ done => ?_⟩⟩
    all_goals
      cases done
      exact ⟨_, rfl⟩
  | _ => exact whole

/-- Releasing a savepoint leaves those around it. -/
theorem attempt_release {point : Savepoint} {outer : List Savepoint}
    (found : innermost? name.name transaction.savepoints = some (point, outer)) :
    transaction.attempt (.release name) = (.ok .done, { transaction with savepoints := outer }) := by
  simp [attempt, parts, carry, perform, release?_found found]

/-- Going back to one without discarding it leaves it as well. -/
theorem attempt_goBack {point : Savepoint} {outer : List Savepoint}
    (found : innermost? name.name transaction.savepoints = some (point, outer)) :
    transaction.attempt (.goBack name) =
      (.ok .done, ⟨transaction.began, point.saved, point :: outer⟩) := by
  simp [attempt, parts, carry, perform, goBack?_found found]

theorem attempt_rollbackTo {point : Savepoint} {outer : List Savepoint}
    (found : innermost? name.name transaction.savepoints = some (point, outer)) :
    transaction.attempt (.rollbackTo name) =
      (.ok .done, ⟨transaction.began, point.saved, outer⟩) := by
  rw [rollbackTo_attempt]
  simp [outcome, perform, rollbackTo?_found found]

/-- A name that no savepoint has fails in every command, and changes nothing. -/
theorem attempt_release_unknown
    (unknown : innermost? name.name transaction.savepoints = none) :
    transaction.attempt (.release name) = (.error (.noSavepoint name.name), transaction) := by
  simp [attempt, parts, carry, perform, release?_missing unknown]

theorem attempt_goBack_unknown
    (unknown : innermost? name.name transaction.savepoints = none) :
    transaction.attempt (.goBack name) = (.error (.noSavepoint name.name), transaction) := by
  simp [attempt, parts, carry, perform, goBack?_missing unknown]

theorem attempt_rollbackTo_unknown
    (unknown : innermost? name.name transaction.savepoints = none) :
    transaction.attempt (.rollbackTo name) = (.error (.noSavepoint name.name), transaction) := by
  rw [rollbackTo_attempt]
  simp [outcome, perform, rollbackTo?_missing unknown]

/-- **What a statement does to the savepoints**, whether it succeeds or not: it leaves them alone, sets
another one, or closes some of the innermost. -/
theorem attempt_cases (transaction : Transaction) (statement : Statement) :
    (∃ store, (transaction.attempt statement).2 = { transaction with current := store }) ∨
      (∃ name, statement = .savepoint name ∧
        (transaction.attempt statement).2 = transaction.savepoint name) ∨
      ∃ store inner outer, transaction.savepoints = inner ++ outer ∧
        (transaction.attempt statement).2 = ⟨transaction.began, store, outer⟩ := by
  -- A step that finds its savepoint leaves those around it, and one that finds none does nothing.
  have closes : ∀ {points outer : List Savepoint} {point : Savepoint},
      (point :: outer) <:+ points → ∃ inner, points = inner ++ outer := fun {_ _ point} suffix =>
    let ⟨inner, same⟩ := (List.suffix_cons point _).trans suffix
    ⟨inner, same.symm⟩
  cases statement with
  | savepoint name => exact .inr (.inl ⟨name, rfl, rfl⟩)
  | release name =>
    cases found : innermost? name.name transaction.savepoints with
    | none => exact .inl ⟨transaction.current, by rw [attempt_release_unknown found]⟩
    | some pair =>
      obtain ⟨inner, same⟩ := closes (innermost?_some found).1
      exact .inr (.inr ⟨_, inner, pair.2, same, by rw [attempt_release found]⟩)
  | goBack name =>
    cases found : innermost? name.name transaction.savepoints with
    | none => exact .inl ⟨transaction.current, by rw [attempt_goBack_unknown found]⟩
    | some pair =>
      obtain ⟨inner, same⟩ := (innermost?_some found).1
      exact .inr (.inr ⟨_, inner, _, same.symm, by rw [attempt_goBack found]⟩)
  | rollbackTo name =>
    cases found : innermost? name.name transaction.savepoints with
    | none => exact .inl ⟨transaction.current, by rw [attempt_rollbackTo_unknown found]⟩
    | some pair =>
      obtain ⟨inner, same⟩ := closes (innermost?_some found).1
      exact .inr (.inr ⟨_, inner, pair.2, same, by rw [attempt_rollbackTo found]⟩)
  | _ => exact .inl (carry_writes (parts_write rfl))

theorem attempt_began (transaction : Transaction) (statement : Statement) :
    (transaction.attempt statement).2.began = transaction.began := by
  rcases transaction.attempt_cases statement with ⟨store, after⟩ | ⟨name, -, after⟩ |
    ⟨store, inner, outer, -, after⟩
  all_goals rw [after]
  rfl

/-! ### What several statements do to the savepoints -/

/-- The store from which a transaction began is never written. -/
theorem pursue_began (transaction : Transaction) (statements : List Statement) :
    (transaction.pursue statements).began = transaction.began := by
  induction statements using List.reverseRecOn with
  | nil => rfl
  | append_singleton first last hypothesis => rw [pursue_concat, attempt_began, hypothesis]

/-- **A savepoint that stays open keeps itself and those around it as they are**: only savepoints within
it come and go. -/
theorem pursue_frame {around : Nat} {frame : List Savepoint}
    (stays : transaction.StaysOpen around statements) (fits : frame.length ≤ around + 1)
    (stands : frame <:+ transaction.savepoints) :
    frame <:+ (transaction.pursue statements).savepoints := by
  induction statements using List.reverseRecOn with
  | nil => exact stands
  | append_singleton first last hypothesis =>
    have earlier := hypothesis stays.of_append
    have remaining := stays.last
    rw [pursue_concat] at remaining ⊢
    rcases (transaction.pursue first).attempt_cases last with ⟨store, after⟩ | ⟨name, -, after⟩ |
      ⟨store, inner, outer, stack, after⟩
    · rw [after]
      exact earlier
    · rw [after]
      exact earlier.trans (List.suffix_cons _ _)
    · rw [after] at remaining ⊢
      rw [stack] at earlier
      change around < outer.length at remaining
      show frame <:+ outer
      exact List.suffix_of_suffix_length_le earlier (List.suffix_append inner outer) (by omega)

/-- **An open savepoint that was not open before was set by one of the statements**, keeps what was on
record then, and has around it what was open then; nothing has closed it since. -/
theorem pursue_opened {newer outer : List Savepoint} {point : Savepoint}
    (stack : (transaction.pursue statements).savepoints = newer ++ point :: outer)
    (later : transaction.savepoints.length ≤ outer.length) :
    ∃ first name rest, statements = first ++ .savepoint name :: rest ∧
      point = ⟨name.name, (transaction.pursue first).current⟩ ∧
      (transaction.pursue first).savepoints = outer ∧
      ((transaction.pursue first).savepoint name).StaysOpen outer.length rest := by
  induction statements using List.reverseRecOn generalizing newer with
  | nil =>
    have sizes := congrArg List.length stack
    rw [List.length_append, List.length_cons] at sizes
    change transaction.savepoints.length = _ at sizes
    omega
  | append_singleton before last hypothesis =>
    -- A savepoint that was open before the last statement, and still is, was set before it.
    have extended : ∀ {newer' : List Savepoint},
        (transaction.pursue before).savepoints = newer' ++ point :: outer →
        ∃ first name rest, before ++ [last] = first ++ .savepoint name :: rest ∧
          point = ⟨name.name, (transaction.pursue first).current⟩ ∧
          (transaction.pursue first).savepoints = outer ∧
          ((transaction.pursue first).savepoint name).StaysOpen outer.length rest := by
      intro newer' earlier
      obtain ⟨first, name, rest, rfl, set, around, stays⟩ := hypothesis earlier
      refine ⟨first, name, rest ++ [last], List.append_assoc _ _ _, set, around, stays.concat ?_⟩
      rw [← pursue_savepoint, ← List.cons_append, ← List.append_assoc, stack, List.length_append,
        List.length_cons]
      omega
    rw [pursue_concat] at stack
    rcases (transaction.pursue before).attempt_cases last with ⟨store, after⟩ | ⟨name, rfl, after⟩ |
      ⟨store, inner, outer', earlier, after⟩
    · rw [after] at stack
      exact extended stack
    · rw [after] at stack
      cases newer with
      | nil =>
        obtain ⟨rfl, rfl⟩ := List.cons.inj stack
        exact ⟨before, name, [], rfl, rfl, rfl, .nil (Nat.lt_succ_self _)⟩
      | cons newest others => exact extended (List.cons.inj stack).2
    · rw [after] at stack
      change outer' = _ at stack
      rw [stack, ← List.append_assoc] at earlier
      exact extended earlier

/-! ### What a name means -/

/-- Savepoints within the innermost one with a name have other names. -/
theorem innermost?_append {name : String} {newer outer : List Savepoint} {point : Savepoint}
    (others : ∀ other ∈ newer, sameName other.name name = false)
    (same : sameName point.name name = true) :
    innermost? name (newer ++ point :: outer) = some (point, outer) := by
  induction newer with
  | nil => exact if_pos same
  | cons first rest hypothesis =>
    obtain ⟨differs, differ⟩ := List.forall_mem_cons.mp others
    rw [List.cons_append, innermost?, differs, if_neg Bool.false_ne_true]
    exact hypothesis differ

/-- A name is unknown where no savepoint has it. -/
theorem innermost?_none {name : String} {points : List Savepoint}
    (others : ∀ other ∈ points, sameName other.name name = false) :
    innermost? name points = none := by
  induction points with
  | nil => rfl
  | cons first rest hypothesis =>
    obtain ⟨differs, differ⟩ := List.forall_mem_cons.mp others
    rw [innermost?, differs, if_neg Bool.false_ne_true]
    exact hypothesis differ

/-- Among savepoints of which some have a name, one is the innermost of them. -/
theorem exists_innermost {name : String} {points : List Savepoint}
    (some : ∃ point ∈ points, sameName point.name name = true) :
    ∃ newer point older, points = newer ++ point :: older ∧ sameName point.name name = true ∧
      ∀ other ∈ newer, sameName other.name name = false := by
  induction points with
  | nil =>
    obtain ⟨point, member, -⟩ := some
    cases member
  | cons first rest hypothesis =>
    cases same : sameName first.name name with
    | true => exact ⟨[], first, rest, rfl, same, fun _ member => nomatch member⟩
    | false =>
      obtain ⟨point, member, alike⟩ := some
      rcases List.mem_cons.mp member with rfl | within
      · rw [same] at alike
        cases alike
      · obtain ⟨newer, found, older, rfl, named, others⟩ := hypothesis ⟨point, within, alike⟩
        exact ⟨first :: newer, found, older, rfl, named, List.forall_mem_cons.mpr ⟨same, others⟩⟩

/-- What a name means in a transaction under way: the savepoint that was set when the transaction was as
it was `before`. Going back to it restores that; releasing it keeps the store as it is; and either way
just the savepoints that were open before are left. -/
structure Means (reached : Transaction) (name : SavepointName) (before : Transaction) : Prop where
  rollbackTo : reached.attempt (.rollbackTo name) = (.ok .done, before)
  release : reached.attempt (.release name) =
    (.ok .done, { before with current := reached.current })

/-- A name means the innermost savepoint that has it. -/
theorem means_of_stack {reached before : Transaction} {set : SavepointName} {newer : List Savepoint}
    (began : reached.began = before.began)
    (stack : reached.savepoints = newer ++ (before.savepoint set).savepoints)
    (same : sameName set.name name.name = true)
    (others : ∀ other ∈ newer, sameName other.name name.name = false) :
    reached.Means name before := by
  have found : innermost? name.name reached.savepoints =
      some (⟨set.name, before.current⟩, before.savepoints) := by
    rw [stack]
    exact innermost?_append others same
  constructor
  · rw [attempt_rollbackTo found, began]
  · rw [attempt_release found, began]

/-! ### Nesting -/

/-- How things stand with a savepoint after some statements, given the savepoints that have been set
within it and are still open. -/
structure Nests (transaction : Transaction) (name : SavepointName) (statements : List Statement)
    (inner : List Savepoint) : Prop where
  /-- It is open, with the same savepoints around it. -/
  stack : ((transaction.savepoint name).pursue statements).savepoints =
    inner ++ (transaction.savepoint name).savepoints
  /-- Its name means it, unless one of those within has the same name. -/
  restores : (∀ point ∈ inner, sameName point.name name.name = false) →
    ((transaction.savepoint name).pursue statements).Means name transaction
  /-- A name that some of those within have means the innermost of these, which one of the statements
  has set. -/
  innermost : ∀ other, (∃ point ∈ inner, sameName point.name other.name = true) →
    ∃ first set rest newer, statements = first ++ .savepoint set :: rest ∧
      sameName set.name other.name = true ∧
      ((transaction.savepoint name).pursue statements).savepoints =
        newer ++ (((transaction.savepoint name).pursue first).savepoint set).savepoints ∧
      (∀ point ∈ newer, sameName point.name other.name = false) ∧
      (((transaction.savepoint name).pursue first).savepoint set).StaysOpen
        ((transaction.savepoint name).pursue first).savepoints.length rest ∧
      ((transaction.savepoint name).pursue statements).Means other
        ((transaction.savepoint name).pursue first)

/-- A savepoint that stays open nests. -/
theorem nests_of_staysOpen
    (stays : (transaction.savepoint name).StaysOpen transaction.savepoints.length statements) :
    ∃ inner, transaction.Nests name statements inner := by
  obtain ⟨inner, stack⟩ := pursue_frame stays Nat.le.refl List.suffix_rfl
  refine ⟨inner, stack.symm, fun others => ?_, fun other some => ?_⟩
  · exact means_of_stack (pursue_began _ _) stack.symm (by simp [sameName]) others
  · obtain ⟨newer, point, older, rfl, same, others⟩ := exists_innermost some
    rw [List.append_assoc, List.cons_append] at stack
    obtain ⟨first, set, rest, split, rfl, around, open'⟩ := pursue_opened stack.symm
      (by rw [List.length_append]; exact Nat.le_add_left _ _)
    rw [← around] at stack open'
    refine ⟨first, set, rest, newer, split, same, stack.symm, others, open', ?_⟩
    exact means_of_stack ((pursue_began _ _).trans (pursue_began _ _).symm) stack.symm same others

/-- **Savepoints nest.** While a savepoint stays open, whatever is done, failing statements and steps in
the savepoints included, going back to it restores every table and the open savepoints exactly, and
releasing it keeps what was done and discards it with those within; of several savepoints with one name
the innermost is meant. A name that no savepoint has fails and changes nothing, and a transaction that
ends without being committed leaves the store from which it began. The names are the texts that spell
one name, as they are written. -/
theorem savepoints_nest (transaction : Transaction) (name : SavepointName)
    (statements : List Statement) (store : Store) :
    (Statement.savepoint? name.written = some (.savepoint name) ∧
      Statement.release? name.written = some (.release name) ∧
        Statement.rollbackTo? name.written = some (.rollbackTo name)) ∧
    ((transaction.savepoint name).StaysOpen transaction.savepoints.length statements →
      ∃ inner, transaction.Nests name statements inner) ∧
    ((∀ point ∈ transaction.savepoints, sameName point.name name.name = false) →
      transaction.attempt (.rollbackTo name) = (.error (.noSavepoint name.name), transaction) ∧
        transaction.attempt (.release name) = (.error (.noSavepoint name.name), transaction)) ∧
    ((start store).pursue statements).rollback = store := by
  refine ⟨Statement.of_written name, nests_of_staysOpen, fun others => ?_,
    pursue_began (start store) statements⟩
  have unknown := innermost?_none others
  exact ⟨attempt_rollbackTo_unknown unknown, attempt_release_unknown unknown⟩

/-- A transaction in which Ann was registered and a savepoint set. -/
def annsTransaction : Transaction :=
  (start .empty).pursue [.insertUser ⟨Uuid.serial 0⟩ "Ann" .epoch, .savepoint (.of "a" rfl)]

/-- Bob is registered, and Cay within a savepoint that is released; a second Bob is refused, a third
savepoint stays open, and a name is unknown. -/
def furtherUsers : List Statement :=
  [.insertUser ⟨Uuid.serial 1⟩ "Bob" .epoch, .savepoint (.of "B" rfl),
    .insertUser ⟨Uuid.serial 2⟩ "Cay" .epoch, .release (.of "b" rfl),
    .insertUser ⟨Uuid.serial 3⟩ "Bob" .epoch, .savepoint (.of "c" rfl), .rollbackTo (.of "d" rfl)]

theorem furtherUsers_nest :
    (annsTransaction.savepoint (.of "b" rfl)).StaysOpen annsTransaction.savepoints.length
      furtherUsers ∧
    ((annsTransaction.savepoint (.of "b" rfl)).pursue furtherUsers).Means (.of "b" rfl)
      annsTransaction ∧
    ((annsTransaction.savepoint (.of "b" rfl)).pursue furtherUsers).current.users.length = 3 ∧
    (∀ point ∈ annsTransaction.savepoints, sameName point.name "d" = false) ∧
    annsTransaction.attempt (.release (.of "d" rfl)) =
      (.error (.noSavepoint "d"), annsTransaction) := by
  have stays : (annsTransaction.savepoint (.of "b" rfl)).StaysOpen annsTransaction.savepoints.length
      furtherUsers := by decide
  obtain ⟨inner, nests⟩ :=
    (savepoints_nest annsTransaction (.of "b" rfl) furtherUsers .empty).2.1 stays
  have stack : ((annsTransaction.savepoint (.of "b" rfl)).pursue furtherUsers).savepoints =
      [⟨"c", ((annsTransaction.savepoint (.of "b" rfl)).pursue furtherUsers).current⟩] ++
        (annsTransaction.savepoint (.of "b" rfl)).savepoints := by decide
  have others := List.append_cancel_right (nests.stack.symm.trans stack)
  have unknown : ∀ point ∈ annsTransaction.savepoints, sameName point.name "d" = false := by decide
  refine ⟨stays, nests.restores ?_, by decide, unknown,
    ((savepoints_nest annsTransaction (.of "d" rfl) furtherUsers .empty).2.2.1 unknown).2⟩
  rw [others]
  decide

/-- A comment after the name keeps a savepoint from being discarded: the tables are put back, but the
savepoint is still open, and it can be gone back to again. -/
theorem commented_staysOpen : ∃ set back,
    Statement.savepoint? "a--" = some set ∧ Statement.rollbackTo? "a--" = some back ∧
    (start .empty).pursue [set, .insertUser ⟨Uuid.serial 0⟩ "Ann" .epoch, back] ≠ start .empty ∧
    ((start .empty).pursue [set, .insertUser ⟨Uuid.serial 0⟩ "Ann" .epoch, back]).current = .empty ∧
    (((start .empty).pursue [set, .insertUser ⟨Uuid.serial 0⟩ "Ann" .epoch, back]).attempt back).1 =
      .ok .done :=
  ⟨.savepoint (.of "a" rfl), .goBack (.of "a" rfl), rfl, rfl, by decide, by decide, by decide⟩

end Curation.Transaction
