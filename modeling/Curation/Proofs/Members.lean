/-
**Collections are sets.** Whatever calls add members to collections and remove them, a collection lists a
value once, lists those whose last call added them, and lists them in the order in which they were last
inserted: a value that is removed and added again moves to the end, and one that is added again while it
is there stays in its place.

The rows of the table are told apart by the bytes of their values. Values are read back from their bytes,
so that rows with the same bytes are the same, and every call does to the bytes what it does to the values.

* `Store.afterCalls`: the store after some calls;
* `Store.mem_members_afterCalls`, `Store.collection_afterCalls`: what a collection lists, and in which order;
* `Cell.perform_cells`, `Cell.select?_cells`: the table as it is kept;
* `Store.collections_areSets`: both.
-/

import Curation.Proofs.Constraints
import Curation.Proofs.Contents
import Curation.Proofs.Encodings

namespace Curation

open Portable

/-! ### The order of last occurrences -/

/-- Values are listed in the order in which they occur last in a log; `dedup` keeps the last of several
equal values. -/
def ByLastOccurrence (log listed : List Value) : Prop :=
  listed = log.dedup.filter fun value => value ∈ listed

namespace ByLastOccurrence

variable {log listed : List Value} {value : Value}

/-- Of equal values only the last is kept. -/
theorem dedup_append_singleton (log : List Value) (value : Value) :
    (log ++ [value]).dedup = (log.dedup.filter fun other => other ≠ value) ++ [value] := by
  induction log with
  | nil => rfl
  | cons first rest hypothesis =>
    rw [List.cons_append, List.dedup_cons, List.dedup_cons, hypothesis]
    by_cases again : first ∈ rest
    · simp [again]
    · by_cases same : first = value
      · subst same
        simp [again]
      · simp [again, same]

/-- What is listed is its own log. -/
theorem refl (nodup : listed.Nodup) : ByLastOccurrence listed listed := by
  unfold ByLastOccurrence
  rw [nodup.dedup, List.filter_eq_self.mpr fun _ member => decide_eq_true member]

/-- A value that is inserted goes to the end, wherever it was before. -/
theorem insert (ordered : ByLastOccurrence log listed) (unlisted : value ∉ listed) :
    ByLastOccurrence (log ++ [value]) (listed ++ [value]) := by
  have earlier : (log.dedup.filter fun other => other ≠ value).filter
      (fun other => other ∈ listed ++ [value]) = log.dedup.filter fun other => other ∈ listed := by
    rw [List.filter_filter]
    refine List.filter_congr fun other _ => ?_
    by_cases same : other = value
    · subst same
      simp [unlisted]
    · simp [same]
  unfold ByLastOccurrence
  rw [dedup_append_singleton, List.filter_append, earlier, ← ordered]
  simp

/-- The others stay in their order when a value is taken out. -/
theorem remove (ordered : ByLastOccurrence log listed) (value : Value) :
    ByLastOccurrence log (listed.filter fun other => other ≠ value) := by
  unfold ByLastOccurrence
  conv_lhs => rw [ordered]
  rw [List.filter_filter]
  refine List.filter_congr fun other _ => ?_
  simp [and_comm]

end ByLastOccurrence

/-! ### Calls -/

/-- A call that changes a collection. -/
inductive MemberCall where
  | add (row : MemberRow)
  | remove (row : MemberRow)

namespace MemberCall

/-- The member that a call adds or removes. -/
def row : MemberCall → MemberRow
  | .add row | .remove row => row

/-- A call adds its member. -/
def adds : MemberCall → Bool
  | .add _ => true
  | .remove _ => false

/-- What a call answers, and the store that it leaves. -/
def perform (store : Store) : MemberCall → Except StoreError (Bool × Store)
  | .add row => store.addMember row.entity row.list row.value
  | .remove row => .ok (store.removeMember row.entity row.list row.value)

/-- The last of some calls about a member adds it; there may be none. -/
def lastAdds? (row : MemberRow) (calls : List MemberCall) : Option Bool :=
  ((calls.filter fun call => call.row = row).getLast?).map adds

theorem lastAdds?_append (row : MemberRow) (calls : List MemberCall) (call : MemberCall) :
    lastAdds? row (calls ++ [call]) =
      if call.row = row then some call.adds else lastAdds? row calls := by
  unfold lastAdds?
  rw [List.filter_append]
  by_cases same : call.row = row
  · simp [same]
  · simp [same]

end MemberCall

namespace Store

variable {store : Store} {entity : EntityId} {list : String}

/-- The store after a call; one that fails changes nothing. -/
def afterCall (store : Store) (call : MemberCall) : Store :=
  match call.perform store with
  | .ok (_, after) => after
  | .error _ => store

/-- The store after some calls. -/
def afterCalls (store : Store) (calls : List MemberCall) : Store := calls.foldl afterCall store

/-- A call inserts its member. -/
def inserts (store : Store) : MemberCall → Bool
  | .add row => row ∉ store.members && store.hasEntity row.entity
  | .remove _ => false

/-- The values that some calls insert into a collection, the latest last. -/
def insertions (entity : EntityId) (list : String) : Store → List MemberCall → List Value
  | _, [] => []
  | store, call :: rest =>
    (if store.inserts call ∧ call.row.entity = entity ∧ call.row.list = list then [call.row.value]
      else []) ++ insertions entity list (store.afterCall call) rest

theorem afterCalls_append (store : Store) (calls : List MemberCall) (call : MemberCall) :
    store.afterCalls (calls ++ [call]) = (store.afterCalls calls).afterCall call := List.foldl_append

theorem insertions_append (calls : List MemberCall) (call : MemberCall) :
    insertions entity list store (calls ++ [call]) = insertions entity list store calls ++
      if (store.afterCalls calls).inserts call ∧ call.row.entity = entity ∧ call.row.list = list then
        [call.row.value]
      else [] := by
  induction calls generalizing store with
  | nil => exact List.append_nil _
  | cons first rest hypothesis =>
    show _ ++ insertions entity list (store.afterCall first) (rest ++ [call]) = _
    rw [hypothesis, ← List.append_assoc]
    rfl

theorem afterCall_add (store : Store) (row : MemberRow) : store.afterCall (.add row) =
    if store.inserts (.add row) then { store with members := store.members ++ [row] } else store := by
  unfold afterCall MemberCall.perform addMember inserts
  by_cases there : row ∈ store.members
  · simp [there]
  · cases known : store.hasEntity row.entity <;> simp [there, known]

theorem afterCall_remove (store : Store) (row : MemberRow) : store.afterCall (.remove row) =
    { store with members := store.members.filter fun other => other ≠ row } := rfl

theorem afterCall_written (store : Store) (call : MemberCall) : store.Written (store.afterCall call) := by
  unfold afterCall
  split
  next flag after done =>
    cases call with
    | add row => exact .addMember row.entity row.list row.value .keep done
    | remove row =>
      cases done
      exact .removeMember row.entity row.list row.value .keep
  next => exact .keep

theorem afterCalls_written (store : Store) (calls : List MemberCall) :
    store.Written (store.afterCalls calls) :=
  List.foldlRecOn calls afterCall .keep fun _ written call _ => written.trans (afterCall_written _ call)

theorem hasEntity_afterCall (store : Store) (call : MemberCall) :
    (store.afterCall call).hasEntity = store.hasEntity := by
  cases call with
  | add row =>
    rw [afterCall_add]
    split <;> rfl
  | remove row => rfl

theorem hasEntity_afterCalls (store : Store) (calls : List MemberCall) :
    (store.afterCalls calls).hasEntity = store.hasEntity := by
  induction calls using List.reverseRecOn with
  | nil => rfl
  | append_singleton calls call hypothesis =>
    rw [afterCalls_append, hasEntity_afterCall, hypothesis]

/-! ### Members and their order -/

theorem mem_members_afterCall {row : MemberRow} (known : store.hasEntity row.entity = true)
    (call : MemberCall) : row ∈ (store.afterCall call).members ↔
      if call.row = row then call.adds = true else row ∈ store.members := by
  cases call with
  | add added =>
    rw [afterCall_add, inserts]
    show _ ↔ if added = row then true = true else _
    by_cases same : added = row
    · subst same
      by_cases there : added ∈ store.members <;> simp [there, known]
    · have other : row ≠ added := Ne.symm same
      rw [if_neg same]
      split <;> simp [other]
  | remove removed =>
    rw [afterCall_remove]
    show _ ↔ if removed = row then false = true else _
    by_cases same : removed = row
    · subst same
      simp
    · simp [same, Ne.symm same]

/-- **A member is there if the last call about it added it**, or if there was none and it was there. -/
theorem mem_members_afterCalls {row : MemberRow} (known : store.hasEntity row.entity = true)
    (calls : List MemberCall) : row ∈ (store.afterCalls calls).members ↔
      (MemberCall.lastAdds? row calls).getD (decide (row ∈ store.members)) = true := by
  induction calls using List.reverseRecOn with
  | nil => exact decide_eq_true_iff.symm
  | append_singleton calls call hypothesis =>
    have still : (store.afterCalls calls).hasEntity row.entity = true := by
      rwa [hasEntity_afterCalls]
    rw [afterCalls_append, mem_members_afterCall still, MemberCall.lastAdds?_append]
    split
    · rfl
    · exact hypothesis

/-- What a call does to a collection: it inserts its value at the end, takes it out, or neither. -/
theorem collection_afterCall (store : Store) (call : MemberCall) :
    (store.afterCall call).collection entity list =
      if call.row.entity = entity ∧ call.row.list = list then
        if call.adds then
          store.collection entity list ++ if store.inserts call then [call.row.value] else []
        else (store.collection entity list).filter fun value => value ≠ call.row.value
      else store.collection entity list := by
  cases call with
  | add row =>
    rw [afterCall_add]
    show _ = if row.entity = entity ∧ row.list = list then
      _ ++ (if _ then [row.value] else []) else _
    unfold collection
    by_cases inserted : store.inserts (.add row) = true
    · by_cases here : row.entity = entity ∧ row.list = list <;>
        simp [inserted, here, List.filter_append]
    · simp [inserted]
  | remove row =>
    show ((store.members.filter fun other => other ≠ row).filter fun other =>
        other.entity = entity ∧ other.list = list).map MemberRow.value =
      if row.entity = entity ∧ row.list = list then
        (store.collection entity list).filter fun value => value ≠ row.value
      else store.collection entity list
    unfold collection
    split
    next here =>
      obtain ⟨entity, list, value⟩ := row
      obtain ⟨rfl, rfl⟩ := here
      rw [List.filter_map, List.filter_filter, List.filter_filter]
      congr 1
      refine List.filter_congr fun other _ => ?_
      obtain ⟨owner, name, held⟩ := other
      by_cases same : owner = entity ∧ name = list
      · obtain ⟨rfl, rfl⟩ := same
        simp
      · simp [same]
    next elsewhere =>
      -- what is taken out is in another collection
      rw [List.filter_filter]
      congr 1
      refine List.filter_congr fun other _ => ?_
      by_cases listed : other.entity = entity ∧ other.list = list
      · have different : other ≠ row := by
          rintro rfl
          exact elsewhere listed
        simp [different]
      · simp [listed]

theorem adds_of_inserts {call : MemberCall} (inserted : store.inserts call = true) :
    call.adds = true := by
  cases call with
  | add row => rfl
  | remove row => cases inserted

/-- What a call inserts is not there. -/
theorem not_mem_of_inserts {call : MemberCall} (inserted : store.inserts call = true)
    (here : call.row.entity = entity ∧ call.row.list = list) :
    call.row.value ∉ store.collection entity list := by
  cases call with
  | add row =>
    obtain ⟨rfl, rfl⟩ := here
    rw [mem_collection]
    exact of_decide_eq_true (Bool.and_eq_true_iff.mp inserted).1
  | remove row => cases inserted

/-- **A collection lists its values in the order in which they were last inserted.** -/
theorem collection_afterCalls (nodup : (store.collection entity list).Nodup) (calls : List MemberCall) :
    ByLastOccurrence (store.collection entity list ++ insertions entity list store calls)
      ((store.afterCalls calls).collection entity list) := by
  induction calls using List.reverseRecOn with
  | nil =>
    show ByLastOccurrence (store.collection entity list ++ []) (store.collection entity list)
    rw [List.append_nil]
    exact .refl nodup
  | append_singleton calls call hypothesis =>
    rw [afterCalls_append, collection_afterCall, insertions_append, ← List.append_assoc]
    by_cases here : call.row.entity = entity ∧ call.row.list = list
    · rw [if_pos here]
      by_cases inserted : (store.afterCalls calls).inserts call = true
      · have adds : call.adds = true := adds_of_inserts inserted
        rw [if_pos adds, if_pos inserted, if_pos ⟨inserted, here⟩]
        exact hypothesis.insert (not_mem_of_inserts inserted here)
      · rw [if_neg inserted, if_neg fun both => inserted both.1, List.append_nil, List.append_nil]
        split
        · exact hypothesis
        · exact hypothesis.remove call.row.value
    · rwa [if_neg here, if_neg fun both => here both.2, List.append_nil]

end Store

/-! ### The table as it is kept -/

/-- A row of the table of members as it is kept, with the bytes of the value. -/
structure Cell where
  entity : EntityId
  list : String
  bytes : List UInt8
deriving DecidableEq

/-- The row that keeps a member. -/
def MemberRow.cell (row : MemberRow) : Cell := ⟨row.entity, row.list, toMessagePack false row.value⟩

namespace Cell

/-- Inserts a row unless it is there, for a record that exists. -/
def insert (known : EntityId → Bool) (cells : List Cell) (cell : Cell) :
    Except StoreError (Bool × List Cell) :=
  if cell ∈ cells then .ok (false, cells)
  else if known cell.entity then .ok (true, cells ++ [cell])
  else .error .danglingReference

/-- Deletes a row. -/
def delete (cells : List Cell) (cell : Cell) : Bool × List Cell :=
  (decide (cell ∈ cells), cells.filter fun other => other ≠ cell)

/-- The values of a collection, read from their bytes. -/
def select? (cells : List Cell) (entity : EntityId) (list : String) : Option (List Value) :=
  (cells.filter fun cell => cell.entity = entity ∧ cell.list = list).mapM fun cell =>
    ofMessagePack? cell.bytes

/-- What a call answers, and the table that it leaves. -/
def perform (known : EntityId → Bool) (cells : List Cell) :
    MemberCall → Except StoreError (Bool × List Cell)
  | .add row => insert known cells row.cell
  | .remove row => .ok (delete cells row.cell)

/-- The table after a call; one that fails changes nothing. -/
def afterCall (known : EntityId → Bool) (cells : List Cell) (call : MemberCall) : List Cell :=
  match perform known cells call with
  | .ok (_, after) => after
  | .error _ => cells

/-- The table after some calls. -/
def afterCalls (known : EntityId → Bool) (cells : List Cell) (calls : List MemberCall) : List Cell :=
  calls.foldl (afterCall known) cells

end Cell

namespace Store

/-- The table of members as it is kept. -/
def cells (store : Store) : List Cell := store.members.map MemberRow.cell

/-- No text of a member is too long. -/
def ShortMembers (store : Store) : Prop := ∀ row ∈ store.members, row.value.Short

variable {store : Store} {call : MemberCall} {calls : List MemberCall}

/-- **Rows with the same bytes are the same.** -/
theorem cell_inj {first second : MemberRow} (firstShort : first.value.Short)
    (secondShort : second.value.Short) : first.cell = second.cell ↔ first = second := by
  refine ⟨fun same => ?_, congrArg MemberRow.cell⟩
  obtain ⟨owners, lists, bytes⟩ := (Cell.mk.injEq ..).mp same
  exact (MemberRow.mk.injEq ..).mpr
    ⟨owners, lists, Value.toMessagePack_inj firstShort secondShort bytes⟩

theorem mem_cells {row : MemberRow} (kept : store.ShortMembers) (short : row.value.Short) :
    row.cell ∈ store.cells ↔ row ∈ store.members := by
  refine ⟨fun stored => ?_, List.mem_map_of_mem⟩
  obtain ⟨other, member, same⟩ := List.mem_map.mp stored
  rwa [← (cell_inj (kept other member) short).mp same]

/-- **A call does to the bytes what it does to the values**, and answers the same. -/
theorem perform_cells (kept : store.ShortMembers) (short : call.row.value.Short) :
    Cell.perform store.hasEntity store.cells call =
      (call.perform store).map fun done => (done.1, done.2.cells) := by
  cases call with
  | add row =>
    show Cell.insert store.hasEntity store.cells row.cell =
      (store.addMember row.entity row.list row.value).map fun done => (done.1, done.2.cells)
    have stored : row.cell ∈ store.cells ↔ row ∈ store.members := mem_cells kept short
    unfold Cell.insert addMember
    by_cases there : row ∈ store.members
    · rw [if_pos (stored.mpr there), if_pos there]
      rfl
    · rw [if_neg (stored.not.mpr there), if_neg there]
      show (if store.hasEntity row.entity = true then _ else _) = _
      split
      · show _ = Except.ok (true, (store.members ++ [row]).map MemberRow.cell)
        rw [List.map_append]
        rfl
      · rfl
  | remove row =>
    show Except.ok (Cell.delete store.cells row.cell) =
      .ok (decide (row ∈ store.members), (store.members.filter fun other => other ≠ row).map MemberRow.cell)
    have stored : row.cell ∈ store.cells ↔ row ∈ store.members := mem_cells kept short
    unfold Cell.delete
    rw [decide_eq_decide.mpr stored]
    unfold cells
    rw [List.filter_map]
    congr 3
    refine List.filter_congr fun other member => ?_
    exact decide_eq_decide.mpr (not_congr (cell_inj (kept other member) short))

theorem ShortMembers.afterCall (kept : store.ShortMembers) (short : call.row.value.Short) :
    (store.afterCall call).ShortMembers := by
  intro row member
  cases call with
  | add added =>
    rw [afterCall_add] at member
    split at member
    · rcases List.mem_append.mp member with stored | new
      · exact kept row stored
      · rw [List.mem_singleton.mp new]
        exact short
    · exact kept row member
  | remove removed => exact kept row (List.mem_filter.mp member).1

theorem cells_afterCall (kept : store.ShortMembers) (short : call.row.value.Short) :
    (store.afterCall call).cells = Cell.afterCall store.hasEntity store.cells call := by
  unfold Store.afterCall Cell.afterCall
  rw [perform_cells kept short]
  cases call.perform store <;> rfl

theorem cells_afterCalls (kept : store.ShortMembers) (short : ∀ call ∈ calls, call.row.value.Short) :
    (store.afterCalls calls).ShortMembers ∧
      (store.afterCalls calls).cells = Cell.afterCalls store.hasEntity store.cells calls := by
  induction calls generalizing store with
  | nil => exact ⟨kept, rfl⟩
  | cons call rest hypothesis =>
    have first := short call List.mem_cons_self
    have others := hypothesis (kept.afterCall first) fun call member =>
      short call (List.mem_cons_of_mem _ member)
    rw [cells_afterCall kept first, hasEntity_afterCall] at others
    exact others

/-- **Collections are read from the bytes.** -/
theorem select?_cells (kept : store.ShortMembers) (entity : EntityId) (list : String) :
    Cell.select? store.cells entity list = some (store.collection entity list) := by
  have rows : (store.cells.filter fun cell => cell.entity = entity ∧ cell.list = list) =
      (store.collection entity list).map fun value => ⟨entity, list, toMessagePack false value⟩ := by
    unfold cells collection
    rw [List.filter_map, List.map_map]
    refine List.map_congr_left fun row member => ?_
    obtain ⟨rfl, rfl⟩ := of_decide_eq_true (List.mem_filter.mp member).2
    rfl
  unfold Cell.select?
  rw [rows]
  refine mapM_map_eq_some fun value listed => ?_
  exact Value.ofMessagePack?_toMessagePack (kept _ (mem_collection.mp listed))

/-! ### Both -/

/-- A collection after some calls, and what the next one answers. -/
structure SetAfter (store : Store) (calls : List MemberCall) (entity : EntityId) (list : String) :
    Prop where
  nodup : ((store.afterCalls calls).collection entity list).Nodup
  /-- It lists what the last call added, and what was there and is in no call. -/
  members : store.hasEntity entity = true → ∀ value,
    value ∈ (store.afterCalls calls).collection entity list ↔
      (MemberCall.lastAdds? ⟨entity, list, value⟩ calls).getD
        (decide (value ∈ store.collection entity list)) = true
  order : ByLastOccurrence (store.collection entity list ++ insertions entity list store calls)
    ((store.afterCalls calls).collection entity list)
  added : store.hasEntity entity = true → ∀ value,
    ((store.afterCalls calls).addMember entity list value).map Prod.fst =
      .ok (decide (value ∉ (store.afterCalls calls).collection entity list))
  removed : ∀ value, ((store.afterCalls calls).removeMember entity list value).1 =
    decide (value ∈ (store.afterCalls calls).collection entity list)
  /-- Nothing can be added to a record that does not exist. -/
  missing : store.hasEntity entity = false →
    (store.afterCalls calls).collection entity list = [] ∧ ∀ value,
      (store.afterCalls calls).addMember entity list value = .error .danglingReference

/-- The table of members as it is kept, after some calls. -/
structure KeptAfter (store : Store) (calls : List MemberCall) : Prop where
  cells : Cell.afterCalls store.hasEntity store.cells calls = (store.afterCalls calls).cells
  read : ∀ entity list, Cell.select? (store.afterCalls calls).cells entity list =
    some ((store.afterCalls calls).collection entity list)
  answers : ∀ call : MemberCall, call.row.value.Short →
    Cell.perform store.hasEntity (store.afterCalls calls).cells call =
      (call.perform (store.afterCalls calls)).map fun done => (done.1, done.2.cells)

/-- A member is new if it is not in the collection. -/
theorem addMember_isNew {entity : EntityId} (known : store.hasEntity entity = true) (list : String)
    (value : Value) : (store.addMember entity list value).map Prod.fst =
      .ok (decide (value ∉ store.collection entity list)) := by
  unfold addMember
  rw [if_pos known, decide_eq_decide.mpr mem_collection.not]
  by_cases there : ⟨entity, list, value⟩ ∈ store.members
  · rw [if_pos there, decide_eq_false (not_not.mpr there)]
    rfl
  · rw [if_neg there, decide_eq_true there]
    rfl

/-- A record that does not exist has no members, and none can be added. -/
theorem addMember_missing {entity : EntityId} (tidy : store.Tidy)
    (missing : store.hasEntity entity = false) (list : String) :
    store.collection entity list = [] ∧
      ∀ value, store.addMember entity list value = .error .danglingReference := by
  have none : ∀ value, value ∉ store.collection entity list := fun value listed =>
    Bool.false_ne_true (missing.symm.trans (tidy.memberOwners _ (mem_collection.mp listed)))
  refine ⟨List.eq_nil_iff_forall_not_mem.mpr none, fun value => ?_⟩
  unfold addMember
  rw [if_neg fun there => none value (mem_collection.mpr there), if_neg (by simp [missing])]

theorem setAfter (constrained : store.Constrained) (calls : List MemberCall) (entity : EntityId)
    (list : String) : store.SetAfter calls entity list := by
  have tidy := constrained.catalogue.toTidy
  have after := ((store.afterCalls_written calls).constrained constrained).catalogue.toTidy
  have known := congrFun (hasEntity_afterCalls store calls) entity
  refine
    { nodup := nodup_collection after entity list
      members := fun there value => ?_
      order := collection_afterCalls (nodup_collection tidy entity list) calls
      added := fun there => addMember_isNew (known.trans there) list
      removed := fun value => decide_eq_decide.mpr mem_collection.symm
      missing := fun absent => addMember_missing after (known.trans absent) list }
  rw [mem_collection, decide_eq_decide.mpr mem_collection]
  exact mem_members_afterCalls there calls

theorem keptAfter (kept : store.ShortMembers) (short : ∀ call ∈ calls, call.row.value.Short) :
    store.KeptAfter calls := by
  obtain ⟨after, cells⟩ := cells_afterCalls kept short
  refine ⟨cells.symm, select?_cells after, fun call callShort => ?_⟩
  rw [← hasEntity_afterCalls store calls]
  exact perform_cells after callShort

/-- **Collections are sets of values, although their rows are told apart by bytes.** Values are read back
from their bytes, different values from different bytes; the table of bytes follows every call, with the
same answers; and a collection lists, once each and in the order in which they were last inserted, the
values whose last call added them. -/
theorem collections_areSets (constrained : store.Constrained) (kept : store.ShortMembers)
    (short : ∀ call ∈ calls, call.row.value.Short) :
    (∀ value : Value, value.Short → ofMessagePack? (toMessagePack false value) = some value) ∧
    (∀ first second : Value, first.Short → second.Short →
      toMessagePack false first = toMessagePack false second → first = second) ∧
    store.KeptAfter calls ∧ ∀ entity list, store.SetAfter calls entity list :=
  ⟨fun _ => Value.ofMessagePack?_toMessagePack, fun _ _ => Value.toMessagePack_inj,
    keptAfter kept short, setAfter constrained calls⟩

/-- A performer under one other name, -/
def aliased : Store :=
  { empty with
    entities := [⟨⟨Uuid.serial 1⟩, .performer, .epoch, .epoch, false⟩]
    members := [⟨⟨Uuid.serial 1⟩, "aliases", .text "J"⟩] }

/-- and calls that take it away and give it back, so that it comes last. -/
def reordering : List MemberCall :=
  [.add ⟨⟨Uuid.serial 1⟩, "aliases", .text "Zoë"⟩, .remove ⟨⟨Uuid.serial 1⟩, "aliases", .text "J"⟩,
    .add ⟨⟨Uuid.serial 1⟩, "aliases", .text "J"⟩, .add ⟨⟨Uuid.serial 1⟩, "aliases", .text "Zoë"⟩]

theorem aliased_isSet : aliased.Constrained ∧ aliased.ShortMembers ∧
    (∀ call ∈ reordering, call.row.value.Short) ∧ aliased.KeptAfter reordering ∧
    aliased.SetAfter reordering ⟨Uuid.serial 1⟩ "aliases" ∧
    (aliased.afterCalls reordering).collection ⟨Uuid.serial 1⟩ "aliases" = [.text "Zoë", .text "J"] := by
  have written : empty.Written aliased :=
    .addMember ⟨Uuid.serial 1⟩ "aliases" (.text "J")
      (.insertEntity ⟨Uuid.serial 1⟩ .performer .epoch .keep rfl) rfl
  have constrained := written.constrained empty_constrained
  have kept : aliased.ShortMembers := by
    unfold ShortMembers
    decide
  have short : ∀ call ∈ reordering, call.row.value.Short := by decide
  obtain ⟨-, -, bytes, sets⟩ := collections_areSets constrained kept short
  exact ⟨constrained, kept, short, bytes, sets _ _, by decide⟩

end Store

end Curation
