/-
**Modifications that touch different parts commute.** What a modification writes to a part depends
on nothing but what is in that part, and what it checks is untouched by a modification of other
parts. Two modifications of one record that have no part in common therefore succeed in either
order, and leave the same behind: the same fields, collections and links, in the same order.

* `Store.SameRecords`: two catalogues read the same;
* `Store.modify_commutes`: for any two modifications, and `Desk.edits_commute`: for edits of a run.
-/

import Curation.Proofs.Footprint
import Curation.Proofs.Sufficiency

namespace Curation

namespace Store

variable {store first second after : Store} {id : EntityId} {kind : Kind} {now : Instant}

/-! ### What the parts tell -/

theorem field?_rowsIn (store : Store) (id : EntityId) (key : String) : store.field? id key =
    ((store.rowsIn (.field key)).find? fun row : FieldRow => row.entity = id).map
      FieldRow.value := by
  show _ = ((store.fields.filter _).find? _).map _
  unfold field?
  rw [List.find?_filter]
  congr 2
  funext row
  rw [Bool.eq_iff_iff]
  simp [and_comm]

theorem collection_rowsIn (store : Store) (id : EntityId) (key : String) : store.collection id key =
    ((store.rowsIn (.list key)).filter fun row : MemberRow => row.entity = id).map
      MemberRow.value := by
  show _ = ((store.members.filter _).filter _).map _
  unfold collection
  rw [List.filter_filter]
  congr 2
  funext row
  rw [Bool.eq_iff_iff]
  simp

theorem links_rowsIn (store : Store) (association : Association) (endpoint : Edge → EntityId)
    (id : EntityId) :
    (store.edges.filter fun edge => endpoint edge = id ∧ edge.association = association) =
      (store.rowsIn (.links association)).filter fun edge : Edge => endpoint edge = id := by
  show _ = (store.edges.filter _).filter _
  rw [List.filter_filter]
  congr 1
  funext edge
  rw [Bool.eq_iff_iff]
  simp

/-- **Two catalogues read the same**: the same fields, collections and links, in the same order, the
same records, and nothing else differs. -/
structure SameRecords (first second : Store) : Prop where
  fields : ∀ id key, second.field? id key = first.field? id key
  collections : ∀ id key, second.collection id key = first.collection id key
  linksFrom : ∀ id association, second.edgesFrom id association = first.edgesFrom id association
  linksTo : ∀ id association, second.edgesTo id association = first.edgesTo id association
  records : ∀ kind id, second.record? kind id = first.record? kind id
  rest : second =
    { first with fields := second.fields, members := second.members, edges := second.edges }

theorem SameRecords.of_parts (parts : ∀ part, second.rowsIn part = first.rowsIn part)
    (rest : second =
      { first with fields := second.fields, members := second.members, edges := second.edges }) :
    first.SameRecords second := by
  have fields (id : EntityId) (key : String) : second.field? id key = first.field? id key := by
    rw [field?_rowsIn, field?_rowsIn, parts]
  have collections (id : EntityId) (key : String) :
      second.collection id key = first.collection id key := by
    rw [collection_rowsIn, collection_rowsIn, parts]
  have linksFrom (id : EntityId) (association : Association) :
      second.edgesFrom id association = first.edgesFrom id association := by
    unfold edgesFrom
    rw [links_rowsIn, links_rowsIn, parts]
  have entities : second.entities = first.entities := by rw [rest]
  refine ⟨fields, collections, linksFrom, fun id association => ?_, fun kind id => ?_, rest⟩
  · unfold edgesTo
    rw [links_rowsIn, links_rowsIn, parts]
  · unfold record? contents
    simp only [entity?_congr entities, fields, collections, linksFrom]

/-! ### Checks on a catalogue whose records are in the same condition -/

theorem requireLive_congr (same : second.condition? = first.condition?) (id : EntityId)
    (kind : Kind) : second.requireLive id kind = first.requireLive id kind := by
  have here : second.condition? id = first.condition? id := congrFun same id
  unfold condition? at here
  unfold requireLive
  cases one : first.entity? id with
  | none =>
    rw [one, Option.map_none, Option.map_eq_none_iff] at here
    rw [here]
  | some row =>
    rw [one, Option.map_some] at here
    obtain ⟨other, found, alike⟩ := Option.map_eq_some_iff.mp here
    rw [found]
    dsimp only
    rw [(Prod.mk.inj alike).1, (Prod.mk.inj alike).2]

theorem checkReferences_congr {change : Change kind} (same : second.condition? = first.condition?)
    (target : Option EntityId) :
    change.checkReferences second target = change.checkReferences first target := by
  cases kind <;> simp only [Change.checkReferences, requireLive_congr same]

/-! ### Modifications -/

/-- A modification writes fields, collections and links, and notes when the record was changed. -/
theorem modify_frame {details : Details} (tidy : store.Tidy)
    (done : store.modify id kind details now = .ok after) :
    after = { store.touchEntity id now with
      fields := after.fields, members := after.members, edges := after.edges } := by
  obtain ⟨filled, listed, linked, -, filling, listing, linking, rfl⟩ := modify_split done
  rw [keepCredits_eq (parts_tidy tidy filling listing linking).edges,
    writeDetailLinks_frame linking, writeLists_frame listing, clearDropped_frame,
    writeScalars_frame filling]
  rfl

variable {one other : Details}

/-- Details of one kind that touch no part in common change none in common: only one of them can
change the name of a performer. -/
theorem changes_apart (kinds : one.kind = other.kind)
    (apart : one.Apart other) (part : Part) :
    ¬ (one.Changes part ∧ other.Changes part) := by
  have unlinked {details : Details} (performer : details.kind = .performer)
      {association : Association} : ¬ details.Touches (.links association) := by
    obtain ⟨kind, change⟩ := details
    cases performer
    rintro ⟨link, -, -⟩
    cases link
  rintro ⟨touches | ⟨rfl, renames⟩, touchesToo | ⟨same, renamesToo⟩⟩
  · exact apart part ⟨touches, touchesToo⟩
  · subst same
    exact unlinked (kinds.trans (renames_of_renamedBy renamesToo).1) touches
  · exact unlinked (kinds.symm.trans (renames_of_renamedBy renames).1) touchesToo
  · exact apart _ ⟨(renames_of_renamedBy renames).2, (renames_of_renamedBy renamesToo).2⟩

/-- A modification that succeeds still does after one that touches no part in common. -/
theorem modify_later (tidy : store.Tidy)
    (apart : ∀ part, ¬ (one.Changes part ∧ other.Touches part))
    (early : store.modify id kind one now = .ok first)
    (alone : store.modify id kind other now = .ok second) :
    ∃ both, first.modify id kind other now = .ok both := by
  obtain ⟨-, -, -, ⟨live, found, checked⟩, -⟩ := modify_split alone
  have condition := modify_condition? early
  obtain ⟨image, fixes, acts⟩ := modify_acts id kind one now
  have stillFound : first.checkFound id other.change = .ok () := by
    refine checkFound_ok.mpr fun field => ?_
    rcases checkFound_ok.mp found field with untouched | holds
    · exact .inl untouched
    · by_cases touched : other.Touches (.field field.key)
      · right
        rw [field?_rowsIn, acts tidy early, fixes _ fun changes => apart _ ⟨changes, touched⟩,
          ← field?_rowsIn, holds]
      · left
        have none : ∀ {value : Option Value}, ¬ value.isSome = true → value = Option.none :=
          fun unset => Option.not_isSome_iff_eq_none.mp unset
        exact ⟨none fun old => touched ⟨field, rfl, .inl old⟩,
          none fun new => touched ⟨field, rfl, .inr new⟩⟩
  obtain ⟨both, done, -⟩ := modify_yields ((isLive_of_condition condition).mpr live) stillFound
    ((checkReferences_congr condition (some id)).trans checked) now
  exact ⟨both, done⟩

/-- **Modifications of one record that touch no part in common commute.** -/
theorem modify_commutes (tidy : store.Tidy) (kinds : one.kind = other.kind)
    (apart : one.Apart other)
    (oneDone : store.modify id kind one now = .ok first)
    (otherDone : store.modify id kind other now = .ok second) :
    ∃ oneThenOther otherThenOne, first.modify id kind other now = .ok oneThenOther ∧
      second.modify id kind one now = .ok otherThenOne ∧ oneThenOther.SameRecords otherThenOne := by
  have changesApart := changes_apart kinds apart
  obtain ⟨oneThenOther, later⟩ := modify_later tidy
    (fun part both => changesApart part ⟨both.1, .inl both.2⟩) oneDone otherDone
  obtain ⟨otherThenOne, laterToo⟩ := modify_later tidy
    (fun part both => changesApart part ⟨.inl both.2, both.1⟩) otherDone oneDone
  have firstTidy := ((modify_isWrite id kind one now).written oneDone).tidy tidy
  have secondTidy := ((modify_isWrite id kind other now).written otherDone).tidy tidy
  refine ⟨oneThenOther, otherThenOne, later, laterToo, .of_parts (fun part => ?_) ?_⟩
  · obtain ⟨oneImage, oneFixes, oneActs⟩ := modify_acts id kind one now
    obtain ⟨otherImage, otherFixes, otherActs⟩ := modify_acts id kind other now
    rw [oneActs secondTidy laterToo, otherActs tidy otherDone, otherActs firstTidy later,
      oneActs tidy oneDone]
    -- one of the two leaves the part alone
    by_cases changes : one.Changes part
    · have fixed := otherFixes part fun changesToo => changesApart part ⟨changes, changesToo⟩
      rw [fixed, fixed]
    · have fixed := oneFixes part changes
      rw [fixed, fixed]
  · rw [modify_frame secondTidy laterToo, modify_frame tidy otherDone, modify_frame firstTidy later,
      modify_frame tidy oneDone]
    rfl

end Store

/-! ### Runs -/

/-- The proposal of a tag's description. -/
def Proposal.describedTag (description : String) : Proposal where
  kind := .tag
  input :=
    { Input.empty .tag with
      scalar := fun field => match field with
        | .tagDescription => .value description
        | _ => .untouched }

namespace Desk

/-- **Modifications that touch different parts commute**: two edits that modify one record, each of
which could be applied at this time, can be applied one after the other in either order, and both
orders leave the same behind. -/
theorem edits_commute (desk : Desk) (calls : List (Instant × Call)) (now : Instant)
    {oneId otherId : EditId} {one other : Edit}
    (oneStored : (desk.run calls).store.edit? oneId = some one)
    (otherStored : (desk.run calls).store.edit? otherId = some other)
    (oneModifies : one.operation = .modify) (otherModifies : other.operation = .modify)
    (target : one.target = other.target) (apart : one.details.Apart other.details)
    {oneFresh otherFresh oneTarget otherTarget : EntityId} {afterOne afterOther : Store}
    (oneApplies : one.apply oneFresh now (desk.run calls).store = .ok (oneTarget, afterOne))
    (otherApplies : other.apply otherFresh now (desk.run calls).store =
      .ok (otherTarget, afterOther)) :
    ∃ oneThenOther otherThenOne : Store,
      other.apply otherFresh now afterOne = .ok (otherTarget, oneThenOther) ∧
      one.apply oneFresh now afterOther = .ok (oneTarget, otherThenOne) ∧
      oneThenOther.SameRecords otherThenOne := by
  have tidy := desk.run_tidy calls
  have oneFits := desk.run_kindsFit calls oneId one oneStored
  have otherFits := desk.run_kindsFit calls otherId other otherStored
  unfold Edit.apply at oneApplies otherApplies ⊢
  rw [oneModifies] at oneApplies ⊢
  rw [otherModifies] at otherApplies ⊢
  obtain ⟨aimed, aims, oneApplies⟩ := Except.bind_ok.mp oneApplies
  obtain ⟨_, oneDone, finish⟩ := Except.bind_ok.mp oneApplies
  cases finish
  obtain ⟨alsoAimed, aimsToo, otherApplies⟩ := Except.bind_ok.mp otherApplies
  obtain ⟨_, otherDone, finish⟩ := Except.bind_ok.mp otherApplies
  cases finish
  have sameTarget : otherTarget = oneTarget := Option.some.inj
    ((Edit.requireTarget_ok.mp aimsToo).symm.trans
      (target.symm.trans (Edit.requireTarget_ok.mp aims)))
  subst sameTarget
  obtain ⟨-, -, -, ⟨oneLive, -, -⟩, -⟩ := Store.modify_split oneDone
  obtain ⟨-, -, -, ⟨otherLive, -, -⟩, -⟩ := Store.modify_split otherDone
  have kinds := oneLive.kind_unique otherLive
  rw [← kinds] at otherDone ⊢
  obtain ⟨oneThenOther, otherThenOne, later, laterToo, same⟩ := Store.modify_commutes tidy
    (oneFits.trans (kinds.trans otherFits.symm)) apart oneDone otherDone
  refine ⟨oneThenOther, otherThenOne, Except.bind_ok.mpr ⟨_, aimsToo, ?_⟩,
    Except.bind_ok.mpr ⟨_, aims, ?_⟩, same⟩
  · exact Except.bind_ok.mpr ⟨oneThenOther, later, rfl⟩
  · exact Except.bind_ok.mpr ⟨otherThenOne, laterToo, rfl⟩

/-- A tag is made, and it is proposed to describe it and to give it another name. -/
def describedTag : List (Clock × Call) :=
  staffed ++ accepted 1 2 (.create (.namedTag "outdoors")) ++
    [(⟨2⟩, .createEdit ⟨Uuid.serial 0⟩ (.modify ⟨Uuid.serial 3⟩ (.describedTag "not indoors"))),
      (⟨2⟩, .createEdit ⟨Uuid.serial 0⟩ (.modify ⟨Uuid.serial 3⟩ (.namedTag "open air")))]

theorem describedTag_commutes : ∃ (one other : Edit) (oneTarget otherTarget : EntityId)
    (afterOne afterOther oneThenOther otherThenOne : Store),
    ((swift.run (timed describedTag)).store.edit? ⟨Uuid.serial 4⟩ = some one ∧
      (swift.run (timed describedTag)).store.edit? ⟨Uuid.serial 5⟩ = some other ∧
      one.details.Apart other.details) ∧
    one.apply ⟨Uuid.serial 6⟩ (Clock.now ⟨3⟩) (swift.run (timed describedTag)).store =
      .ok (oneTarget, afterOne) ∧
    other.apply ⟨Uuid.serial 6⟩ (Clock.now ⟨3⟩) (swift.run (timed describedTag)).store =
      .ok (otherTarget, afterOther) ∧
    other.apply ⟨Uuid.serial 6⟩ (Clock.now ⟨3⟩) afterOne = .ok (otherTarget, oneThenOther) ∧
    one.apply ⟨Uuid.serial 6⟩ (Clock.now ⟨3⟩) afterOther = .ok (oneTarget, otherThenOne) ∧
    oneThenOther.SameRecords otherThenOne := by
  have proposed : ((swift.run (timed describedTag)).store.edit? ⟨Uuid.serial 4⟩).any (fun one =>
      ((swift.run (timed describedTag)).store.edit? ⟨Uuid.serial 5⟩).any fun other =>
        decide (one.operation = .modify ∧ other.operation = .modify ∧ one.target = other.target ∧
          one.details.Apart other.details) &&
        (one.apply ⟨Uuid.serial 6⟩ (Clock.now ⟨3⟩) (swift.run (timed describedTag)).store).toBool &&
        (other.apply ⟨Uuid.serial 6⟩ (Clock.now ⟨3⟩)
          (swift.run (timed describedTag)).store).toBool) = true := by
    decide +kernel
  obtain ⟨one, oneStored, rest⟩ := (Option.any_eq_true ..).mp proposed
  obtain ⟨other, otherStored, rest⟩ := (Option.any_eq_true ..).mp rest
  obtain ⟨both, otherSucceeds⟩ := Bool.and_eq_true_iff.mp rest
  obtain ⟨state, oneSucceeds⟩ := Bool.and_eq_true_iff.mp both
  obtain ⟨oneModifies, otherModifies, target, apart⟩ := of_decide_eq_true state
  cases oneApplies : one.apply ⟨Uuid.serial 6⟩ (Clock.now ⟨3⟩)
      (swift.run (timed describedTag)).store with
  | error error =>
    rw [oneApplies] at oneSucceeds
    cases oneSucceeds
  | ok oneResult =>
    cases otherApplies : other.apply ⟨Uuid.serial 6⟩ (Clock.now ⟨3⟩)
        (swift.run (timed describedTag)).store with
    | error error =>
      rw [otherApplies] at otherSucceeds
      cases otherSucceeds
    | ok otherResult =>
      obtain ⟨oneThenOther, otherThenOne, later, laterToo, same⟩ := edits_commute swift
        (timed describedTag) (Clock.now ⟨3⟩) oneStored otherStored oneModifies otherModifies target
        apart oneApplies otherApplies
      exact ⟨one, other, oneResult.1, otherResult.1, oneResult.2, otherResult.2, oneThenOther,
        otherThenOne, ⟨oneStored, otherStored, apart⟩, oneApplies, otherApplies, later, laterToo, same⟩

end Desk

end Curation
