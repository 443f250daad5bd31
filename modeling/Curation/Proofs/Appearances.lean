/-
**What scenes show of a performer.** A scene shows the credit of its link to a performer, or else
the performer's name. An edit of a performer that votes may settle at once does not change this,
blanks apart: it leaves the name alone, or changes blanks around it, or keeps the old name as the
credit. The exception is an edit that takes the name away, after which nothing is left to show.

* `Store.shownCredit?`: what a scene shows, and `Store.modify_shows`: what a modification leaves of
  it;
* `Desk.run_shows`: what an edit that is not destructive leaves of it, after every run;
* `Desk.namelessPerformer_shows`: a run in which a credit is lost.
-/

import Curation.Proofs.Footprint
import Curation.Proofs.Merging
import Curation.Proofs.Sufficiency

namespace Curation

/-! ### Blanks -/

namespace Text

/-- What is left between the blanks starts and ends with others. -/
theorem trimChars_trimChars (characters : List Char) :
    trimChars (trimChars characters) = trimChars characters := by
  show List.rdropWhile isBlank (List.dropWhile isBlank (List.rdropWhile isBlank
    (List.dropWhile isBlank characters))) =
      List.rdropWhile isBlank (List.dropWhile isBlank characters)
  have leads :
      List.dropWhile isBlank (List.rdropWhile isBlank (List.dropWhile isBlank characters)) =
      List.rdropWhile isBlank (List.dropWhile isBlank characters) := by
    cases kept : List.rdropWhile isBlank (List.dropWhile isBlank characters) with
    | nil => rfl
    | cons first others =>
      obtain ⟨tail, parts⟩ := List.rdropWhile_prefix isBlank (List.dropWhile isBlank characters)
      rw [kept] at parts
      have visible := List.head?_dropWhile_not isBlank characters
      rw [← parts] at visible
      exact List.dropWhile_cons_of_neg (Bool.eq_false_iff.mp visible)
  rw [leads, List.rdropWhile_idempotent]

theorem trim_trim (text : String) : trim (trim text) = trim text := by
  unfold trim
  rw [String.toList_ofList, trimChars_trimChars]

end Text

/-- Details take the name of a performer away. -/
def Details.clearsName : Details → Bool
  | ⟨.performer, change⟩ =>
    (change.old.scalar .performerName).isSome && (change.new.scalar .performerName).isNone
  | _ => false

namespace Store

variable {store after : Store} {id scene : EntityId} {now : Instant}

/-- **What a scene shows for a performer**: the credit of the link, or else the performer's name. -/
def shownCredit? (store : Store) (scene performer : EntityId) : Option String :=
  (store.credit? .scenePerformer scene performer).bind fun credit =>
    credit.or (store.performerName? performer)

/-- What a scene shows can be read off the catalogue. -/
theorem shownCredit?_congr (same : store.SameCatalogue after) (scene performer : EntityId) :
    after.shownCredit? scene performer = store.shownCredit? scene performer := by
  rw [same]
  rfl

/-- The name of a performer after a modification. -/
theorem modify_performerName? {change : Change .performer} (tidy : store.Tidy)
    (done : store.modify id .performer ⟨.performer, change⟩ now = .ok after) :
    after.performerName? id = (change.new.scalar .performerName).or
      (if (change.old.scalar .performerName).isSome then none else store.performerName? id) := by
  have name := modify_field? tidy done Field.performerName
  unfold performerName?
  rw [name]
  show ((((change.new.scalar .performerName).map Value.text).or
    (if ((change.old.scalar .performerName).map Value.text).isSome = true then none
      else store.field? id Field.performerName.key)).bind Value.text?) = _
  rw [Option.isSome_map]
  cases change.new.scalar .performerName with
  | some name => rfl
  | none =>
    split <;> rfl

/-- A modification that touches a performer's name found the name that it shows. -/
theorem modify_foundName {change : Change .performer}
    (done : store.modify id .performer ⟨.performer, change⟩ now = .ok after) :
    (change.old.scalar .performerName = none ∧ change.new.scalar .performerName = none) ∨
      store.performerName? id = change.old.scalar .performerName := by
  obtain ⟨-, -, -, ⟨-, found, -⟩, -⟩ := modify_split done
  rcases checkFound_ok.mp found Field.performerName with untouched | holds
  · exact .inl ⟨Option.map_eq_none_iff.mp untouched.1, Option.map_eq_none_iff.mp untouched.2⟩
  · right
    unfold performerName?
    rw [holds]
    show (Option.map Value.text (change.old.scalar .performerName)).bind Value.text? = _
    cases change.old.scalar .performerName <;> rfl

/-- The credits of a performer's links after a modification. -/
theorem modify_credit? {change : Change .performer} (tidy : store.Tidy)
    (done : store.modify id .performer ⟨.performer, change⟩ now = .ok after) (scene : EntityId) :
    after.credit? .scenePerformer scene id =
      (store.credit? .scenePerformer scene id).map (renamedBy ⟨.performer, change⟩) := by
  refine credit?_mapEdges (modify_edges tidy.edges Kind.noConfusion done)
    (ends_recredit id (renamedBy ⟨.performer, change⟩)) fun edge ends => ?_
  have leads : edge.association = .scenePerformer ∧ edge.target = id :=
    ⟨congrArg Prod.fst ends, congrArg (fun ends => ends.2.2) ends⟩
  exact congrArg Edge.credit (if_pos leads)

/-- **Keeping the old name as the credit keeps what is shown** when the new name takes its place. -/
theorem renamedCredit_shows (oldName newName : String) (credit : Option String) :
    (renamedCredit (some oldName) (some newName) credit).or (some newName) =
      credit.or (some oldName) := by
  by_cases same : oldName = newName
  · rw [renamedCredit_trivial (.inr (.inr (congrArg some same))), same]
    rfl
  · have renames : ¬ (some oldName = none ∨ some newName = none ∨ some oldName = some newName) := by
      simp [same]
    unfold renamedCredit
    rw [if_neg renames]
    cases credit with
    | none => rfl
    | some credit =>
      dsimp only
      split
      next hides => exact hides.symm
      next => rfl

/-- **A modification that votes may settle at once leaves what scenes show**, blanks apart, unless
it takes away the name that a scene shows. -/
theorem modify_shows {change : Change .performer} (tidy : store.Tidy)
    (harmless : Policy.dropsName change = false)
    (done : store.modify id .performer ⟨.performer, change⟩ now = .ok after) {credit : String}
    (shown : store.shownCredit? scene id = some credit)
    (named : Details.clearsName ⟨.performer, change⟩ = true →
      store.credit? .scenePerformer scene id ≠ some none) :
    ∃ later, after.shownCredit? scene id = some later ∧ Text.trim later = Text.trim credit := by
  obtain ⟨linked, known, shows⟩ := Option.bind_eq_some_iff.mp shown
  have before := modify_foundName done
  unfold shownCredit?
  rw [modify_credit? tidy done scene, known, Option.map_some, Option.bind_some,
    modify_performerName? tidy done]
  unfold renamedBy
  unfold Policy.dropsName at harmless
  dsimp only
  cases new : change.new.scalar .performerName with
  | none =>
    rw [renamedCredit_trivial (.inr (.inl rfl)), ite_self, Option.none_or]
    cases old : change.old.scalar .performerName with
    | none => exact ⟨credit, shows, rfl⟩
    | some oldName =>
      -- the name is taken away, and the link has a credit of its own
      cases linked with
      | none =>
        refine absurd known (named ?_)
        show ((change.old.scalar .performerName).isSome &&
          (change.new.scalar .performerName).isNone) = true
        rw [old, new]
        rfl
      | some own =>
        cases shows
        exact ⟨credit, rfl, rfl⟩
  | some newName =>
    have name : store.performerName? id = change.old.scalar .performerName := by
      rcases before with ⟨-, none⟩ | name
      · rw [new] at none
        cases none
      · exact name
    rw [name] at shows
    rw [Option.some_or]
    cases old : change.old.scalar .performerName with
    | none =>
      rw [renamedCredit_trivial (.inl rfl), ite_self]
      rw [old, Option.or_none] at shows
      exact ⟨credit, by rw [shows]; rfl, rfl⟩
    | some oldName =>
      rw [old] at shows
      by_cases keeps : change.modifyAliases = true
      · rw [if_pos keeps, renamedCredit_shows]
        exact ⟨credit, shows, rfl⟩
      · rw [if_neg keeps]
        cases linked with
        | some own => exact ⟨credit, shows, rfl⟩
        | none =>
          cases shows
          rw [new, old] at harmless
          have blanks : Text.trim credit = newName := by simpa [keeps] using harmless
          exact ⟨newName, rfl, by rw [← blanks, Text.trim_trim]⟩

end Store

/-! ### Runs -/

/-- The proposal of a performer's name. -/
def Proposal.namedPerformer (name : Request String) (modifyAliases : Bool) : Proposal where
  kind := .performer
  input :=
    { Input.empty .performer with
      scalar := fun field => match field with
        | .performerName => name
        | _ => .untouched
      modifyAliases }

/-- The proposal of a scene with a title and one performer, who is credited by name. -/
def Proposal.performedScene (title : String) (performer : EntityId) : Proposal where
  kind := .scene
  input :=
    { Input.empty .scene with
      scalar := fun field => match field with
        | .sceneTitle => .value title
        | _ => .untouched
      links := fun link => match link with
        | .sceneTags => .none
        | .scenePerformers => ⟨[⟨performer, none⟩], []⟩ }

namespace Desk

/-- **An edit of a performer that votes may settle at once leaves what scenes show**, blanks apart,
whatever was done before and in whichever call the edit is applied, except where a scene shows the
name and the edit takes it away. The transaction `step` of the call applies it, after the others in
`first`, which are none unless the call is a sweep. -/
theorem run_shows (desk : Desk) (calls : List (Instant × Call)) (now : Instant) (call : Call)
    {id : EditId} {edit applied : Edit}
    (found : (desk.run calls).store.edit? id = some edit) (pending : edit.isPending = true)
    (modifies : edit.operation = .modify) (performer : edit.kind = .performer)
    (harmless : Policy.standard edit = false)
    (later : (desk.run (calls ++ [(now, call)])).store.edit? id = some applied)
    (settled : applied.status.isApplied = true) :
    ∃ first step rest target,
      desk.transactions now (desk.run calls) call = first ++ (now, step) :: rest ∧
      edit.target = some target ∧
      ∀ scene credit, (desk.run (calls ++ first)).store.shownCredit? scene target = some credit →
        (edit.details.clearsName = true →
          (desk.run (calls ++ first)).store.credit? .scenePerformer scene target ≠ some none) →
        ∃ shown,
          (desk.run (calls ++ first ++ [(now, step)])).store.shownCredit? scene target =
            some shown ∧
          Text.trim shown = Text.trim credit := by
  obtain ⟨first, step, rest, standing, performed, single, before?, waits, asks, after?⟩ :=
    desk.run_application calls now call found pending later settled
  rw [← asks.operation] at modifies
  have kind := (desk.run_kindsFit (calls ++ first) id standing before?).trans
    (asks.kind.trans performer)
  rw [← asks.target, ← asks.details]
  rw [← asks.kind] at performer
  have harmlessStill : Policy.standard standing = false := by
    unfold Policy.standard at harmless ⊢
    rwa [asks.operation, asks.details]
  rw [run_concat] at after?
  obtain ⟨fresh, target, store, applies, same, -⟩ :=
    (desk.turn now _ single).application before? waits after? settled
  unfold Edit.apply at applies
  rw [modifies] at applies
  obtain ⟨aimed, targeted, modifying⟩ := Except.bind_ok.mp applies
  obtain ⟨_, done, finish⟩ := Except.bind_ok.mp modifying
  cases finish
  have aims := Edit.requireTarget_ok.mp targeted
  refine ⟨first, step, rest, target, performed, aims, fun scene credit shown named => ?_⟩
  rw [run_concat, Store.shownCredit?_congr same]
  unfold Policy.standard at harmlessStill
  rw [modifies] at harmlessStill
  rw [performer] at done
  generalize standing.details = details at kind done named harmlessStill
  obtain ⟨detailsKind, change⟩ := details
  cases kind
  exact Store.modify_shows (desk.run_tidy _) harmlessStill done shown named

/-- A performer is made, and a scene which shows her by name. -/
def performedScene : List (Clock × Call) :=
  staffed ++ accepted 1 2 (.create (.namedPerformer (.value "Jane") false)) ++
    accepted 2 4 (.create (.performedScene "beach" ⟨Uuid.serial 3⟩))

/-- It is proposed to rename her and to keep her old name on scenes. -/
def renamedPerformer : List (Clock × Call) :=
  performedScene ++ [(⟨3⟩, .createEdit ⟨Uuid.serial 0⟩
    (.modify ⟨Uuid.serial 3⟩ (.namedPerformer (.value "Janet") true)))]

theorem renamedPerformer_shows : ∃ shown,
    (swift.run (timed renamedPerformer ++ [(Clock.now ⟨4⟩,
      .vote ⟨Uuid.serial 1⟩ ⟨Uuid.serial 6⟩ .accept)])).store.shownCredit? ⟨Uuid.serial 5⟩
        ⟨Uuid.serial 3⟩ = some shown ∧ Text.trim shown = "Jane" := by
  have proposed : ((swift.run (timed renamedPerformer)).store.edit? ⟨Uuid.serial 6⟩).any
      (fun edit =>
      decide (edit.isPending = true ∧ edit.operation = .modify ∧ edit.kind = .performer ∧
        edit.target = some ⟨Uuid.serial 3⟩ ∧ Policy.standard edit = false ∧
        edit.details.clearsName = false)) = true := by
    decide +kernel
  have accepted : ((swift.run (timed renamedPerformer ++ [(Clock.now ⟨4⟩,
      .vote ⟨Uuid.serial 1⟩ ⟨Uuid.serial 6⟩ .accept)])).store.edit? ⟨Uuid.serial 6⟩).any
        (fun edit => edit.status.isApplied) = true := by
    decide +kernel
  have shows : (swift.run (timed renamedPerformer)).store.shownCredit? ⟨Uuid.serial 5⟩
      ⟨Uuid.serial 3⟩ = some "Jane" := by
    decide +kernel
  obtain ⟨edit, found, state⟩ := (Option.any_eq_true ..).mp proposed
  obtain ⟨pending, modifies, performer, aims, harmless, named⟩ := of_decide_eq_true state
  obtain ⟨applied, later, settled⟩ := (Option.any_eq_true ..).mp accepted
  obtain ⟨first, step, rest, target, performed, aimed, kept⟩ := run_shows swift
    (timed renamedPerformer) (Clock.now ⟨4⟩) (.vote ⟨Uuid.serial 1⟩ ⟨Uuid.serial 6⟩ .accept) found
    pending modifies performer harmless later settled
  obtain ⟨rfl, rfl, -⟩ := transactions_single rfl performed
  cases aims.symm.trans aimed
  rw [List.append_nil] at kept
  obtain ⟨shown, showsStill, same⟩ := kept ⟨Uuid.serial 5⟩ "Jane" shows fun clears =>
    absurd clears (Bool.eq_false_iff.mp named)
  exact ⟨shown, showsStill, same.trans (by decide)⟩

/-- It is proposed to take her name away. -/
def namelessPerformer : List (Clock × Call) :=
  performedScene ++ [(⟨3⟩, .createEdit ⟨Uuid.serial 0⟩
    (.modify ⟨Uuid.serial 3⟩ (.namedPerformer .cleared true)))]

theorem namelessPerformer_shows :
    ((swift.run (timed namelessPerformer)).store.edit? ⟨Uuid.serial 6⟩).map (fun edit =>
        (edit.isPending, edit.operation, edit.kind, Policy.standard edit)) =
      some (true, .modify, .performer, false) ∧
    (swift.run (timed namelessPerformer)).store.shownCredit? ⟨Uuid.serial 5⟩ ⟨Uuid.serial 3⟩ =
      some "Jane" ∧
    ((swift.run (timed namelessPerformer ++ [(Clock.now ⟨4⟩,
      .vote ⟨Uuid.serial 1⟩ ⟨Uuid.serial 6⟩ .accept)])).store.edit? ⟨Uuid.serial 6⟩).map
        Edit.status = some .accepted ∧
    (swift.run (timed namelessPerformer ++ [(Clock.now ⟨4⟩,
      .vote ⟨Uuid.serial 1⟩ ⟨Uuid.serial 6⟩ .accept)])).store.shownCredit? ⟨Uuid.serial 5⟩
        ⟨Uuid.serial 3⟩ = none := by
  decide +kernel

end Desk

end Curation
