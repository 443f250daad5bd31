/-
**Credits survive where that is asked for.** A scene shows the credit of its link to a performer, or
else the performer's name. If the details of a renaming ask for it, every scene of the performer shows
afterwards what it showed before; if those of a merge ask for it, so does every scene that comes with a
source. In both cases no such link is left with the performer's own name as its credit.

* `Store.renamedCredit_shows`, `Store.mergedCredit_shows`: what the two rewritings of a credit show,
  and `Store.renamedCredit_apart`, `Store.mergedCredit_apart`: that they are not the name;
* `Store.modify_keepsCredits`: renamings, and `Store.merge_carriesCredits`: merges, of which the
  modification of the target is the first step and may rename it;
* `Desk.run_keepsCredits`: both, wherever they are applied.

Since edits show only names that differ, a renaming has two names that do: `Desk.renames_apart`.
-/

import Curation.Proofs.Appearances
import Curation.Proofs.Conflicts

namespace Curation

/-- The old and the new name of a performer whose old name is to be kept on scenes. -/
def Details.renames? : Details → Option (String × String)
  | ⟨.performer, change⟩ =>
    if change.modifyAliases then
      (change.old.scalar .performerName).bind fun oldName =>
        (change.new.scalar .performerName).map fun newName => (oldName, newName)
    else none
  | _ => none

/-- What details show of a renaming that keeps the old name. -/
theorem Details.renames?_eq {details : Details} {oldName newName : String}
    (renames : details.renames? = some (oldName, newName)) :
    ∃ change : Change .performer, details = ⟨.performer, change⟩ ∧ change.modifyAliases = true ∧
      change.old.scalar .performerName = some oldName ∧
      change.new.scalar .performerName = some newName := by
  obtain ⟨kind, change⟩ := details
  cases kind with
  | performer =>
    unfold renames? at renames
    dsimp only at renames
    by_cases keeps : change.modifyAliases = true
    · rw [if_pos keeps] at renames
      obtain ⟨old, shows, later⟩ := Option.bind_eq_some_iff.mp renames
      obtain ⟨new, proposes, same⟩ := Option.map_eq_some_iff.mp later
      cases same
      exact ⟨change, rfl, keeps, shows, proposes⟩
    · rw [if_neg keeps] at renames
      cases renames
  | tag => cases renames
  | studio => cases renames
  | scene => cases renames

/-- Only a merge of performers can keep names. -/
theorem Store.keepsNames_kind {details : Details} (keeps : Store.keepsNames details = true) :
    details.kind = .performer := by
  obtain ⟨kind, change⟩ := details
  cases kind with
  | performer => rfl
  | tag => cases keeps
  | studio => cases keeps
  | scene => cases keeps

namespace Store

variable {store after : Store} {id target : EntityId} {sources : List EntityId} {details : Details}
  {oldName newName : String} {sourceName targetName credit : Option String} {now : Instant}

/-! ### One credit -/

/-- A credit that was rewritten for a renaming is not the new name. -/
theorem renamedCredit_apart (differ : oldName ≠ newName) :
    renamedCredit (some oldName) (some newName) credit ≠ some newName := by
  have renames : ¬ (some oldName = none ∨ some newName = none ∨ some oldName = some newName) := by
    simp [differ]
  unfold renamedCredit
  rw [if_neg renames]
  cases credit with
  | none => exact fun same => differ (Option.some.inj same)
  | some credit =>
    dsimp only
    split
    next => exact nofun
    next other => exact other

/-- **A credit that was rewritten for a merge shows with the target's name what it showed with the
source's.** -/
theorem mergedCredit_shows {shown : String} (shows : credit.or sourceName = some shown) :
    (mergedCredit sourceName targetName credit).or targetName = some shown := by
  unfold mergedCredit
  rw [shows, Option.filter_some]
  by_cases same : some shown = targetName
  · rw [if_neg (by simp [same]), Option.none_or, same]
  · rw [if_pos (decide_eq_true same), Option.some_or]

/-- It is not the target's name. -/
theorem mergedCredit_apart {name : String}
    (credited : mergedCredit sourceName targetName credit = some name) : some name ≠ targetName := by
  obtain ⟨-, differs⟩ := Option.filter_eq_some_iff.mp credited
  exact of_decide_eq_true differs

/-! ### Renamings -/

/-- **What scenes show of a performer is the same before and after it was renamed**, and no credit is
its new name. -/
structure KeepsCredits (before after : Store) (performer : EntityId) (name : String) : Prop where
  named : after.performerName? performer = some name
  linked : ∀ scene, after.IsLinked .scenePerformer scene performer ↔
    before.IsLinked .scenePerformer scene performer
  shown : ∀ scene, after.shownCredit? scene performer = before.shownCredit? scene performer
  apart : ∀ scene, after.credit? .scenePerformer scene performer ≠ some (some name)

theorem KeepsCredits.congr {later : Store} {name : String} (keeps : store.KeepsCredits after id name)
    (same : after.SameCatalogue later) : store.KeepsCredits later id name := by
  rw [same]
  exact ⟨keeps.named, keeps.linked, keeps.shown, keeps.apart⟩

/-- **A renaming that is to keep the old name keeps what scenes show.** -/
theorem modify_keepsCredits {change : Change .performer} (tidy : store.Tidy)
    (keeps : change.modifyAliases = true) (old : change.old.scalar .performerName = some oldName)
    (new : change.new.scalar .performerName = some newName) (differ : oldName ≠ newName)
    (done : store.modify id .performer ⟨.performer, change⟩ now = .ok after) :
    store.KeepsCredits after id newName := by
  have before : store.performerName? id = some oldName := by
    rcases modify_foundName done with ⟨unshown, -⟩ | found
    · rw [old] at unshown
      cases unshown
    · rw [found, old]
  have named : after.performerName? id = some newName := by
    rw [modify_performerName? tidy done, new, Option.some_or]
  have rewritten : renamedBy ⟨.performer, change⟩ = renamedCredit (some oldName) (some newName) := by
    unfold renamedBy
    dsimp only
    rw [if_pos keeps, old, new]
  have credits : ∀ scene, after.credit? .scenePerformer scene id =
      (store.credit? .scenePerformer scene id).map
        (renamedCredit (some oldName) (some newName)) := by
    intro scene
    rw [modify_credit? tidy done scene, rewritten]
  refine ⟨named, fun scene => ?_, fun scene => ?_, fun scene credited => ?_⟩
  · rw [isLinked_iff, isLinked_iff, credits, Option.isSome_map]
  · unfold shownCredit?
    rw [credits, before, named, Option.bind_map]
    refine congrArg _ (funext fun credit => ?_)
    exact renamedCredit_shows oldName newName credit
  · rw [credits] at credited
    obtain ⟨credit, -, same⟩ := Option.map_eq_some_iff.mp credited
    exact renamedCredit_apart differ same

/-! ### Merges -/

/-- **A scene comes to the target of a merge with a source**: it was linked to that source, and neither
to the target nor to a source that was listed earlier. -/
structure ComesWith (store : Store) (target : EntityId) (earlier : List EntityId)
    (source scene : EntityId) : Prop where
  linked : store.IsLinked .scenePerformer scene source
  apart : ¬ store.IsLinked .scenePerformer scene target
  first : ∀ other ∈ earlier, ¬ store.IsLinked .scenePerformer scene other

/-- **What a scene shows that comes to the target of a merge is the same before and after**, and its
credit is not the target's name. -/
structure CarriesCredits (before after : Store) (target : EntityId) (sources : List EntityId)
    (name : Option String) : Prop where
  named : after.performerName? target = name
  shown : ∀ earlier source rest scene, sources = earlier ++ source :: rest →
    before.ComesWith target earlier source scene →
      ∀ shown, before.shownCredit? scene source = some shown →
        after.shownCredit? scene target = some shown
  apart : ∀ earlier source rest scene, sources = earlier ++ source :: rest →
    before.ComesWith target earlier source scene →
      ∀ credit, after.credit? .scenePerformer scene target = some (some credit) → some credit ≠ name

theorem CarriesCredits.congr {later : Store} {name : Option String}
    (carries : store.CarriesCredits after target sources name) (same : after.SameCatalogue later) :
    store.CarriesCredits later target sources name := by
  rw [same]
  exact ⟨carries.named, carries.shown, carries.apart⟩

/-- The link of a scene that comes with a source is the first that is found. -/
theorem ComesWith.carried {modified : Store} {earlier rest : List EntityId} {source scene : EntityId}
    (comes : store.ComesWith target earlier source scene)
    (merged : LinksMerged store modified after .scenePerformer target (earlier ++ source :: rest)
      details) :
    ∃ credit, store.credit? .scenePerformer scene source = some credit ∧
      after.credit? .scenePerformer scene target = some (details.movedCredit
        (modified.performerName? source) (modified.performerName? target) credit) := by
  obtain ⟨credit, known⟩ := Option.isSome_iff_exists.mp (isLinked_iff.mp comes.linked)
  have earlierNone : (earlier.findSome? fun other =>
      (store.credit? .scenePerformer scene other).map (details.movedCredit
        (modified.performerName? other) (modified.performerName? target))) = none := by
    rw [List.findSome?_eq_none_iff]
    intro other listed
    rw [Option.map_eq_none_iff, ← Option.not_isSome_iff_eq_none, ← isLinked_iff]
    exact comes.first other listed
  refine ⟨credit, known, ?_⟩
  rw [merged.carried scene comes.apart, List.findSome?_append, earlierNone, Option.none_or,
    List.findSome?_cons, known, Option.map_some]

/-- A modification leaves the names of other performers alone. -/
theorem modify_otherName {kind : Kind} (tidy : store.Tidy)
    (done : store.modify target kind details now = .ok after) (other : id ≠ target) :
    after.performerName? id = store.performerName? id := by
  obtain ⟨linked, touches, rfl⟩ := modify_touches tidy done
  exact congrArg (Option.bind · Value.text?) (touches.fields id _ other)

/-- **A merge that is to keep names keeps what the scenes show that come with a source.** -/
theorem merge_carriesCredits (sound : store.Sound) (tidy : store.Tidy) (distinct : sources.Nodup)
    (unlisted : target ∉ sources) (keeps : keepsNames details = true)
    (admitted : details.change.IsAdmitted)
    (done : store.merge target sources .performer details now = .ok after) :
    ∃ modified, store.modify target .performer details now = .ok modified ∧
      store.CarriesCredits after target sources (modified.performerName? target) := by
  have same : details.kind = Association.scenePerformer.linked := keepsNames_kind keeps
  obtain ⟨modified, modifying, merged⟩ :=
    merge_linksMerged sound tidy distinct unlisted same admitted done
  obtain ⟨_, alsoModifying, moves⟩ :=
    merge_mergesLinks sound tidy distinct unlisted same admitted done
  cases modifying.symm.trans alsoModifying
  have named : after.performerName? target = modified.performerName? target :=
    performerName?_congr moves.fields target
  have moved (sourceName targetName credit : Option String) :
      details.movedCredit sourceName targetName credit =
        mergedCredit sourceName targetName credit := if_pos keeps
  refine ⟨modified, modifying, named, ?_, ?_⟩
  · rintro earlier source rest scene rfl comes shown shows
    obtain ⟨credit, known, carried⟩ := comes.carried merged
    have other : source ≠ target := by
      rintro rfl
      exact unlisted (List.mem_append_right _ List.mem_cons_self)
    have sourceName := modify_otherName tidy modifying other
    unfold shownCredit? at shows ⊢
    rw [known, Option.bind_some] at shows
    rw [carried, Option.bind_some, named, moved, sourceName]
    exact mergedCredit_shows shows
  · rintro earlier source rest scene rfl comes credit credited
    obtain ⟨own, -, carried⟩ := comes.carried merged
    rw [carried, moved] at credited
    exact mergedCredit_apart (Option.some.inj credited)

end Store

/-! ### Runs -/

namespace Desk

/-- A pending modification shows two names only if they differ. -/
theorem renames_apart (desk : Desk) (calls : List (Instant × Call)) {id : EditId} {edit : Edit}
    {target : EntityId} {oldName newName : String}
    (found : (desk.run calls).store.edit? id = some edit) (pending : edit.isPending = true)
    (modifies : edit.operation = .modify) (aims : edit.target = some target)
    (renames : edit.details.renames? = some (oldName, newName)) : oldName ≠ newName := by
  obtain ⟨draft, drafted, -⟩ := desk.run_drafted calls id edit found pending
  obtain ⟨change, shows, -, old, new⟩ := Details.renames?_eq renames
  have touches : edit.details.Touches (.field Field.performerName.key) := by
    rw [shows]
    refine ⟨Field.performerName, rfl, .inl ?_⟩
    show ((change.old.scalar .performerName).map Value.text).isSome = true
    rw [old]
    rfl
  have differs : ∃ field : Field edit.details.kind, field.key = Field.performerName.key ∧
      edit.details.change.new.value? field ≠ edit.details.change.old.value? field := by
    obtain ⟨field, named, -, finds, proposes⟩ :=
      drafted.field (desk.run_sound _) (desk.run_typed _) modifies aims touches
    exact ⟨field, named, finds ▸ proposes⟩
  rw [shows] at differs
  obtain ⟨field, named, differs⟩ := differs
  cases Field.key_inj named
  intro same
  refine differs ?_
  show (change.new.scalar .performerName).map Value.text =
    (change.old.scalar .performerName).map Value.text
  rw [old, new, same]

/-- **Credits survive where that is asked for**, whatever was done before and in whichever call the edit
is applied: a renaming that keeps the old name leaves what the scenes of the performer show, and a
merge that keeps names what the scenes show that come to its target. The transaction `step` of the call
applies the edit, after the others in `first`, which are none unless the call is a sweep; the store
`modified` is what the modification of the target, with which a merge begins, makes of the store
before. -/
theorem run_keepsCredits (desk : Desk) (calls : List (Instant × Call)) (now : Instant) (call : Call)
    {id : EditId} {edit applied : Edit}
    (found : (desk.run calls).store.edit? id = some edit) (pending : edit.isPending = true)
    (later : (desk.run (calls ++ [(now, call)])).store.edit? id = some applied)
    (settled : applied.status.isApplied = true) :
    ∃ first step rest,
      desk.transactions now (desk.run calls) call = first ++ (now, step) :: rest ∧
      (edit.operation = .modify → ∀ oldName newName,
        edit.details.renames? = some (oldName, newName) → ∃ target,
          edit.target = some target ∧
          (desk.run (calls ++ first)).store.KeepsCredits
            (desk.run (calls ++ first ++ [(now, step)])).store target newName) ∧
      (edit.operation = .merge → Store.keepsNames edit.details = true → ∃ target modified,
        edit.target = some target ∧
        (desk.run (calls ++ first)).store.modify target .performer edit.details now = .ok modified ∧
        (desk.run (calls ++ first)).store.CarriesCredits
          (desk.run (calls ++ first ++ [(now, step)])).store target edit.sources
          (modified.performerName? target)) := by
  obtain ⟨first, step, rest, standing, fresh, target, store, performed, before?, waits, asks, applies,
    same, -⟩ := desk.run_applies calls now call found pending later settled
  have kind := desk.run_kindsFit (calls ++ first) id standing before?
  have proper := desk.pending_proper (calls ++ first) id standing before? waits
  rw [← asks.operation, ← asks.target, ← asks.sources, ← asks.details]
  have writes := Edit.apply_ok.mp applies
  refine ⟨first, step, rest, performed, fun modifies oldName newName renames => ?_,
    fun merges keeps => ?_⟩
  · rw [modifies] at writes
    obtain ⟨aims, done⟩ := writes
    have differ := desk.renames_apart (calls ++ first) before? waits modifies aims renames
    obtain ⟨change, shows, keeps, old, new⟩ := Details.renames?_eq renames
    rw [shows] at kind done
    rw [← kind] at done
    exact ⟨target, aims,
      (Store.modify_keepsCredits (desk.run_tidy _) keeps old new differ done).congr same⟩
  · rw [merges] at writes
    obtain ⟨aims, done⟩ := writes
    rw [← kind, Store.keepsNames_kind keeps] at done
    obtain ⟨modified, modifying, carries⟩ := Store.merge_carriesCredits (desk.run_sound _)
      (desk.run_tidy _) proper.distinct (proper.sources target aims) keeps proper.admitted done
    exact ⟨target, modified, aims, modifying, carries.congr same⟩

/-- There are two performers and a scene that shows one of them by name, and it is proposed that the
other take over from her, with another name, and that her name be kept on scenes. -/
def mergedPerformers : List (Clock × Call) :=
  performedScene ++ accepted 3 6 (.create (.namedPerformer (.value "Joan") false)) ++
    [(⟨4⟩, .createEdit ⟨Uuid.serial 0⟩
      (.merge ⟨Uuid.serial 7⟩ [⟨Uuid.serial 3⟩] ⟨.performer,
        { (Proposal.namedPerformer (.value "Joanna") false).input with mergeAliases := true }⟩))]

/-- The vote by which a performer is renamed. -/
def renamingVote : Instant × Call :=
  (Clock.now ⟨4⟩, .vote ⟨Uuid.serial 1⟩ ⟨Uuid.serial 6⟩ .accept)

/-- The vote by which performers are merged. -/
def mergingVote : Instant × Call :=
  (Clock.now ⟨200000000⟩, .vote ⟨Uuid.serial 1⟩ ⟨Uuid.serial 8⟩ .accept)

theorem mergedPerformers_keepCredits :
    Store.KeepsCredits (swift.run (timed renamedPerformer)).store
      (swift.run (timed renamedPerformer ++ [renamingVote])).store ⟨Uuid.serial 3⟩ "Janet" ∧
    Store.CarriesCredits (swift.run (timed mergedPerformers)).store
      (swift.run (timed mergedPerformers ++ [mergingVote])).store ⟨Uuid.serial 7⟩ [⟨Uuid.serial 3⟩]
      (some "Joanna") ∧
    (swift.run (timed mergedPerformers ++ [mergingVote])).store.shownCredit? ⟨Uuid.serial 5⟩
      ⟨Uuid.serial 7⟩ = some "Jane" := by
  have toRename : ((swift.run (timed renamedPerformer)).store.edit? ⟨Uuid.serial 6⟩).map
      (fun edit => (edit.isPending, edit.operation, edit.target, edit.details.renames?)) =
        some (true, .modify, some ⟨Uuid.serial 3⟩, some ("Jane", "Janet")) := by
    decide +kernel
  have renamed : ((swift.run (timed renamedPerformer ++ [renamingVote])).store.edit?
      ⟨Uuid.serial 6⟩).map (fun edit => edit.status.isApplied) = some true := by
    decide +kernel
  have toMerge : ((swift.run (timed mergedPerformers)).store.edit? ⟨Uuid.serial 8⟩).map
      (fun edit => (edit.isPending, edit.operation, edit.target, edit.sources,
        Store.keepsNames edit.details)) =
        some (true, .merge, some ⟨Uuid.serial 7⟩, [⟨Uuid.serial 3⟩], true) := by
    decide +kernel
  have merged : ((swift.run (timed mergedPerformers ++ [mergingVote])).store.edit?
      ⟨Uuid.serial 8⟩).map (fun edit => edit.status.isApplied) = some true := by
    decide +kernel
  refine ⟨?_, ?_, by decide +kernel⟩
  · obtain ⟨edit, found, state⟩ := Option.map_eq_some_iff.mp toRename
    obtain ⟨applied, later, settled⟩ := Option.map_eq_some_iff.mp renamed
    simp only [Prod.mk.injEq] at state
    obtain ⟨pending, modifies, aims, renames⟩ := state
    obtain ⟨first, step, rest, performed, keeps, -⟩ := run_keepsCredits swift
      (timed renamedPerformer) renamingVote.1 renamingVote.2 found pending later settled
    obtain ⟨rfl, rfl, -⟩ := transactions_single rfl performed
    obtain ⟨target, aimed, kept⟩ := keeps modifies "Jane" "Janet" renames
    cases aims.symm.trans aimed
    rwa [List.append_nil] at kept
  · obtain ⟨edit, found, state⟩ := Option.map_eq_some_iff.mp toMerge
    obtain ⟨applied, later, settled⟩ := Option.map_eq_some_iff.mp merged
    simp only [Prod.mk.injEq] at state
    obtain ⟨pending, merges, aims, sources, keeps⟩ := state
    obtain ⟨first, step, rest, performed, -, carries⟩ := run_keepsCredits swift
      (timed mergedPerformers) mergingVote.1 mergingVote.2 found pending later settled
    obtain ⟨rfl, rfl, -⟩ := transactions_single rfl performed
    obtain ⟨target, modified, aimed, -, carried⟩ := carries merges keeps
    cases aims.symm.trans aimed
    have named : (swift.run (timed mergedPerformers ++ [mergingVote])).store.performerName?
        ⟨Uuid.serial 7⟩ = some "Joanna" := by
      decide +kernel
    have name := carried.named.symm.trans named
    rwa [List.append_nil, sources, name] at carried

end Desk

end Curation
