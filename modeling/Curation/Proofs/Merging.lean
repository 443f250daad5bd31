/-
**Merging moves every link once.** A scene that was linked to the target of a merge stays linked to
it; any other scene that was linked to some of the sources is linked to the target in place of the
first of them. Nothing else happens to links.

* `Store.MergesLinks`: what a merge of some sources does to links, closed under going on with others;
* `Store.mergeSource_mergesLinks`: the merge of one source does it;
* `Desk.merge_movesLinks`: so does every merge of tags or performers that is applied.
-/

import Curation.Proofs.Integrity
import Curation.Proofs.Modification
import Curation.Proofs.Standing

namespace Curation

/-- What is found first is the same if the same is found everywhere. -/
theorem List.findSome?_congr {α β : Type} {first second : α → Option β} {values : List α}
    (same : ∀ value ∈ values, first value = second value) :
    values.findSome? first = values.findSome? second := by
  induction values with
  | nil => rfl
  | cons value rest hypothesis =>
    rw [List.findSome?_cons, List.findSome?_cons, same value List.mem_cons_self,
      hypothesis fun other member => same other (List.mem_cons_of_mem _ member)]

theorem Association.linked_ne_scene (association : Association) : association.linked ≠ .scene := by
  cases association <;> decide

/-- The credit of a link that moves from one record to another, as the details of the merge ask. -/
def Details.movedCredit (details : Details) (sourceName targetName credit : Option String) :
    Option String :=
  if Store.keepsNames details then Store.mergedCredit sourceName targetName credit else credit

namespace Store

variable {store middle after : Store} {association : Association} {target : EntityId}
  {sources : List EntityId} {details : Details} {now : Instant}

/-- A record was removed. -/
def IsRemoved (store : Store) (id : EntityId) : Prop :=
  ∃ row, store.entity? id = some row ∧ row.deleted = true

/-- Merging some sources into a target moves their links, the first source first, and leaves all
others alone. -/
structure MergesLinks (store after : Store) (association : Association) (target : EntityId)
    (details : Details) (sources : List EntityId) : Prop where
  fields : after.fields = store.fields
  credit : ∀ scene, after.credit? association scene target =
    (store.credit? association scene target).or (sources.findSome? fun source =>
      (store.credit? association scene source).map
        (details.movedCredit (store.performerName? source) (store.performerName? target)))
  others : ∀ test : Edge → Bool,
    (∀ edge, test edge = true → edge.target ≠ target ∧ edge.target ∉ sources) →
      after.edges.filter test = store.edges.filter test
  cleared : ∀ edge ∈ after.edges, edge.target ∉ sources
  removed : ∀ source ∈ sources, after.IsRemoved source ∧ after.redirect? source = some target
  keepsRemoved : ∀ id, store.IsRemoved id → after.IsRemoved id
  redirects : ∀ id, id ∉ sources → after.redirect? id = store.redirect? id

theorem performerName?_congr {first second : Store} (fields : second.fields = first.fields)
    (performer : EntityId) : second.performerName? performer = first.performerName? performer := by
  unfold performerName? field?
  rw [fields]

namespace MergesLinks

theorem none : store.MergesLinks store association target details [] where
  fields := rfl
  credit scene := by rw [List.findSome?_nil, Option.or_none]
  others _ _ := rfl
  cleared _ _ := List.not_mem_nil
  removed _ member := (nomatch member)
  keepsRemoved _ removed := removed
  redirects _ _ := rfl

/-- One source is merged, and then others. -/
theorem cons {source : EntityId} (apart : source ∉ sources) (distinct : source ≠ target)
    (notTarget : target ∉ sources)
    (first : store.MergesLinks middle association target details [source])
    (rest : middle.MergesLinks after association target details sources) :
    store.MergesLinks after association target details (source :: sources) where
  fields := rest.fields.trans first.fields
  credit scene := by
    have later : ∀ other ∈ sources,
        middle.credit? association scene other = store.credit? association scene other := by
      intro other member
      refine credit?_of_filter (first.others _ fun edge leads => ?_)
      rw [of_decide_eq_true leads, List.mem_singleton]
      exact ⟨fun same => notTarget (same ▸ member), fun same => apart (same ▸ member)⟩
    have names := performerName?_congr first.fields
    have same : (sources.findSome? fun other => (middle.credit? association scene other).map
          (details.movedCredit (middle.performerName? other) (middle.performerName? target))) =
        sources.findSome? fun other => (store.credit? association scene other).map
          (details.movedCredit (store.performerName? other) (store.performerName? target)) := by
      refine List.findSome?_congr fun other member => ?_
      rw [later other member, names, names]
    rw [rest.credit, first.credit, same, List.findSome?_cons, List.findSome?_cons,
      List.findSome?_nil, Option.or_assoc]
    cases (store.credit? association scene source).map
      (details.movedCredit (store.performerName? source) (store.performerName? target)) <;> rfl
  others test leads := by
    refine (rest.others test fun edge passes => ?_).trans (first.others test fun edge passes => ?_)
    · exact ⟨(leads edge passes).1, fun member =>
        (leads edge passes).2 (List.mem_cons_of_mem _ member)⟩
    · refine ⟨(leads edge passes).1, fun member => (leads edge passes).2 ?_⟩
      rw [List.mem_singleton.mp member]
      exact List.mem_cons_self
  cleared edge member listed := by
    rcases List.mem_cons.mp listed with same | later
    · have kept : after.edges.filter (fun edge => edge.target = source) =
          middle.edges.filter fun edge => edge.target = source := by
        refine rest.others _ fun edge leads => ?_
        rw [of_decide_eq_true leads]
        exact ⟨distinct, apart⟩
      have stayed : edge ∈ middle.edges.filter fun edge => edge.target = source := by
        rw [← kept]
        exact List.mem_filter.mpr ⟨member, decide_eq_true same⟩
      exact first.cleared edge (List.mem_filter.mp stayed).1 (List.mem_singleton.mpr same)
    · exact rest.cleared edge member later
  removed id listed := by
    rcases List.mem_cons.mp listed with rfl | later
    · obtain ⟨removed, redirected⟩ := first.removed id (List.mem_singleton.mpr rfl)
      exact ⟨rest.keepsRemoved id removed, (rest.redirects id apart).trans redirected⟩
    · exact rest.removed id later
  keepsRemoved id removed := rest.keepsRemoved id (first.keepsRemoved id removed)
  redirects id unlisted := by
    refine (rest.redirects id fun member => unlisted (List.mem_cons_of_mem _ member)).trans
      (first.redirects id fun member => unlisted ?_)
    rw [List.mem_singleton.mp member]
    exact List.mem_cons_self

end MergesLinks

/-! ### One source -/

/-- A write to links before they are moved: it rewrites the credits of those that will be. -/
structure Renames (store named : Store) (association : Association) (source : EntityId)
    (image : Option String → Option String) : Prop where
  frame : named = { store with edges := named.edges }
  credit : ∀ scene, named.credit? association scene source =
    (store.credit? association scene source).map image
  others : ∀ test : Edge → Bool, (∀ edge, test edge = true → edge.target ≠ source) →
    named.edges.filter test = store.edges.filter test

/-- Before links are moved, their credits are rewritten if the details ask for it. -/
theorem moveReferences_renames {source : EntityId} (unique : (store.edges.map Edge.ends).Nodup)
    (same : details.kind = association.linked)
    (done : store.moveReferences source target association.linked details now = .ok after) :
    ∃ (named : Store) (moved : Nat),
      named.repointEdges association source target = .ok (moved, after) ∧
        Renames store named association source
          (details.movedCredit (store.performerName? source) (store.performerName? target)) := by
  have plain (unkept : keepsNames details = false) : Renames store store association source
      (details.movedCredit (store.performerName? source) (store.performerName? target)) := by
    refine ⟨rfl, fun scene => ?_, fun _ _ => rfl⟩
    have fixed : details.movedCredit (store.performerName? source) (store.performerName? target) =
        id := by
      funext credit
      exact if_neg (Bool.eq_false_iff.mp unkept)
    rw [fixed, Option.map_id, id]
  cases association with
  | sceneTag =>
    obtain ⟨⟨moved, repointed⟩, lifted, rfl⟩ := Except.map_ok.mp done
    refine ⟨store, moved, Store.lift_ok.mp lifted, plain ?_⟩
    obtain ⟨kind, change⟩ := details
    cases same
    rfl
  | scenePerformer =>
    obtain ⟨⟨moved, repointed⟩, lifted, rfl⟩ := Except.map_ok.mp done
    refine ⟨_, moved, Store.lift_ok.mp lifted, ?_⟩
    by_cases keeps : keepsNames details = true
    · rw [if_pos keeps, creditSourceName_eq unique]
      refine ⟨rfl, fun scene => ?_, fun test leads => filter_recredit leads⟩
      refine credit?_mapEdges rfl (ends_recredit source _) fun edge ends => ?_
      simp only [Edge.ends, Prod.mk.injEq] at ends
      rw [recredit, if_pos ⟨ends.1, ends.2.2⟩, Details.movedCredit, if_pos keeps]
    · rw [if_neg keeps]
      exact plain (Bool.eq_false_iff.mpr keeps)

/-- No record of another kind is linked as a scene. -/
theorem Sound.edge_source_ne {id : EntityId} {kind : Kind} (sound : store.Sound)
    (live : store.IsLive id kind) (other : kind ≠ .scene) :
    ∀ edge ∈ store.edges, edge.source ≠ id := by
  rintro edge member rfl
  exact other (live.kind_unique (sound.edges edge member).1)

/-- **What the merge of one source does to links.** -/
theorem mergeSource_mergesLinks {source : EntityId} (sound : store.Sound) (tidy : store.Tidy)
    (live : store.IsLive target association.linked) (apart : source ≠ target)
    (same : details.kind = association.linked)
    (done : store.mergeSource source target association.linked details now = .ok after) :
    store.MergesLinks after association target details [source] := by
  obtain ⟨_, there, done⟩ := Except.bind_ok.mp done
  obtain ⟨moved, moving, done⟩ := Except.bind_ok.mp done
  obtain ⟨removed, removing, redirecting⟩ := Except.bind_ok.mp done
  have sourceLive := requireStillLive_ok.mp there
  obtain ⟨⟨movedSound, movedLive⟩, -⟩ := moveReferences_sound sound sourceLive live apart moving
  obtain ⟨named, count, repointed, renames⟩ := moveReferences_renames tidy.edges same moving
  have removal := tombstoneEntity_frame (Store.lift_ok.mp removing)
  obtain ⟨redirection, redirected, otherRedirects⟩ :=
    insertRedirect_frame (Store.lift_ok.mp redirecting)
  have movedFrame : moved = { store with edges := moved.edges } := by
    rw [repointEdges_frame repointed, renames.frame]
  have notScene := movedSound.edge_source_ne (movedLive _ _ sourceLive)
    (Association.linked_ne_scene association)
  have edges : after.edges = moved.edges.filter fun edge => edge.target ≠ source := by
    rw [redirection, removal]
    exact List.filter_congr fun edge member => by simp [notScene edge member]
  have entities (id : EntityId) : after.entity? id = (moved.entity? id).map fun row =>
      if id = source then { row with updated := now.toMillisecond, deleted := true } else row := by
    rw [← entity?_tombstoneEntity (Store.lift_ok.mp removing) id]
    exact entity?_congr (by rw [redirection]) id
  refine ⟨?_, fun scene => ?_, fun test leads => ?_, fun edge member listed => ?_,
    fun id listed => ?_, fun id wasRemoved => ?_, fun id unlisted => ?_⟩
  · rw [redirection, removal, movedFrame]
  · have kept : after.credit? association scene target = moved.credit? association scene target := by
      refine credit?_filter edges fun edge ends => decide_eq_true ?_
      cases ends
      exact apart.symm
    have own : named.credit? association scene target = store.credit? association scene target := by
      refine credit?_of_filter (renames.others _ fun edge leads => ?_)
      rw [of_decide_eq_true leads]
      exact apart.symm
    rw [kept, credit?_repointEdges apart repointed, own, renames.credit, List.findSome?_cons,
      List.findSome?_nil]
    cases (store.credit? association scene source).map
      (details.movedCredit (store.performerName? source) (store.performerName? target)) <;> rfl
  · have notListed : ∀ edge, test edge = true → edge.target ≠ source := fun edge passes origin =>
      (leads edge passes).2 (List.mem_singleton.mpr origin)
    have dropped : after.edges.filter test = moved.edges.filter test := by
      rw [edges, List.filter_filter]
      refine List.filter_congr fun edge _ => ?_
      by_cases passes : test edge = true
      · simp [passes, notListed edge passes]
      · simp [Bool.eq_false_iff.mpr passes]
    rw [dropped]
    refine (filter_repointEdges repointed fun edge passes => ?_).trans
      (renames.others test notListed)
    exact ⟨notListed edge passes, (leads edge passes).1⟩
  · rw [edges] at member
    exact of_decide_eq_true (List.mem_filter.mp member).2 (List.mem_singleton.mp listed)
  · rw [List.mem_singleton.mp listed]
    obtain ⟨row, found, -, -⟩ := movedLive _ _ sourceLive
    refine ⟨⟨{ row with updated := now.toMillisecond, deleted := true }, ?_, rfl⟩, redirected⟩
    rw [entities, found, Option.map_some, if_pos rfl]
  · obtain ⟨row, found, deleted⟩ := wasRemoved
    have foundMoved : moved.entity? id = some row :=
      (entity?_congr (by rw [movedFrame]) id).trans found
    refine ⟨_, by rw [entities, foundMoved, Option.map_some], ?_⟩
    split
    · rfl
    · exact deleted
  · rw [otherRedirects id fun same => unlisted (List.mem_singleton.mpr same)]
    unfold redirect?
    rw [removal, movedFrame]

/-- **What the merge of several sources does to links**, by induction on the sources. -/
theorem mergeSources_mergesLinks (sound : store.Sound) (tidy : store.Tidy)
    (live : store.IsLive target association.linked) (distinct : sources.Nodup)
    (apart : target ∉ sources) (same : details.kind = association.linked)
    (done : sources.foldlM (fun store source =>
      store.mergeSource source target association.linked details now) store = .ok after) :
    store.MergesLinks after association target details sources := by
  induction sources generalizing store with
  | nil =>
    cases done
    exact .none
  | cons head rest hypothesis =>
    obtain ⟨middle, first, later⟩ := Except.bind_ok.mp done
    obtain ⟨unlisted, restDistinct⟩ := List.nodup_cons.mp distinct
    have headApart : head ≠ target := fun same => apart (same ▸ List.mem_cons_self)
    have restApart : target ∉ rest := fun member => apart (List.mem_cons_of_mem _ member)
    obtain ⟨middleSound, middleLive⟩ := mergeSource_sound sound live headApart first
    have middleTidy := ((mergeSource_isWrite _ _ _ _ _).written first).tidy tidy
    exact .cons unlisted headApart restApart
      (mergeSource_mergesLinks sound tidy live headApart same first)
      (hypothesis middleSound middleTidy middleLive restDistinct restApart later)

/-! ### Merges -/

/-- An association links a scene to a record. -/
def IsLinked (store : Store) (association : Association) (scene record : EntityId) : Prop :=
  store.edges.any (joins association scene record) = true

instance (store : Store) (association : Association) (scene record : EntityId) :
    Decidable (store.IsLinked association scene record) := by
  unfold IsLinked
  infer_instance

theorem isLinked_iff {scene record : EntityId} :
    store.IsLinked association scene record ↔
      (store.credit? association scene record).isSome = true := by
  rw [credit?_isSome]
  rfl

/-- In a tidy store two records are linked once or not at all. -/
theorem Tidy.countP_joins (tidy : store.Tidy) (scene record : EntityId) :
    store.edges.countP (joins association scene record) =
      if store.IsLinked association scene record then 1 else 0 := by
  have counted : store.edges.countP (joins association scene record) =
      (store.edges.map Edge.ends).count (association, scene, record) := by
    rw [List.count, List.countP_map]
    refine List.countP_congr fun edge _ => ?_
    rw [joins_iff, Function.comp_apply, beq_iff_eq]
  rw [counted, tidy.edges.count]
  exact if_congr any_joins.symm rfl rfl

/-- **What a merge does to links.** The store `modified` is what the modification of the target, with
which every merge begins, makes of the store before. -/
structure LinksMerged (before modified after : Store) (association : Association)
    (target : EntityId) (sources : List EntityId) (details : Details) : Prop where
  /-- A scene is linked to the target once if it was linked to it or to a source. -/
  once : ∀ scene, after.edges.countP (joins association scene target) =
    if before.IsLinked association scene target ∨
      ∃ source ∈ sources, before.IsLinked association scene source then 1 else 0
  /-- A scene that was linked to the target keeps that link. -/
  kept : ∀ scene, before.IsLinked association scene target →
    after.credit? association scene target = modified.credit? association scene target
  /-- Any other scene has the link to the first of the sources to which it was linked. -/
  carried : ∀ scene, ¬ before.IsLinked association scene target →
    after.credit? association scene target = sources.findSome? fun source =>
      (before.credit? association scene source).map (details.movedCredit
        (modified.performerName? source) (modified.performerName? target))
  cleared : ∀ edge ∈ after.edges, edge.target ∉ sources
  others : after.edges.filter (fun edge => edge.target ≠ target ∧ edge.target ∉ sources) =
    before.edges.filter fun edge => edge.target ≠ target ∧ edge.target ∉ sources
  removed : ∀ source ∈ sources, after.IsRemoved source ∧ after.redirect? source = some target
  live : after.IsLive target association.linked

/-- A merge modifies its target and then merges its sources. -/
theorem merge_mergesLinks (sound : store.Sound) (tidy : store.Tidy) (distinct : sources.Nodup)
    (apart : target ∉ sources) (same : details.kind = association.linked)
    (admitted : details.change.IsAdmitted)
    (done : store.merge target sources association.linked details now = .ok after) :
    ∃ modified, store.modify target association.linked details now = .ok modified ∧
      modified.MergesLinks after association target details sources := by
  obtain ⟨modified, modifying, merging⟩ := Except.bind_ok.mp done
  obtain ⟨modifiedSound, modifiedLive⟩ := modify_sound sound same admitted modifying
  have modifiedTidy := ((modify_isWrite _ _ _ _).written modifying).tidy tidy
  exact ⟨modified, modifying, mergeSources_mergesLinks modifiedSound modifiedTidy modifiedLive distinct
    apart same merging⟩

/-- **Merging moves every link once.** -/
theorem merge_linksMerged (sound : store.Sound) (tidy : store.Tidy) (distinct : sources.Nodup)
    (apart : target ∉ sources) (same : details.kind = association.linked)
    (admitted : details.change.IsAdmitted)
    (done : store.merge target sources association.linked details now = .ok after) :
    ∃ modified, store.modify target association.linked details now = .ok modified ∧
      LinksMerged store modified after association target sources details := by
  obtain ⟨modified, modifying, moves⟩ := merge_mergesLinks sound tidy distinct apart same admitted done
  have afterTidy := ((merge_isWrite _ _ _ _ _).written done).tidy tidy
  obtain ⟨-, live⟩ := merge_sound sound same admitted apart done
  have notScene : details.kind ≠ .scene := by
    rw [same]
    exact Association.linked_ne_scene association
  have edges := modify_edges tidy.edges notScene modifying
  -- the modification rewrites credits of links to the target and does nothing else to links
  have others (test : Edge → Bool) (leads : ∀ edge, test edge = true → edge.target ≠ target) :
      modified.edges.filter test = store.edges.filter test := by
    rw [edges]
    exact filter_recredit leads
  have sourceCredits : ∀ scene, ∀ source ∈ sources,
      modified.credit? association scene source = store.credit? association scene source := by
    intro scene source member
    refine credit?_of_filter (others _ fun edge leads => ?_)
    rw [of_decide_eq_true leads]
    exact fun same => apart (same ▸ member)
  have linked : ∀ scene, modified.IsLinked association scene target ↔
      store.IsLinked association scene target := by
    intro scene
    have sameEnds : modified.edges.map Edge.ends = store.edges.map Edge.ends := by
      rw [edges, List.map_map]
      exact List.map_congr_left fun edge _ => ends_recredit _ _ edge
    unfold IsLinked
    rw [any_joins, any_joins, sameEnds]
  have found : ∀ scene, (sources.findSome? fun source =>
      (modified.credit? association scene source).map (details.movedCredit
        (modified.performerName? source) (modified.performerName? target))) =
      sources.findSome? fun source => (store.credit? association scene source).map
        (details.movedCredit (modified.performerName? source) (modified.performerName? target)) :=
    fun scene => List.findSome?_congr fun source member => by rw [sourceCredits scene source member]
  refine ⟨modified, modifying, ?_, fun scene wasLinked => ?_, fun scene notLinked => ?_,
    moves.cleared, ?_, moves.removed, live⟩
  · intro scene
    rw [afterTidy.countP_joins]
    refine if_congr ?_ rfl rfl
    rw [isLinked_iff, moves.credit, Option.isSome_or, Bool.or_eq_true, ← isLinked_iff, linked,
      found, List.isSome_findSome?, List.any_eq_true]
    simp only [Option.isSome_map, isLinked_iff]
  · obtain ⟨credit, known⟩ := Option.isSome_iff_exists.mp
      (isLinked_iff.mp ((linked scene).mpr wasLinked))
    rw [moves.credit, known, Option.some_or]
  · have free : modified.credit? association scene target = Option.none := by
      rw [← Option.not_isSome_iff_eq_none, ← isLinked_iff, linked]
      exact notLinked
    rw [moves.credit, free, Option.none_or, found]
  · refine (moves.others _ fun edge leads => of_decide_eq_true leads).trans
      (others _ fun edge leads => ?_)
    exact (of_decide_eq_true leads).1

/-- What a merge does to links can be read off the catalogue. -/
theorem LinksMerged.congr {before modified later : Store}
    (merged : LinksMerged before modified after association target sources details)
    (same : after.SameCatalogue later) :
    LinksMerged before modified later association target sources details := by
  rw [same]
  exact ⟨merged.once, merged.kept, merged.carried, merged.cleared, merged.others, merged.removed,
    merged.live⟩

end Store

/-! ### Runs -/

namespace Desk

/-- **Merging tags or performers moves every link once**, whatever was done before and in whichever
call the merge is applied. The transaction `step` of the call applies it, after the others in
`first`, which are none unless the call is a sweep. -/
theorem merge_movesLinks (desk : Desk) (calls : List (Instant × Call)) (now : Instant) (call : Call)
    {id : EditId} {edit applied : Edit} {association : Association}
    (found : (desk.run calls).store.edit? id = some edit) (pending : edit.isPending = true)
    (merges : edit.operation = .merge) (kind : edit.kind = association.linked)
    (later : (desk.run (calls ++ [(now, call)])).store.edit? id = some applied)
    (settled : applied.status.isApplied = true) :
    ∃ first step rest target modified,
      desk.transactions now (desk.run calls) call = first ++ (now, step) :: rest ∧
      edit.target = some target ∧ applied.target = some target ∧
      (desk.run (calls ++ first)).store.modify target edit.kind edit.details now = .ok modified ∧
      Store.LinksMerged (desk.run (calls ++ first)).store modified
        (desk.run (calls ++ first ++ [(now, step)])).store association target edit.sources
        edit.details := by
  obtain ⟨first, step, rest, standing, performed, single, before?, waits, asks, after?⟩ :=
    desk.run_application calls now call found pending later settled
  rw [← asks.operation] at merges
  rw [← asks.kind] at kind ⊢
  rw [← asks.target, ← asks.sources, ← asks.details]
  have proper := desk.pending_proper (calls ++ first) id standing before? waits
  rw [run_concat] at after?
  obtain ⟨fresh, target, store, applies, same, given⟩ :=
    (desk.turn now _ single).application before? waits after? settled
  unfold Edit.apply at applies
  rw [merges] at applies
  obtain ⟨aimed, targeted, merging⟩ := Except.bind_ok.mp applies
  obtain ⟨_, done, finish⟩ := Except.bind_ok.mp merging
  cases finish
  have aims := Edit.requireTarget_ok.mp targeted
  rw [kind] at done ⊢
  obtain ⟨modified, modifying, merged⟩ := Store.merge_linksMerged (desk.run_sound (calls ++ first))
    (desk.run_tidy (calls ++ first)) proper.distinct (proper.sources target aims)
    (proper.kind.trans kind) proper.admitted done
  refine ⟨first, step, rest, target, modified, performed, aims, given, modifying, ?_⟩
  rw [run_concat]
  exact merged.congr same

/-- Two tags are made, a scene is given the first of them, and it is proposed that the second take
over from the first. -/
def twoTags : List (Clock × Call) :=
  staffed ++ accepted 1 2 (.create (.namedTag "outdoors")) ++
    accepted 2 4 (.create (.namedTag "open air")) ++
    accepted 3 6 (.create (.taggedScene "beach" ⟨Uuid.serial 3⟩)) ++
    [(⟨4⟩, .createEdit ⟨Uuid.serial 0⟩
      (.merge ⟨Uuid.serial 5⟩ [⟨Uuid.serial 3⟩] (.empty .tag)))]

theorem twoTags_merged : ∃ edit target modified,
    (swift.run (timed twoTags)).store.edit? ⟨Uuid.serial 8⟩ = some edit ∧
      edit.target = some target ∧
      Store.LinksMerged (swift.run (timed twoTags)).store modified
        (swift.run (timed twoTags ++ [(Clock.now ⟨200000000⟩,
          .vote ⟨Uuid.serial 1⟩ ⟨Uuid.serial 8⟩ .accept)])).store
        .sceneTag target edit.sources edit.details := by
  have proposed : ((swift.run (timed twoTags)).store.edit? ⟨Uuid.serial 8⟩).map
      (fun edit => (edit.isPending, edit.operation, edit.kind)) = some (true, .merge, .tag) := by
    decide +kernel
  have accepted : ((swift.run (timed twoTags ++ [(Clock.now ⟨200000000⟩,
      .vote ⟨Uuid.serial 1⟩ ⟨Uuid.serial 8⟩ .accept)])).store.edit? ⟨Uuid.serial 8⟩).map
        (fun edit => edit.status.isApplied) = some true := by
    decide +kernel
  obtain ⟨edit, found, state⟩ := Option.map_eq_some_iff.mp proposed
  obtain ⟨applied, later, settled⟩ := Option.map_eq_some_iff.mp accepted
  simp only [Prod.mk.injEq] at state
  obtain ⟨pending, merges, tag⟩ := state
  have kind : edit.kind = Association.sceneTag.linked := tag
  obtain ⟨first, step, rest, target, modified, performed, aims, -, -, merged⟩ :=
    merge_movesLinks swift (timed twoTags) (Clock.now ⟨200000000⟩)
      (.vote ⟨Uuid.serial 1⟩ ⟨Uuid.serial 8⟩ .accept) found pending merges kind later settled
  obtain ⟨rfl, rfl, -⟩ := transactions_single rfl performed
  rw [List.append_nil] at merged
  exact ⟨edit, target, modified, found, aims, merged⟩

end Desk

end Curation
