/-
**Merging studios is a substitution.** The sources of a merge are gone through one after the other, each
by asking anew which fields refer to it. They may refer to each other or to the target, and the target
to them, and one that has been merged already is written to again when a later one is. What comes of
it is nevertheless what replacing all references at once would give: since the target is none of the
sources, what was replaced is not replaced again, and it does not matter in which order they are listed.

* `Store.substituted`: what becomes of a field when references to some studios are replaced;
* `Store.Substitutes`: a store is another one in which this has been done and nothing else, closed under
  going on with other studios by `Store.Substitutes.trans`;
* `Store.mergeSource_substitutes`: the merge of one studio does it;
* `Desk.merge_replacesReferences`: so does every merge of studios that is applied.
-/

import Curation.Proofs.Legibility
import Curation.Proofs.Standing
import Curation.Proofs.Successes
import Curation.Rehearsal

namespace Curation

namespace Store

variable {store before middle after : Store} {source target : EntityId}
  {sources others : List EntityId} {details : Details} {now : Instant} {key : String}

/-! ### The substitution -/

/-- What a field of a record holds once references to some studios lead to another instead. The record
to which they would lead is not to refer to itself, so its field is cleared. -/
def substituted (sources : List EntityId) (target entity : EntityId) : Option Value → Option Value
  | some (.reference studio) =>
    if sources.contains studio then if entity = target then none else some (.reference target)
    else some (.reference studio)
  | held => held

theorem substituted_eq (entity : EntityId) (held : Option Value) :
    substituted sources target entity held =
      if ∃ studio ∈ sources, held = some (.reference studio) then
        if entity = target then none else some (.reference target)
      else held := by
  unfold substituted
  split
  next studio =>
    refine if_congr (List.contains_iff_mem.trans ⟨fun member => ⟨studio, member, rfl⟩, ?_⟩) rfl rfl
    rintro ⟨other, member, same⟩
    cases same
    exact member
  next other => exact (if_neg fun ⟨studio, _, same⟩ => other studio same).symm

/-- Replacing references to some studios and then to others replaces references to all of them, as no
reference that was put in is replaced again. -/
theorem substituted_append (apart : target ∉ others) (entity : EntityId) (held : Option Value) :
    substituted others target entity (substituted sources target entity held) =
      substituted (sources ++ others) target entity held := by
  cases held with
  | none => rfl
  | some value =>
    cases value with
    | reference studio =>
      unfold substituted
      simp only [List.contains_iff_mem]
      by_cases first : studio ∈ sources
      · simp only [first, List.mem_append, true_or, if_true]
        by_cases own : entity = target
        · simp only [own, if_true]
        · simp only [own, apart, if_false]
      · simp only [first, List.mem_append, false_or, if_false]
    | _ => rfl

/-- References to some studios lead to another one instead. No other field, no member of a collection
and no link has changed. -/
structure Substitutes (before after : Store) (target : EntityId) (sources : List EntityId) : Prop where
  references : ∀ entity, ∀ key ∈ studioKeys,
    after.field? entity key = substituted sources target entity (before.field? entity key)
  fields : ∀ entity, ∀ key, key ∉ studioKeys → after.field? entity key = before.field? entity key
  members : after.members = before.members
  edges : after.edges = before.edges

namespace Substitutes

theorem none (store : Store) (target : EntityId) : store.Substitutes store target [] where
  references entity key _ := by
    rw [substituted_eq, if_neg fun ⟨_, member, _⟩ => nomatch member]
  fields _ _ _ := rfl
  members := rfl
  edges := rfl

/-- **Substitutions one after the other are a substitution at once.** -/
theorem trans (apart : target ∉ others) (first : before.Substitutes middle target sources)
    (second : middle.Substitutes after target others) :
    before.Substitutes after target (sources ++ others) where
  references entity key listed := by
    rw [second.references entity key listed, first.references entity key listed,
      substituted_append apart]
  fields entity key other := (second.fields entity key other).trans (first.fields entity key other)
  members := second.members.trans first.members
  edges := second.edges.trans first.edges

/-- The order in which the studios are listed does not matter. -/
theorem perm (same : sources.Perm others) (substitutes : before.Substitutes after target sources) :
    before.Substitutes after target others where
  references entity key listed := by
    rw [substitutes.references entity key listed, substituted_eq, substituted_eq]
    refine if_congr (exists_congr fun studio => and_congr_left fun _ => same.mem_iff) rfl rfl
  fields := substitutes.fields
  members := substitutes.members
  edges := substitutes.edges

theorem congr {later : Store} (substitutes : before.Substitutes after target sources)
    (same : after.SameCatalogue later) : before.Substitutes later target sources := by
  rw [same]
  exact ⟨substitutes.references, substitutes.fields, substitutes.members, substitutes.edges⟩

end Substitutes

/-! ### One studio -/

/-- Who refers to a studio is who holds a reference to it. -/
theorem Keyed.mem_referrers (keyed : store.Keyed) {studio entity : EntityId} :
    entity ∈ store.referrers key studio ↔ store.field? entity key = some (.reference studio) := by
  rw [Store.mem_referrers]
  constructor
  · rintro ⟨row, stored, ⟨rfl, holds⟩, rfl⟩
    rw [keyed.field?_eq stored, holds]
  · intro holds
    obtain ⟨row, found, held⟩ := Option.map_eq_some_iff.mp holds
    have picked := List.find?_some found
    obtain ⟨owner, named⟩ := of_decide_eq_true picked
    exact ⟨row, List.mem_of_find?_eq_some found, ⟨named, held⟩, owner⟩

/-- What one field holds when its reference has been redirected; nothing else has changed. -/
theorem redirectReferrer_field? {referrer : EntityId}
    (done : redirectReferrer target key now store referrer = .ok after) :
    (∀ entity name, after.field? entity name =
      if entity = referrer ∧ name = key then
        if entity = target then none else some (.reference target)
      else store.field? entity name) ∧
    after.members = store.members ∧ after.edges = store.edges := by
  unfold redirectReferrer at done
  split at done
  next own =>
    cases done
    refine ⟨fun entity name => (field?_clearField store referrer key entity name).trans ?_, rfl, rfl⟩
    refine ite_congr rfl (fun same => ?_) fun _ => rfl
    rw [if_pos (same.1.trans own)]
  next other =>
    obtain ⟨given, setting, finish⟩ := Except.bind_ok.mp done
    cases finish
    have set := Store.lift_ok.mp setting
    refine ⟨fun entity name => (field?_setField set entity name).trans ?_, ?_, ?_⟩
    · refine ite_congr rfl (fun same => ?_) fun _ => rfl
      rw [if_neg fun own => other (same.1.symm.trans own)]
    · show given.members = store.members
      rw [(setField_frame set).1]
    · show given.edges = store.edges
      rw [(setField_frame set).1]

/-- What fields hold when the references of several records have been redirected. -/
theorem redirectReferrers_field? {referrers : List EntityId}
    (done : referrers.foldlM (redirectReferrer target key now) store = .ok after) :
    (∀ entity name, after.field? entity name =
      if entity ∈ referrers ∧ name = key then
        if entity = target then none else some (.reference target)
      else store.field? entity name) ∧
    after.members = store.members ∧ after.edges = store.edges := by
  induction referrers generalizing store with
  | nil =>
    cases done
    exact ⟨fun _ _ => (if_neg fun both => nomatch both.1).symm, rfl, rfl⟩
  | cons head rest hypothesis =>
    obtain ⟨middle, first, later⟩ := Except.bind_ok.mp done
    obtain ⟨reads, members, edges⟩ := redirectReferrer_field? first
    obtain ⟨readsLater, membersLater, edgesLater⟩ := hypothesis later
    refine ⟨fun entity name => ?_, membersLater.trans members, edgesLater.trans edges⟩
    rw [readsLater, reads]
    by_cases listed : entity ∈ rest ∧ name = key
    · have longer : entity ∈ head :: rest ∧ name = key := ⟨List.mem_cons_of_mem head listed.1, listed.2⟩
      rw [if_pos listed, if_pos longer]
    · rw [if_neg listed]
      refine if_congr ⟨fun same => ⟨List.mem_cons.mpr (.inl same.1), same.2⟩, ?_⟩ rfl rfl
      rintro ⟨member, named⟩
      rcases List.mem_cons.mp member with same | later
      · exact ⟨same, named⟩
      · exact absurd ⟨later, named⟩ listed

/-- **Redirecting a studio replaces the references to it** in the fields that are gone through. -/
theorem redirectKeys_field? {keys : List String} (keyed : store.Keyed) (once : keys.Nodup)
    (done : keys.foldlM (fun store key =>
      (store.referrers key source).foldlM (redirectReferrer target key now) store) store =
        .ok after) :
    (∀ entity name, after.field? entity name =
      if name ∈ keys then substituted [source] target entity (store.field? entity name)
      else store.field? entity name) ∧
    after.members = store.members ∧ after.edges = store.edges := by
  induction keys generalizing store with
  | nil =>
    cases done
    exact ⟨fun _ _ => (if_neg List.not_mem_nil).symm, rfl, rfl⟩
  | cons key rest hypothesis =>
    obtain ⟨middle, first, later⟩ := Except.bind_ok.mp done
    obtain ⟨absent, restOnce⟩ := List.nodup_cons.mp once
    have written := (IsWrite.foldlM (redirectReferrer_isWrite target key now)
      (store.referrers key source)).written first
    obtain ⟨reads, members, edges⟩ := redirectReferrers_field? first
    obtain ⟨readsLater, membersLater, edgesLater⟩ :=
      hypothesis (written.keyed keyed) restOnce later
    refine ⟨fun entity name => ?_, membersLater.trans members, edgesLater.trans edges⟩
    rw [readsLater, reads]
    by_cases named : name = key
    · subst named
      rw [if_neg absent, if_pos List.mem_cons_self, substituted_eq]
      refine if_congr ?_ rfl rfl
      rw [keyed.mem_referrers]
      simp only [and_true, List.mem_singleton, exists_eq_left]
    · have unread : ¬ (entity ∈ store.referrers key source ∧ name = key) := fun both => named both.2
      rw [if_neg unread]
      refine if_congr ?_ rfl rfl
      rw [List.mem_cons, or_iff_right named]

theorem redirectStudio_substitutes (keyed : store.Keyed)
    (done : store.redirectStudio source target now = .ok after) :
    store.Substitutes after target [source] := by
  have once : studioKeys.Nodup := by decide
  obtain ⟨reads, members, edges⟩ := redirectKeys_field? keyed once done
  exact ⟨fun entity key listed => (reads entity key).trans (if_pos listed),
    fun entity key other => (reads entity key).trans (if_neg other), members, edges⟩

/-- No link touches a studio. -/
theorem Sound.edge_apart (sound : store.Sound) {studio : EntityId}
    (live : store.IsLive studio .studio) {edge : Edge} (stored : edge ∈ store.edges) :
    edge.source ≠ studio ∧ edge.target ≠ studio := by
  obtain ⟨sourceLive, targetLive⟩ := sound.edges edge stored
  constructor
  · intro same
    cases live.kind_unique (same ▸ sourceLive)
  · intro same
    have kind := live.kind_unique (same ▸ targetLive)
    cases association : edge.association with
    | sceneTag =>
      rw [association] at kind
      cases kind
    | scenePerformer =>
      rw [association] at kind
      cases kind

/-- **The merge of one studio replaces the references to it.** It is removed after that, and as no link
touches it none is dropped. -/
theorem mergeSource_substitutes (sound : store.Sound) (keyed : store.Keyed)
    (live : store.IsLive target .studio) (apart : source ≠ target)
    (done : store.mergeSource source target .studio details now = .ok after) :
    store.Substitutes after target [source] := by
  obtain ⟨_, there, done⟩ := Except.bind_ok.mp done
  obtain ⟨moved, moving, done⟩ := Except.bind_ok.mp done
  obtain ⟨removed, removing, redirecting⟩ := Except.bind_ok.mp done
  have substitutes : store.Substitutes moved target [source] :=
    redirectStudio_substitutes keyed moving
  obtain ⟨⟨movedSound, movedLive⟩, -⟩ := redirectStudio_sound sound live apart moving
  have sourceLive := movedLive _ _ (requireStillLive_ok.mp there)
  have removal := tombstoneEntity_frame (Store.lift_ok.mp removing)
  obtain ⟨redirection, -⟩ := insertRedirect_frame (Store.lift_ok.mp redirecting)
  have edges : after.edges = moved.edges := by
    rw [redirection, removal]
    exact List.filter_eq_self.mpr fun edge stored =>
      decide_eq_true (movedSound.edge_apart sourceLive stored)
  have fields (entity : EntityId) (name : String) :
      after.field? entity name = moved.field? entity name := by
    rw [redirection, removal]
    rfl
  refine ⟨fun entity key listed => ?_, fun entity key other => ?_, ?_, edges.trans substitutes.edges⟩
  · rw [fields, substitutes.references entity key listed]
  · rw [fields, substitutes.fields entity key other]
  · rw [redirection, removal]
    exact substitutes.members

/-! ### Several studios -/

/-- **The merge of several studios replaces the references to all of them**, by induction on the
sources. -/
theorem mergeSources_substitutes (sound : store.Sound) (keyed : store.Keyed)
    (live : store.IsLive target .studio) (apart : target ∉ sources)
    (done : sources.foldlM (fun store source =>
      store.mergeSource source target .studio details now) store = .ok after) :
    store.Substitutes after target sources := by
  induction sources generalizing store with
  | nil =>
    cases done
    exact .none _ target
  | cons head rest hypothesis =>
    obtain ⟨middle, first, later⟩ := Except.bind_ok.mp done
    obtain ⟨headApart, restApart⟩ := not_or.mp (List.mem_cons.not.mp apart)
    obtain ⟨middleSound, middleLive⟩ := mergeSource_sound sound live (Ne.symm headApart) first
    have middleKeyed := ((mergeSource_isWrite _ _ _ _ _).written first).keyed keyed
    exact .trans restApart (mergeSource_substitutes sound keyed live (Ne.symm headApart) first)
      (hypothesis middleSound middleKeyed middleLive restApart later)

/-- The sources of a merge were all there when it began. -/
theorem mergeSources_live {kind : Kind} (done : sources.foldlM (fun store source =>
      store.mergeSource source target kind details now) store = .ok after) :
    ∀ source ∈ sources, store.IsLive source kind := by
  induction sources generalizing store with
  | nil => exact fun source member => nomatch member
  | cons head rest hypothesis =>
    obtain ⟨middle, first, later⟩ := Except.bind_ok.mp done
    obtain ⟨_, there, -⟩ := Except.bind_ok.mp first
    rw [List.forall_mem_cons]
    refine ⟨requireStillLive_ok.mp there, fun source member => ?_⟩
    exact ((isLive_without (mergeSource_condition? first)).mp (hypothesis later source member)).2

/-- **A merge of studios is a substitution** in what the modification of the target has made of the
store. It succeeds as well if the sources are listed in another order, and is the same then. -/
theorem merge_substitutes (sound : store.Sound) (tidy : store.Tidy) (keyed : store.Keyed)
    (distinct : sources.Nodup) (apart : target ∉ sources) (same : details.kind = .studio)
    (admitted : details.change.IsAdmitted)
    (done : store.merge target sources .studio details now = .ok after) :
    ∃ modified, store.modify target .studio details now = .ok modified ∧
      modified.Substitutes after target sources ∧
      ∀ order, order.Perm sources → ∃ other,
        store.merge target order .studio details now = .ok other ∧
        modified.Substitutes other target sources := by
  obtain ⟨modified, modifying, merging⟩ := Except.bind_ok.mp done
  obtain ⟨modifiedSound, modifiedLive⟩ := modify_sound sound same admitted modifying
  have written := (modify_isWrite _ _ _ _).written modifying
  have modifiedKeyed := written.keyed keyed
  refine ⟨modified, modifying,
    mergeSources_substitutes modifiedSound modifiedKeyed modifiedLive apart merging,
    fun order reordered => ?_⟩
  have live := mergeSources_live merging
  obtain ⟨other, succeeds⟩ := mergeSources_succeeds (written.tidy tidy) modifiedLive.hasEntity
    (reordered.nodup_iff.mpr distinct) (fun source member => live source (reordered.subset member))
    details now
  refine ⟨other, ?_, .perm reordered (mergeSources_substitutes modifiedSound modifiedKeyed
    modifiedLive (fun member => apart (reordered.subset member)) succeeds)⟩
  unfold merge
  rw [modifying]
  exact succeeds

end Store

/-! ### Runs -/

namespace Desk

/-- **Merging studios is a substitution**, whatever was done before and in whichever call the merge is
applied. The transaction `step` of the call applies it, after the others in `first`, which are none
unless the call is a sweep. The store `modified` is what the modification of the target, with which the
merge begins, makes of the store before; `order` is any order of the sources. -/
theorem merge_replacesReferences (desk : Desk) (calls : List (Instant × Call)) (now : Instant) (call : Call)
    {id : EditId} {edit applied : Edit}
    (found : (desk.run calls).store.edit? id = some edit) (pending : edit.isPending = true)
    (merges : edit.operation = .merge) (kind : edit.kind = .studio)
    (later : (desk.run (calls ++ [(now, call)])).store.edit? id = some applied)
    (settled : applied.status.isApplied = true) :
    ∃ first step rest target modified,
      desk.transactions now (desk.run calls) call = first ++ (now, step) :: rest ∧
      edit.target = some target ∧ applied.target = some target ∧
      (desk.run (calls ++ first)).store.modify target edit.kind edit.details now = .ok modified ∧
      modified.Substitutes (desk.run (calls ++ first ++ [(now, step)])).store target edit.sources ∧
      ∀ order, order.Perm edit.sources → ∃ other,
        (desk.run (calls ++ first)).store.merge target order edit.kind edit.details now = .ok other ∧
        modified.Substitutes other target edit.sources := by
  obtain ⟨first, step, rest, standing, performed, single, before?, waits, asks, after?⟩ :=
    desk.run_application calls now call found pending later settled
  rw [← asks.operation] at merges
  rw [← asks.kind] at kind ⊢
  rw [← asks.target, ← asks.sources, ← asks.details]
  have proper := desk.pending_proper (calls ++ first) id standing before? waits
  rw [run_concat] at after?
  obtain ⟨fresh, target, store, applies, same, given⟩ :=
    (desk.turn now _ single).application before? waits after? settled
  unfold Edit.apply at applies
  rw [merges] at applies
  obtain ⟨aimed, targeted, merging⟩ := Except.bind_ok.mp applies
  obtain ⟨_, done, finish⟩ := Except.bind_ok.mp merging
  cases finish
  have aims := Edit.requireTarget_ok.mp targeted
  rw [kind] at done ⊢
  obtain ⟨modified, modifying, substitutes, reorders⟩ :=
    Store.merge_substitutes (desk.run_sound _) (desk.run_tidy _) (desk.run_keyed _) proper.distinct
      (proper.sources target aims) (proper.kind.trans kind) proper.admitted done
  refine ⟨first, step, rest, target, modified, performed, aims, given, modifying, ?_, reorders⟩
  rw [run_concat]
  exact substitutes.congr same

/-- There are three studios, each the parent of the next, and it is proposed that the last take over
from the other two. -/
def studioLine : List (Clock × Call) :=
  staffed ++ accepted 1 2 (.create (Rehearsal.studio "first" none)) ++
    accepted 2 4 (.create (Rehearsal.studio "second" (some ⟨Uuid.serial 3⟩))) ++
    accepted 3 6 (.create (Rehearsal.studio "third" (some ⟨Uuid.serial 5⟩))) ++
    [(⟨4⟩, .createEdit ⟨Uuid.serial 0⟩
      (.merge ⟨Uuid.serial 7⟩ [⟨Uuid.serial 3⟩, ⟨Uuid.serial 5⟩] (.empty .studio)))]

/-- The vote by which they are merged. -/
def studioVote : Instant × Call :=
  (Clock.now ⟨200000000⟩, .vote ⟨Uuid.serial 1⟩ ⟨Uuid.serial 8⟩ .accept)

theorem studioLine_substitutes : ∃ edit target modified,
    (swift.run (timed studioLine)).store.edit? ⟨Uuid.serial 8⟩ = some edit ∧
      edit.target = some target ∧
      Store.Substitutes modified (swift.run (timed studioLine ++ [studioVote])).store target
        edit.sources ∧
      (swift.run (timed studioLine ++ [studioVote])).store.field? ⟨Uuid.serial 7⟩ "parent_id" = none ∧
      (swift.run (timed studioLine ++ [studioVote])).store.field? ⟨Uuid.serial 5⟩ "parent_id" =
        some (.reference ⟨Uuid.serial 7⟩) := by
  have proposed : ((swift.run (timed studioLine)).store.edit? ⟨Uuid.serial 8⟩).map
      (fun edit => (edit.isPending, edit.operation, edit.kind)) = some (true, .merge, .studio) := by
    decide +kernel
  have accepted : ((swift.run (timed studioLine ++ [studioVote])).store.edit?
      ⟨Uuid.serial 8⟩).map (fun edit => edit.status.isApplied) = some true := by
    decide +kernel
  obtain ⟨edit, found, state⟩ := Option.map_eq_some_iff.mp proposed
  obtain ⟨applied, later, settled⟩ := Option.map_eq_some_iff.mp accepted
  simp only [Prod.mk.injEq] at state
  obtain ⟨pending, merges, studio⟩ := state
  obtain ⟨first, step, rest, target, modified, performed, aims, -, -, substitutes, -⟩ :=
    merge_replacesReferences swift (timed studioLine) studioVote.1 studioVote.2 found pending merges studio
      later settled
  obtain ⟨rfl, rfl, -⟩ := transactions_single rfl performed
  rw [List.append_nil] at substitutes
  exact ⟨edit, target, modified, found, aims, substitutes, by decide +kernel, by decide +kernel⟩

end Desk

end Curation
