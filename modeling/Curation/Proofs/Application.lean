/-
**Applying an edit writes to the catalogue only.** Each part of the application of an edit is a
sequence of primitive writes, and none of them looks at users, edits or votes.

* `Store.modify_isWrite`, `Store.destroy_isWrite`, `Store.merge_isWrite`: the parts;
* `Edit.apply_ok`: what an edit that applies does to its target;
* `Edit.apply_graft`: an edit applies in the same way beside any review;
* `Edit.apply_written`: and what it leaves is made of primitive writes.
-/

import Curation.Proofs.Writes

namespace Curation

namespace Store

variable {ε : Type}

/-! ### Primitive writes -/

theorem insertEntity_isWrite (id : EntityId) (kind : Kind) (now : Instant) :
    IsWrite fun store => store.insertEntity id kind now where
  blind store review := by
    show (if store.hasEntity id then _ else _) = _
    unfold insertEntity
    split <;> rfl
  written done := .insertEntity id kind now .keep done

theorem touchEntity_isWrite (id : EntityId) (now : Instant) :
    IsWrite (ε := ε) fun store => .ok (store.touchEntity id now) where
  blind _ _ := rfl
  written done := by
    cases done
    exact .touchEntity id now .keep

theorem tombstoneEntity_isWrite (id : EntityId) (now : Instant) :
    IsWrite fun store => store.tombstoneEntity id now where
  blind store review := by
    show (if store.hasEntity id then _ else _) = _
    unfold tombstoneEntity
    split <;> rfl
  written done := .tombstoneEntity id now .keep done

theorem setField_isWrite (entity : EntityId) (key : String) (value : Value) :
    IsWrite fun store => store.setField entity key value where
  blind store review := by
    show (if store.hasEntity entity then if (store.field? entity key).isSome then _ else _ else _) = _
    unfold setField
    split
    · split <;> rfl
    · rfl
  written done := .setField entity key value .keep done

theorem clearField_isWrite (entity : EntityId) (key : String) :
    IsWrite (ε := ε) fun store => .ok (store.clearField entity key) where
  blind _ _ := rfl
  written done := by
    cases done
    exact .clearField entity key .keep

theorem addMember_isWrite (entity : EntityId) (list : String) (value : Value) :
    IsWrite fun store => (Store.lift (store.addMember entity list value)).map Prod.snd where
  blind store review := by
    show Except.map Prod.snd (Store.lift (if ⟨entity, list, value⟩ ∈ store.members then _ else
      if store.hasEntity entity then _ else _)) = _
    unfold addMember
    split
    · rfl
    · split <;> rfl
  written done := by
    obtain ⟨⟨isNew, after⟩, added, rfl⟩ := Except.map_ok.mp done
    exact .addMember entity list value .keep (Store.lift_ok.mp added)

theorem removeMember_isWrite (entity : EntityId) (list : String) (value : Value) :
    IsWrite (ε := ε) fun store => .ok (store.removeMember entity list value).2 where
  blind _ _ := rfl
  written done := by
    cases done
    exact .removeMember entity list value .keep

theorem insertEdge_graft (store review : Store) (association : Association)
    (source target : EntityId) (credit : Option String) :
    (store.graft review).insertEdge association source target credit =
      (store.insertEdge association source target credit).map fun (isNew, after) =>
        (isNew, after.graft review) := by
  show (if store.edges.any (joins association source target) then _ else
    if store.hasEntity source && store.hasEntity target then _ else _) = _
  unfold insertEdge
  split
  · rfl
  · split <;> rfl

theorem deleteEdge_isWrite (association : Association) (source target : EntityId) :
    IsWrite (ε := ε) fun store => .ok (store.deleteEdge association source target).2 where
  blind _ _ := rfl
  written done := by
    cases done
    exact .deleteEdge association source target .keep

theorem setCredit_isWrite (association : Association) (source target : EntityId)
    (credit : Option String) :
    IsWrite (ε := ε) fun store => .ok (store.setCredit association source target credit) where
  blind _ _ := rfl
  written done := by
    cases done
    exact .setCredit association source target credit .keep

theorem repointEdges_isWrite (association : Association) (origin destination : EntityId) :
    IsWrite fun store =>
      (Store.lift (store.repointEdges association origin destination)).map Prod.snd where
  blind store review := by
    have kept : (store.graft review).hasEntity destination = store.hasEntity destination := rfl
    simp only [repointEdges, kept, show (store.graft review).edges = store.edges from rfl]
    split
    · rfl
    · split <;> rfl
  written done := by
    obtain ⟨⟨moved, after⟩, repointed, rfl⟩ := Except.map_ok.mp done
    exact .repointEdges association origin destination .keep (Store.lift_ok.mp repointed)

theorem insertRedirect_isWrite (source target : EntityId) (now : Instant) :
    IsWrite fun store => store.insertRedirect source target now where
  blind store review := by
    show (if store.hasEntity source && store.hasEntity target then
      if store.redirects.any _ then _ else _ else _) = _
    unfold insertRedirect
    split
    · split <;> rfl
    · rfl
  written done := .insertRedirect source target now .keep done

/-! ### Writing what a side proposes -/

theorem writeScalars_isWrite (id : EntityId) (scalars : List (String × Value)) :
    IsWrite fun store => store.writeScalars id scalars :=
  .foldlM (fun (key, value) => (setField_isWrite id key value).lift) scalars

theorem writeList_isWrite (id : EntityId) (key : String) (change : ListChange Value) :
    IsWrite fun store => store.writeList id key change :=
  .after (.foldl (removeMember_isWrite id key) change.removed)
    (.foldlM (addMember_isWrite id key) change.added)

theorem writeLists_isWrite (id : EntityId) (lists : List (String × ListChange Value)) :
    IsWrite fun store => store.writeLists id lists :=
  .foldlM (fun (key, change) => writeList_isWrite id key change) lists

theorem linkTag_isWrite (scene tag : EntityId) : IsWrite fun store => store.linkTag scene tag where
  blind store review := by
    simp only [linkTag, insertEdge_graft]
    cases store.insertEdge .sceneTag scene tag none <;> rfl
  written done := by
    obtain ⟨⟨isNew, after⟩, linked, rfl⟩ := Except.map_ok.mp done
    exact .insertEdge .sceneTag scene tag none .keep (Store.lift_ok.mp linked)

theorem linkPerformer_isWrite (scene : EntityId) (appearance : Appearance) :
    IsWrite fun store => store.linkPerformer scene appearance where
  blind store review := by
    simp only [linkPerformer, insertEdge_graft]
    cases store.insertEdge .scenePerformer scene appearance.performer appearance.creditedAs with
    | ok linked =>
      obtain ⟨isNew, after⟩ := linked
      cases isNew <;> rfl
    | error error => rfl
  written done := by
    obtain ⟨⟨isNew, after⟩, linked, finish⟩ := Except.bind_ok.mp done
    have inserted := Written.insertEdge .scenePerformer scene appearance.performer
      appearance.creditedAs .keep (Store.lift_ok.mp linked)
    cases isNew with
    | true =>
      cases finish
      exact inserted
    | false =>
      cases finish
      exact .setCredit _ _ _ _ inserted

theorem writeLinks_isWrite (scene : EntityId) (tags : ListChange EntityId)
    (performers : ListChange Appearance) :
    IsWrite fun store => store.writeLinks scene tags performers :=
  .after (.foldl (deleteEdge_isWrite .sceneTag scene) tags.removed)
    (.bind (.foldlM (linkTag_isWrite scene) tags.added)
      (.after (.foldl (fun appearance : Appearance =>
          deleteEdge_isWrite .scenePerformer scene appearance.performer) performers.removed)
        (.foldlM (linkPerformer_isWrite scene) performers.added)))

/-! ### Checks read the catalogue only -/

theorem requireStillLive_graft (store review : Store) (id : EntityId) (kind : Kind) :
    (store.graft review).requireStillLive id kind = store.requireStillLive id kind := rfl

theorem checkReferences_graft {kind : Kind} (change : Change kind) (target : Option EntityId)
    (store review : Store) :
    change.checkReferences (store.graft review) target = change.checkReferences store target := by
  cases kind <;> rfl

theorem checkFound_graft {kind : Kind} (change : Change kind) (id : EntityId)
    (store review : Store) :
    (store.graft review).checkFound id change = store.checkFound id change := rfl

/-! ### The operations on records -/

theorem writeDetailLinks_isWrite (id : EntityId) (details : Details) :
    IsWrite fun store => store.writeDetailLinks id details := by
  obtain ⟨kind, change⟩ := details
  cases kind with
  | scene => exact writeLinks_isWrite id _ _
  | tag => exact .keep
  | performer => exact .keep
  | studio => exact .keep

theorem create_isWrite (id : EntityId) (kind : Kind) (details : Details) (now : Instant) :
    IsWrite fun store => store.create id kind details now :=
  .check (checkReferences_graft details.change none)
    (.bind (insertEntity_isWrite id kind now).lift
      (.bind (writeScalars_isWrite id _)
        (.bind (writeLists_isWrite id _) (writeDetailLinks_isWrite id details))))

theorem clearDropped_isWrite {kind : Kind} (id : EntityId) (change : Change kind) :
    IsWrite (ε := ε) fun store => .ok (store.clearDropped id change) := by
  refine .foldl (fun field => ?_) (Field.byKey kind)
  by_cases dropped : (change.old.value? field).isSome && (change.new.value? field).isNone
  · simpa only [if_pos dropped] using clearField_isWrite id field.key
  · simpa only [if_neg dropped] using IsWrite.keep

theorem creditOldName_isWrite (performer : EntityId) (change : Change .performer) :
    IsWrite (ε := ε) fun store => .ok (store.creditOldName performer change) := by
  unfold creditOldName
  split
  next oldName newName _ _ =>
    split
    · exact .keep
    · refine .foldlOver (fun _ _ => rfl) fun edge => ?_
      unfold creditOldNameOn
      split
      · exact setCredit_isWrite _ _ _ _
      · split
        · exact setCredit_isWrite _ _ _ _
        · exact .keep
  · exact .keep

theorem keepCredits_isWrite (id : EntityId) (details : Details) :
    IsWrite (ε := ε) fun store => .ok (store.keepCredits id details) := by
  obtain ⟨kind, change⟩ := details
  cases kind with
  | performer =>
    show IsWrite fun store =>
      .ok (if change.modifyAliases then store.creditOldName id change else store)
    split
    · exact creditOldName_isWrite id change
    · exact .keep
  | tag => exact .keep
  | studio => exact .keep
  | scene => exact .keep

theorem modify_isWrite (id : EntityId) (kind : Kind) (details : Details) (now : Instant) :
    IsWrite fun store => store.modify id kind details now :=
  .check (requireStillLive_graft · · id kind)
    (.check (checkFound_graft details.change id)
      (.check (checkReferences_graft details.change (some id))
        (.bind (writeScalars_isWrite id _)
          (.after (clearDropped_isWrite id details.change)
            (.bind (writeLists_isWrite id _)
              (.bind (writeDetailLinks_isWrite id details)
                (.after (keepCredits_isWrite id details) (touchEntity_isWrite id now))))))))

theorem detachReferrer_isWrite (key : String) (now : Instant) (referrer : EntityId) :
    IsWrite (ε := ε) fun store => .ok (detachReferrer key now store referrer) := by
  have both := IsWrite.after (clearField_isWrite (ε := ε) referrer key)
    (touchEntity_isWrite referrer now)
  exact both

theorem detachStudio_isWrite (studio : EntityId) (now : Instant) :
    IsWrite (ε := ε) fun store => .ok (store.detachStudio studio now) := by
  have each (key : String) : IsWrite (ε := ε) fun store =>
      .ok ((store.referrers key studio).foldl (detachReferrer key now) store) :=
    .foldlOver (fun _ _ => rfl) (detachReferrer_isWrite key now)
  exact .foldl each studioKeys

theorem destroy_isWrite (id : EntityId) (kind : Kind) (now : Instant) :
    IsWrite fun store => store.destroy id kind now := by
  refine .check (requireStillLive_graft · · id kind) ?_
  by_cases studio : kind = .studio
  · simpa only [if_pos studio] using
      IsWrite.after (detachStudio_isWrite id now) (tombstoneEntity_isWrite id now).lift
  · simpa only [if_neg studio] using (tombstoneEntity_isWrite id now).lift

theorem creditSourceName_isWrite (source target : EntityId) :
    IsWrite (ε := ε) fun store => .ok (store.creditSourceName source target) := by
  have each : ∀ names : Option String × Option String, IsWrite (ε := ε) fun store =>
      .ok ((store.edgesTo source .scenePerformer).foldl
        (creditSourceNameOn source names.1 names.2) store) := by
    refine fun names => .foldlOver (fun _ _ => rfl) fun edge => ?_
    unfold creditSourceNameOn
    split
    · exact setCredit_isWrite _ _ _ _
    · split
      · exact setCredit_isWrite _ _ _ _
      · exact .keep
  have named := IsWrite.look
    (fun store => (store.performerName? source, store.performerName? target))
    (fun _ _ => rfl) each
  exact named

theorem redirectReferrer_isWrite (target : EntityId) (key : String) (now : Instant)
    (referrer : EntityId) : IsWrite fun store => redirectReferrer target key now store referrer := by
  have own := IsWrite.after (clearField_isWrite (ε := ReviewError) referrer key)
    (touchEntity_isWrite referrer now)
  exact .ite own (.bind (setField_isWrite referrer key _).lift (touchEntity_isWrite referrer now))

theorem redirectStudio_isWrite (source target : EntityId) (now : Instant) :
    IsWrite fun store => store.redirectStudio source target now := by
  have each (key : String) : IsWrite fun store =>
      (store.referrers key source).foldlM (redirectReferrer target key now) store :=
    .foldlMOver (fun _ _ => rfl) (redirectReferrer_isWrite target key now)
  exact .foldlM each studioKeys

theorem moveReferences_isWrite (source target : EntityId) (kind : Kind) (details : Details)
    (now : Instant) : IsWrite fun store => store.moveReferences source target kind details now := by
  cases kind with
  | tag => exact repointEdges_isWrite .sceneTag source target
  | performer =>
    refine IsWrite.after ?_ (repointEdges_isWrite .scenePerformer source target)
    split
    · exact creditSourceName_isWrite source target
    · exact .keep
  | studio => exact redirectStudio_isWrite source target now
  | scene => exact .keep

theorem mergeSource_isWrite (source target : EntityId) (kind : Kind) (details : Details)
    (now : Instant) : IsWrite fun store => store.mergeSource source target kind details now :=
  .check (requireStillLive_graft · · source kind)
    (.bind (moveReferences_isWrite source target kind details now)
      (.bind (tombstoneEntity_isWrite source now).lift
        (insertRedirect_isWrite source target now).lift))

theorem merge_isWrite (target : EntityId) (sources : List EntityId) (kind : Kind)
    (details : Details) (now : Instant) :
    IsWrite fun store => store.merge target sources kind details now :=
  .bind (modify_isWrite target kind details now)
    (.foldlM (fun source => mergeSource_isWrite source target kind details now) sources)

end Store

/-! ### Edits -/

namespace Edit

/-- Something is written for a given target. -/
private theorem written_ok {change : Except ReviewError Store} {given target : EntityId}
    {after : Store} :
    (do let store ← change; return (given, store)) = .ok (target, after) ↔
      given = target ∧ change = .ok after := by
  cases change <;> simp [bind, Except.bind, pure, Except.pure]

/-- Something is written for the target of an edit. -/
private theorem requireTarget_written {edit : Edit} {write : EntityId → Except ReviewError Store}
    {target : EntityId} {after : Store} :
    (do let target ← edit.requireTarget; let store ← write target; return (target, store)) =
        .ok (target, after) ↔
      edit.target = some target ∧ write target = .ok after := by
  constructor
  · intro applied
    obtain ⟨given, required, rest⟩ := Except.bind_ok.mp applied
    obtain ⟨rfl, done⟩ := written_ok.mp rest
    exact ⟨Edit.requireTarget_ok.mp required, done⟩
  · rintro ⟨aims, done⟩
    exact Except.bind_ok.mpr ⟨target, Edit.requireTarget_ok.mpr aims, written_ok.mpr ⟨rfl, done⟩⟩

/-- What an edit does to the store, its target given. -/
private theorem targeted {write : Store → Except ReviewError Store} (isWrite : Store.IsWrite write)
    (target : EntityId) (store review : Store) :
    (do let after ← write (store.graft review); return (target, after)) =
      (do let after ← write store; return (target, after)).map
        fun (target, after) => (target, Store.graft after review) := by
  rw [isWrite.blind]
  cases write store <;> rfl

/-- **What an edit that applies does**: it makes a record, or does to its target what its operation
asks for. -/
theorem apply_ok {edit : Edit} {fresh target : EntityId} {now : Instant} {store after : Store} :
    edit.apply fresh now store = .ok (target, after) ↔
      match edit.operation with
      | .create => target = fresh ∧ store.create fresh edit.kind edit.details now = .ok after
      | .modify =>
        edit.target = some target ∧ store.modify target edit.kind edit.details now = .ok after
      | .destroy => edit.target = some target ∧ store.destroy target edit.kind now = .ok after
      | .merge => edit.target = some target ∧
        store.merge target edit.sources edit.kind edit.details now = .ok after := by
  unfold Edit.apply
  cases edit.operation with
  | create => exact written_ok.trans (and_congr_left' eq_comm)
  | modify => exact requireTarget_written
  | destroy => exact requireTarget_written
  | merge => exact requireTarget_written

/-- **An edit applies in the same way beside any review.** -/
theorem apply_graft (edit : Edit) (fresh : EntityId) (now : Instant) (store review : Store) :
    edit.apply fresh now (store.graft review) =
      (edit.apply fresh now store).map fun (target, after) => (target, after.graft review) := by
  unfold Edit.apply
  cases edit.operation with
  | create => exact targeted (Store.create_isWrite fresh edit.kind edit.details now) _ _ _
  | modify =>
    cases edit.requireTarget with
    | ok target => exact targeted (Store.modify_isWrite target edit.kind edit.details now) _ _ _
    | error error => rfl
  | destroy =>
    cases edit.requireTarget with
    | ok target => exact targeted (Store.destroy_isWrite target edit.kind now) _ _ _
    | error error => rfl
  | merge =>
    cases edit.requireTarget with
    | ok target =>
      exact targeted (Store.merge_isWrite target edit.sources edit.kind edit.details now) _ _ _
    | error error => rfl

/-- **An applied edit leaves a store that primitive writes make.** -/
theorem apply_written {edit : Edit} {fresh target : EntityId} {now : Instant}
    {store after : Store} (applied : edit.apply fresh now store = .ok (target, after)) :
    store.Written after := by
  have writes := apply_ok.mp applied
  split at writes
  · exact (Store.create_isWrite _ _ _ _).written writes.2
  · exact (Store.modify_isWrite _ _ _ _).written writes.2
  · exact (Store.destroy_isWrite _ _ _).written writes.2
  · exact (Store.merge_isWrite _ _ _ _ _).written writes.2

/-- Applying an edit leaves the review as it was. -/
theorem apply_frame {edit : Edit} {fresh target : EntityId} {now : Instant} {store after : Store}
    (applied : edit.apply fresh now store = .ok (target, after)) : after = after.graft store := by
  have blind := edit.apply_graft fresh now store store
  rw [Store.graft_self, applied] at blind
  exact congrArg Prod.snd (Except.ok.inj blind)

theorem apply_review {edit : Edit} {fresh target : EntityId} {now : Instant} {store after : Store}
    (applied : edit.apply fresh now store = .ok (target, after)) :
    after.edits = store.edits ∧ after.votes = store.votes := by
  rw [apply_frame applied]
  exact ⟨rfl, rfl⟩

end Edit

end Curation
