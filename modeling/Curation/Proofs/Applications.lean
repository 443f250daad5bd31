/-
**The catalogue changes by applications.** Whatever is called, the catalogue afterwards is what the
edits that have become applied make of it, one after the other, and nothing is left of an
application that failed. No edit is applied twice.

* `Desk.Enacts`: some applications are all that happens to the catalogue between two states;
* `Desk.Turn.enacts`: a turn enacts one edit or none, and `Desk.sweep_enacts`: a sweep enacts some
  of those that are due, in their order;
* `Desk.run_reapplies`: an edit that is applied again has been deleted in between;
* `Desk.run_applications`: all of it together.
-/

import Curation.Proofs.Lifecycle

namespace Curation

/-- What an edit makes a change to: the record that it targets, or the one that it creates. -/
def Edit.aim (edit : Edit) (fresh : EntityId) : Option EntityId :=
  match edit.operation with
  | .create => some fresh
  | _ => edit.target

/-- An edit is applied to what it aims at. -/
theorem Edit.apply_aim {edit : Edit} {fresh target : EntityId} {now : Instant} {store after : Store}
    (applies : edit.apply fresh now store = .ok (target, after)) :
    edit.aim fresh = some target := by
  have writes := apply_ok.mp applies
  unfold aim
  cases operation : edit.operation with
  | create =>
    rw [operation] at writes
    exact congrArg some writes.1.symm
  | _ =>
    rw [operation] at writes
    exact writes.1

/-! ### Edits that become applied -/

namespace Store

variable {before middle after : Store} {id : EditId} {edit : Edit} {rules : Rules}

/-- An edit is stored and has been applied. -/
def HasApplied (store : Store) (id : EditId) : Prop :=
  ∃ edit, store.edit? id = some edit ∧ edit.applied = true

/-- An edit becomes applied between two states. -/
def TurnsApplied (before after : Store) (id : EditId) : Prop :=
  after.HasApplied id ∧ ¬ before.HasApplied id

theorem hasApplied_iff : before.HasApplied id ↔ (before.edit? id).map Edit.applied = some true :=
  Option.map_eq_some_iff.symm

instance : Decidable (before.HasApplied id) := decidable_of_iff _ hasApplied_iff.symm

instance : Decidable (before.TurnsApplied after id) := inferInstanceAs (Decidable (_ ∧ ¬ _))

/-- The millisecond in which a stored edit was made. -/
def made? (store : Store) (id : EditId) : Option Int :=
  (store.edits.find? fun edit => edit.id = id).map fun edit => edit.created.toMillis

/-- One stored edit was made before another, or at the same time with the lesser identifier. -/
def Precedes (store : Store) (first second : EditId) : Prop :=
  ∃ early late, store.made? first = some early ∧ store.made? second = some late ∧
    (early < late ∨ early = late ∧ first.uuid < second.uuid)

theorem Regular.hasApplied_iff (regular : after.Regular rules) :
    after.HasApplied id ↔ ∃ edit, after.edit? id = some edit ∧ edit.status.isApplied = true :=
  exists_congr fun edit => and_congr_right fun found => by rw [(regular id edit found).applied]

theorem not_hasApplied_of_none (unused : before.edit? id = none) : ¬ before.HasApplied id := by
  rintro ⟨edit, found, -⟩
  cases unused.symm.trans found

theorem Regular.not_hasApplied (regular : before.Regular rules) (found : before.edit? id = some edit)
    (pending : edit.isPending = true) : ¬ before.HasApplied id := by
  rw [regular.hasApplied_iff]
  rintro ⟨other, looked, applied⟩
  cases found.symm.trans looked
  rw [Edit.not_isApplied_of_isPending pending] at applied
  cases applied

theorem Regular.not_isPending (regular : before.Regular rules) (found : before.edit? id = some edit)
    (applied : edit.applied = true) : edit.isPending = false := by
  by_contra pending
  exact regular.not_hasApplied found (Bool.not_eq_false _ ▸ pending) ⟨edit, found, applied⟩

/-- An edit whose state is written is found with it. -/
theorem edit?_written {written : Edit} (edits : after.edits = before.editsWith written)
    (found : before.edit? written.id = some edit) :
    after.edit? written.id = some (overwriteEdit edit written).toMillisecond := by
  have stored : (after.edit? written.id).isSome = true := by
    rw [edit?_isSome, hasEdit_editsWith edits, ← edit?_isSome, found]
    rfl
  obtain ⟨later, looked⟩ := Option.isSome_iff_exists.mp stored
  rcases edit?_editsWith edits looked with ⟨other, -⟩ | ⟨-, earlier, stood, rfl⟩
  · exact absurd rfl other
  · cases found.symm.trans stood
    exact looked

/-- Writing the state of an edit leaves the others alone. -/
theorem edit?_other {written : Edit} (edits : after.edits = before.editsWith written)
    (other : id ≠ written.id) : after.edit? id = before.edit? id := by
  cases looked : after.edit? id with
  | some later =>
    rcases edit?_editsWith edits looked with ⟨-, same⟩ | ⟨same, -⟩
    · exact same.symm
    · exact absurd same other
  | none =>
    have unused : before.hasEdit id = false := by
      rw [← hasEdit_editsWith edits, ← edit?_isSome, looked]
      rfl
    exact (edit?_unused unused).symm

end Store

/-! ### Applications in a row -/

/-- An edit that is applied, and the number of the identifier for a record that it creates. -/
structure Enactment where
  edit : Edit
  number : Nat

/-- The edit that is applied. -/
def Enactment.id (enactment : Enactment) : EditId := enactment.edit.id

namespace Desk

variable {desk : Desk} {now : Instant} {call : Call} {before middle after : Store} {id : EditId}
  {edit : Edit} {enactments : List Enactment}

/-- Applies an edit. -/
def perform (desk : Desk) (now : Instant) (store : Store) (enactment : Enactment) :
    Except ReviewError Store :=
  (enactment.edit.apply ⟨desk.draw enactment.number⟩ now store).map Prod.snd

/-- Applies edits one after the other. -/
def performAll (desk : Desk) (now : Instant) (enactments : List Enactment) (store : Store) :
    Except ReviewError Store :=
  enactments.foldlM (desk.perform now) store

theorem perform_isWrite (desk : Desk) (now : Instant) (enactment : Enactment) :
    Store.IsWrite fun store => desk.perform now store enactment where
  blind store review := by
    unfold perform
    rw [Edit.apply_graft]
    cases enactment.edit.apply ⟨desk.draw enactment.number⟩ now store <;> rfl
  written done := by
    obtain ⟨⟨target, after⟩, applies, rfl⟩ := Except.map_ok.mp done
    exact Edit.apply_written applies

/-- Applying edits on the same catalogue has the same outcome. -/
theorem performAll_rebase {first second store : Store} (same : first.SameCatalogue second)
    (performed : desk.performAll now enactments second = .ok store) :
    ∃ earlier, desk.performAll now enactments first = .ok earlier ∧ earlier.SameCatalogue store := by
  have blind := (Store.IsWrite.foldlM (desk.perform_isWrite now) enactments).blind first second
  rw [← same] at blind
  obtain ⟨earlier, done, rfl⟩ := Except.map_ok.mp (blind.symm.trans performed)
  exact ⟨earlier, done, .graft _ _⟩

/-- Between two states of a store some edits are applied, each once, and nothing else happens to the
catalogue. They are the edits that become applied, as they were stored or have just been submitted,
and they are stored as applied to what they aim at. -/
structure Enacts (desk : Desk) (now : Instant) (before after : Store) (enactments : List Enactment) :
    Prop where
  turned : ∀ id, id ∈ enactments.map Enactment.id ↔ before.TurnsApplied after id
  once : (enactments.map Enactment.id).Nodup
  catalogue : ∃ store, desk.performAll now enactments before = .ok store ∧ store.SameCatalogue after
  known : ∀ enactment ∈ enactments,
    (before.edit? enactment.id = some enactment.edit ∧ enactment.edit.isPending = true) ∨
      before.edit? enactment.id = none
  recorded : ∀ enactment ∈ enactments, ∃ applied, after.edit? enactment.id = some applied ∧
    { enactment.edit with
      target := enactment.edit.aim ⟨desk.draw enactment.number⟩ }.AsksSame applied

namespace Enacts

/-- Nothing is applied. -/
theorem nil (catalogue : before.SameCatalogue after)
    (unturned : ∀ id, after.HasApplied id → before.HasApplied id) :
    desk.Enacts now before after [] where
  turned id := iff_of_false List.not_mem_nil fun turns => turns.2 (unturned id turns.1)
  once := List.nodup_nil
  catalogue := ⟨before, rfl, catalogue⟩
  known _ member := nomatch member
  recorded _ member := nomatch member

/-- One edit is applied. -/
theorem single {number : Nat} {target : EntityId} {store : Store} {applied : Edit}
    (application : edit.apply ⟨desk.draw number⟩ now before = .ok (target, store))
    (catalogue : store.SameCatalogue after)
    (turned : ∀ id, id = edit.id ↔ before.TurnsApplied after id)
    (known : (before.edit? edit.id = some edit ∧ edit.isPending = true) ∨
      before.edit? edit.id = none)
    (found : after.edit? edit.id = some applied)
    (asks : { edit with target := some target }.AsksSame applied) :
    desk.Enacts now before after [⟨edit, number⟩] where
  turned id := List.mem_singleton.trans (turned id)
  once := List.nodup_singleton _
  catalogue := by
    have done : desk.perform now before ⟨edit, number⟩ = .ok store :=
      Except.map_ok.mpr ⟨(target, store), application, rfl⟩
    refine ⟨store, ?_, catalogue⟩
    unfold performAll
    rw [List.foldlM_cons, done]
    rfl
  known enactment member := by
    rw [List.mem_singleton.mp member]
    exact known
  recorded enactment member := by
    rw [List.mem_singleton.mp member]
    refine ⟨applied, found, ?_⟩
    rw [Edit.apply_aim application]
    exact asks

/-- Applications come one after the other if the first leave the later edits alone and what has been
applied is not touched again. -/
theorem trans {later : List Enactment} (first : desk.Enacts now before middle enactments)
    (second : desk.Enacts now middle after later)
    (apart : ∀ enactment ∈ later, middle.edit? enactment.id = before.edit? enactment.id)
    (early : ∀ id, before.HasApplied id → middle.HasApplied id)
    (late : ∀ id edit, middle.edit? id = some edit → edit.applied = true →
      after.edit? id = some edit) :
    desk.Enacts now before after (enactments ++ later) where
  turned id := by
    have lasts : middle.HasApplied id → after.HasApplied id := fun ⟨edit, found, applied⟩ =>
      ⟨edit, late id edit found applied, applied⟩
    rw [List.map_append, List.mem_append, first.turned, second.turned]
    constructor
    · rintro (⟨turned, unapplied⟩ | ⟨turned, unapplied⟩)
      · exact ⟨lasts turned, unapplied⟩
      · exact ⟨turned, fun applied => unapplied (early id applied)⟩
    · rintro ⟨turned, unapplied⟩
      by_cases here : middle.HasApplied id
      · exact .inl ⟨here, unapplied⟩
      · exact .inr ⟨turned, here⟩
  once := by
    rw [List.map_append, List.nodup_append]
    refine ⟨first.once, second.once, ?_⟩
    rintro id here _ there rfl
    exact ((second.turned id).mp there).2 ((first.turned id).mp here).1
  catalogue := by
    obtain ⟨store, performed, same⟩ := first.catalogue
    obtain ⟨final, performedLater, sameLater⟩ := second.catalogue
    obtain ⟨earlier, done, kept⟩ := performAll_rebase same performedLater
    refine ⟨earlier, ?_, kept.trans sameLater⟩
    unfold performAll at performed done ⊢
    rw [List.foldlM_append, performed]
    exact done
  known enactment member := by
    rcases List.mem_append.mp member with here | there
    · exact first.known enactment here
    · rw [← apart enactment there]
      exact second.known enactment there
  recorded enactment member := by
    rcases List.mem_append.mp member with here | there
    · obtain ⟨applied, found, asks⟩ := first.recorded enactment here
      obtain ⟨same, looked, turned⟩ :=
        ((first.turned enactment.id).mp (List.mem_map_of_mem here)).1
      cases found.symm.trans looked
      exact ⟨applied, late _ _ found turned, asks⟩
    · exact second.recorded enactment there

end Enacts

/-! ### One transaction -/

/-- A submission is applied at once, or nothing is. -/
theorem Files.enacts {caller : UserId} {submission : Submission} {added : Edit}
    (files : Files desk now before after caller submission added)
    (edits : after.edits = before.edits ++ [added]) :
    ∃ enactment : Option Enactment, desk.Enacts now before after enactment.toList := by
  cases files with
  | pending id details unused checked catalogue =>
    refine ⟨none, .nil catalogue fun other ⟨edit, found, applied⟩ => ?_⟩
    rcases Store.edit?_append edits found with earlier | ⟨-, rfl⟩
    · exact ⟨edit, earlier, applied⟩
    · cases applied
  | enacted id details number target store unused checked creates application catalogue =>
    have stored := Store.edit?_added edits unused
    have absent := Store.edit?_unused unused
    refine ⟨some ⟨submission.edit id caller details now, number⟩, .single application catalogue
      (fun other => ⟨?_, fun ⟨⟨edit, found, applied⟩, unapplied⟩ => ?_⟩) (.inr absent) stored
      ⟨rfl, rfl, rfl, rfl, rfl⟩⟩
    · rintro rfl
      exact ⟨⟨_, stored, rfl⟩, Store.not_hasApplied_of_none absent⟩
    · rcases Store.edit?_append edits found with earlier | ⟨same, -⟩
      · exact absurd ⟨edit, earlier, applied⟩ unapplied
      · exact same.symm

/-- A pending edit is applied when it is handled, or nothing is. -/
theorem Handles.enacts {written : Edit} (handles : desk.Handles now call before after edit written)
    (found : before.edit? edit.id = some edit) (pending : edit.isPending = true)
    (edits : after.edits = before.editsWith written) (regular : before.Regular desk.rules)
    (later : after.Regular desk.rules) :
    ∃ enactment : Option Enactment, desk.Enacts now before after enactment.toList := by
  have stood := found
  rw [← handles.id_eq] at stood
  have stored := Store.edit?_written edits stood
  rw [handles.overwrites] at stored
  -- an edit that is applied and was not before is the one that is handled
  have only {id : EditId} (applied : after.HasApplied id) :
      before.HasApplied id ∨ (id = edit.id ∧ written.status.isApplied = true) := by
    obtain ⟨standing, looked, turned⟩ := applied
    by_cases same : id = written.id
    · rw [same, stored] at looked
      cases looked
      exact .inr ⟨same.trans handles.id_eq, (later _ _ stored).applied ▸ turned⟩
    · rw [Store.edit?_other edits same] at looked
      exact .inl ⟨standing, looked, turned⟩
  rcases handles.catalogue pending with
    ⟨idle, catalogue⟩ | ⟨number, target, store, application, catalogue, applied, aimed, details⟩
  · refine ⟨none, .nil catalogue fun id applied => (only applied).resolve_right ?_⟩
    rintro ⟨-, closed⟩
    exact absurd closed (Bool.eq_false_iff.mp idle)
  · have asks : { edit with target := some target }.AsksSame written.toMillisecond := by
      rw [← handles.overwrites] at aimed details ⊢
      exact ⟨rfl, rfl, aimed, rfl, details⟩
    rw [handles.id_eq] at stored
    refine ⟨some ⟨edit, number⟩, .single application catalogue
      (fun id => ⟨?_, fun turns => ?_⟩) (.inl ⟨found, pending⟩) stored asks⟩
    · rintro rfl
      exact ⟨later.hasApplied_iff.mpr ⟨_, stored, applied⟩, regular.not_hasApplied found pending⟩
    · exact ((only turns.1).resolve_left turns.2).1

/-- **A turn applies one edit or none.** -/
theorem Turn.enacts (turn : desk.Turn now call before after)
    (regular : before.Regular desk.rules) :
    ∃ enactment : Option Enactment, desk.Enacts now before after enactment.toList := by
  have later := turn.regular regular
  cases turn with
  | idle catalogue edits votes =>
    refine ⟨none, .nil catalogue fun id ⟨edit, found, applied⟩ => ⟨edit, ?_, applied⟩⟩
    rwa [Store.edit?_congr edits] at found
  | deleted removed caller reason called looked settled catalogue edits votes =>
    refine ⟨none, .nil catalogue fun id ⟨edit, found, applied⟩ => ⟨edit, ?_, applied⟩⟩
    exact (Store.edit?_remove edits found).2
  | filed caller submission added files edits votes => exact files.enacts edits
  | handled edit written found pending handles edits =>
    exact handles.enacts found pending edits regular later

/-! ### Sweeps -/

/-- Closing an edit leaves the others alone. -/
theorem closeIfDue_edit? (desk : Desk) (now : Instant) {closed : EditId} (ledger : Ledger)
    (other : id ≠ closed) :
    (desk.proceed now ledger (.closeIfDue closed)).store.edit? id = ledger.store.edit? id := by
  rcases desk.closeIfDue_settles now closed ledger with
    same | ⟨edit, resolved, tally, found, -, -, -, settles, edits, -⟩
  · exact Store.edit?_congr same.edits id
  · have sameId : resolved.id = closed := by
      rw [← edit?_id found]
      rcases settles.status with ⟨-, rfl⟩ | ⟨-, rfl⟩ | ⟨-, target, status, -, rfl⟩ <;> rfl
    exact Store.edit?_other edits (sameId ▸ other)

/-- Closing some edits leaves alone those that are no longer pending. -/
theorem sweep_stays (desk : Desk) (now : Instant) (ids : List EditId) {ledger : Ledger}
    (found : ledger.store.edit? id = some edit) (settled : edit.isPending = false) :
    (desk.runFrom ledger (ids.map fun id => (now, .closeIfDue id))).store.edit? id = some edit := by
  rw [runFrom, List.foldl_map]
  refine List.foldlRecOn (motive := fun state : Ledger => state.store.edit? id = some edit) ids _
    found fun state same closed _ => ?_
  have turn : desk.Turn now (.closeIfDue closed) state.store
      (desk.proceed now state (.closeIfDue closed)).store := desk.turn now state rfl
  exact turn.stays same settled (Call.closeIfDue_revises? closed id)

/-- **Closing edits one after the other applies some of them, in this order.** -/
theorem sweep_enacts (desk : Desk) (now : Instant) (ids : List EditId) (distinct : ids.Nodup)
    {ledger : Ledger} (regular : ledger.store.Regular desk.rules) :
    ∃ enactments, desk.Enacts now ledger.store
        (desk.runFrom ledger (ids.map fun id => (now, .closeIfDue id))).store enactments ∧
      (enactments.map Enactment.id).Sublist ids := by
  induction ids generalizing ledger with
  | nil => exact ⟨[], .nil (.refl _) fun _ applied => applied, .slnil⟩
  | cons closed rest hypothesis =>
    obtain ⟨absent, distinct⟩ := List.nodup_cons.mp distinct
    have turn : desk.Turn now (.closeIfDue closed) ledger.store
        (desk.proceed now ledger (.closeIfDue closed)).store := desk.turn now ledger rfl
    have next := turn.regular regular
    obtain ⟨enactment, first⟩ := turn.enacts regular
    obtain ⟨later, second, inOrder⟩ := hypothesis distinct next
    have early : ∀ id, ledger.store.HasApplied id →
        (desk.proceed now ledger (.closeIfDue closed)).store.HasApplied id := by
      rintro id ⟨edit, found, applied⟩
      exact ⟨edit, turn.stays found (regular.not_isPending found applied)
        (Call.closeIfDue_revises? closed id), applied⟩
    refine ⟨enactment.toList ++ later, first.trans second (fun enacted member => ?_) early ?_, ?_⟩
    · have listed := inOrder.subset (List.mem_map_of_mem member)
      exact desk.closeIfDue_edit? now ledger fun same => absent (same ▸ listed)
    · exact fun id edit found applied =>
        desk.sweep_stays now rest found (next.not_isPending found applied)
    · cases enactment with
      | none => exact inOrder.cons closed
      | some enactment =>
        have turned := (first.turned enactment.id).mp (List.mem_singleton_self _)
        have same : enactment.id = closed := by
          by_contra other
          obtain ⟨⟨edit, found, applied⟩, unapplied⟩ := turned
          rw [desk.closeIfDue_edit? now ledger other] at found
          exact unapplied ⟨edit, found, applied⟩
        show (enactment.id :: later.map Enactment.id).Sublist _
        rw [same]
        exact inOrder.cons_cons closed

/-! ### The order of edits -/

end Desk

namespace Store

variable {store : Store} {edit written : Edit}

/-- Writing the state of an edit leaves all identifiers. -/
theorem map_id_editsWith (store : Store) (written : Edit) :
    (store.editsWith written).map Edit.id = store.edits.map Edit.id := by
  rw [editsWith, List.map_map]
  refine List.map_congr_left fun stored _ => ?_
  rw [Function.comp_apply]
  split <;> rfl

theorem made?_of_mem (distinct : (store.edits.map Edit.id).Nodup) (stored : edit ∈ store.edits) :
    store.made? edit.id = some edit.created.toMillis := by
  have listed : (store.edits.find? fun row => row.id = edit.id).isSome = true :=
    List.find?_isSome.mpr ⟨edit, stored, decide_eq_true rfl⟩
  obtain ⟨row, found⟩ := Option.isSome_iff_exists.mp listed
  have sameId : row.id = edit.id := by simpa using List.find?_some found
  cases List.inj_on_of_nodup_map distinct (List.mem_of_find?_eq_some found) stored sameId
  rw [made?, found]
  rfl

theorem map_id_pendingEdits (store : Store) : store.pendingEdits.map Edit.id =
    (sortBy (inOrder Edit.created fun edit => edit.id.uuid)
      (store.edits.filter Edit.isPending)).map Edit.id := by
  rw [pendingEdits, editsWhere, List.map_map]
  rfl

theorem nodup_pendingEdits (distinct : (store.edits.map Edit.id).Nodup) :
    (store.pendingEdits.map Edit.id).Nodup := by
  rw [map_id_pendingEdits, ((perm_sortBy _ _).map Edit.id).nodup_iff]
  exact distinct.sublist (List.filter_sublist.map Edit.id)

/-- **The pending edits come in the order in which they were made.** -/
theorem pendingEdits_ordered (distinct : (store.edits.map Edit.id).Nodup) :
    (store.pendingEdits.map Edit.id).Pairwise store.Precedes := by
  have apart := nodup_pendingEdits distinct
  rw [map_id_pendingEdits] at apart ⊢
  have sorted := pairwise_sortBy (inOrder_total Edit.created fun edit => edit.id.uuid)
    (fun _ _ _ => inOrder_trans) (store.edits.filter Edit.isPending)
  rw [List.pairwise_map]
  refine (sorted.and (List.pairwise_map.mp apart)).imp_of_mem fun {first second} early late both => ?_
  have firstStored := (List.mem_filter.mp (mem_sortBy.mp early)).1
  have secondStored := (List.mem_filter.mp (mem_sortBy.mp late)).1
  refine ⟨_, _, made?_of_mem distinct firstStored, made?_of_mem distinct secondStored, ?_⟩
  rcases inOrder_iff.mp both.1 with earlier | ⟨same, least⟩
  · exact .inl earlier
  · exact .inr ⟨same, Uuid.lt_of_le_of_ne least fun clash => both.2 (congrArg Id.mk clash)⟩

end Store

namespace Desk

variable {desk : Desk} {now : Instant} {call : Call} {before after : Store} {id : EditId}
  {edit : Edit}

/-- A turn leaves each identifier to one edit. -/
theorem Turn.distinct (turn : desk.Turn now call before after)
    (distinct : (before.edits.map Edit.id).Nodup) : (after.edits.map Edit.id).Nodup := by
  cases turn with
  | idle catalogue edits votes => rwa [edits]
  | filed caller submission added files edits votes =>
    have unused : before.hasEdit added.id = false := by
      cases files <;> assumption
    rw [edits, List.map_append, List.nodup_append]
    refine ⟨distinct, List.nodup_singleton _, ?_⟩
    rintro id listed _ new rfl
    obtain ⟨row, stored, same⟩ := List.mem_map.mp listed
    have known := hasEdit_of_mem stored
    rw [same, List.mem_singleton.mp new] at known
    exact Bool.false_ne_true (unused.symm.trans known)
  | handled edit written found pending handles edits =>
    rw [edits, Store.map_id_editsWith]
    exact distinct
  | deleted removed caller reason called looked settled catalogue edits votes =>
    rw [edits]
    exact distinct.sublist (List.filter_sublist.map Edit.id)

theorem run_distinct (desk : Desk) (calls : List (Instant × Call)) :
    ((desk.run calls).store.edits.map Edit.id).Nodup :=
  @run_keeps (fun store => (store.edits.map Edit.id).Nodup) desk calls List.nodup_nil
    fun _ _ _ _ _ turn distinct => turn.distinct distinct

/-- A sweep closes the first ones among the edits that are due. -/
theorem swept_prefix (desk : Desk) (now : Instant) (ids : List EditId) (ledger : Ledger) :
    desk.swept now ids ledger <+: ids := by
  induction ids generalizing ledger with
  | nil => exact List.prefix_rfl
  | cons id rest hypothesis =>
    unfold swept
    dsimp only
    cases (desk.carryOut (desk.closeIfDue now id) ledger).result with
    | ok wasDue => exact (List.prefix_cons_inj id).mpr (hypothesis _)
    | error error => exact ⟨rest, rfl⟩

/-- **A call applies some edits**, those that were made earlier before the others. -/
theorem proceed_enacts (desk : Desk) (now : Instant) (call : Call) {ledger : Ledger}
    (regular : ledger.store.Regular desk.rules)
    (distinct : (ledger.store.edits.map Edit.id).Nodup) :
    ∃ enactments,
      desk.Enacts now ledger.store (desk.proceed now ledger call).store enactments ∧
        (enactments.map Enactment.id).Pairwise ledger.store.Precedes := by
  rcases desk.transactions_cases now ledger call with ⟨single, -⟩ | ⟨rfl, -⟩
  · obtain ⟨enactment, enacts⟩ := (desk.turn now ledger single).enacts regular
    refine ⟨enactment.toList, enacts, ?_⟩
    cases enactment with
    | none => exact List.Pairwise.nil
    | some enactment => exact List.pairwise_singleton _ _
  · rw [← runFrom_transactions, transactions]
    generalize dueOnes : (ledger.store.pendingEdits.filter fun edit =>
      decide (desk.votingEnds ledger.store edit ≤ now)).map Edit.id = due
    have listed : due.Sublist (ledger.store.pendingEdits.map Edit.id) := by
      rw [← dueOnes]
      exact List.filter_sublist.map Edit.id
    have closed := (desk.swept_prefix now due ledger).sublist.trans listed
    obtain ⟨enactments, enacts, inOrder⟩ := desk.sweep_enacts now (desk.swept now due ledger)
      ((Store.nodup_pendingEdits distinct).sublist closed) regular
    exact ⟨enactments, enacts,
      (Store.pendingEdits_ordered distinct).sublist (inOrder.trans closed)⟩

/-! ### Runs -/

/-- An edit becomes applied by a call after others. -/
def Applies (desk : Desk) (calls : List (Instant × Call)) (entry : Instant × Call) (id : EditId) :
    Prop :=
  (desk.run calls).store.TurnsApplied (desk.run (calls ++ [entry])).store id

/-- **An edit that becomes applied again has been deleted in between**, so that the identifier has
been given to another edit. -/
theorem run_reapplies (desk : Desk) {earlier middle : List (Instant × Call)}
    {entry again : Instant × Call} (applies : desk.Applies earlier entry id)
    (reapplies : desk.Applies (earlier ++ entry :: middle) again id) :
    ∃ first now caller reason rest, middle = first ++ (now, .deleteEdit caller id reason) :: rest ∧
      (desk.run (earlier ++ entry :: first ++ [(now, .deleteEdit caller id reason)])).store.Lacks
        id := by
  obtain ⟨edit, found, applied⟩ := applies.1
  cases edit?_id found
  have regular := desk.run_regular (earlier ++ [entry])
  rcases desk.runFrom_continues (earlier ++ [entry]) middle found with
    continues | ⟨first, now, caller, reason, rest, parts, -, lacks⟩
  · obtain ⟨standing, stands, -, frozen⟩ := continues.stored
    cases frozen (regular.not_isPending found applied)
    rw [List.append_assoc, List.singleton_append] at stands
    exact absurd ⟨edit, stands, applied⟩ reapplies.2
  · refine ⟨first, now, caller, reason, rest, parts, ?_⟩
    rwa [List.append_assoc earlier, List.singleton_append] at lacks

/-- **No edit is applied twice** if no identifier is issued twice. -/
theorem run_appliesOnce (desk : Desk) {earlier middle : List (Instant × Call)}
    {entry again : Instant × Call}
    (distinct : Set.InjOn desk.draw
      {number | number < (desk.run (earlier ++ entry :: middle ++ [again])).issued})
    (applies : desk.Applies earlier entry id) :
    ¬ desk.Applies (earlier ++ entry :: middle) again id := by
  intro reapplies
  obtain ⟨first, now, caller, reason, rest, rfl, lacks⟩ := desk.run_reapplies applies reapplies
  obtain ⟨edit, found, -⟩ := applies.1
  obtain ⟨later, looked, -⟩ := reapplies.1
  cases edit?_id found
  have deleted : (desk.run (earlier ++ entry :: first ++
      [(now, .deleteEdit caller edit.id reason)])).store.hasEdit edit.id = false := by
    rw [← Store.edit?_isSome, lacks.edit]
    rfl
  have gone := desk.run_gone ⟨first ++ [(now, .deleteEdit caller edit.id reason)], by simp⟩
    ⟨rest ++ [again], by simp⟩ distinct (Store.hasEdit_of_edit? found) deleted
  rw [Store.hasEdit_of_edit? looked] at gone
  cases gone

/-- **The catalogue changes by applications only.** A call applies the edits that become applied by
it, each once and those that were made earlier before the others, and nothing else happens to the
catalogue; if there are none, it stays as it was. An edit that becomes applied again in a run has
been deleted in between, which does not happen if no identifier is issued twice. -/
theorem run_applications (desk : Desk) (calls : List (Instant × Call)) :
    (∀ now call,
      (∃ enactments, desk.Enacts now (desk.run calls).store
          (desk.run (calls ++ [(now, call)])).store enactments ∧
        (enactments.map Enactment.id).Pairwise (desk.run calls).store.Precedes) ∧
      ((∀ id, ¬ desk.Applies calls (now, call) id) →
        (desk.run calls).store.SameCatalogue (desk.run (calls ++ [(now, call)])).store)) ∧
    (∀ id earlier entry middle again rest, calls = earlier ++ entry :: middle ++ again :: rest →
      desk.Applies earlier entry id → desk.Applies (earlier ++ entry :: middle) again id →
      ∃ first now caller reason later,
        middle = first ++ (now, .deleteEdit caller id reason) :: later ∧
          (desk.run (earlier ++ entry :: first ++
            [(now, .deleteEdit caller id reason)])).store.Lacks id) ∧
    (Set.InjOn desk.draw {number | number < (desk.run calls).issued} →
      ∀ id earlier entry middle again rest, calls = earlier ++ entry :: middle ++ again :: rest →
        desk.Applies earlier entry id → ¬ desk.Applies (earlier ++ entry :: middle) again id) := by
  refine ⟨fun now call => ?_, ?_, ?_⟩
  · have enacted := desk.proceed_enacts now call (desk.run_regular calls) (desk.run_distinct calls)
    rw [← run_concat] at enacted
    refine ⟨enacted, fun unapplied => ?_⟩
    obtain ⟨enactments, enacts, -⟩ := enacted
    cases enactments with
    | nil =>
      obtain ⟨store, performed, same⟩ := enacts.catalogue
      cases performed
      exact same
    | cons enactment rest =>
      exact absurd ((enacts.turned enactment.id).mp List.mem_cons_self) (unapplied enactment.id)
  · exact fun id earlier entry middle again rest _ => desk.run_reapplies
  · rintro distinct id earlier entry middle again rest rfl
    have begins : earlier ++ entry :: middle ++ [again] <+:
        earlier ++ entry :: middle ++ again :: rest := ⟨rest, by simp⟩
    exact desk.run_appliesOnce (distinct.mono fun number less =>
      lt_of_lt_of_le less (desk.run_issues begins).issued)

/-- Two tags are submitted, and nobody votes on them. -/
def pendingTags : List (Clock × Call) :=
  staffed ++
    [(⟨1⟩, .createEdit ⟨Uuid.serial 0⟩ (.create (.namedTag "outdoors"))),
      (⟨2⟩, .createEdit ⟨Uuid.serial 0⟩ (.create (.namedTag "open air")))]

/-- The sweep that closes both. -/
def tagSweep : Instant × Call := (Clock.now ⟨400000000⟩, .closeCompleted)

theorem pendingTags_applications :
    (∃ enactments, swift.Enacts tagSweep.1 (swift.run (timed pendingTags)).store
        (swift.run (timed pendingTags ++ [tagSweep])).store enactments ∧
      ⟨Uuid.serial 2⟩ ∈ enactments.map Enactment.id ∧
      ⟨Uuid.serial 3⟩ ∈ enactments.map Enactment.id) ∧
    Set.InjOn swift.draw {number | number < (swift.run (timed pendingTags ++ [tagSweep])).issued} ∧
    ∀ id earlier entry middle again rest,
      timed pendingTags ++ [tagSweep] = earlier ++ entry :: middle ++ again :: rest →
      swift.Applies earlier entry id → ¬ swift.Applies (earlier ++ entry :: middle) again id := by
  have turns : ∀ number ∈ [2, 3], (swift.run (timed pendingTags)).store.TurnsApplied
      (swift.run (timed pendingTags ++ [tagSweep])).store ⟨Uuid.serial number⟩ := by
    decide +kernel
  have few : (swift.run (timed pendingTags ++ [tagSweep])).issued < 1 <<< 62 := by decide +kernel
  have distinct : Set.InjOn swift.draw
      {number | number < (swift.run (timed pendingTags ++ [tagSweep])).issued} :=
    fun _ first _ second same => Uuid.serial_inj (first.trans few) (second.trans few) same
  obtain ⟨enactments, enacts, -⟩ :=
    ((run_applications swift (timed pendingTags)).1 tagSweep.1 tagSweep.2).1
  exact ⟨⟨enactments, enacts, (enacts.turned _).mpr (turns 2 (by decide)),
      (enacts.turned _).mpr (turns 3 (by decide))⟩, distinct,
    (run_applications swift (timed pendingTags ++ [tagSweep])).2.2 distinct⟩

end Desk

end Curation
