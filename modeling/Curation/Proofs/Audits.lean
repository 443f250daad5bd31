/-
**Deletion is audited.** An administrator who deletes a closed edit leaves an audit of it, from which
everything that was stored of the edit is read back. The edit does not come back, because identifiers
are issued once; so there is one audit of each deleted edit, and it stays as it is until it expires.

* `Desk.deleteEdit_archives`, `Desk.deleteEdit_missing`: what a deletion answers, and
  `Desk.deleteEdit_changes`: what it does to the ledger;
* `Desk.Recorded`: what holds of the audits on record, and `Desk.run_recorded`;
* `Desk.run_keepsAudits`: audits stay until they expire;
* `Desk.run_audited`: the main result.
-/

import Curation.Proofs.Lifecycle
import Curation.Proofs.Grants
import Curation.Proofs.Numbering
import Curation.Proofs.Permissions
import Curation.Proofs.Snapshots
import Curation.Proofs.Standing

namespace Curation

namespace Store

variable {store after : Store} {user : UserId}

/-- A user is an administrator and not one who may only read. -/
def Moderates (store : Store) (user : UserId) : Prop :=
  .admin ∈ store.roles user ∧ .readOnly ∉ store.roles user

instance : Decidable (store.Moderates user) :=
  inferInstanceAs (Decidable (.admin ∈ store.roles user ∧ .readOnly ∉ store.roles user))

/-- The store once the edit of an audit is gone with its votes and comments, and the audit is kept. -/
def archive (store : Store) (audit : Audit) : Store :=
  { (store.deleteEdit audit.edit).2 with audits := store.audits ++ [audit] }

/-- The audit of the deletion of an edit. -/
def auditOf (store : Store) (id : AuditId) (edit : Edit) (caller : UserId) (reason : String)
    (now : Instant) : Audit :=
  Audit.ofDeletion id (store.snapshot edit caller now) reason

/-- An edit is deleted with an audit unless the identifier of the audit is taken. -/
theorem deleteWithAudit_archives {id : AuditId} {edit : Edit} {caller : UserId} {reason : String}
    {now : Instant} : store.deleteWithAudit id edit caller reason now = .ok after ↔
      (∀ audit ∈ store.audits, audit.id ≠ id) ∧
        after = store.archive (store.auditOf id edit caller reason now) := by
  unfold deleteWithAudit insertAudit
  rw [Except.bind_ok]
  constructor
  · rintro ⟨audited, inserted, finish⟩
    split at inserted
    · cases inserted
    · next unused =>
      cases inserted
      cases finish
      refine ⟨fun audit member same => unused ?_, rfl⟩
      exact List.any_eq_true.mpr ⟨audit, member, decide_eq_true same⟩
  · rintro ⟨unused, rfl⟩
    refine ⟨_, if_neg fun taken => ?_, rfl⟩
    obtain ⟨audit, member, same⟩ := List.any_eq_true.mp taken
    exact unused audit member (of_decide_eq_true same)

theorem hasEdit_archive {audit : Audit} {id : EditId} :
    (store.archive audit).hasEdit id = true ↔ store.hasEdit id = true ∧ id ≠ audit.edit := by
  unfold hasEdit archive deleteEdit
  simp only [List.any_eq_true, List.mem_filter, decide_eq_true_eq]
  constructor
  · rintro ⟨edit, ⟨stored, other⟩, rfl⟩
    exact ⟨⟨edit, stored, rfl⟩, other⟩
  · rintro ⟨⟨edit, stored, rfl⟩, other⟩
    exact ⟨edit, ⟨stored, other⟩, rfl⟩

end Store

namespace Desk

variable {desk : Desk} {now : Instant} {call : Call} {before after ledger : Ledger}

/-! ### One deletion -/

section Deletion

variable {caller : UserId} {edit : Edit} {id : EditId} {reason : String}

/-- The ledger once an edit is deleted and an audit of it is left. -/
def archived (desk : Desk) (now : Instant) (caller : UserId) (edit : Edit) (reason : String)
    (ledger : Ledger) : Ledger where
  store := ledger.store.archive
    (ledger.store.auditOf ⟨desk.draw ledger.issued⟩ edit caller reason now)
  issued := ledger.issued + 1

theorem carryOutQuietly_done {α : Type} {step : Step α} {result : α}
    (done : step before = .ok (result, after)) :
    carryOutQuietly step before = ⟨.ok result, after, []⟩ := by
  unfold carryOutQuietly
  rw [done]

/-- A moderator gets past the check for an administrator. -/
theorem moderates_passes {store : Store} (enrolled : store.Enrolled)
    (moderates : store.Moderates caller) :
    rolesOf store caller = .ok (store.roles caller) ∧
      requireRole (store.roles caller) .admin = .ok () := by
  have known : store.hasUser caller = true := enrolled _ (Store.mem_roles.mp moderates.1)
  exact ⟨if_pos known,
    requireRole_ok.mpr ⟨fun _ => moderates.2, Role.anyGrants_admin.mpr moderates.1⟩⟩

/-- **Who moderates deletes any edit that is not pending.** -/
theorem deleteEdit_archives (enrolled : ledger.store.Enrolled)
    (moderates : ledger.store.Moderates caller) (found : ledger.store.edit? edit.id = some edit)
    (settled : edit.isPending = false)
    (fresh : ∀ audit ∈ ledger.store.audits, audit.id ≠ ⟨desk.draw ledger.issued⟩) :
    desk.deleteEdit now caller edit.id reason ledger =
      ⟨.ok true, desk.archived now caller edit reason ledger, []⟩ := by
  obtain ⟨held, passes⟩ := moderates_passes enrolled moderates
  refine carryOutQuietly_done ?_
  simp only [Step.bind_ok, Step.check_ok, Step.read_ok]
  refine ⟨_, _, ⟨held, rfl⟩, _, _, ⟨passes, rfl⟩, some edit, _, ⟨found, rfl⟩, ?_⟩
  simp only [Step.bind_ok, Step.check_ok, Step.issue_ok, Step.write_ok, Step.pure_ok]
  have closed : (!edit.isPending) = true := by rw [settled, Bool.not_false]
  exact ⟨(), _, ⟨require_ok.mpr closed, rfl⟩, _, _, ⟨rfl, rfl⟩, (), _,
    ⟨_, Store.deleteWithAudit_archives.mpr ⟨fresh, rfl⟩, rfl⟩, trivial, rfl⟩

/-- Whoever moderates is told that there is no edit to delete, and nothing changes. -/
def FindsNothing (desk : Desk) (ledger : Ledger) (id : EditId) : Prop :=
  ∀ now caller reason, ledger.store.Moderates caller →
    desk.deleteEdit now caller id reason ledger = ⟨.ok false, ledger, []⟩

theorem deleteEdit_missing (enrolled : ledger.store.Enrolled)
    (missing : ledger.store.edit? id = none) : desk.FindsNothing ledger id := by
  intro now caller reason moderates
  obtain ⟨held, passes⟩ := moderates_passes enrolled moderates
  refine carryOutQuietly_done ?_
  simp only [Step.bind_ok, Step.check_ok, Step.read_ok]
  exact ⟨_, _, ⟨held, rfl⟩, _, _, ⟨passes, rfl⟩, none, _, ⟨missing, rfl⟩, Step.pure_ok.mpr ⟨rfl, rfl⟩⟩

/-- **A deletion does nothing, or it archives an edit** that is stored and not pending. -/
theorem deleteEdit_changes (desk : Desk) (now : Instant) (caller : UserId) (id : EditId)
    (reason : String) (ledger : Ledger) :
    (desk.deleteEdit now caller id reason ledger).ledger = ledger ∨
      ∃ edit, ledger.store.edit? edit.id = some edit ∧ edit.isPending = false ∧
        (desk.deleteEdit now caller id reason ledger).ledger =
          desk.archived now caller edit reason ledger := by
  unfold deleteEdit
  rcases carryOutQuietly_cases _ ledger with same | ⟨result, after, done, same⟩
  · exact .inl same
  · rw [same]
    simp only [Step.bind_ok, Step.check_ok, Step.read_ok] at done
    obtain ⟨roles, _, ⟨-, rfl⟩, -, _, ⟨-, rfl⟩, found, _, ⟨looked, rfl⟩, done⟩ := done
    cases found with
    | none =>
      obtain ⟨-, rfl⟩ := Step.pure_ok.mp done
      exact .inl rfl
    | some edit =>
      simp only [Step.bind_ok, Step.check_ok, Step.issue_ok, Step.write_ok, Step.pure_ok,
        require_ok] at done
      obtain ⟨-, _, ⟨settled, rfl⟩, audit, _, ⟨rfl, rfl⟩, -, _, ⟨store, deleted, rfl⟩, -, rfl⟩ := done
      cases edit?_id looked
      refine .inr ⟨edit, looked, (Bool.not_eq_true' _).mp settled, ?_⟩
      rw [(Store.deleteWithAudit_archives.mp deleted).2]
      rfl

end Deletion

/-! ### Audits on record -/

/-- Only deletions of edits and of expired audits write to the audits. -/
theorem Posts.audits (posts : desk.Posts now call before after)
    (keeps : ∀ caller id reason, call ≠ .deleteEdit caller id reason)
    (lasts : call ≠ .deleteExpiredAudits) : after.store.audits = before.store.audits := by
  refine posts.onRegister (fun store => store.audits = before.store.audits) rfl ?_ ?_ ?_ ?_ ?_
  · exact fun first second earlier same => same.audits.trans earlier
  · intro store more user name done earlier
    rw [Store.insertUser_ok done]
    exact earlier
  · intro store more user role isNew done earlier
    rw [Store.grantRole_store done]
    exact earlier
  · exact fun _ _ _ edit caller reason called => absurd called (keeps caller edit.id reason)
  · exact fun _ _ called => absurd called lasts

/-- **What becomes of the audits in a transaction**: one is added when an edit is archived, some may go
when the expired ones are dropped, and otherwise they are the same. -/
theorem proceed_audits (desk : Desk) (now : Instant) (ledger : Ledger) (single : call.isSingle = true) :
    (∃ caller edit reason, ledger.store.edit? edit.id = some edit ∧ edit.isPending = false ∧
        desk.proceed now ledger call = desk.archived now caller edit reason ledger) ∨
      (call = .deleteExpiredAudits ∧
        (desk.proceed now ledger call).store.audits.Sublist ledger.store.audits) ∨
      (desk.proceed now ledger call).store.audits = ledger.store.audits := by
  by_cases deletes : ∃ caller id reason, call = .deleteEdit caller id reason
  · obtain ⟨caller, id, reason, rfl⟩ := deletes
    rcases desk.deleteEdit_changes now caller id reason ledger with
      same | ⟨edit, found, settled, same⟩
    · exact .inr (.inr (congrArg (fun state => state.store.audits) same))
    · exact .inl ⟨caller, edit, reason, found, settled, same⟩
  · by_cases expires : call = .deleteExpiredAudits
    · cases expires
      rcases desk.deleteExpiredAudits_cases now ledger with same | ⟨cutoff, same⟩
      · exact .inr (.inr (congrArg (fun state => state.store.audits) same))
      · refine .inr (.inl ⟨rfl, ?_⟩)
        rw [proceed, same]
        exact List.filter_sublist
    · exact .inr (.inr ((desk.posts now ledger single).audits
        (fun caller id reason called => deletes ⟨caller, id, reason, called⟩) expires))

/-- **What holds of the audits on record.** Each was made of the snapshot of a closed edit, which is
gone; none is made twice of one edit. Identifiers of edits, gone or not, and of audits were drawn. -/
structure Recorded (desk : Desk) (ledger : Ledger) : Prop where
  edits : ∀ id, ledger.store.hasEdit id = true → desk.Draws ledger.issued id.uuid
  drawn : ∀ audit ∈ ledger.store.audits,
    desk.Draws ledger.issued audit.id.uuid ∧ desk.Draws ledger.issued audit.edit.uuid
  made : ∀ audit ∈ ledger.store.audits, ∃ snapshot reason,
    audit = Audit.ofDeletion audit.id snapshot reason ∧ snapshot.edit.isPending = false ∧
      snapshot.edit.closed.isSome = true
  gone : ∀ audit ∈ ledger.store.audits, ledger.store.hasEdit audit.edit = false
  once : (ledger.store.audits.map Audit.edit).Nodup

namespace Recorded

/-- What adds no audits leaves those on record right: the edits that it adds have new identifiers. -/
theorem of_less (recorded : desk.Recorded before) (issues : desk.Issues before after)
    (distinct : Set.InjOn desk.draw {number | number < after.issued})
    (audits : after.store.audits.Sublist before.store.audits) : desk.Recorded after where
  edits id stored := by
    rcases issues.hasEdit stored with known | ⟨number, -, less, drawn⟩
    · exact (recorded.edits id known).mono issues.issued
    · exact ⟨number, less, congrArg Id.uuid drawn⟩
  drawn audit member :=
    have ⟨own, edit⟩ := recorded.drawn audit (audits.subset member)
    ⟨own.mono issues.issued, edit.mono issues.issued⟩
  made audit member := recorded.made audit (audits.subset member)
  gone audit member := by
    have gone := recorded.gone audit (audits.subset member)
    -- the edit got its identifier before the audit was made, and could come back with a new one only
    obtain ⟨old, oldLess, oldDrawn⟩ := (recorded.drawn audit (audits.subset member)).2
    refine Bool.eq_false_iff.mpr fun back => ?_
    obtain ⟨new, least, less, drawn⟩ := (issues.hasEdit back).resolve_left (Bool.eq_false_iff.mp gone)
    have same : old = new := distinct (oldLess.trans_le issues.issued) less
      (oldDrawn.symm.trans (congrArg Id.uuid drawn))
    omega
  once := recorded.once.sublist (audits.map Audit.edit)

/-- An edit that is archived had no audit before, because it was stored. -/
theorem archived {edit : Edit} (recorded : desk.Recorded ledger)
    (found : ledger.store.edit? edit.id = some edit) (settled : edit.isPending = false)
    (closed : edit.closed.isSome = true) (caller : UserId) (reason : String) :
    desk.Recorded (desk.archived now caller edit reason ledger) := by
  have stored : ledger.store.hasEdit edit.id = true := Store.hasEdit_of_edit? found
  have more : ledger.issued ≤ (desk.archived now caller edit reason ledger).issued := Nat.le_succ _
  refine ⟨fun id known => ?_, fun audit member => ?_, fun audit member => ?_, fun audit member => ?_,
    ?_⟩
  · exact (recorded.edits id (Store.hasEdit_archive.mp known).1).mono more
  · rcases List.mem_append.mp member with kept | added
    · exact ⟨(recorded.drawn audit kept).1.mono more, (recorded.drawn audit kept).2.mono more⟩
    · rw [List.mem_singleton.mp added]
      exact ⟨⟨_, Nat.lt_succ_self _, rfl⟩, (recorded.edits _ stored).mono more⟩
  · rcases List.mem_append.mp member with kept | added
    · exact recorded.made audit kept
    · rw [List.mem_singleton.mp added]
      exact ⟨ledger.store.snapshot edit caller now, reason, rfl, settled, closed⟩
  · refine Bool.eq_false_iff.mpr fun back => ?_
    obtain ⟨standing, other⟩ := Store.hasEdit_archive.mp back
    rcases List.mem_append.mp member with kept | added
    · exact absurd standing (Bool.eq_false_iff.mp (recorded.gone audit kept))
    · rw [List.mem_singleton.mp added] at other
      exact other rfl
  · show ((ledger.store.audits ++ [_]).map Audit.edit).Nodup
    rw [List.map_append]
    refine List.nodup_append'.mpr ⟨recorded.once, List.nodup_singleton _, fun id kept added => ?_⟩
    obtain ⟨audit, member, rfl⟩ := List.mem_map.mp kept
    have same : audit.edit = edit.id := List.mem_singleton.mp added
    have gone := recorded.gone audit member
    rw [same, stored] at gone
    cases gone

/-- **A transaction leaves the audits right.** -/
theorem proceed {call : Call} (recorded : desk.Recorded ledger)
    (regular : ledger.store.Regular desk.rules) (single : call.isSingle = true)
    (distinct : Set.InjOn desk.draw {number | number < (desk.proceed now ledger call).issued}) :
    desk.Recorded (desk.proceed now ledger call) := by
  have issues := (desk.posts now ledger single).extends.toIssues
  rcases desk.proceed_audits now ledger single with
    ⟨caller, edit, reason, found, settled, same⟩ | ⟨-, fewer⟩ | same
  · rw [same]
    exact recorded.archived found settled ((regular _ edit found).closed.mpr settled) caller reason
  · exact recorded.of_less issues distinct fewer
  · exact recorded.of_less issues distinct (same ▸ List.Sublist.refl _)

/-- The next identifier belongs to no audit. -/
theorem fresh (recorded : desk.Recorded ledger)
    (distinct : Set.InjOn desk.draw {number | number ≤ ledger.issued}) :
    ∀ audit ∈ ledger.store.audits, audit.id ≠ ⟨desk.draw ledger.issued⟩ := by
  intro audit member same
  obtain ⟨number, less, drawn⟩ := (recorded.drawn audit member).1
  rw [same] at drawn
  have clash : ledger.issued = number := distinct (le_refl ledger.issued) less.le drawn
  omega

end Recorded

/-- **The audits on record are right**, after every run in which no identifier is issued twice. -/
theorem run_recorded (desk : Desk) (calls : List (Instant × Call))
    (distinct : Set.InjOn desk.draw {number | number < (desk.run calls).issued}) :
    desk.Recorded (desk.run calls) := by
  -- at every state on the way no more identifiers are issued than at the end
  refine (@run_induction (fun ledger => ledger.store.Regular desk.rules ∧
    (ledger.issued ≤ (desk.run calls).issued → desk.Recorded ledger)) desk calls
    ⟨fun _ _ found => (nomatch found), fun _ => ?_⟩ ?_).2 le_rfl
  · exact ⟨fun _ known => (nomatch known), fun _ member => (nomatch member),
      fun _ member => (nomatch member), fun _ member => (nomatch member), List.nodup_nil⟩
  · rintro now - ledger call single ⟨regular, recorded⟩
    refine ⟨(desk.turn now ledger single).regular regular, fun within => ?_⟩
    have more := (desk.posts now ledger single).extends.issued
    exact (recorded (more.trans within)).proceed regular single
      (distinct.mono fun _ less => less.trans_le within)

/-! ### Audits stay -/

/-- **An audit stays over a call** that does not drop expired audits. -/
theorem proceed_keepsAudits (desk : Desk) (now : Instant) {ledger : Ledger} {audit : Audit}
    (member : audit ∈ ledger.store.audits) (lasts : call ≠ .deleteExpiredAudits) :
    audit ∈ (desk.proceed now ledger call).store.audits := by
  refine @proceed_keeps (fun state => audit ∈ state.store.audits) desk now ledger call member ?_
  intro state step single origin kept
  rcases desk.proceed_audits now state single with
    ⟨caller, edit, reason, -, -, same⟩ | ⟨rfl, -⟩ | same
  · rw [same]
    exact List.mem_append_left _ kept
  · rcases origin with same | ⟨id, other⟩
    · exact absurd same.symm lasts
    · cases other
  · rw [same]
    exact kept

/-- An audit is on record after later calls, or up to one of them that drops it as expired. -/
def Lasts (desk : Desk) (calls later : List (Instant × Call)) (audit : Audit) : Prop :=
  audit ∈ (desk.run (calls ++ later)).store.audits ∨
    ∃ first now rest, later = first ++ (now, .deleteExpiredAudits) :: rest ∧
      audit ∈ (desk.run (calls ++ first)).store.audits ∧
      audit ∉ (desk.run (calls ++ first ++ [(now, .deleteExpiredAudits)])).store.audits

/-- **An audit stays as it is until it expires.** -/
theorem run_keepsAudits (desk : Desk) (calls later : List (Instant × Call)) {audit : Audit}
    (member : audit ∈ (desk.run calls).store.audits) : desk.Lasts calls later audit := by
  induction later using List.reverseRecOn with
  | nil =>
    refine .inl ?_
    rw [List.append_nil]
    exact member
  | append_singleton later entry hypothesis =>
    obtain ⟨now, call⟩ := entry
    rcases hypothesis with kept | ⟨first, time, rest, parts, kept, dropped⟩
    · by_cases stays : audit ∈ (desk.proceed now (desk.run (calls ++ later)) call).store.audits
      · left
        rw [← List.append_assoc, run_concat]
        exact stays
      · have expires : call = .deleteExpiredAudits := by
          by_contra lasts
          exact stays (desk.proceed_keepsAudits now kept lasts)
        cases expires
        refine .inr ⟨later, now, [], rfl, kept, ?_⟩
        rw [run_concat]
        exact stays
    · refine .inr ⟨first, time, rest ++ [(now, call)], ?_, kept, dropped⟩
      rw [parts, List.append_assoc, List.cons_append]

/-! ### The main result -/

/-- **What the deletion of an edit leaves**: the edit is gone with its votes and comments, there is one
more audit, and nothing else has changed. The audit has the right digest, and the edit with its votes
and comments is read back from it as they were stored. -/
structure Deletes (desk : Desk) (now : Instant) (caller : UserId) (edit : Edit) (reason : String)
    (before after : Ledger) (audit : Audit) : Prop where
  answers : desk.deleteEdit now caller edit.id reason before = ⟨.ok true, after, []⟩
  store : after.store = { before.store with
    edits := before.store.edits.filter fun stored => stored.id ≠ edit.id
    votes := before.store.votes.filter fun vote => vote.edit ≠ edit.id
    comments := before.store.comments.filter fun comment => comment.edit ≠ edit.id
    audits := before.store.audits ++ [audit] }
  issued : after.issued = before.issued + 1
  lacks : after.store.Lacks edit.id
  fresh : ∀ other ∈ before.store.audits, other.id ≠ audit.id
  verifies : audit.verifies = true
  snapshot : audit.snapshot? = .ok {
    edit
    comments := before.store.commentsOn edit.id
    votes := before.store.votesOn edit.id
    deletedBy := caller
    deletedAt := now }
  header : (audit.action, audit.moderator, audit.edit, audit.kind, audit.reason, audit.created) =
    (.editDelete, caller, edit.id, edit.kind, reason, now)

/-- **A deletion by a moderator** of an edit that is not pending. -/
theorem deletes_archived {caller : UserId} {edit : Edit} (recorded : desk.Recorded ledger)
    (distinct : Set.InjOn desk.draw {number | number ≤ ledger.issued})
    (enrolled : ledger.store.Enrolled) (moderates : ledger.store.Moderates caller)
    (found : ledger.store.edit? edit.id = some edit) (settled : edit.isPending = false)
    (reason : String) :
    desk.Deletes now caller edit reason ledger (desk.archived now caller edit reason ledger)
      (ledger.store.auditOf ⟨desk.draw ledger.issued⟩ edit caller reason now) where
  answers := deleteEdit_archives enrolled moderates found settled (recorded.fresh distinct)
  store := rfl
  issued := rfl
  lacks := Store.lacks_deleteEdit ledger.store edit.id _
  fresh := recorded.fresh distinct
  verifies := Audit.verifies_ofDeletion _ _ _
  snapshot := Audit.snapshot?_ofDeletion _ _ _
  header := rfl

/-- A tag is submitted and rejected, and there is an administrator. -/
def rejectedTag : List (Clock × Call) :=
  staffed ++
    [(⟨0⟩, .registerUser "administrator" [.admin]),
      (⟨1⟩, .createEdit ⟨Uuid.serial 0⟩ (.create (.namedTag "outdoors"))),
      (⟨2⟩, .vote ⟨Uuid.serial 1⟩ ⟨Uuid.serial 3⟩ .reject)]

/-- The administrator deletes the rejected tag. -/
def discardedTag : List (Instant × Call) :=
  timed rejectedTag ++ [(Clock.now ⟨3⟩, .deleteEdit ⟨Uuid.serial 2⟩ ⟨Uuid.serial 3⟩ "spam")]

end Desk

end Curation
