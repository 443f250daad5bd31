/-
**The constraints of the tables.** Each table has keys that tell its rows apart, rows refer only to rows
that exist, and an edit is pending exactly while it has no closing time. Every write keeps that so,
whatever it is given: what is inserted is checked, what is overwritten keeps its key, records are never
deleted, and votes and comments go with their edit.

* `Once`: no two rows of a table have the same key, and the writes that keep it so;
* `Store.Catalogued`, `Store.Written.catalogued`: the constraints of the catalogue and the writes to it;
* `Store.Reviewed`, `Store.Reviews.reviewed`: those of the review and the writes to it;
* `Store.Constrained`: both.
-/

import Curation.Proofs.Grants
import Curation.Proofs.Legibility

namespace Curation

/-! ### Keys -/

section Keys

variable {α β : Type} {key : α → β} {rows : List α}

/-- No two rows of a table have the same key. -/
def Once (key : α → β) (rows : List α) : Prop := (rows.map key).Nodup

namespace Once

theorem filter (once : Once key rows) (test : α → Bool) : Once key (rows.filter test) :=
  once.sublist (List.filter_sublist.map key)

/-- Rows that are overwritten keep their keys. -/
theorem overwrite (once : Once key rows) {change : α → α} (keeps : ∀ row, key (change row) = key row) :
    Once key (rows.map change) := by
  have same : key ∘ change = key := funext keeps
  unfold Once
  rw [List.map_map, same]
  exact once

/-- A row is added whose key is not in use. -/
theorem append (once : Once key rows) {added : α} (unused : ∀ row ∈ rows, key row ≠ key added) :
    Once key (rows ++ [added]) := by
  unfold Once
  rw [List.map_append, List.map_singleton]
  refine List.nodup_append'.mpr ⟨once, List.nodup_singleton _, fun name stored new => ?_⟩
  obtain ⟨row, member, same⟩ := List.mem_map.mp stored
  exact unused row member (same.trans (List.mem_singleton.mp new))

end Once

end Keys

namespace Store

variable {store before after : Store}

/-! ### The catalogue -/

/-- Records and redirects have keys of their own, and links and redirects join records that exist. -/
structure Joined (store : Store) : Prop where
  entities : Once EntityRow.id store.entities
  redirects : Once Redirect.source store.redirects
  edgeEnds : ∀ edge ∈ store.edges,
    store.hasEntity edge.source = true ∧ store.hasEntity edge.target = true
  redirectEnds : ∀ row ∈ store.redirects,
    store.hasEntity row.source = true ∧ store.hasEntity row.target = true

/-- The constraints of the catalogue. -/
structure Catalogued (store : Store) : Prop extends store.Tidy, store.Joined where
  keyed : store.Keyed

/-- A write that loses no record and adds no redirect. -/
theorem Joined.of_edges (joined : store.Joined) (once : Once EntityRow.id after.entities)
    (exist : ∀ id, store.hasEntity id = true → after.hasEntity id = true)
    (redirects : after.redirects = store.redirects)
    (edges : ∀ edge ∈ after.edges,
      store.hasEntity edge.source = true ∧ store.hasEntity edge.target = true) : after.Joined where
  entities := once
  redirects := by
    rw [redirects]
    exact joined.redirects
  edgeEnds edge member := ⟨exist _ (edges edge member).1, exist _ (edges edge member).2⟩
  redirectEnds := by
    rw [redirects]
    exact fun row member => ⟨exist _ (joined.redirectEnds row member).1,
      exist _ (joined.redirectEnds row member).2⟩

theorem insertEntity_joined {id : EntityId} {kind : Kind} {now : Instant} (joined : store.Joined)
    (done : store.insertEntity id kind now = .ok after) : after.Joined := by
  obtain ⟨unused, frame⟩ := insertEntity_frame done
  rw [frame]
  refine joined.of_edges (joined.entities.append fun row member same => ?_)
    (fun other found => List.any_append.trans (Bool.or_eq_true_iff.mpr (.inl found))) rfl
    joined.edgeEnds
  rw [hasEntity, List.any_eq_false] at unused
  exact unused row member (decide_eq_true same)

/-- A write to the rows of records that keeps their identifiers, and may drop links. -/
theorem Joined.overwrite (joined : store.Joined) {change : EntityRow → EntityRow}
    (keeps : ∀ row, (change row).id = row.id) (test : Edge → Bool) :
    ({ store with
      entities := store.entities.map change
      edges := store.edges.filter test } : Store).Joined := by
  refine joined.of_edges (joined.entities.overwrite keeps) (fun id found => ?_) rfl
    fun edge member => joined.edgeEnds edge (List.mem_filter.mp member).1
  rwa [hasEntity_mapRows rfl keeps]

theorem insertEdge_joined {association : Association} {source target : EntityId}
    {credit : Option String} {isNew : Bool} (joined : store.Joined)
    (done : store.insertEdge association source target credit = .ok (isNew, after)) :
    after.Joined := by
  unfold insertEdge at done
  split at done
  · cases done
    exact joined
  · split at done
    next exist =>
      cases done
      refine joined.of_edges joined.entities (fun _ found => found) rfl fun edge member => ?_
      rcases List.mem_append.mp member with stored | added
      · exact joined.edgeEnds edge stored
      · rw [List.mem_singleton.mp added]
        exact Bool.and_eq_true_iff.mp exist
    · cases done

/-- Links are moved to a record that exists, unless there are none to move. -/
theorem repointEdges_joined {association : Association} {origin destination : EntityId} {moved : Nat}
    (joined : store.Joined)
    (done : store.repointEdges association origin destination = .ok (moved, after)) :
    after.Joined := by
  unfold repointEdges at done
  dsimp only at done
  split at done
  · cases done
    exact joined.of_edges joined.entities (fun _ found => found) rfl
      fun edge member => joined.edgeEnds edge (List.mem_filter.mp member).1
  · split at done
    next exists? =>
      cases done
      refine joined.of_edges joined.entities (fun _ found => found) rfl fun edge member => ?_
      obtain ⟨earlier, kept, rfl⟩ := List.mem_map.mp member
      have ends := joined.edgeEnds earlier (List.mem_filter.mp kept).1
      split
      · exact ⟨ends.1, exists?⟩
      · exact ends
    · cases done

theorem insertRedirect_joined {source target : EntityId} {now : Instant} (joined : store.Joined)
    (done : store.insertRedirect source target now = .ok after) : after.Joined := by
  unfold insertRedirect at done
  split at done
  next exist =>
    have ends := Bool.and_eq_true_iff.mp exist
    split at done
    · cases done
      refine ⟨joined.entities, joined.redirects.overwrite fun row => ?_, joined.edgeEnds,
        fun row member => ?_⟩
      · split
        next same => exact same.symm
        · rfl
      · obtain ⟨earlier, stored, rfl⟩ := List.mem_map.mp member
        split
        · exact ends
        · exact joined.redirectEnds earlier stored
    next unused =>
      cases done
      rw [Bool.not_eq_true, List.any_eq_false] at unused
      refine ⟨joined.entities,
        joined.redirects.append fun row member same => unused row member (decide_eq_true same),
        joined.edgeEnds, fun row member => ?_⟩
      rcases List.mem_append.mp member with stored | added
      · exact joined.redirectEnds row stored
      · rw [List.mem_singleton.mp added]
        exact ends
  · cases done

theorem Written.joined (written : store.Written after) (joined : store.Joined) : after.Joined := by
  induction written with
  | keep => exact joined
  | insertEntity id kind now _ done hypothesis => exact insertEntity_joined hypothesis done
  | touchEntity id now _ hypothesis =>
    refine hypothesis.of_edges (hypothesis.entities.overwrite fun row => ?_) (fun other found => ?_)
      rfl hypothesis.edgeEnds
    · split <;> rfl
    · rwa [hasEntity_mapRows rfl fun row => ?_]
      split <;> rfl
  | tombstoneEntity id now _ done hypothesis =>
    unfold Store.tombstoneEntity at done
    split at done
    · cases done
      refine hypothesis.overwrite (fun row => ?_) _
      split <;> rfl
    · cases done
  | setField entity key value _ done hypothesis =>
    rw [(setField_frame done).1]
    exact { hypothesis with }
  | clearField entity key _ hypothesis =>
    exact { hypothesis with }
  | addMember entity list value _ done hypothesis =>
    rw [addMember_frame done]
    exact { hypothesis with }
  | removeMember entity list value _ hypothesis =>
    exact { hypothesis with }
  | insertEdge association source target credit _ done hypothesis =>
    exact insertEdge_joined hypothesis done
  | deleteEdge association source target _ hypothesis =>
    exact hypothesis.of_edges hypothesis.entities (fun _ found => found) rfl
      fun edge member => hypothesis.edgeEnds edge (List.mem_filter.mp member).1
  | setCredit association source target credit _ hypothesis =>
    refine hypothesis.of_edges hypothesis.entities (fun _ found => found) rfl fun edge member => ?_
    obtain ⟨earlier, stored, rfl⟩ := List.mem_map.mp member
    split <;> exact hypothesis.edgeEnds earlier stored
  | repointEdges association origin destination _ done hypothesis =>
    exact repointEdges_joined hypothesis done
  | insertRedirect source target now _ done hypothesis => exact insertRedirect_joined hypothesis done

/-- **Writes to the catalogue keep its constraints.** -/
theorem Written.catalogued (written : store.Written after) (catalogued : store.Catalogued) :
    after.Catalogued :=
  ⟨written.tidy catalogued.toTidy, written.joined catalogued.toJoined, written.keyed catalogued.keyed⟩

/-! ### The review -/

/-- Two stores hold the same review. -/
def SameReview (first second : Store) : Prop := second = second.graft first

theorem SameReview.trans {first second third : Store} (left : first.SameReview second)
    (right : second.SameReview third) : first.SameReview third :=
  calc third = third.graft second := right
    _ = third.graft (second.graft first) := congrArg third.graft left
    _ = third.graft first := rfl

/-- Writes to the catalogue leave the review alone. -/
theorem Written.review (written : store.Written after) : store.SameReview after := by
  induction written with
  | keep => exact rfl
  | insertEntity id kind now _ done hypothesis =>
    refine hypothesis.trans ?_
    rw [(insertEntity_frame done).2]
    exact rfl
  | touchEntity id now _ hypothesis => exact hypothesis.trans rfl
  | tombstoneEntity id now _ done hypothesis =>
    refine hypothesis.trans ?_
    rw [tombstoneEntity_frame done]
    exact rfl
  | setField entity key value _ done hypothesis =>
    refine hypothesis.trans ?_
    rw [(setField_frame done).1]
    exact rfl
  | clearField entity key _ hypothesis => exact hypothesis.trans rfl
  | addMember entity list value _ done hypothesis =>
    refine hypothesis.trans ?_
    rw [addMember_frame done]
    exact rfl
  | removeMember entity list value _ hypothesis => exact hypothesis.trans rfl
  | insertEdge association source target credit _ done hypothesis =>
    refine hypothesis.trans ?_
    rw [(insertEdge_frame done).2]
    exact rfl
  | deleteEdge association source target _ hypothesis => exact hypothesis.trans rfl
  | setCredit association source target credit _ hypothesis => exact hypothesis.trans rfl
  | repointEdges association origin destination _ done hypothesis =>
    refine hypothesis.trans ?_
    rw [repointEdges_frame done]
    exact rfl
  | insertRedirect source target now _ done hypothesis =>
    refine hypothesis.trans ?_
    rw [(insertRedirect_frame done).1]
    exact rfl

/-- The constraints of the review. -/
structure Reviewed (store : Store) : Prop where
  users : Once User.id store.users
  names : Once User.name store.users
  grants : store.grants.Nodup
  grantOwners : store.Enrolled
  edits : Once Edit.id store.edits
  closings : ∀ edit ∈ store.edits, edit.status = .pending ↔ edit.closed = none
  votes : Once Vote.key store.votes
  voteOwners : ∀ vote ∈ store.votes, store.hasEdit vote.edit = true
  comments : Once Comment.id store.comments
  commentOwners : ∀ comment ∈ store.comments, store.hasEdit comment.edit = true
  audits : Once Audit.id store.audits

theorem SameReview.reviewed (same : store.SameReview after) (reviewed : store.Reviewed) :
    after.Reviewed := by
  rw [same]
  exact { reviewed with }

/-- One write to the review makes one store of another. -/
inductive Reviews (before : Store) : Store → Prop where
  | insertUser {after : Store} (id : UserId) (name : String) (now : Instant)
      (done : before.insertUser id name now = .ok after) : Reviews before after
  | grantRole {after : Store} {isNew : Bool} (user : UserId) (role : Role)
      (done : before.grantRole user role = .ok (isNew, after)) : Reviews before after
  | insertEdit {after : Store} (edit : Edit) (done : before.insertEdit edit = .ok after) :
      Reviews before after
  | updateEdit {after : Store} (edit : Edit) (done : before.updateEdit edit = .ok after) :
      Reviews before after
  | deleteEdit (id : EditId) : Reviews before (before.deleteEdit id).2
  | upsertVote {after : Store} (vote : Vote) (done : before.upsertVote vote = .ok after) :
      Reviews before after
  | clearVotes (id : EditId) : Reviews before (before.clearVotes id).2
  | insertComment {after : Store} (comment : Comment)
      (done : before.insertComment comment = .ok after) : Reviews before after
  | insertAudit {after : Store} (audit : Audit) (done : before.insertAudit audit = .ok after) :
      Reviews before after
  | deleteAuditsBefore (cutoff : Instant) : Reviews before (before.deleteAuditsBefore cutoff).2

/-- An edit may be stored if it is pending exactly while it has no closing time. -/
theorem closesRightly_iff {edit : Edit} :
    closesRightly edit = true ↔ (edit.status = .pending ↔ edit.closed = none) := by
  unfold closesRightly Edit.isPending Status.isPending
  rw [beq_iff_eq, Bool.eq_iff_iff, decide_eq_true_iff, Option.isNone_iff_eq_none]

theorem insertUser_reviewed {id : UserId} {name : String} {now : Instant} (reviewed : store.Reviewed)
    (done : store.insertUser id name now = .ok after) : after.Reviewed := by
  unfold insertUser at done
  split at done
  · cases done
  next unused =>
    cases done
    rw [Bool.not_eq_true, List.any_eq_false] at unused
    have apart : ∀ user ∈ store.users, user.id ≠ id ∧ user.name ≠ name := fun user member =>
      not_or.mp fun same => unused user member (decide_eq_true same)
    exact { reviewed with
      users := reviewed.users.append fun user member => (apart user member).1
      names := reviewed.names.append fun user member => (apart user member).2
      grantOwners := fun grant member =>
        Desk.hasUser_of_prefix (List.prefix_append _ _) (reviewed.grantOwners grant member) }

theorem grantRole_reviewed {user : UserId} {role : Role} {isNew : Bool} (reviewed : store.Reviewed)
    (done : store.grantRole user role = .ok (isNew, after)) : after.Reviewed := by
  have once := grantRole_nodup done reviewed.grants
  have owners := reviewed.grantOwners.grantRole done
  rw [grantRole_store done] at once owners ⊢
  exact { reviewed with
    grants := once
    grantOwners := owners }

theorem insertEdit_reviewed {edit : Edit} (reviewed : store.Reviewed)
    (done : store.insertEdit edit = .ok after) : after.Reviewed := by
  unfold insertEdit at done
  split at done
  · cases done
  next closes =>
    split at done
    · cases done
    next unused =>
      cases done
      rw [Bool.not_eq_true, hasEdit, List.any_eq_false] at unused
      have rightly : edit.status = .pending ↔ edit.closed = none :=
        closesRightly_iff.mp (by simpa using closes)
      have stays : ∀ id, store.hasEdit id = true →
          ({ store with edits := store.edits ++ [edit] } : Store).hasEdit id = true :=
        fun id found => List.any_append.trans (Bool.or_eq_true_iff.mpr (.inl found))
      exact { reviewed with
        edits := reviewed.edits.append fun row member same => unused row member (decide_eq_true same)
        closings := fun row member => (List.mem_append.mp member).elim (reviewed.closings row)
          fun added => List.mem_singleton.mp added ▸ rightly
        voteOwners := fun vote member => stays _ (reviewed.voteOwners vote member)
        commentOwners := fun comment member => stays _ (reviewed.commentOwners comment member) }

theorem updateEdit_reviewed {edit : Edit} (reviewed : store.Reviewed)
    (done : store.updateEdit edit = .ok after) : after.Reviewed := by
  have written := Desk.updateEdit_ok done
  have rightly : edit.status = .pending ↔ edit.closed = none := by
    unfold updateEdit at done
    split at done
    · cases done
    · split at done
      · cases done
      next closes => exact closesRightly_iff.mp (by simpa using closes)
  have stays : ∀ id, after.hasEdit id = store.hasEdit id :=
    hasEdit_editsWith (congrArg Store.edits written)
  rw [written] at stays ⊢
  refine { reviewed with
    edits := reviewed.edits.overwrite fun row => ?_
    closings := fun row member => ?_
    voteOwners := fun vote member => (stays _).trans (reviewed.voteOwners vote member)
    commentOwners := fun comment member => (stays _).trans (reviewed.commentOwners comment member) }
  · split <;> rfl
  · obtain ⟨earlier, stored, rfl⟩ := List.mem_map.mp member
    split
    · exact rightly
    · exact reviewed.closings earlier stored

theorem deleteEdit_reviewed (reviewed : store.Reviewed) (id : EditId) :
    (store.deleteEdit id).2.Reviewed := by
  -- What goes with the edit is what would refer to it.
  have stays : ∀ other, other ≠ id → store.hasEdit other = true →
      (store.deleteEdit id).2.hasEdit other = true := by
    intro other apart found
    obtain ⟨edit, stored, same⟩ := List.any_eq_true.mp found
    have kept : edit.id ≠ id := (of_decide_eq_true same).symm ▸ apart
    exact List.any_eq_true.mpr ⟨edit, List.mem_filter.mpr ⟨stored, decide_eq_true kept⟩, same⟩
  refine { reviewed with
    edits := reviewed.edits.filter _
    closings := fun edit member => reviewed.closings edit (List.mem_filter.mp member).1
    votes := reviewed.votes.filter _
    voteOwners := fun vote member => ?_
    comments := reviewed.comments.filter _
    commentOwners := fun comment member => ?_ }
  · obtain ⟨stored, apart⟩ := List.mem_filter.mp member
    exact stays vote.edit (of_decide_eq_true apart) (reviewed.voteOwners vote stored)
  · obtain ⟨stored, apart⟩ := List.mem_filter.mp member
    exact stays comment.edit (of_decide_eq_true apart) (reviewed.commentOwners comment stored)

theorem upsertVote_reviewed {vote : Vote} (reviewed : store.Reviewed)
    (done : store.upsertVote vote = .ok after) : after.Reviewed := by
  have once : Once Vote.key after.votes := upsertVote_once reviewed.votes done
  have owners : ∀ row ∈ after.votes, store.hasEdit row.edit = true := by
    intro row member
    rcases mem_upsertVote done member with rfl | stored
    · exact upsertVote_stored done
    · exact reviewed.voteOwners row stored
  rw [Desk.upsertVote_frame done]
  exact { reviewed with
    votes := once
    voteOwners := owners }

theorem insertComment_reviewed {comment : Comment} (reviewed : store.Reviewed)
    (done : store.insertComment comment = .ok after) : after.Reviewed := by
  unfold insertComment at done
  split at done
  · cases done
  next unused =>
    split at done
    · cases done
    next known =>
      cases done
      rw [Bool.not_eq_true, List.any_eq_false] at unused
      have stored : store.hasEdit comment.edit = true := by simpa using known
      exact { reviewed with
        comments := reviewed.comments.append fun row member same =>
          unused row member (decide_eq_true same)
        commentOwners := fun row member =>
          (List.mem_append.mp member).elim (reviewed.commentOwners row)
            fun added => List.mem_singleton.mp added ▸ stored }

theorem insertAudit_reviewed {audit : Audit} (reviewed : store.Reviewed)
    (done : store.insertAudit audit = .ok after) : after.Reviewed := by
  unfold insertAudit at done
  split at done
  · cases done
  next unused =>
    cases done
    rw [Bool.not_eq_true, List.any_eq_false] at unused
    exact { reviewed with
      audits := reviewed.audits.append fun row member same =>
        unused row member (decide_eq_true same) }

/-- **Writes to the review keep its constraints.** -/
theorem Reviews.reviewed (reviews : store.Reviews after) (reviewed : store.Reviewed) :
    after.Reviewed := by
  cases reviews with
  | insertUser id name now done => exact insertUser_reviewed reviewed done
  | grantRole user role done => exact grantRole_reviewed reviewed done
  | insertEdit edit done => exact insertEdit_reviewed reviewed done
  | updateEdit edit done => exact updateEdit_reviewed reviewed done
  | deleteEdit id => exact deleteEdit_reviewed reviewed id
  | upsertVote vote done => exact upsertVote_reviewed reviewed done
  | clearVotes id =>
    exact { reviewed with
      votes := reviewed.votes.filter _
      voteOwners := fun vote member => reviewed.voteOwners vote (List.mem_filter.mp member).1 }
  | insertComment comment done => exact insertComment_reviewed reviewed done
  | insertAudit audit done => exact insertAudit_reviewed reviewed done
  | deleteAuditsBefore cutoff => exact { reviewed with audits := reviewed.audits.filter _ }

/-- Writes to the review leave the catalogue alone. -/
theorem Reviews.catalogue (reviews : store.Reviews after) : store.SameCatalogue after := by
  cases reviews with
  | insertUser id name now done =>
    rw [insertUser_ok done]
    exact rfl
  | grantRole user role done =>
    rw [grantRole_store done]
    exact rfl
  | insertEdit edit done =>
    rw [(Desk.insertEdit_ok done).2]
    exact rfl
  | updateEdit edit done =>
    rw [Desk.updateEdit_ok done]
    exact rfl
  | deleteEdit id => exact rfl
  | upsertVote vote done =>
    rw [Desk.upsertVote_frame done]
    exact rfl
  | clearVotes id => exact rfl
  | insertComment comment done =>
    rw [insertComment_ok done]
    exact rfl
  | insertAudit audit done =>
    unfold Store.insertAudit at done
    split at done <;> cases done
    exact rfl
  | deleteAuditsBefore cutoff => exact rfl

/-! ### Both parts -/

/-- A store satisfies the constraints of its tables. -/
structure Constrained (store : Store) : Prop where
  catalogue : store.Catalogued
  review : store.Reviewed

theorem SameCatalogue.catalogued (same : store.SameCatalogue after)
    (catalogued : store.Catalogued) : after.Catalogued := by
  rw [same]
  exact { catalogued with }

theorem Written.constrained (written : store.Written after) (constrained : store.Constrained) :
    after.Constrained :=
  ⟨written.catalogued constrained.catalogue, written.review.reviewed constrained.review⟩

theorem Reviews.constrained (reviews : store.Reviews after) (constrained : store.Constrained) :
    after.Constrained :=
  ⟨reviews.catalogue.catalogued constrained.catalogue, reviews.reviewed constrained.review⟩

theorem empty_constrained : empty.Constrained where
  catalogue :=
    { edges := List.nodup_nil
      members := List.nodup_nil
      fieldOwners := fun _ member => nomatch member
      memberOwners := fun _ member => nomatch member
      entities := List.nodup_nil
      redirects := List.nodup_nil
      edgeEnds := fun _ member => nomatch member
      redirectEnds := fun _ member => nomatch member
      keyed := List.nodup_nil }
  review :=
    { users := List.nodup_nil
      names := List.nodup_nil
      grants := List.nodup_nil
      grantOwners := fun _ member => nomatch member
      edits := List.nodup_nil
      closings := fun _ member => nomatch member
      votes := List.nodup_nil
      voteOwners := fun _ member => nomatch member
      comments := List.nodup_nil
      commentOwners := fun _ member => nomatch member
      audits := List.nodup_nil }

end Store

end Curation
