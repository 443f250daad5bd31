/-
**Votes on record.** A user has at most one vote on an edit, every vote is on an edit that is
stored, and whoever has voted is registered. An edit has no more votes than there are users, which
is why the score of an edit does not overflow as long as a score can count the users.

* `Store.Polled`: the votes that a store may hold, and `Desk.run_polled`: it holds no others;
* `Store.net`: accepting less rejecting votes, and `Tally.net_ofVotes`: a tally counts them;
* `Store.net_upsertVote`: what a vote changes about it;
* `Desk.run_votesOn_le`: a bound for the votes on an edit.
-/

import Curation.Proofs.Postings
import Curation.Proofs.Standing

namespace Curation

/-- What an edit's score gains by a vote. -/
def Choice.weight : Choice → Int
  | .accept => 1
  | .reject => -1
  | _ => 0

/-- The edit that a vote is on, and who cast it. -/
def Vote.key (vote : Vote) : EditId × UserId := (vote.edit, vote.voter)

namespace Store

variable {before store after : Store} {id : EditId} {vote : Vote}

/-! ### Counting -/

/-- The number of votes of a kind on an edit. -/
def countVotes (store : Store) (id : EditId) (choice : Choice) : Nat :=
  (store.votesOn id).countP fun vote => vote.choice = choice

/-- Accepting less rejecting votes on an edit. -/
def net (store : Store) (id : EditId) : Int :=
  (store.countVotes id .accept : Int) - store.countVotes id .reject

theorem countVotes_eq (store : Store) (id : EditId) (choice : Choice) :
    store.countVotes id choice =
      store.votes.countP fun vote => vote.edit = id ∧ vote.choice = choice := by
  unfold countVotes votesOn
  rw [List.countP_map, (perm_sortBy _ _).countP_eq, List.countP_filter]
  refine List.countP_congr fun row _ => ?_
  rw [Function.comp_apply, Bool.and_eq_true, decide_eq_true_iff, decide_eq_true_iff,
    decide_eq_true_iff, and_comm]
  rfl

theorem countVotes_congr (votes : after.votesOn id = store.votesOn id) (choice : Choice) :
    after.countVotes id choice = store.countVotes id choice := by
  unfold countVotes
  rw [votes]

theorem countVotes_none (none : store.votesOn id = []) (choice : Choice) :
    store.countVotes id choice = 0 := by
  unfold countVotes
  rw [none]
  rfl

theorem net_congr (votes : after.votesOn id = store.votesOn id) : after.net id = store.net id := by
  unfold net
  rw [countVotes_congr votes, countVotes_congr votes]

/-- Votes that weigh are the accepting and the rejecting ones. -/
theorem countP_weight (votes : List Vote) :
    (votes.countP fun vote => vote.choice = .accept) +
        (votes.countP fun vote => vote.choice = .reject) =
      votes.countP fun vote => vote.choice.weight ≠ 0 := by
  induction votes with
  | nil => rfl
  | cons vote rest hypothesis =>
    simp only [List.countP_cons, ← hypothesis]
    cases vote.choice <;> simp [Choice.weight] <;> omega

/-! ### One vote of each user -/

/-- Each user has at most one vote on an edit, and the edit is stored. -/
structure Polled (store : Store) : Prop where
  once : (store.votes.map Vote.key).Nodup
  stored : ∀ vote ∈ store.votes, store.hasEdit vote.edit = true

theorem votesOn_eq_nil (none : ∀ vote ∈ store.votes, vote.edit ≠ id) : store.votesOn id = [] := by
  unfold votesOn
  rw [List.filter_eq_nil_iff.mpr fun vote member => by simpa using none vote member]
  rfl

/-- No vote is on an edit that is not stored. -/
theorem Polled.votesOn_unused (polled : store.Polled) (unused : store.edit? id = none) :
    store.votesOn id = [] := by
  refine votesOn_eq_nil fun vote member same => ?_
  have stored := polled.stored vote member
  rw [same, ← edit?_isSome, unused] at stored
  cases stored

/-- A vote is added, or it takes the place of the one that the user has. -/
theorem upsertVote_split (once : (store.votes.map Vote.key).Nodup)
    (done : store.upsertVote vote = .ok after) :
    (vote.key ∉ store.votes.map Vote.key ∧ after.votes = store.votes ++ [vote]) ∨
      ∃ first old rest, store.votes = first ++ old :: rest ∧ old.key = vote.key ∧
        after.votes = first ++ vote :: rest := by
  have sameKey (row : Vote) : (row.edit = vote.edit ∧ row.voter = vote.voter) ↔
      row.key = vote.key := by
    simp [Vote.key]
  unfold upsertVote at done
  simp only [sameKey] at done
  split at done
  · cases done
  · split at done
    next known =>
      cases done
      obtain ⟨old, member, same⟩ := List.any_eq_true.mp known
      obtain ⟨first, rest, parts⟩ := List.append_of_mem member
      refine .inr ⟨first, old, rest, parts, of_decide_eq_true same, ?_⟩
      rw [parts, List.map_append, List.map_cons, List.nodup_middle, List.nodup_cons] at once
      have kept (rows : List Vote) (apart : old.key ∉ rows.map Vote.key) :
          rows.map (fun row => if row.key = vote.key then vote else row) = rows := by
        refine (List.map_congr_left fun row listed => ?_).trans (List.map_id _)
        rw [if_neg, id]
        rintro clash
        rw [← of_decide_eq_true same] at clash
        exact apart (clash ▸ List.mem_map_of_mem listed)
      obtain ⟨apartFirst, apartRest⟩ := not_or.mp (List.mem_append.not.mp once.1)
      show store.votes.map _ = _
      rw [parts, List.map_append, List.map_cons, kept first apartFirst, kept rest apartRest,
        if_pos (of_decide_eq_true same)]
    next unknown =>
      cases done
      refine .inl ⟨fun listed => unknown ?_, rfl⟩
      obtain ⟨row, member, same⟩ := List.mem_map.mp listed
      exact List.any_eq_true.mpr ⟨row, member, decide_eq_true same⟩

theorem upsertVote_cast (once : (store.votes.map Vote.key).Nodup)
    (done : store.upsertVote vote = .ok after) : vote ∈ after.votes := by
  rcases upsertVote_split once done with ⟨-, votes⟩ | ⟨first, old, rest, -, -, votes⟩
  · rw [votes]
    exact List.mem_append_right _ (List.mem_singleton.mpr rfl)
  · rw [votes]
    exact List.mem_append_right _ List.mem_cons_self

theorem upsertVote_once (once : (store.votes.map Vote.key).Nodup)
    (done : store.upsertVote vote = .ok after) : (after.votes.map Vote.key).Nodup := by
  rcases upsertVote_split once done with ⟨new, votes⟩ | ⟨first, old, rest, parts, same, votes⟩
  · rw [votes, List.map_append, List.map_singleton, List.nodup_append']
    refine ⟨once, List.nodup_singleton _, fun key listed added => new ?_⟩
    exact List.mem_singleton.mp added ▸ listed
  · rw [parts, List.map_append, List.map_cons] at once
    rwa [votes, List.map_append, List.map_cons, ← same]

/-- **What a vote changes about the score.** It counts, and a vote of the same user that it replaces
counts no more. -/
theorem net_upsertVote (once : (store.votes.map Vote.key).Nodup)
    (done : store.upsertVote vote = .ok after) :
    (vote.key ∉ store.votes.map Vote.key ∧
        after.net vote.edit = store.net vote.edit + vote.choice.weight) ∨
      ∃ old ∈ store.votes, old.key = vote.key ∧
        after.net vote.edit + old.choice.weight = store.net vote.edit + vote.choice.weight := by
  unfold net
  simp only [countVotes_eq]
  rcases upsertVote_split once done with ⟨new, votes⟩ | ⟨first, old, rest, parts, same, votes⟩
  · refine .inl ⟨new, ?_⟩
    rw [votes]
    simp only [List.countP_append, List.countP_singleton]
    cases vote.choice <;> simp [Choice.weight] <;> omega
  · refine .inr ⟨old, parts ▸ List.mem_append_right _ List.mem_cons_self, same, ?_⟩
    have sameEdit : old.edit = vote.edit := congrArg Prod.fst same
    rw [votes, parts]
    simp only [List.countP_append, List.countP_cons, sameEdit]
    cases vote.choice <;> cases old.choice <;> simp [Choice.weight] <;> omega

end Store

namespace Tally

/-- Votes that are counted add to a tally. -/
theorem foldl_count (votes : List Vote) (tally : Tally) :
    (votes.foldl (fun tally vote => tally.count vote.choice) tally).accepts =
        tally.accepts + votes.countP (fun vote => vote.choice = .accept) ∧
      (votes.foldl (fun tally vote => tally.count vote.choice) tally).rejects =
        tally.rejects + votes.countP (fun vote => vote.choice = .reject) := by
  induction votes generalizing tally with
  | nil => exact ⟨rfl, rfl⟩
  | cons vote rest hypothesis =>
    rw [List.foldl_cons, (hypothesis _).1, (hypothesis _).2]
    simp only [List.countP_cons]
    cases vote.choice <;> simp [count] <;> omega

theorem accepts_ofVotes (store : Store) (id : EditId) :
    (ofVotes (store.votesOn id)).accepts = store.countVotes id .accept := by
  have counted := (foldl_count (store.votesOn id) zero).1
  rwa [show zero.accepts = 0 from rfl, zero_add] at counted

theorem rejects_ofVotes (store : Store) (id : EditId) :
    (ofVotes (store.votesOn id)).rejects = store.countVotes id .reject := by
  have counted := (foldl_count (store.votesOn id) zero).2
  rwa [show zero.rejects = 0 from rfl, zero_add] at counted

/-- **A tally counts the votes on record**, in 32 bits. -/
theorem net_ofVotes (store : Store) (id : EditId) :
    (ofVotes (store.votesOn id)).net = Int32.ofInt (store.net id) := by
  unfold net Store.net
  rw [accepts_ofVotes, rejects_ofVotes, Int32.ofInt_sub, Int32.ofInt_eq_ofNat, Int32.ofInt_eq_ofNat]

end Tally

/-! ### Runs -/

namespace Store

variable {before store after : Store} {vote : Vote}

theorem upsertVote_stored (done : store.upsertVote vote = .ok after) :
    store.hasEdit vote.edit = true := by
  unfold upsertVote at done
  split at done
  · cases done
  · next missing => simpa using missing

/-- Votes that are only removed, and only with their edits. -/
theorem Polled.sublist (polled : before.Polled) (votes : after.votes.Sublist before.votes)
    (keeps : ∀ vote ∈ after.votes, before.hasEdit vote.edit = true →
      after.hasEdit vote.edit = true) : after.Polled where
  once := polled.once.sublist (votes.map Vote.key)
  stored vote member := keeps vote member (polled.stored vote (votes.subset member))

theorem Polled.upsertVote {voted : Store} (polled : before.Polled)
    (done : before.upsertVote vote = .ok voted) (votes : after.votes = voted.votes)
    (keeps : ∀ id, before.hasEdit id = true → after.hasEdit id = true) : after.Polled where
  once := by
    rw [votes]
    exact upsertVote_once polled.once done
  stored row member := by
    rw [votes] at member
    refine keeps row.edit ?_
    rcases mem_upsertVote done member with rfl | earlier
    · exact upsertVote_stored done
    · exact polled.stored row earlier

/-- Writing the state of an edit leaves all edits stored. -/
theorem hasEdit_editsWith {written : Edit} (edits : after.edits = before.editsWith written)
    (id : EditId) : after.hasEdit id = before.hasEdit id := by
  unfold hasEdit
  rw [edits, editsWith, List.any_map]
  congr 1
  funext stored
  rw [Function.comp_apply]
  split <;> rfl

end Store

namespace Desk

variable {desk : Desk} {now : Instant} {call : Call} {before after : Store}

/-- Handling an edit removes votes or records one. -/
theorem Handles.votes {edit written : Edit} (handles : desk.Handles now call before after edit written) :
    after.votes.Sublist before.votes ∨
      ∃ vote voted, before.upsertVote vote = .ok voted ∧ after.votes = voted.votes := by
  cases handles with
  | amended caller proposal remark details called mayChange limit kind checked catalogue votes =>
    rw [votes]
    exact .inl List.filter_sublist
  | withdrawn catalogue votes =>
    rcases votes with same | ⟨caller, voted, cast, same⟩
    · rw [same]
      exact .inl (.refl _)
    · exact .inr ⟨_, voted, cast, same⟩
  | enforced caller voted number target store cast votes application catalogue =>
    exact .inr ⟨_, voted, cast, votes⟩
  | decided tally verdict written counted decides settles =>
    cases decides with
    | vote caller choice voted ballot other cast votes => exact .inr ⟨_, voted, cast, votes⟩
    | expiry ended votes =>
      rw [votes]
      exact .inl (.refl _)

theorem Turn.polled (turn : desk.Turn now call before after) (polled : before.Polled) :
    after.Polled := by
  cases turn with
  | idle catalogue edits votes =>
    refine polled.sublist (by rw [votes]) fun vote _ stored => ?_
    unfold Store.hasEdit at stored ⊢
    rwa [edits]
  | filed caller submission edit files edits votes =>
    refine polled.sublist (by rw [votes]) fun vote _ stored => ?_
    unfold Store.hasEdit at stored ⊢
    rw [edits, List.any_append, stored, Bool.true_or]
  | handled edit written found pending handles edits =>
    have keeps (id : EditId) (stored : before.hasEdit id = true) : after.hasEdit id = true :=
      (Store.hasEdit_editsWith edits id).trans stored
    rcases handles.votes with fewer | ⟨vote, voted, cast, votes⟩
    · exact polled.sublist fewer fun vote _ => keeps vote.edit
    · exact polled.upsertVote cast votes keeps
  | deleted edit caller reason called found settled catalogue edits votes =>
    refine polled.sublist (by rw [votes]; exact List.filter_sublist) fun vote member stored => ?_
    rw [votes] at member
    have other := of_decide_eq_true (List.mem_filter.mp member).2
    unfold Store.hasEdit at stored ⊢
    obtain ⟨row, listed, same⟩ := List.any_eq_true.mp stored
    refine List.any_eq_true.mpr ⟨row, ?_, same⟩
    rw [edits]
    refine List.mem_filter.mpr ⟨listed, decide_eq_true ?_⟩
    rw [of_decide_eq_true same]
    exact other

/-- **Each user has at most one vote on an edit**, after every run. -/
theorem run_polled (desk : Desk) (calls : List (Instant × Call)) :
    (desk.run calls).store.Polled := by
  refine desk.run_keeps calls ⟨List.nodup_nil, fun vote member => (nomatch member)⟩ ?_
  exact fun now _ call before after turn polled => turn.polled polled

/-- **Whoever has voted is registered**, after every run. -/
theorem run_voters (desk : Desk) (calls : List (Instant × Call)) :
    ∀ vote ∈ (desk.run calls).store.votes, (desk.run calls).store.hasUser vote.voter = true := by
  have every := @run_induction (fun ledger => ∀ vote ∈ ledger.store.votes,
    ledger.store.hasUser vote.voter = true) desk calls (fun vote member => (nomatch member))
  refine every fun now _ ledger call single registered vote member => ?_
  have extension := (desk.posts now ledger single).extends
  rcases extension.votes vote member with earlier | ⟨-, known⟩
  · exact hasUser_of_prefix extension.users (registered vote earlier)
  · exact known

/-- **An edit has no more votes than there are users.** -/
theorem run_votesOn_le (desk : Desk) (calls : List (Instant × Call)) (id : EditId) :
    ((desk.run calls).store.votesOn id).length ≤ (desk.run calls).store.users.length := by
  have polled := desk.run_polled calls
  have registered := desk.run_voters calls
  generalize (desk.run calls).store = store at polled registered ⊢
  have once : ((store.votes.filter fun vote => vote.edit = id).map Vote.voter).Nodup := by
    have keys := polled.once.sublist
      ((List.filter_sublist (p := fun vote => decide (vote.edit = id))).map Vote.key)
    have paired : (store.votes.filter fun vote => vote.edit = id).map Vote.key =
        ((store.votes.filter fun vote => vote.edit = id).map Vote.voter).map fun voter =>
          (id, voter) := by
      rw [List.map_map]
      refine List.map_congr_left fun vote listed => ?_
      have here := of_decide_eq_true (List.mem_filter.mp listed).2
      show (vote.edit, vote.voter) = (id, vote.voter)
      rw [here]
    rw [paired] at keys
    exact keys.of_map
  have known : (store.votes.filter fun vote => vote.edit = id).map Vote.voter ⊆
      store.users.map User.id := by
    intro voter listed
    obtain ⟨vote, member, rfl⟩ := List.mem_map.mp listed
    obtain ⟨user, stored, same⟩ :=
      List.any_eq_true.mp (registered vote (List.mem_filter.mp member).1)
    exact List.mem_map.mpr ⟨user, stored, of_decide_eq_true same⟩
  have bound := (once.subperm known).length_le
  rw [List.length_map, List.length_map] at bound
  unfold Store.votesOn
  rwa [List.length_map, (perm_sortBy _ _).length_eq]

end Desk

end Curation
