/-
**Counting votes.** The tally of an edit's votes decides whether it is accepted, rejected or stays
pending, both when a vote is cast and when voting ends.

* `Tally.ofVotes`: only ballots count, and each vote on record counts once;
* `Verdict.onVote`: what a vote settles;
* `Verdict.votingEnds`: when an edit is closed by the sweep;
* `Verdict.onExpiry`: how the sweep closes it.
-/

import Curation.Edit
import Curation.Rules

namespace Curation

/-- The ballots cast on an edit. Each is that of another user, so that counters of 32 bits would say the
same until `2 ^ 32` users have voted on one edit. -/
structure Tally where
  accepts : Nat
  rejects : Nat
  abstains : Nat
deriving DecidableEq

namespace Tally

/-- The tally of no votes. -/
def zero : Tally := ⟨0, 0, 0⟩

/-- Counts one vote. -/
def count (tally : Tally) : Choice → Tally
  | .accept => { tally with accepts := tally.accepts + 1 }
  | .reject => { tally with rejects := tally.rejects + 1 }
  | .abstain => { tally with abstains := tally.abstains + 1 }
  | .immediateAccept => tally
  | .immediateReject => tally

/-- Counts the votes in a list. -/
def ofVotes (votes : List Vote) : Tally :=
  votes.foldl (fun tally vote => tally.count vote.choice) zero

/-- The score: accepting less rejecting votes, as a 32-bit number. -/
def net (tally : Tally) : Int32 := Int32.ofNat tally.accepts - Int32.ofNat tally.rejects

/-- The votes that are not abstentions. -/
def decisive (tally : Tally) : Nat := tally.accepts + tally.rejects

end Tally

/-- What becomes of an edit. -/
inductive Verdict where
  | pending
  | accept
  | reject
deriving DecidableEq

namespace Verdict

/-- An edit is too young to be settled as destructive until it is older than the least age. -/
def tooYoung (edit : Edit) (rules : Rules) (now : Instant) : Bool :=
  Instant.elapsed edit.created now ≤ rules.destructivePeriod * 1000000

/-- What the votes on a pending edit settle. -/
def onVote (edit : Edit) (tally : Tally) (destructive : Bool) (now : Instant) (rules : Rules) :
    Verdict :=
  if rules.threshold = 0 then .pending
  else if destructive then
    if tooYoung edit rules now then .pending
    else if tally.decisive < rules.threshold.toNat then .pending
    else if tally.accepts > tally.rejects then .accept
    else .reject
  else if tally.rejects > 0 then .reject
  else if tally.accepts ≥ rules.threshold.toNat then .accept
  else .pending

/-- How long voting on an edit lasts, in milliseconds. -/
def votingPeriod (tally : Tally) (rules : Rules) : Int :=
  if rules.threshold > 0 ∧ tally.decisive ≥ rules.threshold.toNat then rules.destructivePeriod
  else rules.votingPeriod

/-- When voting on an edit ends; never, if that is past the latest instant. -/
def votingEnds (edit : Edit) (tally : Tally) (rules : Rules) : Instant :=
  (edit.votingStarted.plusMillis? (votingPeriod tally rules)).getD Instant.latest

/-- What becomes of an edit when voting on it has ended. -/
def onExpiry (tally : Tally) (destructive : Bool) : Verdict :=
  if (if destructive then tally.net ≥ 1 else tally.net ≥ 0) then .accept else .reject

end Verdict

end Curation
