/-
**The rules of review.** How many votes settle an edit, how long voting lasts, how often an edit may
be amended, and what is granted or applied without a vote.

* `Rules.periodMillis`: a period too long to measure counts as the longest one;
* `Rules.validate`: rules with such a period are refused when they are read.
-/

import Curation.Fault

namespace Curation

/-- The rules of review. -/
structure Rules where
  /-- Votes that settle an edit before its voting ends; zero leaves every edit to the sweep. -/
  threshold : UInt32
  votingSeconds : UInt64
  /-- The least age of a destructive edit that votes settle, and the voting period of an edit that
  has reached the threshold. -/
  destructiveSeconds : UInt64
  amendmentLimit : UInt32
  /-- Applied edits after which their submitter may vote. -/
  promotionThreshold : Option UInt32
  appliesCreates : Bool
  /-- Edits of tags need the role for them. -/
  guardsTags : Bool
  /-- Days for which audits are kept; zero keeps them for ever. -/
  retentionDays : UInt32
deriving DecidableEq

namespace Rules

/-- The rules where nothing else is said. -/
def standard : Rules where
  threshold := 3
  votingSeconds := 345600
  destructiveSeconds := 172800
  amendmentLimit := 1
  promotionThreshold := none
  appliesCreates := true
  guardsTags := false
  retentionDays := 0

instance : Inhabited Rules := ⟨standard⟩

/-- The longest period, in milliseconds. -/
def longestPeriod : Int := 9223372036854775807

/-- The milliseconds of a number of seconds, if they can be measured. -/
def periodMillis? (seconds : UInt64) : Option Int :=
  if seconds.toNat ≤ 9223372036854775 then some (1000 * seconds.toNat) else none

/-- The milliseconds of a number of seconds, at most the longest period. -/
def periodMillis (seconds : UInt64) : Int := (periodMillis? seconds).getD longestPeriod

/-- How long voting lasts, in milliseconds. -/
def votingPeriod (rules : Rules) : Int := periodMillis rules.votingSeconds

/-- How long voting on an edit that reached the threshold lasts, in milliseconds. -/
def destructivePeriod (rules : Rules) : Int := periodMillis rules.destructiveSeconds

/-- Both periods can be measured. -/
def validate (rules : Rules) : Except Fault Unit := do
  if (periodMillis? rules.votingSeconds).isNone then
    throw (.outOfRange "voting_period_secs" rules.votingSeconds)
  if (periodMillis? rules.destructiveSeconds).isNone then
    throw (.outOfRange "min_destructive_voting_period_secs" rules.destructiveSeconds)

end Rules

end Curation
