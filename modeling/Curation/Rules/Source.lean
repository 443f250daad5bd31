/-
**Where the rules come from.** Rules are read from a TOML document and then overridden by variables
of the environment. A document that sets anything wrongly is refused; a variable that does is
ignored. Whatever is not set keeps its standard value.

* `Rules.ofToml`: the rules that a document sets;
* `Rules.override`: rules with one setting given by a variable;
* `Rules.load`: both.
-/

import Curation.Bytes.Utf8
import Curation.Rules
import Curation.Text.Blank
import Curation.Toml.Reader

namespace Curation

/-- The settings of the rules. -/
inductive Setting where
  | threshold
  | votingSeconds
  | destructiveSeconds
  | amendmentLimit
  | promotionThreshold
  | appliesCreates
  | guardsTags
  | retentionDays
deriving DecidableEq

namespace Setting

/-- The settings, in the order in which they are read. -/
def all : List Setting :=
  [.threshold, .votingSeconds, .destructiveSeconds, .amendmentLimit, .promotionThreshold,
    .appliesCreates, .guardsTags, .retentionDays]

/-- The name of a setting in a document. -/
def name : Setting → String
  | .threshold => "vote_application_threshold"
  | .votingSeconds => "voting_period_secs"
  | .destructiveSeconds => "min_destructive_voting_period_secs"
  | .amendmentLimit => "edit_update_limit"
  | .promotionThreshold => "vote_promotion_threshold"
  | .appliesCreates => "auto_apply_creates"
  | .guardsTags => "require_tag_role"
  | .retentionDays => "mod_audit_retention_days"

/-- The name of the variable for a setting. -/
def environmentName (setting : Setting) : String := "QUORUM_" ++ setting.name.map Char.toUpper

/-- What a setting may be given. -/
inductive Given where
  | number (value : Int)
  | flag (value : Bool)
deriving DecidableEq

/-- What a value in a document gives. -/
def Given.ofToml? : Toml → Option Given
  | .integer value => some (.number value)
  | .bool value => some (.flag value)
  | _ => none

/-- The number that digits spell, after a plus sign at most. -/
def Given.count? (characters : List Char) : Option Nat :=
  let numeral :=
    match characters with
    | '+' :: numeral => numeral
    | numeral => numeral
  if numeral ≠ [] ∧ numeral.all Char.isDigit then some (Text.Decimal.value numeral) else none

/-- What a text gives. -/
def Given.ofText? (written : String) : Option Given :=
  if written = "true" then some (.flag true)
  else if written = "false" then some (.flag false)
  else (Given.count? written.toList).map fun count => .number count

/-- A count of 32 bits. -/
def Given.short? : Given → Option UInt32
  | .number value => if 0 ≤ value ∧ value < UInt32.size then some (UInt32.ofNat value.toNat) else none
  | .flag _ => none

/-- A count of 64 bits. -/
def Given.long? : Given → Option UInt64
  | .number value => if 0 ≤ value ∧ value < UInt64.size then some (UInt64.ofNat value.toNat) else none
  | .flag _ => none

/-- A flag. -/
def Given.flag? : Given → Option Bool
  | .flag value => some value
  | .number _ => none

end Setting

namespace Rules

/-- Gives a setting a value of its kind. -/
def assign? (rules : Rules) (setting : Setting) (given : Setting.Given) : Option Rules :=
  match setting with
  | .threshold => given.short?.map fun count => { rules with threshold := count }
  | .votingSeconds => given.long?.map fun seconds => { rules with votingSeconds := seconds }
  | .destructiveSeconds =>
    given.long?.map fun seconds => { rules with destructiveSeconds := seconds }
  | .amendmentLimit => given.short?.map fun count => { rules with amendmentLimit := count }
  | .promotionThreshold =>
    given.short?.map fun count => { rules with promotionThreshold := some count }
  | .appliesCreates => given.flag?.map fun flag => { rules with appliesCreates := flag }
  | .guardsTags => given.flag?.map fun flag => { rules with guardsTags := flag }
  | .retentionDays => given.short?.map fun count => { rules with retentionDays := count }

/-- The rules with a setting as a table gives it, if it does. -/
def assignFrom? (table : Toml.Table) (rules : Rules) (setting : Setting) : Option Rules :=
  match table.find? setting.name with
  | some value => Setting.Given.ofToml? value >>= rules.assign? setting
  | none => some rules

/-- The rules that a table sets; names that are no settings are ignored. -/
def ofTable? (table : Toml.Table) : Option Rules := Setting.all.foldlM (assignFrom? table) standard

/-- Reads rules from a document. -/
def ofToml (written : String) : Except Fault Rules := do
  match Toml.ofText? written >>= ofTable? with
  | some rules =>
    rules.validate
    return rules
  | none => throw .settingsUnreadable

/-- A setting that is a period can be measured. -/
def measures (rules : Rules) : Setting → Bool
  | .votingSeconds => (periodMillis? rules.votingSeconds).isSome
  | .destructiveSeconds => (periodMillis? rules.destructiveSeconds).isSome
  | _ => true

/-- Overrides a setting by the text of its variable. A text without a value of the setting's kind,
or with a period that cannot be measured, is ignored. -/
def override (rules : Rules) (setting : Setting) (written : String) : Rules :=
  match Setting.Given.ofText? (Text.trim written) >>= rules.assign? setting with
  | some changed => if changed.measures setting then changed else rules
  | none => rules

/-- Overrides the settings that have a variable in the environment. -/
def overrideAll (rules : Rules) (environment : String → Option String) : Rules :=
  Setting.all.foldl
    (fun rules setting =>
      match environment setting.environmentName with
      | some written => rules.override setting written
      | none => rules)
    rules

/-- The rules in a file, if there is one. -/
def ofFile (path : String) : Option (List UInt8) → Except Fault Rules
  | none => .ok standard
  | some bytes =>
    match Bytes.Utf8.decode? bytes with
    | none => .error .settingsUnreadable
    | some written =>
      match ofToml written with
      | .ok rules => .ok rules
      | .error fault => .error (.inFile path fault)

/-- The rules of a file and the environment. -/
def load (path : String) (file : Option (List UInt8)) (environment : String → Option String) :
    Except Fault Rules := do
  let rules ← ofFile path file
  let rules := rules.overrideAll environment
  rules.validate
  return rules

end Rules

end Curation
