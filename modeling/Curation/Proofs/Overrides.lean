/-
**Variables of the environment cannot spoil the rules.** A variable sets its setting to what its
trimmed text means there, and nothing else; a text without a meaning is passed over, and so is a
period that cannot be measured. Rules that are valid stay so, and rules can be loaded whenever those of
the file can.

* `Rules.assign?_eq`: an assignment reads a value of the setting's kind and puts it in its place;
* `Rules.validate_ok`: rules are valid when all their periods can be measured;
* `Setting.Means`: what a text means for a setting, and `Setting.given?_eq_some`: that this is read;
* `Rules.content_overrideAll`: what the variables together leave of each setting;
* `Rules.overrideAll_sound`: all of this for any rules, environment and document.
-/

import Curation.Proofs.FuzzyDates
import Curation.Rules.Source
import Mathlib.Data.List.Nodup

namespace Curation

/-! ### Settings one by one -/

namespace Setting

/-- What rules hold for a setting. -/
def Content : Setting → Type
  | .threshold | .amendmentLimit | .retentionDays => UInt32
  | .votingSeconds | .destructiveSeconds => UInt64
  | .promotionThreshold => Option UInt32
  | .appliesCreates | .guardsTags => Bool

/-- What a setting becomes by what is given, if that is of its kind. -/
def accept? : (setting : Setting) → Given → Option setting.Content
  | .threshold, given | .amendmentLimit, given | .retentionDays, given => given.short?
  | .votingSeconds, given | .destructiveSeconds, given => given.long?
  | .promotionThreshold, given => given.short?.map some
  | .appliesCreates, given | .guardsTags, given => given.flag?

/-- A setting is no period, or one that can be measured. -/
def Measurable : (setting : Setting) → setting.Content → Prop
  | .votingSeconds, seconds | .destructiveSeconds, seconds =>
    1000 * (UInt64.toNat seconds : Int) ≤ Rules.longestPeriod
  | _, _ => True

theorem mem_all (setting : Setting) : setting ∈ all := by cases setting <;> decide

theorem nodup_all : all.Nodup := by decide

theorem map_environmentName : all.map environmentName =
    ["QUORUM_VOTE_APPLICATION_THRESHOLD", "QUORUM_VOTING_PERIOD_SECS",
      "QUORUM_MIN_DESTRUCTIVE_VOTING_PERIOD_SECS", "QUORUM_EDIT_UPDATE_LIMIT",
      "QUORUM_VOTE_PROMOTION_THRESHOLD", "QUORUM_AUTO_APPLY_CREATES", "QUORUM_REQUIRE_TAG_ROLE",
      "QUORUM_MOD_AUDIT_RETENTION_DAYS"] := by
  decide +kernel

/-- No two settings share a variable. -/
theorem environmentName_injective : Function.Injective environmentName := by
  have names : (all.map environmentName).Nodup := by
    rw [map_environmentName]
    decide
  intro first second same
  exact List.inj_on_of_nodup_map names (mem_all first) (mem_all second) same

end Setting

namespace Rules

variable {rules : Rules} {setting other : Setting}

/-- What the rules hold for a setting. -/
def content (rules : Rules) : (setting : Setting) → setting.Content
  | .threshold => rules.threshold
  | .votingSeconds => rules.votingSeconds
  | .destructiveSeconds => rules.destructiveSeconds
  | .amendmentLimit => rules.amendmentLimit
  | .promotionThreshold => rules.promotionThreshold
  | .appliesCreates => rules.appliesCreates
  | .guardsTags => rules.guardsTags
  | .retentionDays => rules.retentionDays

/-- The rules with something else for a setting. -/
def put (rules : Rules) : (setting : Setting) → setting.Content → Rules
  | .threshold, count => { rules with threshold := count }
  | .votingSeconds, seconds => { rules with votingSeconds := seconds }
  | .destructiveSeconds, seconds => { rules with destructiveSeconds := seconds }
  | .amendmentLimit, count => { rules with amendmentLimit := count }
  | .promotionThreshold, count => { rules with promotionThreshold := count }
  | .appliesCreates, flag => { rules with appliesCreates := flag }
  | .guardsTags, flag => { rules with guardsTags := flag }
  | .retentionDays, count => { rules with retentionDays := count }

@[simp] theorem content_put (rules : Rules) (setting : Setting) (value : setting.Content) :
    (rules.put setting value).content setting = value := by
  cases setting <;> rfl

/-- Whatever is put in the place of one setting, the others keep theirs. -/
theorem content_put_other (rules : Rules) (apart : other ≠ setting) (value : setting.Content) :
    (rules.put setting value).content other = rules.content other := by
  cases setting <;> cases other <;> first | rfl | exact absurd rfl apart

theorem assign?_eq (rules : Rules) (setting : Setting) (given : Setting.Given) :
    rules.assign? setting given = (setting.accept? given).map (rules.put setting) := by
  cases setting
  case promotionThreshold => exact (Option.map_map (rules.put .promotionThreshold) some given.short?).symm
  all_goals rfl

theorem periodMillis?_isSome {seconds : UInt64} :
    (periodMillis? seconds).isSome = true ↔ 1000 * (seconds.toNat : Int) ≤ longestPeriod := by
  unfold periodMillis? longestPeriod
  split
  · exact iff_of_true rfl (by omega)
  · exact iff_of_false Bool.false_ne_true (by omega)

theorem measures_iff :
    rules.measures setting = true ↔ setting.Measurable (rules.content setting) := by
  cases setting
  case votingSeconds => exact periodMillis?_isSome
  case destructiveSeconds => exact periodMillis?_isSome
  all_goals exact iff_of_true rfl trivial

theorem validate_eq_ok : rules.validate = .ok () ↔
    (periodMillis? rules.votingSeconds).isSome = true ∧
      (periodMillis? rules.destructiveSeconds).isSome = true := by
  unfold validate
  cases periodMillis? rules.votingSeconds with
  | none => exact iff_of_false nofun nofun
  | some voting =>
    cases periodMillis? rules.destructiveSeconds with
    | none => exact iff_of_false nofun nofun
    | some destructive => exact iff_of_true rfl ⟨rfl, rfl⟩

/-- Rules are valid when all their settings that are periods can be measured. -/
theorem validate_ok : rules.validate = .ok () ↔
    ∀ setting, Setting.Measurable setting (rules.content setting) := by
  rw [validate_eq_ok]
  constructor
  · rintro ⟨voting, destructive⟩ setting
    cases setting
    case votingSeconds => exact periodMillis?_isSome.mp voting
    case destructiveSeconds => exact periodMillis?_isSome.mp destructive
    all_goals trivial
  · exact fun all => ⟨periodMillis?_isSome.mpr (all .votingSeconds),
      periodMillis?_isSome.mpr (all .destructiveSeconds)⟩

end Rules

/-! ### What texts mean -/

namespace Setting

open FuzzyDate (numeral)
open Text

variable {setting : Setting} {text : String}

/-- A text spells a number by digits, one at least, with or without a plus sign before them. -/
def Numeral (text : String) (count : Nat) : Prop :=
  ∃ digits : List (Fin 10), digits ≠ [] ∧ FuzzyDate.number digits = count ∧
    (text.toList = numeral digits ∨ text.toList = '+' :: numeral digits)

/-- A text spells what a setting can hold: a number that fits in its word, or a flag. -/
def Spells : (setting : Setting) → String → setting.Content → Prop
  | .threshold, text, count | .amendmentLimit, text, count | .retentionDays, text, count =>
    Numeral text (UInt32.toNat count)
  | .votingSeconds, text, seconds | .destructiveSeconds, text, seconds =>
    Numeral text (UInt64.toNat seconds)
  | .promotionThreshold, text, least =>
    ∃ count, least = some count ∧ Numeral text (UInt32.toNat count)
  | .appliesCreates, text, flag | .guardsTags, text, flag =>
    (text = "true" ∧ flag = true) ∨ (text = "false" ∧ flag = false)

/-- What a text means for a setting, if anything: it spells it, and a period can be measured. -/
def Means (setting : Setting) (text : String) (value : setting.Content) : Prop :=
  setting.Spells text value ∧ setting.Measurable value

/-- What the environment gives a setting: the meaning of the trimmed text of its variable. A blank
text has none, because a number has a digit at least. -/
def GivenBy (environment : String → Option String) (setting : Setting) (value : setting.Content) :
    Prop :=
  ∃ written, environment setting.environmentName = some written ∧
    setting.Means (trim written) value

/-- No digit is a sign or a letter. -/
theorem ne_numeral {first : Char} (plain : first.isDigit = false) (rest : List Char)
    (digits : List (Fin 10)) : first :: rest ≠ numeral digits := by
  intro same
  have member : first ∈ numeral digits := same ▸ List.mem_cons_self
  rw [FuzzyDate.isDigit_of_mem_numeral member] at plain
  cases plain

theorem value_eq_some {characters : List Char} {count : Nat} :
    (if characters ≠ [] ∧ characters.all Char.isDigit then some (Decimal.value characters) else none) =
        some count ↔
      ∃ digits, digits ≠ [] ∧ FuzzyDate.number digits = count ∧ characters = numeral digits := by
  rw [Option.ite_none_right_eq_some, Option.some.injEq, and_assoc, FuzzyDate.digits_iff]
  constructor
  · rintro ⟨some, digits, rfl, same⟩
    exact ⟨digits, fun none => some (none ▸ rfl), same, rfl⟩
  · rintro ⟨digits, some, same, rfl⟩
    exact ⟨fun none => some (List.map_eq_nil_iff.mp none), digits, rfl, same⟩

theorem count?_eq_some {count : Nat} :
    Given.count? text.toList = some count ↔ Numeral text count := by
  unfold Given.count? Numeral
  generalize text.toList = characters
  dsimp only
  split
  next rest =>
    rw [value_eq_some]
    have signed : Char.isDigit '+' = false := by decide
    simp only [ne_numeral signed, false_or, List.cons.injEq, true_and]
  next unsigned =>
    rw [value_eq_some]
    refine exists_congr fun digits => and_congr_right fun _ => and_congr_right fun _ => ?_
    exact (or_iff_left fun signed => unsigned _ signed).symm

theorem Numeral.ne_letter {count : Nat} (spelt : Numeral text count) {first : Char}
    (plain : first.isDigit = false) (unsigned : first ≠ '+') (rest : List Char) :
    text.toList ≠ first :: rest := by
  obtain ⟨digits, -, -, same | same⟩ := spelt
  · rw [same]
    exact (ne_numeral plain rest digits).symm
  · rw [same]
    exact fun signed => unsigned (List.cons.inj signed).1.symm

/-- No number is spelt like a flag. -/
theorem Numeral.not_flag {count : Nat} (spelt : Numeral text count) :
    text ≠ "true" ∧ text ≠ "false" := by
  constructor
  · rintro rfl
    have letter : Char.isDigit 't' = false := by decide
    exact spelt.ne_letter letter (by decide) ['r', 'u', 'e'] rfl
  · rintro rfl
    have letter : Char.isDigit 'f' = false := by decide
    exact spelt.ne_letter letter (by decide) ['a', 'l', 's', 'e'] rfl

/-- A text that is no flag gives the number that it spells, if any. -/
theorem ofText?_plain (plain : text ≠ "true" ∧ text ≠ "false") :
    Given.ofText? text = (Given.count? text.toList).map fun count => .number (count : Int) := by
  unfold Given.ofText?
  rw [if_neg plain.1, if_neg plain.2]
  cases Given.count? text.toList <;> rfl

theorem ofText?_eq_number {count : Nat} :
    Given.ofText? text = some (.number count) ↔ Numeral text count := by
  by_cases plain : text ≠ "true" ∧ text ≠ "false"
  · rw [ofText?_plain plain, Option.map_eq_some_iff]
    simp only [count?_eq_some, Given.number.injEq, Int.natCast_inj, exists_eq_right]
  · refine iff_of_false ?_ fun spelt => plain spelt.not_flag
    rcases not_and_or.mp plain with affirmed | denied
    · rw [not_ne_iff.mp affirmed]
      exact nofun
    · rw [not_ne_iff.mp denied]
      exact nofun

theorem ofText?_eq_flag {flag : Bool} : Given.ofText? text = some (.flag flag) ↔
    (text = "true" ∧ flag = true) ∨ (text = "false" ∧ flag = false) := by
  by_cases plain : text ≠ "true" ∧ text ≠ "false"
  · rw [ofText?_plain plain]
    simp [plain]
  · rcases not_and_or.mp plain with affirmed | denied
    · rw [not_ne_iff.mp affirmed]
      simp [Given.ofText?, eq_comm]
    · rw [not_ne_iff.mp denied]
      simp [Given.ofText?, eq_comm]

/-- A number is taken for a word just when it is the number of that word. -/
theorem word_eq_some {Word : Type} {ofNat : Nat → Word} {toNat : Word → Nat} {size : Nat}
    (bound : ∀ word, toNat word < size) (kept : ∀ number < size, toNat (ofNat number) = number)
    (back : ∀ word, ofNat (toNat word) = word) {value : Int} {word : Word} :
    (if 0 ≤ value ∧ value < size then some (ofNat value.toNat) else none) = some word ↔
      value = toNat word := by
  constructor
  · intro read
    split at read
    next fits =>
      obtain rfl := Option.some.inj read
      rw [kept _ (by omega)]
      omega
    · cases read
  · rintro rfl
    have small := bound word
    rw [if_pos ⟨by omega, by omega⟩, Int.toNat_natCast, back]

theorem short?_eq_some {given : Given} {count : UInt32} :
    given.short? = some count ↔ given = .number count.toNat := by
  cases given with
  | flag => exact iff_of_false nofun nofun
  | number value =>
    rw [Given.short?, Given.number.injEq]
    exact word_eq_some UInt32.toNat_lt (fun _ => UInt32.toNat_ofNat_of_lt') fun _ => UInt32.ofNat_toNat

theorem long?_eq_some {given : Given} {count : UInt64} :
    given.long? = some count ↔ given = .number count.toNat := by
  cases given with
  | flag => exact iff_of_false nofun nofun
  | number value =>
    rw [Given.long?, Given.number.injEq]
    exact word_eq_some UInt64.toNat_lt (fun _ => UInt64.toNat_ofNat_of_lt') fun _ => UInt64.ofNat_toNat

theorem flag?_eq_some {given : Given} {flag : Bool} :
    given.flag? = some flag ↔ given = .flag flag := by
  cases given with
  | flag value => rw [Given.flag?, Option.some.injEq, Given.flag.injEq]
  | number => exact iff_of_false nofun nofun

instance : (setting : Setting) → (value : setting.Content) → Decidable (setting.Measurable value)
  | .votingSeconds, seconds | .destructiveSeconds, seconds =>
    inferInstanceAs (Decidable (1000 * (UInt64.toNat seconds : Int) ≤ Rules.longestPeriod))
  | .threshold, _ | .amendmentLimit, _ | .promotionThreshold, _ | .appliesCreates, _
  | .guardsTags, _ | .retentionDays, _ => isTrue trivial

/-- What the text of a variable gives a setting, once it is trimmed. -/
def read? (setting : Setting) (written : String) : Option setting.Content :=
  ((Given.ofText? (trim written)).bind setting.accept?).filter fun value => setting.Measurable value

/-- What an environment gives a setting. -/
def given? (environment : String → Option String) (setting : Setting) : Option setting.Content :=
  (environment setting.environmentName).bind setting.read?

/-- A text is accepted just when it spells something that the setting can hold. -/
theorem accept?_eq_some {value : setting.Content} :
    (Given.ofText? text).bind setting.accept? = some value ↔ setting.Spells text value := by
  have short {count : UInt32} :
      (Given.ofText? text).bind Given.short? = some count ↔ Numeral text count.toNat := by
    simp only [Option.bind_eq_some_iff, short?_eq_some, exists_eq_right, ofText?_eq_number]
  have long {count : UInt64} :
      (Given.ofText? text).bind Given.long? = some count ↔ Numeral text count.toNat := by
    simp only [Option.bind_eq_some_iff, long?_eq_some, exists_eq_right, ofText?_eq_number]
  have flag {flag : Bool} : (Given.ofText? text).bind Given.flag? = some flag ↔
      (text = "true" ∧ flag = true) ∨ (text = "false" ∧ flag = false) := by
    simp only [Option.bind_eq_some_iff, flag?_eq_some, exists_eq_right, ofText?_eq_flag]
  have optional {least : Option UInt32} :
      (Given.ofText? text).bind (fun given => given.short?.map some) = some least ↔
        ∃ count, least = some count ∧ Numeral text count.toNat := by
    have mapped : (Given.ofText? text).bind (fun given => given.short?.map some) =
        ((Given.ofText? text).bind Given.short?).map some := Option.map_bind.symm
    rw [mapped, Option.map_eq_some_iff]
    exact exists_congr fun count => and_comm.trans (and_congr eq_comm short)
  cases setting
  case threshold | amendmentLimit | retentionDays => exact short
  case votingSeconds | destructiveSeconds => exact long
  case appliesCreates | guardsTags => exact flag
  case promotionThreshold => exact optional

theorem read?_eq_some {written : String} {value : setting.Content} :
    setting.read? written = some value ↔ setting.Means (trim written) value := by
  rw [read?, Option.filter_eq_some_iff, accept?_eq_some, decide_eq_true_eq, Means]

theorem given?_eq_some {environment : String → Option String} {value : setting.Content} :
    given? environment setting = some value ↔ setting.GivenBy environment value := by
  simp only [given?, GivenBy, Option.bind_eq_some_iff, read?_eq_some]

theorem given?_eq_none {environment : String → Option String} :
    given? environment setting = none ↔ ∀ value, ¬ setting.GivenBy environment value := by
  simp only [Option.eq_none_iff_forall_ne_some, ne_eq, given?_eq_some]

end Setting

/-! ### Settings all together -/

namespace Rules

variable {rules : Rules} {setting other : Setting} {environment : String → Option String}

/-- A variable puts what its text gives in the place of its setting, if that gives anything. -/
theorem override_eq (rules : Rules) (setting : Setting) (written : String) :
    rules.override setting written =
      ((setting.read? written).map (rules.put setting)).getD rules := by
  have assigned : (Setting.Given.ofText? (Text.trim written) >>= rules.assign? setting) =
      ((Setting.Given.ofText? (Text.trim written)).bind setting.accept?).map (rules.put setting) := by
    cases Setting.Given.ofText? (Text.trim written) with
    | none => rfl
    | some given => rw [Option.bind_eq_bind, Option.bind_some, Option.bind_some, assign?_eq]
  -- It is the changed rules that are measured, and they hold the value that was put there.
  have kept (value : setting.Content) : (rules.put setting value).measures setting =
      decide (setting.Measurable value) := by
    rw [Bool.eq_iff_iff, measures_iff, content_put, decide_eq_true_eq]
  rw [override, assigned, Setting.read?]
  cases (Setting.Given.ofText? (Text.trim written)).bind setting.accept? with
  | none => rfl
  | some value =>
    rw [Option.map_some, Option.filter_some]
    dsimp only
    rw [kept]
    split <;> rfl

/-- The variable of a setting, whatever it gives, leaves the rest of the rules. -/
def heed (environment : String → Option String) (rules : Rules) (setting : Setting) : Rules :=
  ((Setting.given? environment setting).map (rules.put setting)).getD rules

theorem overrideAll_eq (rules : Rules) (environment : String → Option String) :
    rules.overrideAll environment = Setting.all.foldl (heed environment) rules := by
  unfold overrideAll
  congr 1
  funext rules setting
  unfold heed Setting.given?
  cases environment setting.environmentName with
  | none => rfl
  | some written => rw [Option.bind_some, ← rules.override_eq]

theorem content_heed_self (environment : String → Option String) (rules : Rules)
    (setting : Setting) : (heed environment rules setting).content setting =
      (Setting.given? environment setting).getD (rules.content setting) := by
  unfold heed
  cases Setting.given? environment setting with
  | none => rfl
  | some value => exact rules.content_put setting value

theorem content_heed_other (environment : String → Option String) (rules : Rules)
    (apart : other ≠ setting) :
    (heed environment rules setting).content other = rules.content other := by
  unfold heed
  cases Setting.given? environment setting with
  | none => rfl
  | some value => exact rules.content_put_other apart value

/-- Of the variables that are heeded one after another, only that of a setting touches it. -/
theorem content_foldl_heed {settings : List Setting} (distinct : settings.Nodup) (rules : Rules) :
    (settings.foldl (heed environment) rules).content setting =
      if setting ∈ settings then (Setting.given? environment setting).getD (rules.content setting)
      else rules.content setting := by
  induction settings generalizing rules with
  | nil => rfl
  | cons first rest hypothesis =>
    obtain ⟨new, others⟩ := List.nodup_cons.mp distinct
    rw [List.foldl_cons, hypothesis others]
    by_cases same : setting = first
    · -- The settings that follow are others, so that what was put for this one stands.
      subst same
      rw [if_neg new, if_pos List.mem_cons_self, content_heed_self]
    · simp only [List.mem_cons, same, false_or, content_heed_other environment rules same]

/-- **What the variables leave of a setting**: what its own variable gives, or else what it was. -/
theorem content_overrideAll (rules : Rules) (environment : String → Option String)
    (setting : Setting) : (rules.overrideAll environment).content setting =
      (Setting.given? environment setting).getD (rules.content setting) := by
  rw [overrideAll_eq, content_foldl_heed Setting.nodup_all, if_pos setting.mem_all]

/-- Valid rules stay valid, because a period that cannot be measured is passed over. -/
theorem overrideAll_valid (valid : rules.validate = .ok ()) (environment : String → Option String) :
    (rules.overrideAll environment).validate = .ok () := by
  rw [validate_ok] at valid ⊢
  intro setting
  rw [content_overrideAll]
  cases found : Setting.given? environment setting with
  | none => exact valid setting
  | some value =>
    obtain ⟨written, -, -, measurable⟩ := Setting.given?_eq_some.mp found
    exact measurable

/-! ### Loading -/

/-- The rules of a document, by any way of reading documents. -/
def ofDocument (reader : String → Option Rules) (written : String) : Except Fault Rules := do
  match reader written with
  | some rules =>
    rules.validate
    return rules
  | none => throw .settingsUnreadable

/-- The rules in a file, if there is one, by any way of reading documents. -/
def ofFileBy (reader : String → Option Rules) (path : String) :
    Option (List UInt8) → Except Fault Rules
  | none => .ok standard
  | some bytes =>
    match Bytes.Utf8.decode? bytes with
    | none => .error .settingsUnreadable
    | some written =>
      match ofDocument reader written with
      | .ok rules => .ok rules
      | .error fault => .error (.inFile path fault)

/-- The rules of a file and the environment, by any way of reading documents. -/
def loadBy (reader : String → Option Rules) (path : String) (file : Option (List UInt8))
    (environment : String → Option String) : Except Fault Rules := do
  let rules ← ofFileBy reader path file
  let rules := rules.overrideAll environment
  rules.validate
  return rules

theorem load_eq_loadBy : load = loadBy fun written => Toml.ofText? written >>= ofTable? := rfl

theorem ofDocument_valid {reader : String → Option Rules} {written : String}
    (read : ofDocument reader written = .ok rules) : rules.validate = .ok () := by
  unfold ofDocument at read
  cases told : reader written with
  | none =>
    rw [told] at read
    cases read
  | some document =>
    rw [told] at read
    cases judged : document.validate with
    | error fault =>
      simp only [judged] at read
      cases read
    | ok valid =>
      simp only [judged] at read
      cases read
      exact judged

/-- Rules that come from a file, or from none, are valid. -/
theorem ofFileBy_valid {reader : String → Option Rules} {path : String}
    {file : Option (List UInt8)} (read : ofFileBy reader path file = .ok rules) :
    rules.validate = .ok () := by
  unfold ofFileBy at read
  split at read
  · cases read
    rfl
  · split at read
    · cases read
    · split at read
      next document =>
        cases read
        exact ofDocument_valid document
      · cases read

/-- Loading fails just when the file cannot be read as rules, whatever the environment holds. -/
theorem loadBy_eq (reader : String → Option Rules) (path : String) (file : Option (List UInt8))
    (environment : String → Option String) : loadBy reader path file environment =
      (ofFileBy reader path file).map fun read => read.overrideAll environment := by
  unfold loadBy
  cases found : ofFileBy reader path file with
  | error fault => rfl
  | ok read =>
    have judged := overrideAll_valid (ofFileBy_valid found) environment
    show (do (read.overrideAll environment).validate; return read.overrideAll environment) = _
    rw [judged]
    rfl

/-- **Variables of the environment cannot spoil the rules.** Valid rules stay valid, each setting is
what its variable gives or else what it was, no variable touches the setting of another, and no two
settings share one. Rules are loaded whenever those of the file can be read, in whatever way documents
are read, and the failure is the file's if they cannot. -/
theorem overrideAll_sound (rules : Rules) (environment : String → Option String)
    (valid : rules.validate = .ok ()) :
    (rules.overrideAll environment).validate = .ok () ∧
    (∀ setting value, Setting.GivenBy environment setting value →
      (rules.overrideAll environment).content setting = value) ∧
    (∀ setting, (∀ value, ¬ Setting.GivenBy environment setting value) →
      (rules.overrideAll environment).content setting = rules.content setting) ∧
    (∀ name text setting, name ≠ Setting.environmentName setting →
      (rules.overrideAll (Function.update environment name text)).content setting =
        (rules.overrideAll environment).content setting) ∧
    Function.Injective Setting.environmentName ∧
    load = loadBy (fun written => Toml.ofText? written >>= ofTable?) ∧
    ∀ reader path file,
      (∀ fault, loadBy reader path file environment = .error fault ↔
        ofFileBy reader path file = .error fault) ∧
      ∀ read, ofFileBy reader path file = .ok read →
        loadBy reader path file environment = .ok (read.overrideAll environment) := by
  refine ⟨overrideAll_valid valid environment, fun setting value given => ?_, fun setting nothing => ?_,
    fun name text setting apart => ?_, Setting.environmentName_injective, load_eq_loadBy,
    fun reader path file => ?_⟩
  · rw [content_overrideAll, Setting.given?_eq_some.mpr given, Option.getD_some]
  · rw [content_overrideAll, Setting.given?_eq_none.mpr nothing, Option.getD_none]
  · rw [content_overrideAll, content_overrideAll, Setting.given?, Setting.given?,
      Function.update_of_ne apart.symm]
  · rw [loadBy_eq]
    cases ofFileBy reader path file with
    | error fault => exact ⟨fun other => Iff.rfl, nofun⟩
    | ok read =>
      refine ⟨fun fault => iff_of_false nofun nofun, fun same also => ?_⟩
      cases also
      rfl

/-- An environment with variables of all sorts. -/
def motley (name : String) : Option String :=
  if name = "QUORUM_VOTE_APPLICATION_THRESHOLD" then some "\t+07 "
  else if name = "QUORUM_VOTING_PERIOD_SECS" then some "9000000000000000000"
  else if name = "QUORUM_EDIT_UPDATE_LIMIT" then some "lots"
  else if name = "QUORUM_AUTO_APPLY_CREATES" then some "false"
  else none

theorem motley_sound : standard.validate = .ok () ∧
    (standard.overrideAll motley).validate = .ok () ∧
    (standard.overrideAll motley).threshold = 7 ∧
    (standard.overrideAll motley).votingSeconds = 345600 ∧
    (standard.overrideAll motley).amendmentLimit = 1 ∧
    (standard.overrideAll motley).appliesCreates = false ∧
    load "rules.toml" none motley = .ok (standard.overrideAll motley) := by
  have valid : standard.validate = .ok () := rfl
  obtain ⟨stays, given, kept, -, -, loads, files⟩ := overrideAll_sound standard motley valid
  refine ⟨valid, stays, given .threshold (7 : UInt32) ⟨"\t+07 ", ?_, ?_, trivial⟩,
    kept .votingSeconds (Setting.given?_eq_none.mp ?_),
    kept .amendmentLimit (Setting.given?_eq_none.mp ?_),
    given .appliesCreates false ⟨"false", ?_, .inr ⟨?_, rfl⟩, trivial⟩, ?_⟩
  · decide +kernel
  · exact ⟨[0, 7], by decide, by decide, .inr (by decide)⟩
  · decide +kernel
  · decide +kernel
  · decide +kernel
  · decide +kernel
  · rw [loads]
    exact (files _ "rules.toml" none).2 standard rfl

end Rules

end Curation
