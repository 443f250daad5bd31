/-
**What was asked for is what is read.** Once an edit that makes or changes a record has been applied,
the record reads what the submission asked for it, wherever it asked for something, and what it read
before everywhere else. Every other record reads as before.

* `Contents.Answers`: the contents of a record after a request, field by field;
* `Store.ReadsBack`: the whole catalogue after a request;
* `Store.create_readsBack`, `Store.modify_readsBack`: the two operations on records;
* `Desk.createEdit_readsBack`: the applications of what was submitted.
-/

import Curation.Proofs.Contents
import Curation.Proofs.Integrity
import Curation.Proofs.Standing

namespace Curation

/-! ### Answers -/

/-- What a field reads after a request; a value that is not admitted leaves it as it was. -/
def Request.outcome {α : Type} (admits : α → Bool) (current : Option α) : Request α → Option α
  | .untouched => current
  | .cleared => none
  | .value wanted => if admits wanted then some wanted else current

/-- The two sides of a difference are absent where nothing changes, and otherwise they are what was
there and what there will be. -/
theorem Request.compare_cases {α : Type} [DecidableEq α] {admits : α → Bool} {current : Option α}
    (known : current.filter admits = current) (request : Request α) :
    (request.compare admits current = (none, none) ∧ request.outcome admits current = current) ∨
      request.compare admits current = (current, request.outcome admits current) := by
  unfold compare
  rw [known]
  cases request with
  | untouched => exact .inl ⟨rfl, rfl⟩
  | cleared => exact .inr rfl
  | value wanted =>
    by_cases passes : admits wanted = true
    · have granted : (Request.value wanted).admitted admits = .value wanted := if_pos passes
      have grants : (Request.value wanted).outcome admits current = some wanted := if_pos passes
      rw [granted, grants]
      by_cases same : current = some wanted
      · exact .inl ⟨if_pos same, same.symm⟩
      · exact .inr (if_neg same)
    · have refused : (Request.value wanted).admitted admits = .untouched := if_neg passes
      rw [refused]
      exact .inl ⟨rfl, if_neg passes⟩

/-- Writing the two sides of a difference has the outcome that was asked for. -/
theorem Request.outcome_compare {α : Type} [DecidableEq α] {admits : α → Bool}
    {current : Option α} (known : current.filter admits = current) (request : Request α) :
    (request.compare admits current).2.or
      (if (request.compare admits current).1.isSome then none else current) =
      request.outcome admits current := by
  rcases request.compare_cases known with ⟨same, kept⟩ | changed
  · rw [same, kept]
    rfl
  · rw [changed]
    cases request.outcome admits current with
    | some wanted => rfl
    | none => cases current <;> rfl

/-- **What a record reads answers what was asked for it.** -/
structure Contents.Answers {kind : Kind} (input : Input kind) (before after : Contents kind) :
    Prop where
  scalars : ∀ field, after.scalar field =
    (input.scalar field).outcome field.admits (before.scalar field)
  members : ∀ collection, (after.members collection).Nodup ∧
    ∀ held, held ∈ after.members collection ↔
      (input.members collection).Leaves (before.members collection) held
  links : ∀ link, ((after.links link).map link.target).Nodup ∧
    ∀ listed, listed ∈ after.links link ↔ link.Leaves (input.links link) (before.links link) listed

/-- What an input makes of the credits of a performer on scenes: the old name is kept as the credit if
that is asked for. -/
def Input.keptCredit : {kind : Kind} → Input kind → Contents kind → Contents kind →
    Option String → Option String
  | .performer, input, before, after =>
    if input.modifyAliases
    then Store.renamedCredit (before.scalar .performerName) (after.scalar .performerName) else id
  | _, _, _, _ => id

theorem Input.keptCredit_blank {kind : Kind} (input : Input kind) (after : Contents kind) :
    input.keptCredit (.blank kind) after = id := by
  cases kind with
  | performer =>
    have trivial : Store.renamedCredit none (after.scalar .performerName) = id :=
      Store.renamedCredit_trivial (.inl rfl)
    exact (if_congr Iff.rfl trivial rfl).trans (ite_self id)
  | tag => rfl
  | studio => rfl
  | scene => rfl

/-- The names that a difference of names shows have the effect on credits that the names have. -/
theorem Request.renamedCredit_compare {admits : String → Bool} {current : Option String}
    (known : current.filter admits = current) (request : Request String) :
    Store.renamedCredit (request.compare admits current).1 (request.compare admits current).2 =
      Store.renamedCredit current (request.outcome admits current) := by
  rcases request.compare_cases known with ⟨same, kept⟩ | changed
  · rw [same, kept, Store.renamedCredit_trivial (.inl rfl),
      Store.renamedCredit_trivial (.inr (.inr rfl))]
  · rw [changed]

namespace Store

variable {store after : Store} {id : EntityId} {kind : Kind} {input : Input kind} {now : Instant}

/-- What the record of a kind with an identifier holds; nothing if there is none. -/
def held (store : Store) (kind : Kind) (id : EntityId) : Contents kind :=
  ((store.record? kind id).map Record.contents).getD (.blank kind)

/-- **What a catalogue reads after a request** for the record with an identifier: that record answers
the request, and all others read as before, up to the credits that the request keeps. -/
structure ReadsBack (before after : Store) (id : EntityId) (input : Input kind) : Prop where
  answers : ∃ record, after.record? kind id = some record ∧ record.header.deleted = false ∧
    Contents.Answers input (before.held kind id) record.contents
  others : ∀ read other, other ≠ id → after.record? read other =
    (before.record? read other).map
      (Record.recredit id (input.keptCredit (before.held kind id) (after.held kind id)))

/-! ### What there is to read -/

theorem IsLive.record? (live : store.IsLive id kind) : ∃ record, store.record? kind id = some record ∧
    record.header.deleted = false ∧ record.contents = store.contents kind id := by
  obtain ⟨row, found, rfl, kept⟩ := live
  refine ⟨⟨⟨row.id, row.created, row.updated, row.deleted⟩, store.contents row.kind id⟩, ?_, kept, rfl⟩
  unfold Store.record?
  rw [found, Option.filter_some, if_pos (decide_eq_true rfl)]
  rfl

theorem IsLive.held (live : store.IsLive id kind) : store.held kind id = store.contents kind id := by
  obtain ⟨record, found, -, same⟩ := live.record?
  rw [Store.held, found]
  exact same

/-- Nothing is stored about a record that does not exist. -/
theorem contents_absent (sound : store.Sound) (tidy : store.Tidy)
    (absent : store.hasEntity id = false) : store.contents kind id = .blank kind := by
  have noField : ∀ key, store.field? id key = none := by
    intro key
    unfold field?
    rw [Option.map_eq_none_iff, List.find?_eq_none]
    intro row stored picked
    have owned := tidy.fieldOwners row stored
    rw [(of_decide_eq_true picked).1, absent] at owned
    cases owned
  have noMember : ∀ list, store.collection id list = [] := by
    intro list
    rw [List.eq_nil_iff_forall_not_mem]
    intro value listed
    have owned := tidy.memberOwners _ (mem_collection.mp listed)
    rw [absent] at owned
    cases owned
  have noLink : ∀ association, store.edgesFrom id association = [] := by
    intro association
    rw [List.eq_nil_iff_forall_not_mem]
    intro edge listed
    obtain ⟨stored, starts⟩ := List.mem_filter.mp listed
    have exists? := (sound.edges edge stored).1.hasEntity
    rw [(of_decide_eq_true starts).1, absent] at exists?
    cases exists?
  refine Contents.ext ?_ ?_ ?_
  · funext field
    exact congrArg (Option.bind · _) (noField field.key)
  · funext collection
    exact congrArg (List.filterMap _) (noMember collection.key)
  · funext link
    exact congrArg (List.map _) (noLink link.association)

/-- A sound store holds only what fields admit. -/
theorem Sound.admitted (sound : store.Sound) (field : Field kind) :
    ((store.contents kind id).scalar field).filter field.admits =
      (store.contents kind id).scalar field := by
  cases read : (store.contents kind id).scalar field with
  | none => rfl
  | some value =>
    obtain ⟨stored, found, reads⟩ := Option.bind_eq_some_iff.mp read
    obtain ⟨row, picked, rfl⟩ := Option.map_eq_some_iff.mp found
    have named := List.find?_some picked
    have mayHold := sound.fields row (List.mem_of_find?_eq_some picked)
    refine Option.filter_some_pos ?_
    exact mayHold.admitted kind field value (of_decide_eq_true named).2 reads

/-- **What is written for an input answers it**, if the input was compared with what the record
holds. -/
theorem answers_of_parts {current : Option (Contents kind)} {filled listed linked : Store}
    (tidy : store.Tidy) (linkedTidy : linked.Tidy)
    (known : store.contents kind id = current.getD (.blank kind))
    (admitted : ∀ field, ((store.contents kind id).scalar field).filter field.admits =
      (store.contents kind id).scalar field)
    (filling : store.writeScalars id (input.diff current).new.scalars = .ok filled)
    (relisting : (filled.clearDropped id (input.diff current)).writeLists id
      (input.diff current).new.lists = .ok listed)
    (linking : listed.writeDetailLinks id ⟨kind, input.diff current⟩ = .ok linked) :
    Contents.Answers input (store.contents kind id) (linked.contents kind id) := by
  have linkFrame := writeDetailLinks_frame linking
  have listFrame := writeLists_frame relisting
  have clearFrame := clearDropped_frame filled id (input.diff current)
  have fillFrame := writeScalars_frame filling
  refine ⟨fun field => ?_, fun collection => ⟨nodup_members linkedTidy id collection, fun held => ?_⟩,
    fun link => ⟨nodup_links linkedTidy id link, fun listing => ?_⟩⟩
  · have found : current.bind (fun contents => contents.scalar field) =
        (store.contents kind id).scalar field := by
      rw [known]
      cases current <;> rfl
    have same : (linked.contents kind id).scalar field =
        ((filled.clearDropped id (input.diff current)).contents kind id).scalar field := by
      rw [linkFrame, listFrame]
      rfl
    rw [same, scalar_written filling]
    show (input.compare current field).2.or
      (if (input.compare current field).1.isSome then _ else _) = _
    unfold Input.compare
    rw [found]
    exact Request.outcome_compare (admitted field) _
  · have same : (linked.contents kind id).members collection =
        (listed.contents kind id).members collection := by
      rw [linkFrame]
      rfl
    have earlier :
        ((filled.clearDropped id (input.diff current)).contents kind id).members collection =
          (store.contents kind id).members collection := by
      rw [clearFrame, fillFrame]
      rfl
    rw [same, mem_members_written relisting, earlier]
    rfl
  · refine mem_links_written tidy linkedTidy (fun other => ?_) listing
    have edges : listed.edges = store.edges := by
      rw [listFrame, clearFrame, fillFrame]
    have same : listed.listing? link id other = store.listing? link id other :=
      congrArg (Option.map _) (credit?_congr edges link.association id other)
    exact (listing?_writeDetailLinks linking link other).trans (by rw [same]; rfl)

/-- What the details of an edit make of credits is what its input asked for. -/
theorem renamedBy_diff {current : Option (Contents kind)} {before reads : Contents kind}
    (known : before = current.getD (.blank kind))
    (admitted : ∀ field, (before.scalar field).filter field.admits = before.scalar field)
    (answers : Contents.Answers input before reads) :
    renamedBy ⟨kind, input.diff current⟩ = input.keptCredit before reads := by
  cases kind with
  | performer =>
    have found : current.bind (fun contents => contents.scalar .performerName) =
        before.scalar .performerName := by
      rw [known]
      cases current <;> rfl
    show (if (true && input.modifyAliases) = true then renamedCredit
      (input.compare current .performerName).1 (input.compare current .performerName).2 else id) = _
    unfold Input.compare
    rw [Bool.true_and, found]
    refine if_congr Iff.rfl ?_ rfl
    rw [answers.scalars .performerName]
    exact Request.renamedCredit_compare (admitted .performerName) _
  | tag => rfl
  | studio => rfl
  | scene => rfl

/-- The credits that a change keeps are those of links to its record, and so not what it reads. -/
theorem contents_keepCredits (unique : (store.edges.map Edge.ends).Nodup) (change : Change kind) :
    (store.keepCredits id ⟨kind, change⟩).contents kind id = store.contents kind id := by
  cases kind with
  | performer =>
    rw [keepCredits_eq unique]
    exact Contents.ext rfl rfl (funext fun link => (nomatch link))
  | tag => rfl
  | studio => rfl
  | scene => rfl

/-- **A change that was compared with what its record holds reads back.** -/
theorem modify_readsBack {change : Change kind} (sound : store.Sound) (tidy : store.Tidy)
    (compared : change = input.diff (some (store.contents kind id)))
    (done : store.modify id kind ⟨kind, change⟩ now = .ok after) :
    store.ReadsBack after id input := by
  have admitted : change.IsAdmitted := compared ▸ Input.diff_isAdmitted _ _
  have proper : (Details.mk kind change).kind = kind := rfl
  obtain ⟨-, afterLive⟩ := modify_sound sound proper admitted done
  have others (read : Kind) {other : EntityId} (apart : other ≠ id) :=
    modify_others tidy done apart read
  obtain ⟨filled, listed, linked, ⟨live, -, -⟩, filling, listing, linking, rfl⟩ := modify_split done
  have linkedTidy := parts_tidy tidy filling listing linking
  have answers : Contents.Answers input (store.contents kind id) (linked.contents kind id) := by
    subst compared
    exact answers_of_parts tidy linkedTidy rfl sound.admitted filling listing linking
  have same : ((linked.keepCredits id ⟨kind, change⟩).touchEntity id now).contents kind id =
      linked.contents kind id := contents_keepCredits linkedTidy.edges change
  obtain ⟨record, found, kept, reads⟩ := afterLive.record?
  refine ⟨⟨record, found, kept, ?_⟩, fun read other apart => ?_⟩
  · rw [live.held, reads, same]
    exact answers
  · rw [live.held, afterLive.held, same, others read apart, compared,
      renamedBy_diff rfl sound.admitted answers]
    rfl

/-- Nothing is found where there is no record, and so nothing is dropped. -/
theorem clearDropped_new (store : Store) (id : EntityId) (input : Input kind) :
    store.clearDropped id (input.diff none) = store := by
  have nothingFound : ∀ field, ((input.diff none).old.value? field) = none := by
    intro field
    show Option.map _ ((input.scalar field).compare field.admits none).1 = none
    have known : (none : Option field.Carrier).filter field.admits = none := rfl
    rcases (input.scalar field).compare_cases known with ⟨same, -⟩ | same <;>
      rw [same] <;> rfl
  refine List.foldlRecOn _ _ (motive := fun state => state = store) rfl
    (fun state same field _ => ?_)
  rw [nothingFound]
  exact same

/-- **What a new record was given reads back.** -/
theorem create_readsBack {change : Change kind} (sound : store.Sound) (tidy : store.Tidy)
    (compared : change = input.diff none)
    (done : store.create id kind ⟨kind, change⟩ now = .ok after) :
    store.entity? id = none ∧ store.ReadsBack after id input := by
  have admitted : change.IsAdmitted := compared ▸ Input.diff_isAdmitted _ _
  have proper : (Details.mk kind change).kind = kind := rfl
  obtain ⟨-, afterLive⟩ := create_sound sound proper admitted done
  have afterTidy := ((create_isWrite id kind _ now).written done).tidy tidy
  have touches := create_touches done
  obtain ⟨inserted, filled, listed, -, insertion, filling, listing, linking⟩ := create_split done
  obtain ⟨unused, frame⟩ := insertEntity_frame insertion
  have absent : store.entity? id = none := by
    rw [← Option.not_isSome_iff_eq_none, entity?_isSome, unused]
    exact Bool.false_ne_true
  have blank : inserted.contents kind id = .blank kind := by
    have same : inserted.contents kind id = store.contents kind id := by
      rw [frame]
      rfl
    exact same.trans (contents_absent sound tidy unused)
  have before : store.held kind id = .blank kind := by
    unfold held record?
    rw [absent]
    rfl
  have insertedTidy := ((insertEntity_isWrite id kind now).written insertion).tidy tidy
  have answers : Contents.Answers input (inserted.contents kind id) (after.contents kind id) := by
    subst compared
    have known : inserted.contents kind id = Option.getD none (.blank kind) := blank
    refine answers_of_parts insertedTidy afterTidy known (fun field => ?_) filling ?_ linking
    · rw [blank]
      rfl
    · rw [clearDropped_new]
      exact listing
  obtain ⟨record, found, kept, reads⟩ := afterLive.record?
  refine ⟨absent, ⟨record, found, kept, ?_⟩, fun read other apart => ?_⟩
  · rw [before, reads, ← blank]
    exact answers
  · rw [before, Input.keptCredit_blank, record?_touched touches apart]
    cases store.record? read other with
    | none => rfl
    | some record => exact congrArg some (record.recredit_id id).symm

end Store

/-! ### Submissions -/

/-- **A submission has been granted**: between two stores, what it asked for the record that it is
about, which is its target or a new one, has become what is read. -/
structure Submission.Granted (submission : Submission) (before after : Store)
    (target : EntityId) : Prop where
  about : submission.target = some target ∨
    (submission.target = none ∧ before.entity? target = none)
  readsBack : before.ReadsBack after target submission.proposal.input

/-- What is granted can be read off the catalogue. -/
theorem Submission.Granted.congr {submission : Submission} {before after later : Store}
    {target : EntityId} (granted : submission.Granted before after target)
    (same : after.SameCatalogue later) : submission.Granted before later target := by
  have reads (kind : Kind) (id : EntityId) : later.record? kind id = after.record? kind id := by
    rw [same]
    rfl
  have holds (kind : Kind) (id : EntityId) : later.held kind id = after.held kind id := by
    unfold Store.held
    rw [reads]
  obtain ⟨about, answers, others⟩ := granted
  refine ⟨about, ?_, fun read other apart => ?_⟩
  · rw [reads]
    exact answers
  · rw [reads, holds]
    exact others read other apart

/-- A submission for a record that is there is compared with what its fields read. -/
theorem Submission.change_eq {submission : Submission} {store : Store} {target : EntityId}
    (given : submission.target = some target) (live : store.IsLive target submission.proposal.kind) :
    submission.change store = submission.proposal.input.diff
      (some (store.contents submission.proposal.kind target)) := by
  obtain ⟨record, found, -, reads⟩ := live.record?
  have current : submission.target.bind (store.record? submission.proposal.kind) = some record := by
    rw [given]
    exact found
  unfold Submission.change
  rw [current, ← reads]
  rfl

/-- **Applying what was submitted grants it**, if the target still reads as it did then. -/
theorem Submission.granted_of_apply {submission : Submission} {submitted store after : Store}
    {details : Details} {edit : Edit} {id : EditId} {caller : UserId} {filedAt now : Instant}
    {fresh target : EntityId} (sound : store.Sound) (tidy : store.Tidy)
    (writes : submission.operation = .create ∨ submission.operation = .modify)
    (checked : submission.details submitted = .ok details)
    (asks : (submission.edit id caller details filedAt).AsksSame edit)
    (unchanged : ∀ target, submission.target = some target →
      store.held submission.proposal.kind target = submitted.held submission.proposal.kind target)
    (applies : edit.apply fresh now store = .ok (target, after)) :
    submission.Granted store after target := by
  have kind : edit.kind = submission.proposal.kind := asks.kind
  have aims : edit.target = submission.target := asks.target
  obtain ⟨targeted, -, ⟨destroys, -⟩ | ⟨-, -, rfl⟩⟩ := Submission.details_ok checked
  · rw [destroys] at writes
    rcases writes with same | same <;> cases same
  have changes : edit.details = ⟨submission.proposal.kind, submission.change submitted⟩ :=
    asks.details
  have target? := Submission.checkTarget_ok targeted
  have written := Edit.apply_ok.mp applies
  rcases writes with creates | modifies
  · have operation : edit.operation = .create := asks.operation.trans creates
    have none : submission.target = none := by
      rwa [creates] at target?
    have compared : submission.change submitted = submission.proposal.input.diff Option.none := by
      unfold Submission.change
      rw [none]
      rfl
    rw [operation] at written
    obtain ⟨rfl, done⟩ := written
    rw [kind, changes] at done
    obtain ⟨absent, reads⟩ := Store.create_readsBack sound tidy compared done
    exact ⟨.inr ⟨none, absent⟩, reads⟩
  · have operation : edit.operation = .modify := asks.operation.trans modifies
    rw [modifies] at target?
    obtain ⟨aimed, given, live⟩ := target?
    rw [operation] at written
    obtain ⟨same, done⟩ := written
    rw [aims, given] at same
    cases same
    rw [kind, changes] at done
    obtain ⟨_, _, _, ⟨stillLive, -⟩, -⟩ := Store.modify_split done
    have compared : submission.change submitted =
        submission.proposal.input.diff (some (store.contents submission.proposal.kind target)) := by
      rw [Submission.change_eq given live, ← live.held, ← unchanged target given, stillLive.held]
    exact ⟨.inl given, Store.modify_readsBack sound tidy compared done⟩

/-! ### Runs -/

namespace Desk

/-- **Diff, application and reading agree.** Whatever was done before, a submission that makes or
changes a record is granted when the edit that it has become is applied: at once, or by a
transaction of a later call if the edit was neither amended nor deleted meanwhile and its target
reads right before that transaction as it did when the submission was made. -/
theorem createEdit_readsBack (desk : Desk) (earlier : List (Instant × Call)) (filedAt : Instant)
    (caller : UserId) (submission : Submission) {edit : Edit}
    (writes : submission.operation = .create ∨ submission.operation = .modify)
    (accepted : (desk.createEdit filedAt caller submission (desk.run earlier)).result = .ok edit) :
    (edit.status.isApplied = true → ∃ target, edit.target = some target ∧
      submission.Granted (desk.run earlier).store
        (desk.run (earlier ++ [(filedAt, .createEdit caller submission)])).store target) ∧
    ∀ (later : List (Instant × Call)) (now : Instant) (call : Call) (pending applied : Edit)
      (calls : List (Instant × Call)),
      calls = earlier ++ (filedAt, .createEdit caller submission) :: later →
      (∀ entry ∈ later, entry.2.revises? ≠ some edit.id) →
      (desk.run calls).store.edit? edit.id = some pending → pending.isPending = true →
      (desk.run (calls ++ [(now, call)])).store.edit? edit.id = some applied →
      applied.status.isApplied = true →
      ∃ first step rest,
        desk.transactions now (desk.run calls) call = first ++ (now, step) :: rest ∧
        ((∀ target, submission.target = some target →
          (desk.run (calls ++ first)).store.held submission.proposal.kind target =
            (desk.run earlier).store.held submission.proposal.kind target) →
        ∃ target, applied.target = some target ∧
          submission.Granted (desk.run (calls ++ first)).store
            (desk.run (calls ++ first ++ [(now, step)])).store target) := by
  obtain ⟨files, edits, -⟩ := createEdit_files accepted
  refine ⟨fun settled => ?_, ?_⟩
  · rw [run_concat]
    cases files with
    | pending id details unused checked catalogue => cases settled
    | enacted id details number target store unused checked creates application catalogue =>
      have granted := Submission.granted_of_apply (desk.run_sound earlier) (desk.run_tidy earlier)
        writes checked (.refl _) (fun _ _ => rfl) application
      exact ⟨target, rfl, granted.congr catalogue⟩
  · rintro later now call pending applied calls rfl unrevised found waits looked settled
    have filed : (desk.run (earlier ++ [(filedAt, .createEdit caller submission)])).store.Stands
        edit := by
      rw [run_concat]
      exact files.stands edits
    obtain ⟨same, stands, asks⟩ := desk.run_stands filed unrevised
    rw [← List.append_cons, found] at stands
    cases stands
    obtain ⟨wasPending, asksSame⟩ := asks waits
    obtain ⟨first, step, rest, standing, performed, single, before?, stillWaits, stillAsks, after?⟩ :=
      desk.run_application _ now call found waits looked settled
    refine ⟨first, step, rest, performed, fun unchanged => ?_⟩
    rw [run_concat] at after? ⊢
    obtain ⟨fresh, target, store, applies, catalogue, given⟩ :=
      (desk.turn now _ single).application before? stillWaits after? settled
    cases files with
    | pending id details unused checked same =>
      have granted := Submission.granted_of_apply (desk.run_sound _) (desk.run_tidy _) writes
        checked (asksSame.trans stillAsks) unchanged applies
      exact ⟨target, given, granted.congr catalogue⟩
    | enacted id details number target store unused checked creates application same =>
      cases wasPending

/-- A tag is made. -/
def oneTag : List (Instant × Call) :=
  timed (staffed ++ accepted 1 2 (.create (.namedTag "outdoors")))

/-- The tag is to be renamed. -/
def newName : Submission := .modify ⟨Uuid.serial 3⟩ (.namedTag "open air")

/-- The new name is submitted. -/
def withNewName : List (Instant × Call) :=
  oneTag ++ [(Clock.now ⟨2⟩, .createEdit ⟨Uuid.serial 0⟩ newName)]

theorem newName_granted : ∃ target, newName.Granted (swift.run withNewName).store
    (swift.run (withNewName ++ [(Clock.now ⟨3⟩,
      .vote ⟨Uuid.serial 1⟩ ⟨Uuid.serial 4⟩ .accept)])).store target := by
  have filed : ((swift.createEdit (Clock.now ⟨2⟩) ⟨Uuid.serial 0⟩ newName
      (swift.run oneTag)).result.map Edit.id) = .ok ⟨Uuid.serial 4⟩ := by
    decide +kernel
  have proposed : ((swift.run withNewName).store.edit? ⟨Uuid.serial 4⟩).map Edit.isPending =
      some true := by
    decide +kernel
  have unchanged : (swift.run withNewName).store.held .tag ⟨Uuid.serial 3⟩ =
      (swift.run oneTag).store.held .tag ⟨Uuid.serial 3⟩ := by
    decide +kernel
  have passed : ((swift.run (withNewName ++ [(Clock.now ⟨3⟩,
      .vote ⟨Uuid.serial 1⟩ ⟨Uuid.serial 4⟩ .accept)])).store.edit? ⟨Uuid.serial 4⟩).map
        (fun edit => edit.status.isApplied) = some true := by
    decide +kernel
  obtain ⟨edit, accepted, sameId⟩ := Except.map_ok.mp filed
  obtain ⟨standing, found, pending⟩ := Option.map_eq_some_iff.mp proposed
  obtain ⟨applied, looked, settled⟩ := Option.map_eq_some_iff.mp passed
  obtain ⟨-, granted⟩ := createEdit_readsBack swift oneTag (Clock.now ⟨2⟩) ⟨Uuid.serial 0⟩
    newName (.inr rfl) accepted
  rw [sameId] at granted
  obtain ⟨first, step, rest, performed, granted⟩ := granted [] (Clock.now ⟨3⟩)
    (.vote ⟨Uuid.serial 1⟩ ⟨Uuid.serial 4⟩ .accept) standing applied withNewName rfl
    (fun entry member => (nomatch member)) found pending looked settled
  obtain ⟨rfl, rfl, -⟩ := transactions_single rfl performed
  rw [List.append_nil] at granted
  obtain ⟨target, -, granted⟩ := granted fun target given => by
    cases given
    exact unchanged
  exact ⟨target, granted⟩

end Desk

end Curation
