/-
**A difference is exact.** The details of an edit show a field on their two sides when what is wanted
of it differs from what the record holds, and show nothing of it otherwise; what is asked of
collections and links stands on the proposing side as it was asked. So a record over which the
details are written holds what was wanted, field by field, and asking for the same again finds no
field to change.

* `Change.Shows`: what exact details show;
* `Contents.overwrite`: the contents of a record over which a change was written, and
  `Store.contents_overwritten`: the writes of an application are that;
* `Input.diff_exact`: the difference of an input and a record, if there is one.

A text outside the fixed words of a field counts as absent when it is compared, so what is compared
must hold none. `Store.Sound.isAdmitted`: nothing that is stored after a run does.
-/

import Curation.Proofs.Readback

namespace Curation

/-! ### One field -/

namespace Request

variable {α : Type} {admits : α → Bool} {current : Option α}

/-- What a request comes to is admitted if what was there is. -/
theorem outcome_admitted (known : current.all admits = true) (request : Request α) :
    (request.outcome admits current).all admits = true := by
  cases request with
  | untouched => exact known
  | cleared => rfl
  | value wanted =>
    show (if admits wanted = true then some wanted else current).all admits = true
    split
    next passes => exact passes
    next => exact known

/-- What has come of a request comes of it again. -/
theorem outcome_outcome (request : Request α) :
    request.outcome admits (request.outcome admits current) = request.outcome admits current := by
  cases request with
  | untouched => rfl
  | cleared => rfl
  | value wanted =>
    by_cases passes : admits wanted = true
    · have granted (before : Option α) : (value wanted).outcome admits before = some wanted :=
        if_pos passes
      rw [granted, granted]
    · have refused (before : Option α) : (value wanted).outcome admits before = before :=
        if_neg passes
      rw [refused, refused]

theorem filter_admitted (known : current.all admits = true) : current.filter admits = current := by
  cases current with
  | none => rfl
  | some held => exact Option.filter_some_pos known

variable [DecidableEq α]

/-- **The two sides of a difference**: absent if the outcome is what was there, and otherwise what was
there and the outcome. -/
theorem compare_exact (known : current.all admits = true) (request : Request α) :
    request.compare admits current =
      if request.outcome admits current = current then (none, none)
      else (current, request.outcome admits current) := by
  unfold compare
  rw [filter_admitted known]
  cases request with
  | untouched => exact (if_pos rfl).symm
  | cleared =>
    cases current with
    | none => exact (if_pos rfl).symm
    | some held => exact (if_neg nofun).symm
  | value wanted =>
    by_cases passes : admits wanted = true
    · have granted : (value wanted).admitted admits = .value wanted := if_pos passes
      have grants : (value wanted).outcome admits current = some wanted := if_pos passes
      rw [granted, grants]
      exact if_congr eq_comm rfl rfl
    · have refused : (value wanted).admitted admits = .untouched := if_neg passes
      have keeps : (value wanted).outcome admits current = current := if_neg passes
      rw [refused, keeps]
      exact (if_pos rfl).symm

/-- There is nothing to change where a request has come true. -/
theorem compare_outcome (known : current.all admits = true) (request : Request α) :
    request.compare admits (request.outcome admits current) = (none, none) := by
  rw [compare_exact (request.outcome_admitted known), if_pos request.outcome_outcome]

end Request

/-! ### All fields -/

section Differences

variable {kind : Kind}

/-- What is there in a field, if there is a record. -/
def Field.found (field : Field kind) (current : Option (Contents kind)) : Option field.Carrier :=
  current.bind fun contents => contents.scalar field

/-- What an input wants a field to hold, in view of what is there. -/
def Input.wanted (input : Input kind) (current : Option (Contents kind)) (field : Field kind) :
    Option field.Carrier :=
  (input.scalar field).outcome field.admits (field.found current)

/-- Every field holds something that it admits, if it holds anything. -/
def Contents.IsAdmitted (contents : Contents kind) : Prop :=
  ∀ field, (contents.scalar field).all field.admits = true

instance (contents : Contents kind) : Decidable contents.IsAdmitted := by
  unfold Contents.IsAdmitted
  infer_instance

/-- **What exact details show** of what is asked of a record: the fields of which something else is
wanted than is there, and all that is asked of collections and links. -/
structure Change.Shows (change : Change kind) (input : Input kind)
    (current : Option (Contents kind)) : Prop where
  scalars : ∀ field, (change.old.scalar field, change.new.scalar field) =
    if input.wanted current field = field.found current then (none, none)
    else (field.found current, input.wanted current field)
  members : ∀ collection, change.new.members collection = input.members collection ∧
    change.old.members collection = .none
  links : ∀ link, change.new.links link = input.links link ∧ change.old.links link = .none

/-- **The contents of a record over which a change was written**: what is proposed takes the place of
what was there, and a field that is only on the side of what was found is removed. -/
def Contents.overwrite (contents : Contents kind) (change : Change kind) : Contents kind :=
  { contents with
    scalar := fun field => (change.new.scalar field).or
      (if (change.old.scalar field).isSome then none else contents.scalar field) }

/-- What becomes of a record, or of a blank one, over which its difference from an input is
written. -/
def Input.written (input : Input kind) (current : Option (Contents kind)) : Contents kind :=
  (current.getD (.blank kind)).overwrite (input.diff current)

theorem Field.found_admitted {current : Option (Contents kind)}
    (admitted : ∀ contents ∈ current, contents.IsAdmitted) (field : Field kind) :
    (field.found current).all field.admits = true := by
  cases current with
  | none => rfl
  | some contents => exact admitted contents rfl field

/-- Where a side has no scalar in any field it lists none. -/
theorem Side.scalars_eq_nil {side : Side kind} (blank : ∀ field, side.scalar field = none) :
    side.scalars = [] := by
  refine List.eq_nil_iff_forall_not_mem.mpr fun entry listed => ?_
  obtain ⟨field, valued, -⟩ := Side.mem_scalars.mp listed
  rw [Side.value?, blank field] at valued
  cases valued

namespace Input

variable {input : Input kind} {current : Option (Contents kind)}

/-- The difference shows what is asked, by the comparison of each field. -/
theorem diff_shows (admitted : ∀ contents ∈ current, contents.IsAdmitted) :
    (input.diff current).Shows input current where
  scalars field := (input.scalar field).compare_exact (Field.found_admitted admitted field)
  members _ := ⟨rfl, rfl⟩
  links _ := ⟨rfl, rfl⟩

/-- Writing the difference brings about what is wanted. -/
theorem written_scalar (admitted : ∀ contents ∈ current, contents.IsAdmitted) (field : Field kind) :
    (input.written current).scalar field = input.wanted current field := by
  have blank : (current.getD (.blank kind)).scalar field = field.found current := by
    cases current <;> rfl
  have known := Request.filter_admitted (Field.found_admitted admitted field)
  show (input.compare current field).2.or (if (input.compare current field).1.isSome then none
    else (current.getD (.blank kind)).scalar field) = _
  rw [blank]
  exact (input.scalar field).outcome_compare known

/-- A record that holds what is wanted differs from the input in no field. -/
theorem diff_settled (admitted : ∀ contents ∈ current, contents.IsAdmitted) {after : Contents kind}
    (settled : ∀ field, after.scalar field = input.wanted current field) :
    (input.diff (some after)).old.scalars = [] ∧ (input.diff (some after)).new.scalars = [] := by
  have unchanged : ∀ field, input.compare (some after) field = (none, none) := by
    intro field
    unfold compare
    rw [Option.bind_some, settled field]
    exact (input.scalar field).compare_outcome (Field.found_admitted admitted field)
  exact ⟨Side.scalars_eq_nil fun field => congrArg Prod.fst (unchanged field),
    Side.scalars_eq_nil fun field => congrArg Prod.snd (unchanged field)⟩

/-- **The difference is exact, and to ask for the same again changes nothing**, for any kind of record,
any input and any record, or none. -/
theorem diff_exact (input : Input kind) (current : Option (Contents kind))
    (admitted : ∀ contents ∈ current, contents.IsAdmitted) :
    (input.diff current).Shows input current ∧
      (∀ field, (input.written current).scalar field = input.wanted current field) ∧
      (input.diff (some (input.written current))).old.scalars = [] ∧
      (input.diff (some (input.written current))).new.scalars = [] :=
  ⟨diff_shows admitted, written_scalar admitted, diff_settled admitted (written_scalar admitted)⟩

end Input

/-- A performer with blue eyes. -/
def Contents.blueEyed : Contents .performer :=
  { Contents.blank .performer with
    scalar := fun field => match field with
      | .performerName => some "Ann"
      | .gender => some "female"
      | .eyeColor => some "blue"
      | _ => none }

/-- It is asked to take her name away, to change her gender, to leave her eyes as they are in a word
that is none of theirs, and to tell her height. -/
def Input.reconsidered : Input .performer :=
  { Input.empty .performer with
    scalar := fun field => match field with
      | .performerName => .cleared
      | .gender => .value "non_binary"
      | .eyeColor => .value "mauve"
      | .height => .value 170
      | _ => .untouched }

theorem Input.reconsidered_exact : Contents.blueEyed.IsAdmitted ∧
    (reconsidered.diff (some .blueEyed)).Shows reconsidered (some .blueEyed) ∧
    (reconsidered.diff (some .blueEyed)).old.scalars =
      [("gender", .text "female"), ("name", .text "Ann")] ∧
    (reconsidered.diff (some .blueEyed)).new.scalars =
      [("gender", .text "non_binary"), ("height", .integer 170)] ∧
    (reconsidered.diff (some (reconsidered.written (some .blueEyed)))).new.scalars = [] := by
  have admitted : Contents.blueEyed.IsAdmitted := by decide
  obtain ⟨shows, -, -, settled⟩ := reconsidered.diff_exact (some .blueEyed) fun contents found => by
    cases found
    exact admitted
  exact ⟨admitted, shows, by decide, by decide, settled⟩

/-! ### What is stored -/

namespace Store

variable {store filled after : Store} {id : EntityId} {now : Instant}

/-- A sound store holds only what fields admit, and so it may be compared with. -/
theorem Sound.isAdmitted (sound : store.Sound) : (store.contents kind id).IsAdmitted := by
  intro field
  rw [← sound.admitted field, Option.all_eq_true]
  exact fun held kept => (Option.filter_eq_some_iff.mp kept).2

/-- **The writes of an application are the overwriting**: first what is proposed is written, then what
is dropped is cleared. -/
theorem contents_overwritten {change : Change kind}
    (filling : store.writeScalars id change.new.scalars = .ok filled) :
    (filled.clearDropped id change).contents kind id =
      (store.contents kind id).overwrite change := by
  have cleared := clearDropped_frame filled id change
  have frame := writeScalars_frame filling
  refine Contents.ext ?_ ?_ ?_
  · funext field
    exact scalar_written filling field
  · funext collection
    rw [cleared, frame]
    rfl
  · funext link
    rw [cleared, frame]
    rfl

/-- Once a record has been modified as was asked, to ask for the same again finds no field to
change. -/
theorem modify_settled {input : Input kind} (sound : store.Sound) (tidy : store.Tidy)
    (done : store.modify id kind ⟨kind, input.diff (some (store.contents kind id))⟩ now =
      .ok after) :
    (input.diff (some (after.contents kind id))).old.scalars = [] ∧
      (input.diff (some (after.contents kind id))).new.scalars = [] := by
  have proper : (Details.mk kind (input.diff (some (store.contents kind id)))).kind = kind := rfl
  have proposes : (input.diff (some (store.contents kind id))).IsAdmitted :=
    Input.diff_isAdmitted _ _
  have live : after.IsLive id kind := (modify_sound sound proper proposes done).2
  obtain ⟨-, -, -, ⟨there, -⟩, -⟩ := modify_split done
  obtain ⟨read, reads, -, answers⟩ := (modify_readsBack sound tidy rfl done).answers
  obtain ⟨record, found, -, same⟩ := live.record?
  cases found.symm.trans reads
  rw [there.held, same] at answers
  have admitted : ∀ contents ∈ some (store.contents kind id), contents.IsAdmitted := by
    intro contents known
    cases known
    exact sound.isAdmitted
  exact Input.diff_settled admitted answers.scalars

end Store

end Differences

end Curation
