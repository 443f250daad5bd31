/-
**Walks along redirects.** The walk forward from a record ends at one that is not redirected, or
comes round to one that it has passed. The walk back from a record finds the others that lead to it,
each of them once. Both hold of every table of redirects, however it came about, also when redirects
lead round in a circle or a record is redirected to itself.

* `Store.Walk`, `Store.Search`: both walks, with nothing that limits their steps;
* `Store.follow_walk`, `Store.gather_search`: the steps that are counted off are enough for them;
* `Store.Walk.ends`, `Store.mergedInto_spec`: where the walk forward ends;
* `Store.Search.completes`, `Store.mergedIds_spec`: what the walk back finds;
* `Store.walks_exact`: that both walks end, and what each answer means.
-/

import Curation.Identity.Serial
import Curation.Proofs.Steps
import Curation.Review.Reading

namespace Curation.Store

open Relation (ReflTransGen TransGen)

/-- One record is redirected to another. -/
def Redirects (store : Store) (source target : EntityId) : Prop :=
  store.redirect? source = some target

/-- One record leads to another over any number of redirects. -/
abbrev LeadsTo (store : Store) : EntityId → EntityId → Prop := ReflTransGen store.Redirects

variable {store : Store} {id : EntityId}

theorem redirect?_isSome :
    (store.redirect? id).isSome = true ↔ id ∈ store.redirects.map Redirect.source := by
  unfold redirect?
  simp [List.find?_isSome]

/-! ### Forward -/

/-- The walk forward, for as long as it takes: it stops at a record that is not redirected, and
fails when it comes to one that it has passed. -/
inductive Walk (store : Store) : List EntityId → EntityId → Except ReviewError EntityId → Prop where
  | stop {seen : List EntityId} {current : EntityId} (final : store.redirect? current = none) :
      Walk store seen current (.ok current)
  | circle {seen : List EntityId} {current next : EntityId} (step : store.Redirects current next)
      (known : next ∈ seen) : Walk store seen current (.error (.conflict (.redirectCycle next)))
  | move {seen : List EntityId} {current next : EntityId} {outcome : Except ReviewError EntityId}
      (step : store.Redirects current next) (unknown : next ∉ seen)
      (rest : Walk store (next :: seen) next outcome) : Walk store seen current outcome

theorem Redirects.unique {source first second : EntityId} (one : store.Redirects source first)
    (other : store.Redirects source second) : first = second :=
  Option.some.inj (one.symm.trans other)

theorem Redirects.not_final {source target : EntityId} (step : store.Redirects source target) :
    store.redirect? source ≠ none := by
  rw [step]
  exact Option.some_ne_none target

/-- A walk stops in one way only. -/
theorem Walk.unique {seen : List EntityId} {current : EntityId}
    {outcome other : Except ReviewError EntityId} (walk : store.Walk seen current outcome)
    (also : store.Walk seen current other) : other = outcome := by
  induction walk with
  | stop final =>
    cases also with
    | stop => rfl
    | circle step => exact absurd final step.not_final
    | move step => exact absurd final step.not_final
  | circle step known =>
    cases also with
    | stop final => exact absurd final step.not_final
    | circle again => rw [step.unique again]
    | move again unknown => exact absurd (step.unique again ▸ known) unknown
  | move step unknown _ hypothesis =>
    cases also with
    | stop final => exact absurd final step.not_final
    | circle again known => exact absurd (step.unique again ▸ known) unknown
    | move again _ rest =>
      obtain rfl := step.unique again
      exact hypothesis rest

/-- No more records are passed than are redirected. -/
theorem length_passed_le {seen : List EntityId} {current : EntityId} (here : current ∈ seen)
    (distinct : seen.Nodup)
    (passed : ∀ id ∈ seen, id ≠ current → (store.redirect? id).isSome = true) :
    seen.length ≤ store.redirects.length + 1 := by
  have others : seen.erase current ⊆ store.redirects.map Redirect.source := by
    intro id member
    obtain ⟨other, listed⟩ := (distinct.mem_erase_iff).mp member
    exact redirect?_isSome.mp (passed id listed other)
  have few := ((distinct.erase current).subperm others).length_le
  rw [List.length_erase_of_mem here, List.length_map] at few
  omega

/-- **The walk forward ends within its steps.** Of the records passed so far all but the current one
are redirected, so that the steps that are left are more than the records that can still be passed. -/
theorem follow_walk {steps : Nat} {seen : List EntityId} {current : EntityId}
    (enough : store.redirects.length + 1 < seen.length + steps) (here : current ∈ seen)
    (distinct : seen.Nodup)
    (passed : ∀ id ∈ seen, id ≠ current → (store.redirect? id).isSome = true) :
    store.Walk seen current (store.follow steps seen current) := by
  induction steps generalizing seen current with
  | zero =>
    have few := length_passed_le here distinct passed
    omega
  | succ steps hypothesis =>
    unfold follow
    cases redirected : store.redirect? current with
    | none => exact .stop redirected
    | some next =>
      dsimp only
      by_cases known : next ∈ seen
      · rw [if_pos known]
        exact .circle redirected known
      · rw [if_neg known]
        refine .move redirected known (hypothesis (by rw [List.length_cons]; omega)
          List.mem_cons_self (List.nodup_cons.mpr ⟨known, distinct⟩) fun id listed other => ?_)
        have earlier := (List.mem_cons.mp listed).resolve_left other
        by_cases same : id = current
        · rw [same, redirected]
          rfl
        · exact passed id earlier same

/-- **Where the walk forward ends**: at a record that is not redirected, or on a circle, because the
records passed so far all lead to the current one. -/
theorem Walk.ends {seen : List EntityId} {current : EntityId}
    {outcome : Except ReviewError EntityId} (walk : store.Walk seen current outcome)
    (passed : ∀ id ∈ seen, id ≠ current → TransGen store.Redirects id current) :
    (∃ last, outcome = .ok last ∧ store.LeadsTo current last ∧ store.redirect? last = none) ∨
      ∃ again, outcome = .error (.conflict (.redirectCycle again)) ∧
        store.LeadsTo current again ∧ TransGen store.Redirects again again := by
  induction walk with
  | @stop seen current final => exact .inl ⟨current, rfl, .refl, final⟩
  | @circle seen current next step known =>
    refine .inr ⟨next, rfl, .single step, ?_⟩
    by_cases same : next = current
    · rw [same] at step ⊢
      exact .single step
    · exact (passed next known same).tail step
  | @move seen current next outcome step unknown rest hypothesis =>
    have onward := hypothesis fun id listed other => by
      have earlier := (List.mem_cons.mp listed).resolve_left other
      by_cases same : id = current
      · rw [same]
        exact .single step
      · exact (passed id earlier same).tail step
    rcases onward with ⟨last, ends, leads, final⟩ | ⟨again, fails, leads, circle⟩
    · exact .inl ⟨last, ends, leads.head step, final⟩
    · exact .inr ⟨again, fails, leads.head step, circle⟩

theorem follow_start (store : Store) (id : EntityId) :
    store.Walk [id] id (store.follow (store.redirects.length + 1) [id] id) :=
  follow_walk (by rw [List.length_singleton]; omega) List.mem_cons_self (List.nodup_singleton id)
    fun _ member apart => absurd (List.mem_singleton.mp member) apart

/-- A record that is not redirected leads to itself only. -/
theorem LeadsTo.eq_of_none {last : EntityId} (leads : store.LeadsTo id last)
    (none : store.redirect? id = none) : last = id := by
  rcases leads.cases_head with same | ⟨next, step, -⟩
  · exact same.symm
  · rw [Redirects, none] at step
    cases step

/-- **Where a record was merged into**: the end of its redirects, if it has any; a circle is an
error. -/
theorem mergedInto_spec (store : Store) (id : EntityId) :
    (∃ last, store.mergedInto id = .ok ((store.redirect? id).map fun _ => last) ∧
        store.LeadsTo id last ∧ store.redirect? last = none) ∨
      ∃ again, store.mergedInto id = .error (.conflict (.redirectCycle again)) ∧
        store.LeadsTo id again ∧ TransGen store.Redirects again again := by
  have start := (store.follow_start id).ends fun other member apart =>
    absurd (List.mem_singleton.mp member) apart
  unfold mergedInto
  rcases start with ⟨last, ends, leads, final⟩ | ⟨again, fails, leads, circle⟩
  · refine .inl ⟨last, ?_, leads, final⟩
    rw [ends]
    show Except.ok (if last = id then none else some last) = _
    by_cases same : last = id
    · rw [if_pos same, ← same, final]
      rfl
    · rw [if_neg same]
      cases redirected : store.redirect? id with
      | none => exact absurd (leads.eq_of_none redirected) same
      | some next => rfl
  · refine .inr ⟨again, ?_, leads, circle⟩
    rw [fails]
    rfl

/-- Of two records to which a record leads, one leads to the other. -/
theorem LeadsTo.total {first second : EntityId} (one : store.LeadsTo id first)
    (other : store.LeadsTo id second) : store.LeadsTo first second ∨ store.LeadsTo second first :=
  one.total_of_right_unique (fun _ _ _ step again => step.unique again) other

/-- Whatever a record on a circle leads to is on a circle. -/
theorem LeadsTo.circle {again last : EntityId} (leads : store.LeadsTo again last)
    (round : TransGen store.Redirects again again) : TransGen store.Redirects last last := by
  induction leads with
  | refl => exact round
  | tail _ step hypothesis =>
    obtain ⟨next, other, back⟩ := TransGen.head'_iff.mp hypothesis
    obtain rfl := step.unique other
    exact .tail' back step

/-- Redirects that come to an end do not come to a circle. -/
theorem LeadsTo.not_circle {last again : EntityId} (leads : store.LeadsTo id last)
    (final : store.redirect? last = none) (also : store.LeadsTo id again) :
    ¬ TransGen store.Redirects again again := by
  intro round
  rcases leads.total also with onward | back
  · obtain rfl := onward.eq_of_none final
    obtain ⟨next, step, -⟩ := TransGen.head'_iff.mp round
    exact step.not_final final
  · obtain ⟨next, step, -⟩ := TransGen.head'_iff.mp (back.circle round)
    exact step.not_final final

/-- Redirects come to one end at most. -/
theorem LeadsTo.final_unique {last other : EntityId} (leads : store.LeadsTo id last)
    (final : store.redirect? last = none) (also : store.LeadsTo id other)
    (ends : store.redirect? other = none) : other = last := by
  rcases leads.total also with onward | back
  · exact onward.eq_of_none final
  · exact (back.eq_of_none ends).symm

theorem mergedInto_eq_none : store.mergedInto id = .ok none ↔ store.redirect? id = none := by
  rcases store.mergedInto_spec id with ⟨last, found, -, -⟩ | ⟨again, fails, leads, round⟩
  · rw [found, Except.ok.injEq, Option.map_eq_none_iff]
  · rw [fails]
    refine ⟨fun same => (nomatch same), fun none => ?_⟩
    exact absurd round (LeadsTo.not_circle .refl none leads)

theorem mergedInto_eq_some {last : EntityId} : store.mergedInto id = .ok (some last) ↔
    TransGen store.Redirects id last ∧ store.redirect? last = none := by
  rcases store.mergedInto_spec id with ⟨first, found, leads, final⟩ | ⟨again, fails, leads, round⟩
  · rw [found, Except.ok.injEq, Option.map_eq_some_iff]
    constructor
    · rintro ⟨next, redirected, rfl⟩
      refine ⟨?_, final⟩
      rcases Relation.reflTransGen_iff_eq_or_transGen.mp leads with rfl | several
      · exact absurd final (Redirects.not_final redirected)
      · exact several
    · rintro ⟨several, ends⟩
      obtain ⟨next, step, -⟩ := TransGen.head'_iff.mp several
      exact ⟨next, step, (leads.final_unique final several.to_reflTransGen ends).symm⟩
  · rw [fails]
    refine ⟨fun same => (nomatch same), fun ⟨several, ends⟩ => ?_⟩
    exact absurd round (LeadsTo.not_circle several.to_reflTransGen ends leads)

theorem mergedInto_eq_error : (∃ error, store.mergedInto id = .error error) ↔
    ∃ again, store.LeadsTo id again ∧ TransGen store.Redirects again again := by
  rcases store.mergedInto_spec id with ⟨last, found, leads, final⟩ | ⟨again, fails, leads, round⟩
  · rw [found]
    refine ⟨fun ⟨_, same⟩ => (nomatch same), fun ⟨again, also, round⟩ => ?_⟩
    exact absurd round (leads.not_circle final also)
  · exact ⟨fun _ => ⟨again, leads, round⟩, fun _ => ⟨_, fails⟩⟩

/-! ### Back -/

section Back

variable (distinct : (store.redirects.map Redirect.source).Nodup)

include distinct in
/-- The records redirected to one are those whose redirect leads there. -/
theorem mem_redirectsTo {source target : EntityId} :
    source ∈ store.redirectsTo target ↔ store.Redirects source target := by
  unfold redirectsTo Redirects redirect?
  rw [List.mem_map]
  constructor
  · rintro ⟨row, sorted, rfl⟩
    obtain ⟨stored, leads⟩ := List.mem_filter.mp (mem_sortBy.mp sorted)
    have known : (store.redirects.find? fun other => other.source = row.source).isSome := by
      rw [List.find?_isSome]
      exact ⟨row, stored, decide_eq_true rfl⟩
    obtain ⟨found, looked⟩ := Option.isSome_iff_exists.mp known
    have sameSource := List.find?_some looked
    have same : found = row := List.inj_on_of_nodup_map distinct
      (List.mem_of_find?_eq_some looked) stored (of_decide_eq_true sameSource)
    rw [looked, same, Option.map_some, of_decide_eq_true leads]
  · intro redirected
    obtain ⟨row, looked, rfl⟩ := Option.map_eq_some_iff.mp redirected
    have sameSource := List.find?_some looked
    refine ⟨row, mem_sortBy.mpr (List.mem_filter.mpr ?_), of_decide_eq_true sameSource⟩
    exact ⟨List.mem_of_find?_eq_some looked, decide_eq_true rfl⟩

include distinct in
theorem nodup_redirectsTo (target : EntityId) : (store.redirectsTo target).Nodup := by
  have rows := (perm_sortBy (fun first second => noLater first.created second.created)
    (store.redirects.filter fun row => row.target = target)).map Redirect.source
  exact rows.nodup_iff.mpr (distinct.sublist (List.filter_sublist.map Redirect.source))

/-- What is found in one step back was not seen before, so that fewer redirects are left. -/
theorem length_found_le (seen : List EntityId) (current : EntityId) :
    let found := (store.redirectsTo current).filter fun source => source ∉ seen
    found.length + store.redirects.countP (fun row => row.source ∉ found ++ seen) ≤
      store.redirects.countP fun row => row.source ∉ seen := by
  intro found
  have counted : found.length =
      (store.redirects.filter fun row => row.target = current).countP fun row =>
        row.source ∉ seen := by
    show ((store.redirectsTo current).filter _).length = _
    rw [← List.countP_eq_length_filter, redirectsTo, List.countP_map, (perm_sortBy _ _).countP_eq]
    rfl
  have left : store.redirects.countP (fun row => row.source ∉ found ++ seen) ≤
      (store.redirects.filter fun row => !decide (row.target = current)).countP fun row =>
        row.source ∉ seen := by
    rw [List.countP_filter]
    refine List.countP_mono_left fun row stored unseen => ?_
    obtain ⟨notFound, notSeen⟩ := not_or.mp (List.mem_append.not.mp (of_decide_eq_true unseen))
    have elsewhere : row.target ≠ current := by
      intro leads
      refine notFound (List.mem_filter.mpr ⟨List.mem_map_of_mem ?_, decide_eq_true notSeen⟩)
      exact mem_sortBy.mpr (List.mem_filter.mpr ⟨stored, decide_eq_true leads⟩)
    simp [notSeen, elsewhere]
  have parts := List.countP_eq_countP_filter_add store.redirects (fun row => row.source ∉ seen)
    fun row => decide (row.target = current)
  omega

/-- Some records are those, each of them once, that lead to records seen and are not seen yet. -/
structure Completes (store : Store) (seen found : List EntityId) : Prop where
  once : found.Nodup
  member : ∀ id, id ∈ found ↔ id ∉ seen ∧ ∃ target ∈ seen, store.LeadsTo id target

/-- When every redirect to a record seen comes from one, nothing is left to be found. -/
theorem Completes.nil {seen : List EntityId}
    (closed : ∀ target ∈ seen, ∀ source, store.Redirects source target → source ∈ seen) :
    store.Completes seen [] where
  once := List.nodup_nil
  member id := by
    refine iff_of_false List.not_mem_nil ?_
    rintro ⟨unseen, target, listed, leads⟩
    exact unseen (leads.head_induction_on listed fun step _ known => closed _ known _ step)

/-- What is one step away from a record seen, and then the rest. -/
theorem Completes.append {seen found later : List EntityId} {current : EntityId}
    (known : current ∈ seen) (once : found.Nodup)
    (oneStep : ∀ source, source ∈ found ↔ store.Redirects source current ∧ source ∉ seen)
    (rest : store.Completes (found ++ seen) later) : store.Completes seen (found ++ later) where
  once := List.nodup_append'.mpr ⟨once, rest.once, fun id new old =>
    ((rest.member id).mp old).1 (List.mem_append_left _ new)⟩
  member id := by
    rw [List.mem_append, rest.member, oneStep]
    constructor
    · rintro (⟨step, unseen⟩ | ⟨unseen, target, listed, leads⟩)
      · exact ⟨unseen, current, known, .single step⟩
      · refine ⟨fun earlier => unseen (List.mem_append_right _ earlier), ?_⟩
        rcases List.mem_append.mp listed with new | earlier
        · exact ⟨current, known, leads.tail ((oneStep target).mp new).1⟩
        · exact ⟨target, earlier, leads⟩
    · rintro ⟨unseen, target, listed, leads⟩
      by_cases step : store.Redirects id current
      · exact .inl ⟨step, unseen⟩
      · refine .inr ⟨fun seenNow => ?_, target, List.mem_append_right _ listed, leads⟩
        rcases List.mem_append.mp seenNow with new | earlier
        · exact step ((oneStep id).mp new).1
        · exact unseen earlier

/-- The walk back, for as long as it takes: it stops when no record is left in the queue. -/
inductive Search (store : Store) : List EntityId → List EntityId → List EntityId → Prop where
  | stop {seen : List EntityId} : Search store seen [] []
  | visit {seen queue later : List EntityId} {current : EntityId}
      (rest : Search store ((store.redirectsTo current).filter (fun source => source ∉ seen) ++ seen)
        (queue ++ (store.redirectsTo current).filter fun source => source ∉ seen) later) :
      Search store seen (current :: queue)
        ((store.redirectsTo current).filter (fun source => source ∉ seen) ++ later)

/-- A search stops in one way only. -/
theorem Search.unique {seen queue found other : List EntityId}
    (search : store.Search seen queue found) (also : store.Search seen queue other) :
    other = found := by
  induction search generalizing other with
  | stop =>
    cases also
    rfl
  | visit _ hypothesis =>
    cases also with
    | visit rest => rw [hypothesis rest]

/-- **The walk back ends within its steps**: each takes one record from the queue, and none enters it
twice. -/
theorem gather_search {steps : Nat} {seen queue : List EntityId}
    (enough : queue.length + store.redirects.countP (fun row => row.source ∉ seen) ≤ steps) :
    store.Search seen queue (store.gather steps seen queue) := by
  induction steps generalizing seen queue with
  | zero =>
    obtain rfl : queue = [] := List.length_eq_zero_iff.mp (by omega)
    exact .stop
  | succ steps hypothesis =>
    cases queue with
    | nil => exact .stop
    | cons current queue =>
      have fewer := @length_found_le store seen current
      refine .visit (hypothesis ?_)
      rw [List.length_cons] at enough
      rw [List.length_append]
      omega

include distinct in
/-- **The walk back finds every record that leads to one of those seen.** Each redirect to a record
seen has been followed back, unless that record is still in the queue. -/
theorem Search.completes {seen queue found : List EntityId}
    (search : store.Search seen queue found) (queued : queue ⊆ seen)
    (closed : ∀ target ∈ seen, target ∉ queue → ∀ source, store.Redirects source target →
      source ∈ seen) : store.Completes seen found := by
  induction search with
  | stop => exact .nil fun target listed => closed target listed List.not_mem_nil
  | @visit seen queue later current rest hypothesis =>
    have oneStep (source : EntityId) :
        source ∈ (store.redirectsTo current).filter (fun source => source ∉ seen) ↔
          store.Redirects source current ∧ source ∉ seen := by
      rw [List.mem_filter, mem_redirectsTo distinct, decide_eq_true_eq]
    have once := (nodup_redirectsTo distinct current).filter fun source => source ∉ seen
    -- From here on it only matters what was found, not how.
    generalize (store.redirectsTo current).filter (fun source => source ∉ seen) = found
      at oneStep once hypothesis ⊢
    refine .append (queued List.mem_cons_self) once oneStep (hypothesis ?_ ?_)
    · intro id listed
      rcases List.mem_append.mp listed with earlier | new
      · exact List.mem_append_right _ (queued (List.mem_cons_of_mem _ earlier))
      · exact List.mem_append_left _ new
    · intro target listed left source step
      obtain ⟨notQueued, notFound⟩ := not_or.mp (List.mem_append.not.mp left)
      have targetSeen := (List.mem_append.mp listed).resolve_left notFound
      by_cases sourceSeen : source ∈ seen
      · exact List.mem_append_right _ sourceSeen
      · by_cases here : target = current
        · exact List.mem_append_left _ ((oneStep source).mpr ⟨here ▸ step, sourceSeen⟩)
        · refine absurd (closed target targetSeen ?_ source step) sourceSeen
          simp [here, notQueued]

theorem gather_start (store : Store) (target : EntityId) :
    store.Search [target] [target] (store.mergedIds target) := by
  have unseen := store.redirects.countP_le_length (p := fun row => row.source ∉ [target])
  refine gather_search ?_
  rw [List.length_singleton]
  omega

include distinct in
/-- **The records merged into one** are the others that lead to it, each of them once. -/
theorem mergedIds_spec (target : EntityId) :
    (store.mergedIds target).Nodup ∧
      ∀ id, id ∈ store.mergedIds target ↔ id ≠ target ∧ store.LeadsTo id target := by
  obtain ⟨once, member⟩ := (store.gather_start target).completes distinct
    (fun _ listed => listed) fun _ listed left => absurd listed left
  refine ⟨once, fun id => (member id).trans ?_⟩
  simp

include distinct in
/-- A record is redirected as its row in the table says. -/
theorem redirects_iff {source target : EntityId} : store.Redirects source target ↔
    ∃ row ∈ store.redirects, row.source = source ∧ row.target = target := by
  rw [← mem_redirectsTo distinct, redirectsTo, List.mem_map]
  constructor
  · rintro ⟨row, sorted, starts⟩
    obtain ⟨stored, leads⟩ := List.mem_filter.mp (mem_sortBy.mp sorted)
    exact ⟨row, stored, starts, of_decide_eq_true leads⟩
  · rintro ⟨row, stored, starts, leads⟩
    exact ⟨row, mem_sortBy.mpr (List.mem_filter.mpr ⟨stored, decide_eq_true leads⟩), starts⟩

include distinct in
/-- **Both walks end on every table of redirects, and their answers mean what they say**, if no record
is redirected twice, and whether or not redirects lead round in a circle. Neither walk goes on for
ever, and what it comes to when nothing limits its steps is what is answered. A record was merged into
none if it is not redirected; into another if its redirects, one at least, end there; and there is an
error if they come to a circle. The records merged into one are the others from which one redirect or
more lead to it, each of them once. -/
theorem walks_exact :
    (∀ source target, store.Redirects source target ↔
      ∃ row ∈ store.redirects, row.source = source ∧ row.target = target) ∧
    ∀ id,
      (∃ outcome, (∀ other, store.Walk [id] id other ↔ other = outcome) ∧
        store.mergedInto id = outcome.map fun last => if last = id then none else some last) ∧
      (∀ found, store.Search [id] [id] found ↔ found = store.mergedIds id) ∧
      (store.mergedInto id = .ok none ↔ ∀ target, ¬ store.Redirects id target) ∧
      (∀ last, store.mergedInto id = .ok (some last) ↔
        TransGen store.Redirects id last ∧ ∀ target, ¬ store.Redirects last target) ∧
      ((∃ error, store.mergedInto id = .error error) ↔
        ∃ again, store.LeadsTo id again ∧ TransGen store.Redirects again again) ∧
      (store.mergedIds id).Nodup ∧
      ∀ other, other ∈ store.mergedIds id ↔ other ≠ id ∧ TransGen store.Redirects other id := by
  have unredirected (id : EntityId) :
      store.redirect? id = none ↔ ∀ target, ¬ store.Redirects id target :=
    Option.eq_none_iff_forall_ne_some
  refine ⟨fun _ _ => redirects_iff distinct, fun id => ?_⟩
  have walk := store.follow_start id
  have search := store.gather_start id
  obtain ⟨once, member⟩ := mergedIds_spec distinct id
  refine ⟨⟨_, fun other => ⟨walk.unique, fun same => same ▸ walk⟩, ?_⟩,
    fun found => ⟨search.unique, fun same => same ▸ search⟩,
    mergedInto_eq_none.trans (unredirected id), fun last => ?_, mergedInto_eq_error, once,
    fun other => (member other).trans ?_⟩
  · unfold mergedInto
    cases store.follow (store.redirects.length + 1) [id] id <;> rfl
  · rw [mergedInto_eq_some, unredirected]
  · refine and_congr_right fun apart => ?_
    exact Relation.reflTransGen_iff_eq_or_transGen.trans (or_iff_right apart.symm)

end Back

/-- The records of the table below, by number. -/
def tangle (number : Nat) : EntityId := ⟨Uuid.serial number⟩

/-- Redirects to an end, round in a circle, into that circle, and of a record to itself. -/
def tangled : Store :=
  { empty with
    redirects := [⟨tangle 1, tangle 2, .epoch⟩, ⟨tangle 2, tangle 3, .epoch⟩,
      ⟨tangle 4, tangle 5, .epoch⟩, ⟨tangle 5, tangle 4, .epoch⟩, ⟨tangle 6, tangle 5, .epoch⟩,
      ⟨tangle 7, tangle 7, .epoch⟩] }

theorem tangled_exact : (tangled.redirects.map Redirect.source).Nodup ∧
    tangled.mergedInto (tangle 1) = .ok (some (tangle 3)) ∧
    TransGen tangled.Redirects (tangle 1) (tangle 3) ∧
    tangled.mergedInto (tangle 6) = .error (.conflict (.redirectCycle (tangle 5))) ∧
    (∃ again, tangled.LeadsTo (tangle 6) again ∧ TransGen tangled.Redirects again again) ∧
    tangled.mergedIds (tangle 5) = [tangle 4, tangle 6] ∧
    tangled.Search [tangle 5] [tangle 5] [tangle 4, tangle 6] ∧
    TransGen tangled.Redirects (tangle 6) (tangle 5) ∧
    tangled.mergedIds (tangle 7) = [] := by
  have distinct : (tangled.redirects.map Redirect.source).Nodup := by decide
  obtain ⟨-, walks⟩ := walks_exact distinct
  have ended : tangled.mergedInto (tangle 1) = .ok (some (tangle 3)) := by decide
  have circled : tangled.mergedInto (tangle 6) =
      .error (.conflict (.redirectCycle (tangle 5))) := by decide
  have found : tangled.mergedIds (tangle 5) = [tangle 4, tangle 6] := by decide
  obtain ⟨-, -, -, into, -, -, -⟩ := walks (tangle 1)
  obtain ⟨-, -, -, -, fails, -, -⟩ := walks (tangle 6)
  obtain ⟨-, search, -, -, -, -, members⟩ := walks (tangle 5)
  refine ⟨distinct, ended, ((into _).mp ended).1, circled, fails.mp ⟨_, circled⟩, found,
    (search _).mpr found.symm, ((members (tangle 6)).mp ?_).2, by decide⟩
  rw [found]
  exact List.mem_cons_of_mem _ List.mem_cons_self

end Curation.Store
