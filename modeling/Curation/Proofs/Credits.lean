/-
**Rewriting credits.** When a performer is renamed or merged into another, the credits of its links
are rewritten one after the other. Since a scene is linked to a performer at most once, that comes to
rewriting them all at once.

* `Store.foldl_recredit`: one after the other is all at once;
* `Store.keepCredits_eq`, `Store.creditSourceName_eq`: what a renaming and a merge do to credits.
-/

import Curation.Proofs.Tidiness

namespace Curation.Store

variable {store after : Store} {record : EntityId}

/-- The same link with its credit rewritten if it leads to a given performer. -/
def recredit (record : EntityId) (image : Option String → Option String) (edge : Edge) : Edge :=
  if edge.association = .scenePerformer ∧ edge.target = record
  then { edge with credit := image edge.credit } else edge

@[simp] theorem ends_recredit (record : EntityId) (image : Option String → Option String)
    (edge : Edge) : (recredit record image edge).ends = edge.ends := by
  unfold recredit
  split <;> rfl

/-- Two links of a tidy list with the same ends are one. -/
theorem eq_of_ends {edges : List Edge} (unique : (edges.map Edge.ends).Nodup) {first second : Edge}
    (firstStored : first ∈ edges) (secondStored : second ∈ edges)
    (same : first.ends = second.ends) : first = second :=
  List.inj_on_of_nodup_map unique firstStored secondStored same

/-- A write rewrites the credit of one link to a performer. -/
def Recredits (write : Store → Edge → Store) (record : EntityId)
    (image : Option String → Option String) : Prop :=
  ∀ store edge, write store edge =
      store.setCredit .scenePerformer edge.source record (image edge.credit) ∨
    (write store edge = store ∧ image edge.credit = edge.credit)

/-- Rewriting the credit of one link of a tidy store. -/
theorem Recredits.single {write : Store → Edge → Store} {image : Option String → Option String}
    (recredits : Recredits write record image) (unique : (store.edges.map Edge.ends).Nodup)
    {edge : Edge} (stored : edge ∈ store.edges) (association : edge.association = .scenePerformer)
    (target : edge.target = record) :
    write store edge = { store with
      edges := store.edges.map fun other =>
        if other.ends = edge.ends then recredit record image other else other } := by
  have rewritten : ∀ other ∈ store.edges, other.ends = edge.ends →
      recredit record image other = { other with credit := image edge.credit } := by
    intro other member same
    rw [eq_of_ends unique member stored same, recredit, if_pos ⟨association, target⟩]
  rcases recredits store edge with set | ⟨kept, fixed⟩
  · rw [set]
    unfold setCredit
    congr 1
    refine List.map_congr_left fun other member => ?_
    have joined : joins .scenePerformer edge.source record other = true ↔ other.ends = edge.ends := by
      rw [joins_iff, Edge.ends.eq_1 edge, association, target]
    by_cases same : other.ends = edge.ends
    · rw [if_pos (joined.mpr same), if_pos same, rewritten other member same]
    · rw [if_neg fun joins => same (joined.mp joins), if_neg same]
  · rw [kept]
    have unchanged : (store.edges.map fun other =>
        if other.ends = edge.ends then recredit record image other else other) = store.edges := by
      refine (List.map_congr_left fun other member => ?_).trans (List.map_id _)
      split
      next same =>
        rw [rewritten other member same, fixed, eq_of_ends unique member stored same]
        rfl
      · rfl
    rw [unchanged]

/-- **Rewriting credits one after the other is rewriting them all at once.** -/
theorem Recredits.foldl {write : Store → Edge → Store} {image : Option String → Option String}
    (recredits : Recredits write record image) (unique : (store.edges.map Edge.ends).Nodup) :
    (store.edgesTo record .scenePerformer).foldl write store =
      { store with edges := store.edges.map (recredit record image) } := by
  -- the links that are still to be rewritten have kept their credits
  have every : ∀ (links : List Edge) (state : Store), (state.edges.map Edge.ends).Nodup →
      (links.map Edge.ends).Nodup → (∀ edge ∈ links, edge ∈ state.edges ∧
        edge.association = .scenePerformer ∧ edge.target = record) →
      links.foldl write state = { state with
        edges := state.edges.map fun other =>
          if other.ends ∈ links.map Edge.ends then recredit record image other else other } := by
    intro links
    induction links with
    | nil =>
      intro state _ _ _
      have unchanged : (state.edges.map fun other =>
          if other.ends ∈ List.map Edge.ends [] then recredit record image other else other) =
          state.edges :=
        (List.map_congr_left fun other _ => if_neg List.not_mem_nil).trans (List.map_id _)
      rw [unchanged]
      rfl
    | cons head rest hypothesis =>
      intro state unique distinct given
      obtain ⟨apart, restDistinct⟩ := List.nodup_cons.mp (List.map_cons ▸ distinct)
      obtain ⟨stored, association, target⟩ := given head List.mem_cons_self
      rw [List.foldl_cons, recredits.single unique stored association target]
      have keeps : ∀ other : Edge, (if other.ends = head.ends then recredit record image other
          else other).ends = other.ends := by
        intro other
        split
        · exact ends_recredit record image other
        · rfl
      rw [hypothesis _ (nodup_ends_map keeps unique) restDistinct]
      · dsimp only
        congr 1
        rw [List.map_map]
        refine List.map_congr_left fun other _ => ?_
        rw [Function.comp_apply, keeps]
        by_cases same : other.ends = head.ends
        · rw [if_pos same, if_neg (same ▸ apart), if_pos (by rw [same]; exact List.mem_cons_self)]
        · rw [if_neg same]
          have listed : other.ends ∈ (head :: rest).map Edge.ends ↔
              other.ends ∈ rest.map Edge.ends := by
            rw [List.map_cons, List.mem_cons]
            exact or_iff_right same
          simp only [listed]
      · intro edge member
        obtain ⟨edgeStored, edgeGiven⟩ := given edge (List.mem_cons_of_mem _ member)
        refine ⟨List.mem_map.mpr ⟨edge, edgeStored, if_neg fun same => apart ?_⟩, edgeGiven⟩
        rw [← same]
        exact List.mem_map_of_mem member
  have listed : ∀ edge, edge ∈ store.edgesTo record .scenePerformer ↔
      edge ∈ store.edges ∧ edge.association = .scenePerformer ∧ edge.target = record := by
    intro edge
    unfold edgesTo
    rw [List.mem_filter, decide_eq_true_iff, and_comm (a := edge.target = record)]
  rw [every (store.edgesTo record .scenePerformer) store unique (nodup_ends_filter _ unique)
    fun edge member => (listed edge).mp member]
  congr 1
  refine List.map_congr_left fun other stored => ?_
  split
  · rfl
  next unlisted =>
    refine (if_neg fun leads => unlisted ?_).symm
    exact List.mem_map_of_mem ((listed other).mpr ⟨stored, leads⟩)

/-! ### Renaming and merging -/

theorem recredit_id (record : EntityId) (edges : List Edge) :
    edges.map (recredit record id) = edges := by
  refine (List.map_congr_left fun edge _ => ?_).trans (List.map_id _)
  unfold recredit
  split <;> rfl

/-- The credit of a link after its performer was renamed: the old name where none was given, and none
where that is the new name. -/
def renamedCredit (oldName newName credit : Option String) : Option String :=
  if oldName = none ∨ newName = none ∨ oldName = newName then credit
  else match credit with
    | none => oldName
    | some credit => if some credit = newName then none else some credit

theorem renamedCredit_trivial {oldName newName : Option String}
    (trivial : oldName = none ∨ newName = none ∨ oldName = newName) :
    renamedCredit oldName newName = id := by
  funext credit
  exact if_pos trivial

theorem creditOldNameOn_recredits (performer : EntityId) {oldName newName : String}
    (other : oldName ≠ newName) :
    Recredits (creditOldNameOn performer oldName newName) performer
      (renamedCredit oldName newName) := by
  intro store edge
  have renames : ¬ (some oldName = none ∨ some newName = none ∨ some oldName = some newName) := by
    simp [other]
  unfold creditOldNameOn renamedCredit
  rw [if_neg renames]
  cases edge.credit with
  | none => exact .inl rfl
  | some credit =>
    by_cases same : credit = newName
    · simp [same]
    · simp [same]

theorem creditOldName_eq (unique : (store.edges.map Edge.ends).Nodup) (performer : EntityId)
    (change : Change .performer) :
    store.creditOldName performer change = { store with
      edges := store.edges.map (recredit performer
        (renamedCredit (change.old.scalar .performerName) (change.new.scalar .performerName))) } := by
  unfold creditOldName
  cases old : (change.old.scalar .performerName : Option String) with
  | none =>
    rw [renamedCredit_trivial (.inl rfl), recredit_id]
  | some oldName =>
    cases new : (change.new.scalar .performerName : Option String) with
    | none =>
      rw [renamedCredit_trivial (.inr (.inl rfl)), recredit_id]
    | some newName =>
      dsimp only
      by_cases same : oldName = newName
      · rw [if_pos same, renamedCredit_trivial (.inr (.inr (congrArg some same))), recredit_id]
      · rw [if_neg same]
        exact (creditOldNameOn_recredits performer same).foldl unique

/-- What details make of the credits of their record's links. -/
def renamedBy : Details → Option String → Option String
  | ⟨.performer, change⟩ =>
    if change.modifyAliases
    then renamedCredit (change.old.scalar .performerName) (change.new.scalar .performerName) else id
  | _ => id

theorem keepCredits_eq (unique : (store.edges.map Edge.ends).Nodup) (id : EntityId)
    (details : Details) :
    store.keepCredits id details =
      { store with edges := store.edges.map (recredit id (renamedBy details)) } := by
  obtain ⟨kind, change⟩ := details
  cases kind with
  | performer =>
    unfold keepCredits renamedBy
    dsimp only
    by_cases keeps : change.modifyAliases = true
    · rw [if_pos keeps, if_pos keeps, creditOldName_eq unique]
    · rw [if_neg keeps, if_neg keeps, recredit_id]
  | tag => exact congrArg (fun edges => { store with edges }) (recredit_id id store.edges).symm
  | studio => exact congrArg (fun edges => { store with edges }) (recredit_id id store.edges).symm
  | scene => exact congrArg (fun edges => { store with edges }) (recredit_id id store.edges).symm

/-- The credit of a link that moves from one performer to another, if names are kept: the name of the
former where none was given, and none where that is the name of the latter. -/
def mergedCredit (sourceName targetName credit : Option String) : Option String :=
  (credit.or sourceName).filter fun name => some name ≠ targetName

theorem creditSourceNameOn_recredits (source : EntityId) (sourceName targetName : Option String) :
    Recredits (creditSourceNameOn source sourceName targetName) source
      (mergedCredit sourceName targetName) := by
  intro store edge
  unfold creditSourceNameOn mergedCredit
  cases edge.credit with
  | none => exact .inl rfl
  | some credit =>
    by_cases same : some credit = targetName
    · subst same
      simp [Option.filter]
    · simp [same]

theorem creditSourceName_eq (unique : (store.edges.map Edge.ends).Nodup)
    (source target : EntityId) :
    store.creditSourceName source target =
      { store with
        edges := store.edges.map (recredit source
          (mergedCredit (store.performerName? source) (store.performerName? target))) } :=
  (creditSourceNameOn_recredits source _ _).foldl unique

/-- Rewriting credits leaves the links to other records alone. -/
theorem filter_recredit {image : Option String → Option String} {edges : List Edge}
    {test : Edge → Bool} (others : ∀ edge, test edge = true → edge.target ≠ record) :
    (edges.map (recredit record image)).filter test = edges.filter test := by
  have stays : ∀ edge, test edge = true → recredit record image edge = edge :=
    fun edge passes => if_neg fun leads => others edge passes leads.2
  have sameTest : test ∘ recredit record image = test := by
    funext edge
    rw [Function.comp_apply, Bool.eq_iff_iff]
    constructor
    · intro passes
      unfold recredit at passes
      split at passes
      next leads =>
        have apart := others _ passes
        exact absurd leads.2 apart
      · exact passes
    · intro passes
      rwa [stays edge passes]
  rw [List.filter_map, sameTest]
  exact (List.map_congr_left fun edge member => stays edge (List.mem_filter.mp member).2).trans
    (List.map_id _)

end Curation.Store
