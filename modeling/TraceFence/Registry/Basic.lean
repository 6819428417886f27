import TraceFence.Lib.Forest
import TraceFence.Db.Models

/-!
# The registry of runs, nodes and scopes

What is registered never changes, so everything that depends on ancestry alone is proved of an
abstract registry: three partial functions that say which nodes, runs and scopes exist and what
was fixed when they were created. A registry only grows, by a run with its root or by a child of a
registered node.

## Main definitions

* `Registry` — the immutable facts
* `Registry.WellFormed` — the lineage invariant
* `Registry.Grows` — the two ways a registry grows

## Main results

* `Registry.WellFormed.grows` — growth preserves the invariant
* `Registry.WellFormed.pathLabelled` — snapshots are the labelled paths of a forest
-/

namespace TraceFence

/-- What is fixed about a run when it is created. -/
structure RunFacts where
  rootNodeId : Id
  runScopeId : Id

/-- What is fixed about a scope when it is created. -/
structure ScopeFacts where
  runId : Id
  ownerNodeId : Option Id

/-- The immutable part of a database. -/
structure Registry where
  node : Id → Option Registration
  run : Id → Option RunFacts
  scope : Id → Option ScopeFacts

namespace Registry

/-! ### The invariant -/

/-- **The lineage invariant.** -/
structure WellFormed (R : Registry) : Prop where
  key : ∀ id r, R.node id = some r → r.id = id
  /-- Every run has its root, which has no parent, and an unowned scope. -/
  root : ∀ runId f, R.run runId = some f →
    ∃ r, R.node f.rootNodeId = some r ∧ r.runId = runId ∧ r.parentId = none
  runScope : ∀ runId f, R.run runId = some f → R.scope f.runScopeId = some ⟨runId, none⟩
  /-- Every node owns its own scope. -/
  ownScope : ∀ id r, R.node id = some r → R.scope r.ownScopeId = some ⟨r.runId, some id⟩
  /-- A node without a parent is the root of its run. -/
  orphan : ∀ id r, R.node id = some r → r.parentId = none →
    ∃ f, R.run r.runId = some f ∧ f.rootNodeId = id ∧ r.generation = 0 ∧
      r.causedByCommandId = none ∧ r.scopeSnapshot = [⟨f.runScopeId, 1⟩, ⟨r.ownScopeId, 1⟩]
  /-- A child extends its parent. -/
  child : ∀ id r p, R.node id = some r → r.parentId = some p →
    ∃ q, R.node p = some q ∧ q.runId = r.runId ∧ r.generation = q.generation + 1 ∧
      r.scopeSnapshot = q.scopeSnapshot ++ [⟨r.ownScopeId, 1⟩]

/-! ### Growth -/

/-- Everything registered stays registered. -/
structure Le (R R' : Registry) : Prop where
  node : ∀ id r, R.node id = some r → R'.node id = some r
  run : ∀ id f, R.run id = some f → R'.run id = some f
  scope : ∀ id f, R.scope id = some f → R'.scope id = some f

theorem Le.refl (R : Registry) : R.Le R := ⟨fun _ _ h => h, fun _ _ h => h, fun _ _ h => h⟩

theorem Le.trans {R R' R'' : Registry} (h : R.Le R') (h' : R'.Le R'') : R.Le R'' :=
  ⟨fun _ _ hr => h'.node _ _ (h.node _ _ hr), fun _ _ hf => h'.run _ _ (h.run _ _ hf),
    fun _ _ hf => h'.scope _ _ (h.scope _ _ hf)⟩

/-- The registry with a new run, its scope, its root and the root's scope. -/
def addRun (R : Registry) (root : Registration) (runScopeId : Id) : Registry where
  node := Function.update R.node root.id (some root)
  run := Function.update R.run root.runId (some ⟨root.id, runScopeId⟩)
  scope := Function.update (Function.update R.scope runScopeId (some ⟨root.runId, none⟩))
    root.ownScopeId (some ⟨root.runId, some root.id⟩)

/-- The registry with a new node and its scope. -/
def addNode (R : Registry) (child : Registration) : Registry where
  node := Function.update R.node child.id (some child)
  run := R.run
  scope := Function.update R.scope child.ownScopeId (some ⟨child.runId, some child.id⟩)

/-- One registration. -/
inductive Grows (R : Registry) : Registry → Prop
  | run {root : Registration} {runScopeId : Id} (nodeFresh : R.node root.id = none)
      (runFresh : R.run root.runId = none) (runScopeFresh : R.scope runScopeId = none)
      (scopeFresh : R.scope root.ownScopeId = none) (distinct : root.ownScopeId ≠ runScopeId)
      (parent : root.parentId = none) (generation : root.generation = 0)
      (cause : root.causedByCommandId = none)
      (snapshot : root.scopeSnapshot = [⟨runScopeId, 1⟩, ⟨root.ownScopeId, 1⟩]) :
      Grows R (R.addRun root runScopeId)
  | node {child parent : Registration} (nodeFresh : R.node child.id = none)
      (scopeFresh : R.scope child.ownScopeId = none) (found : R.node parent.id = some parent)
      (link : child.parentId = some parent.id) (run : child.runId = parent.runId)
      (generation : child.generation = parent.generation + 1)
      (snapshot : child.scopeSnapshot = parent.scopeSnapshot ++ [⟨child.ownScopeId, 1⟩]) :
      Grows R (R.addNode child)

section Update

variable {α : Type} {f : Id → Option α} {k x : Id} {v w : α}

theorem update_of_some (hk : f k = none) (h : f x = some v) :
    Function.update f k (some w) x = some v := by
  rw [Function.update_of_ne, h]
  rintro rfl
  rw [hk] at h
  cases h

theorem update_eq_some (h : Function.update f k (some w) x = some v) :
    (x = k ∧ v = w) ∨ (x ≠ k ∧ f x = some v) := by
  rw [Function.update_apply] at h
  split at h
  · next hx => exact Or.inl ⟨hx, (Option.some.inj h).symm⟩
  · next hx => exact Or.inr ⟨hx, h⟩

end Update

variable {R R' : Registry}

theorem Grows.le (h : R.Grows R') : R.Le R' := by
  cases h with
  | run nodeFresh runFresh runScopeFresh scopeFresh distinct =>
    refine ⟨fun _ _ hr => update_of_some nodeFresh hr, fun _ _ hf => update_of_some runFresh hf,
      fun _ _ hf => update_of_some ?_ (update_of_some runScopeFresh hf)⟩
    rw [Function.update_of_ne distinct, scopeFresh]
  | node nodeFresh scopeFresh =>
    exact ⟨fun _ _ hr => update_of_some nodeFresh hr, fun _ _ hf => hf,
      fun _ _ hf => update_of_some scopeFresh hf⟩

/-- **Growth preserves the invariant.** -/
theorem WellFormed.grows (h : R.WellFormed) (hg : R.Grows R') : R'.WellFormed := by
  have hle := hg.le
  cases hg with
  | @run root runScopeId nodeFresh runFresh runScopeFresh scopeFresh distinct parent generation cause
      snapshot =>
    have hnode : (R.addRun root runScopeId).node root.id = some root := Function.update_self ..
    have hrun : (R.addRun root runScopeId).run root.runId = some ⟨root.id, runScopeId⟩ :=
      Function.update_self ..
    refine ⟨fun id r hr => ?_, fun runId f hf => ?_, fun runId f hf => ?_, fun id r hr => ?_,
      fun id r hr hp => ?_, fun id r p hr hp => ?_⟩
    · rcases update_eq_some hr with ⟨rfl, rfl⟩ | ⟨_, hr⟩
      · rfl
      · exact h.key id r hr
    · rcases update_eq_some hf with ⟨rfl, rfl⟩ | ⟨_, hf⟩
      · exact ⟨root, hnode, rfl, parent⟩
      · obtain ⟨r, hr, hrest⟩ := h.root runId f hf
        exact ⟨r, hle.node _ _ hr, hrest⟩
    · rcases update_eq_some hf with ⟨rfl, rfl⟩ | ⟨_, hf⟩
      · change Function.update _ root.ownScopeId _ runScopeId = _
        rw [Function.update_of_ne distinct.symm, Function.update_self]
      · exact hle.scope _ _ (h.runScope runId f hf)
    · rcases update_eq_some hr with ⟨rfl, rfl⟩ | ⟨_, hr⟩
      · exact Function.update_self ..
      · exact hle.scope _ _ (h.ownScope id r hr)
    · rcases update_eq_some hr with ⟨rfl, rfl⟩ | ⟨_, hr⟩
      · exact ⟨_, hrun, rfl, generation, cause, snapshot⟩
      · obtain ⟨f, hf, hrest⟩ := h.orphan id r hr hp
        exact ⟨f, hle.run _ _ hf, hrest⟩
    · rcases update_eq_some hr with ⟨rfl, rfl⟩ | ⟨_, hr⟩
      · rw [parent] at hp
        cases hp
      · obtain ⟨q, hq, hrest⟩ := h.child id r p hr hp
        exact ⟨q, hle.node _ _ hq, hrest⟩
  | @node child parent nodeFresh scopeFresh found link run generation snapshot =>
    refine ⟨fun id r hr => ?_, fun runId f hf => ?_, fun runId f hf => ?_, fun id r hr => ?_,
      fun id r hr hp => ?_, fun id r p hr hp => ?_⟩
    · rcases update_eq_some hr with ⟨rfl, rfl⟩ | ⟨_, hr⟩
      · rfl
      · exact h.key id r hr
    · obtain ⟨r, hr, hrest⟩ := h.root runId f hf
      exact ⟨r, hle.node _ _ hr, hrest⟩
    · exact hle.scope _ _ (h.runScope runId f hf)
    · rcases update_eq_some hr with ⟨rfl, rfl⟩ | ⟨_, hr⟩
      · exact Function.update_self ..
      · exact hle.scope _ _ (h.ownScope id r hr)
    · rcases update_eq_some hr with ⟨rfl, rfl⟩ | ⟨_, hr⟩
      · rw [link] at hp
        cases hp
      · exact h.orphan id r hr hp
    · rcases update_eq_some hr with ⟨rfl, rfl⟩ | ⟨_, hr⟩
      · obtain rfl := Option.some.inj (link.symm.trans hp)
        exact ⟨parent, hle.node _ _ found, run.symm, generation, snapshot⟩
      · obtain ⟨q, hq, hrest⟩ := h.child id r p hr hp
        exact ⟨q, hle.node _ _ hq, hrest⟩

/-! ### Ancestry -/

/-- The parent pointer. -/
def parent (R : Registry) (id : Id) : Option Id := (R.node id).bind (·.parentId)

/-- The scope a node owns. -/
def own (R : Registry) (id : Id) : Id := ((R.node id).map (·.ownScopeId)).getD 0

/-- The scopes of a node's snapshot. -/
def path (R : Registry) (id : Id) : List Id :=
  ((R.node id).map fun r => r.scopeSnapshot.map (·.scopeId)).getD []

/-- How far a node is from its root. -/
def depth (R : Registry) (id : Id) : ℕ := ((R.node id).map (·.generation)).getD 0

/-- The nodes of a run. -/
def InRun (R : Registry) (runId id : Id) : Prop := ∃ r, R.node id = some r ∧ r.runId = runId

/-- **Snapshots are the labelled paths of a forest**: within a run the own scopes are the labels,
and the run scope is the prefix. -/
theorem WellFormed.pathLabelled (h : R.WellFormed) {runId : Id} {f : RunFacts}
    (hf : R.run runId = some f) :
    Forest.PathLabelled (R.InRun runId) R.parent R.own R.path [f.runScopeId] R.depth := by
  refine ⟨?_, ?_, ?_, ?_, ?_⟩
  · rintro id ⟨r, hr, rfl⟩ hp
    simp only [parent, hr, Option.bind_some] at hp
    obtain ⟨f', hf', _, _, _, hs⟩ := h.orphan id r hr hp
    obtain rfl := Option.some.inj (hf.symm.trans hf')
    simp [path, own, hr, hs]
  · rintro id p ⟨r, hr, rfl⟩ hp
    simp only [parent, hr, Option.bind_some] at hp
    obtain ⟨q, hq, hrun, _, hs⟩ := h.child id r p hr hp
    exact ⟨⟨q, hq, hrun⟩, by simp [path, own, hr, hq, hs]⟩
  · rintro id p ⟨r, hr, rfl⟩ hp
    simp only [parent, hr, Option.bind_some] at hp
    obtain ⟨q, hq, _, hg, _⟩ := h.child id r p hr hp
    simp [depth, hr, hq, hg]
  · rintro id id' ⟨r, hr, rfl⟩ ⟨r', hr', _⟩ ho
    simp only [own, hr, hr', Option.map_some, Option.getD_some] at ho
    have hs := h.ownScope id r hr
    rw [ho, h.ownScope id' r' hr'] at hs
    simp only [Option.some.injEq, ScopeFacts.mk.injEq] at hs
    exact hs.2.symm
  · rintro id ⟨r, hr, rfl⟩ ho
    simp only [own, hr, Option.map_some, Option.getD_some, List.mem_singleton] at ho
    have hs := h.ownScope id r hr
    rw [ho, h.runScope _ f hf] at hs
    simp at hs

/-- What holds of a root and passes from parent to child holds of every registered node. -/
theorem WellFormed.induction (h : R.WellFormed) {motive : Registration → Prop}
    (root : ∀ id r f, R.node id = some r → R.run r.runId = some f → r.generation = 0 →
      r.scopeSnapshot = [⟨f.runScopeId, 1⟩, ⟨r.ownScopeId, 1⟩] → motive r)
    (child : ∀ id r q, R.node id = some r → q.runId = r.runId → r.generation = q.generation + 1 →
      r.scopeSnapshot = q.scopeSnapshot ++ [⟨r.ownScopeId, 1⟩] → motive q → motive r)
    {id : Id} {r : Registration} (hr : R.node id = some r) : motive r := by
  induction hg : r.generation generalizing id r with
  | zero =>
    cases hp : r.parentId with
    | none =>
      obtain ⟨f, hf, _, hgen, _, hs⟩ := h.orphan id r hr hp
      exact root id r f hr hf hgen hs
    | some p =>
      obtain ⟨q, _, _, hgen, _⟩ := h.child id r p hr hp
      omega
  | succ n ih =>
    cases hp : r.parentId with
    | none =>
      obtain ⟨f, _, _, hgen, _⟩ := h.orphan id r hr hp
      omega
    | some p =>
      obtain ⟨q, hq, hrun, hgen, hs⟩ := h.child id r p hr hp
      exact child id r q hr hrun hgen hs (ih hq (by omega))

theorem WellFormed.exists_run (h : R.WellFormed) {id : Id} {r : Registration}
    (hr : R.node id = some r) : ∃ f, R.run r.runId = some f :=
  h.induction (motive := fun r => ∃ f, R.run r.runId = some f)
    (fun _ _ f _ hf _ _ => ⟨f, hf⟩) (fun _ _ _ _ hrun _ _ hq => hrun ▸ hq) hr

theorem WellFormed.version_one (h : R.WellFormed) {id : Id} {r : Registration}
    (hr : R.node id = some r) : ∀ item ∈ r.scopeSnapshot, item.version = 1 := by
  refine h.induction (motive := fun r => ∀ item ∈ r.scopeSnapshot, item.version = 1) ?_ ?_ hr
  · intro _ r f _ _ _ hs
    simp [hs]
  · intro _ r q _ _ _ hs hq item hitem
    rw [hs, List.mem_append, List.mem_singleton] at hitem
    rcases hitem with hitem | rfl
    · exact hq item hitem
    · rfl

theorem WellFormed.length_snapshot (h : R.WellFormed) {id : Id} {r : Registration}
    (hr : R.node id = some r) : r.scopeSnapshot.length = r.generation + 2 := by
  refine h.induction (motive := fun r => r.scopeSnapshot.length = r.generation + 2) ?_ ?_ hr
  · intro _ r f _ _ hg hs
    simp [hs, hg]
  · intro _ r q _ _ hg hs hq
    simp [hs, hg, hq]

/-- Every scope of a snapshot exists in the node's run. -/
theorem WellFormed.scope_of_snapshot (h : R.WellFormed) {id : Id} {r : Registration}
    (hr : R.node id = some r) :
    ∀ item ∈ r.scopeSnapshot, ∃ f, R.scope item.scopeId = some f ∧ f.runId = r.runId := by
  refine h.induction (motive := fun r => ∀ item ∈ r.scopeSnapshot,
    ∃ f, R.scope item.scopeId = some f ∧ f.runId = r.runId) ?_ ?_ hr
  · intro id r f hr hf _ hs item hitem
    rw [hs, List.mem_pair] at hitem
    rcases hitem with rfl | rfl
    · exact ⟨_, h.runScope _ f hf, rfl⟩
    · exact ⟨_, h.ownScope id r hr, rfl⟩
  · intro id r q hr hrun _ hs hq item hitem
    rw [hs, List.mem_append, List.mem_singleton] at hitem
    rcases hitem with hitem | rfl
    · exact hrun ▸ hq item hitem
    · exact ⟨_, h.ownScope id r hr, rfl⟩

/-- The run scope is in every snapshot. -/
theorem WellFormed.runScope_mem (h : R.WellFormed) {id : Id} {r : Registration} {f : RunFacts}
    (hr : R.node id = some r) (hf : R.run r.runId = some f) :
    f.runScopeId ∈ r.scopeSnapshot.map (·.scopeId) := by
  have := (h.pathLabelled hf).pre_subset_path ⟨r, hr, rfl⟩ (List.mem_singleton_self _)
  simpa [path, hr] using this

theorem WellFormed.nodup_snapshot (h : R.WellFormed) {id : Id} {r : Registration}
    (hr : R.node id = some r) : (r.scopeSnapshot.map (·.scopeId)).Nodup := by
  obtain ⟨f, hf⟩ := h.exists_run hr
  simpa [path, hr] using (h.pathLabelled hf).nodup_path (List.nodup_singleton _) ⟨r, hr, rfl⟩

/-- **Own scopes in snapshots are ancestry.** -/
theorem WellFormed.own_mem_iff (h : R.WellFormed) {a x : Id} {ra rx : Registration}
    (ha : R.node a = some ra) (hx : R.node x = some rx) (hrun : ra.runId = rx.runId) :
    ra.ownScopeId ∈ rx.scopeSnapshot.map (·.scopeId) ↔ x = a ∨ Forest.Ancestor R.parent a x := by
  obtain ⟨f, hf⟩ := h.exists_run hx
  simpa [path, own, ha, hx] using
    (h.pathLabelled hf).mem_path_iff ⟨ra, ha, hrun⟩ ⟨rx, hx, rfl⟩

/-- A node further up does not carry the scope of one further down. -/
theorem WellFormed.own_not_mem (h : R.WellFormed) {a x : Id} {ra rx : Registration}
    (ha : R.node a = some ra) (hx : R.node x = some rx) (hrun : ra.runId = rx.runId)
    (hgeneration : rx.generation ≤ ra.generation) (hne : x ≠ a) :
    ra.ownScopeId ∉ rx.scopeSnapshot.map (·.scopeId) := by
  rw [h.own_mem_iff ha hx hrun]
  rintro (he | hancestor)
  · exact hne he
  · obtain ⟨f, hf⟩ := h.exists_run hx
    have hlt := (h.pathLabelled hf).rank_lt_of_ancestor ⟨rx, hx, rfl⟩ hancestor
    simp only [depth, ha, hx, Option.map_some, Option.getD_some] at hlt
    omega

/-- Every node of a run is its root or below it. -/
theorem WellFormed.root_or_ancestor (h : R.WellFormed) {id : Id} {r : Registration} {f : RunFacts}
    (hr : R.node id = some r) (hf : R.run r.runId = some f) :
    id = f.rootNodeId ∨ Forest.Ancestor R.parent f.rootNodeId id := by
  refine (h.pathLabelled hf).induction
    (motive := fun x => x = f.rootNodeId ∨ Forest.Ancestor R.parent f.rootNodeId x) ?_ ?_ id
    ⟨r, hr, rfl⟩
  · rintro x ⟨q, hq, hrun⟩ hp
    simp only [parent, hq, Option.bind_some] at hp
    obtain ⟨f', hf', hroot, _⟩ := h.orphan x q hq hp
    rw [hrun, hf] at hf'
    cases hf'
    exact Or.inl hroot.symm
  · intro x p _ hp ih
    exact Or.inr (Forest.ancestor_iff.mpr ⟨p, hp, ih⟩)

end Registry

end TraceFence
