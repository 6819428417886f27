import TraceFence.Registry.Refinement

/-!
# The walks over parent pointers

`is_descendant` climbs and `descendants_including_self` descends. Both are instances of the walks
of the forest library, so both decide ancestry in the registry, and so does membership of an own
scope in a snapshot.

## Main definitions

* `runParent` — the parent pointer as `is_descendant` reads it

## Main results

* `isDescendant_iff`, `mem_descendantsIncludingSelf_iff` — what the walks decide
* `own_mem_snapshot_iff` — what a snapshot decides
-/

namespace TraceFence

open Forest

variable {db : Database} {runId a x : Id}

/-! ### Registered parents -/

theorem exists_node_of_registry {r : Registration} (h : db.registry.node x = some r) :
    ∃ n, db.nodes.get? x = some n ∧ n.registration = r :=
  Option.map_eq_some_iff.mp h

/-- The parent of a registered node is registered, in the same run. -/
theorem exists_parent (hW : db.registry.WellFormed) {n : Node} {p : Id}
    (hn : db.nodes.get? n.id = some n) (hp : n.parentId = some p) :
    ∃ q, db.nodes.get? p = some q ∧ q.runId = n.runId := by
  obtain ⟨q, hq, hrun, _⟩ := hW.child n.id n.registration p (registry_node_of_get? hn) hp
  obtain ⟨q', hq', rfl⟩ := exists_node_of_registry hq
  exact ⟨q', hq', hrun⟩

theorem registry_parent_of_get? {n : Node} (h : db.nodes.get? x = some n) :
    db.registry.parent x = n.parentId := by
  simp [Registry.parent, registry_node_of_get? h, Node.registration]

/-! ### Climbing -/

/-- The parent pointer as `is_descendant` reads it: that of a node of the run. -/
def runParent (db : Database) (runId : Id) (id : Id) : Option Id :=
  (db.nodes.get? id).bind fun n => if n.runId = runId then n.parentId else none

/-- The loop is the upward walk. -/
theorem isDescendantLoop_eq (fuel : ℕ) (visited : List Id) (x : Id) :
    isDescendantLoop db runId a fuel visited (some x) =
      ascend (runParent db runId) a fuel visited x := by
  induction fuel generalizing visited x with
  | zero => simp [isDescendantLoop, ascend]
  | succ fuel ih =>
    rw [isDescendantLoop, ascend]
    by_cases hv : x ∈ visited
    · rw [if_pos hv, if_pos hv]
    rw [if_neg hv, if_neg hv, runParent]
    cases hx : db.nodes.get? x with
    | none => rfl
    | some n =>
      by_cases hr : n.runId = runId
      · cases hp : n.parentId with
        | none => simp [hr, hp, isDescendantLoop]
        | some p =>
          by_cases hpa : p = a
          · simp [hr, hp, hpa]
          · simp [hr, hp, hpa, ih]
      · simp [hr]

/-- Within a run the restricted pointer has the same ancestries. -/
theorem ancestor_runParent_iff (hW : db.registry.WellFormed) {n : Node}
    (hn : db.nodes.get? x = some n) :
    Ancestor (runParent db n.runId) a x ↔ Ancestor db.registry.parent a x := by
  constructor
  · intro h
    refine Relation.TransGen.mono (fun y p hp => ?_) _ _ h
    obtain ⟨m, hm, hp⟩ := Option.bind_eq_some_iff.mp hp
    rw [registry_parent_of_get? hm]
    split at hp
    · exact hp
    · cases hp
  · intro h
    have hlink {y p : Id} {m : Node} (hm : db.nodes.get? y = some m) (hrun : m.runId = n.runId)
        (hp : db.registry.parent y = some p) : runParent db n.runId y = some p := by
      rw [registry_parent_of_get? hm] at hp
      simp [runParent, hm, hrun, hp]
    -- The climb stays in the run, so every link of it is one of the restricted pointer.
    suffices hclimb : ∀ y, Ancestor db.registry.parent a y → ∀ m, db.nodes.get? y = some m →
        m.runId = n.runId → Ancestor (runParent db n.runId) a y from hclimb x h n hn rfl
    intro y hy
    induction hy using Relation.TransGen.head_induction_on with
    | single hp =>
      intro m hm hrun
      exact Ancestor.of_parent (hlink hm hrun hp)
    | head hp _ ih =>
      intro m hm hrun
      have hmp := registry_parent_of_get? hm
      rw [hp] at hmp
      obtain ⟨q, hq, hqrun⟩ := exists_parent hW (found_of_get? hm) hmp.symm
      exact Relation.TransGen.head (hlink hm hrun hp) (ih q hq (hqrun.trans hrun))

/-- No node is its own ancestor. -/
theorem not_ancestor_self (hW : db.registry.WellFormed) {n : Node} (hn : db.nodes.get? x = some n) :
    ¬ Ancestor db.registry.parent x x := by
  intro h
  have hr := registry_node_of_get? hn
  obtain ⟨f, hf⟩ := hW.exists_run hr
  exact lt_irrefl _ ((hW.pathLabelled hf).rank_lt_of_ancestor ⟨_, hr, rfl⟩ h)

/-- **`is_descendant` decides ancestry by the pointers of the run**, whatever they are. -/
theorem isDescendant_iff_climbs :
    isDescendant db runId a x = true ↔ x ≠ a ∧ Ancestor (runParent db runId) a x := by
  have hdom : ∀ y p, runParent db runId y = some p → y ∈ db.nodes.rows.map (·.id) := by
    intro y p hp
    obtain ⟨m, hm, _⟩ := Option.bind_eq_some_iff.mp hp
    exact List.mem_map.mpr ⟨m, Table.mem_of_get? hm, Table.key_of_get? hm⟩
  rw [isDescendant]
  split_ifs with he
  · simp [he]
  · rw [isDescendantLoop_eq, ascend_eq_true_iff hdom (by simp)]
    exact ⟨fun h => ⟨Ne.symm he, h⟩, fun h => h.2⟩

/-- **`is_descendant` decides ancestry.** -/
theorem isDescendant_iff (hW : db.registry.WellFormed) {n : Node} (hn : db.nodes.get? x = some n) :
    isDescendant db n.runId a x = true ↔ Ancestor db.registry.parent a x := by
  rw [isDescendant_iff_climbs, ancestor_runParent_iff hW hn]
  refine ⟨fun h => h.2, fun h => ⟨?_, h⟩⟩
  rintro rfl
  exact not_ancestor_self hW hn h

/-! ### Descending -/

theorem descendantsLoop_eq (nodes : List Node) (fuel : ℕ) (stack : List Node) (visited : List Id) :
    descendantsLoop nodes fuel stack visited =
      descend Node.id (fun v => nodes.filter fun child => child.parentId = some v) fuel stack
        visited := by
  induction fuel generalizing stack visited with
  | zero => rfl
  | succ fuel ih =>
    cases stack with
    | nil => rfl
    | cons node stack =>
      rw [descendantsLoop, descend]
      split
      · exact ih ..
      · exact congrArg _ (ih ..)

theorem mem_registeredNodes {before : Option Time} {n : Node} :
    n ∈ registeredNodes db runId before ↔
      db.nodes.get? n.id = some n ∧ n.runId = runId ∧ ∀ t ∈ before, n.registeredAt ≤ t := by
  rw [registeredNodes, List.mem_filter, decide_eq_true_eq]
  exact and_congr_left fun _ => ⟨fun h => Table.get?_of_mem h, Table.mem_of_get?⟩

/-- The children the descent pushes for a node. -/
def childrenIn (nodes : List Node) (v : Id) : List Node :=
  nodes.filter fun child => child.parentId = some v

theorem mem_childrenIn {nodes : List Node} {v : Id} {n : Node} :
    n ∈ childrenIn nodes v ↔ n ∈ nodes ∧ n.parentId = some v := by
  rw [childrenIn, List.mem_filter, decide_eq_true_eq]

theorem eq_of_id_eq {before : Option Time} {m n : Node} (hm : m ∈ registeredNodes db runId before)
    (hn : n ∈ registeredNodes db runId before) (h : m.id = n.id) : m = n :=
  Table.eq_of_key_eq (t := db.nodes) (List.mem_of_mem_filter hm) (List.mem_of_mem_filter hn) h

/-- The walk has enough fuel, also for one node more. -/
theorem fuelled_registeredNodes {before : Option Time} (r : Node) :
    Fuelled (childrenIn (registeredNodes db runId before))
      ((registeredNodes db runId before).map Node.id).toFinset
      ((registeredNodes db runId before).length + 1) [r] [] := by
  have hsum := sum_children_le Node.parentId ((registeredNodes db runId before).map
    Node.id).toFinset (registeredNodes db runId before)
  simp only [Fuelled, List.length_singleton, List.toFinset_nil, Finset.sdiff_empty]
  change 1 + ∑ v ∈ _, ((registeredNodes db runId before).filter
    fun y => y.parentId = some v).length ≤ _
  omega

/-- **`descendants_including_self` lists what is below its root**, whatever the pointers. -/
theorem mem_descendants_iff_below {before : Option Time} {n : Node} :
    n ∈ descendantsIncludingSelf db runId a before ↔
      ∃ r ∈ registeredNodes db runId before, r.id = a ∧
        Below Node.id (childrenIn (registeredNodes db runId before)) r n := by
  have hwalk {r : Node} (hr : r ∈ registeredNodes db runId before) :
      n ∈ descendantsLoop (registeredNodes db runId before)
          ((registeredNodes db runId before).length + 1) [r] [] ↔
        Below Node.id (childrenIn (registeredNodes db runId before)) r n := by
    rw [descendantsLoop_eq]
    exact mem_descend_iff (fun y hy z hz => eq_of_id_eq hy hz)
      (fun v y hy => List.mem_of_mem_filter hy) hr (fuelled_registeredNodes r)
  rw [descendantsIncludingSelf]
  constructor
  · intro h
    split at h
    · cases h
    next r hr =>
    have hmem := List.mem_of_find?_eq_some hr
    exact ⟨r, hmem, by simpa using List.find?_some hr, (hwalk hmem).mp h⟩
  · rintro ⟨r, hr, rfl, hbelow⟩
    obtain ⟨r', hfind⟩ := Option.isSome_iff_exists.mp (List.find?_isSome (p := fun m : Node =>
      decide (m.id = r.id)) |>.mpr ⟨r, hr, by simp⟩)
    obtain rfl : r' = r := eq_of_id_eq (List.mem_of_find?_eq_some hfind) hr
      (by simpa using List.find?_some hfind)
    simp only [hfind]
    exact (hwalk hr).mpr hbelow

/-- **`descendants_including_self` lists the subtree**, when the nodes it selects include the
parents of the nodes they include. -/
theorem mem_descendantsIncludingSelf_iff {before : Option Time}
    (closed : ∀ n ∈ registeredNodes db runId before, ∀ p, n.parentId = some p →
      ∃ q ∈ registeredNodes db runId before, q.id = p) {n : Node} :
    n ∈ descendantsIncludingSelf db runId a before ↔
      n ∈ registeredNodes db runId before ∧ (n.id = a ∨ Ancestor db.registry.parent a n.id) := by
  have hget {m : Node} (hm : m ∈ registeredNodes db runId before) : db.nodes.get? m.id = some m :=
    (mem_registeredNodes.mp hm).1
  rw [mem_descendants_iff_below]
  constructor
  · rintro ⟨r, hr, hid, hbelow⟩
    induction hbelow with
    | refl => exact ⟨hr, Or.inl hid⟩
    | tail _ hl ih =>
      obtain ⟨hmem, hparent⟩ := mem_childrenIn.mp hl
      refine ⟨hmem, Or.inr (ancestor_iff.mpr ⟨_, ?_, ih.2⟩)⟩
      rw [registry_parent_of_get? (hget hmem), hparent]
  · rintro ⟨hn, rfl | h⟩
    · exact ⟨n, hn, rfl, Relation.ReflTransGen.refl⟩
    suffices hclimb : ∀ y, Ancestor db.registry.parent a y →
        ∀ m ∈ registeredNodes db runId before, m.id = y →
          ∃ r ∈ registeredNodes db runId before, r.id = a ∧
            Below Node.id (childrenIn (registeredNodes db runId before)) r m from
      hclimb n.id h n hn rfl
    intro y hy
    induction hy using Relation.TransGen.head_induction_on with
    | single hp =>
      rintro m hm rfl
      rw [registry_parent_of_get? (hget hm)] at hp
      obtain ⟨q, hq, rfl⟩ := closed m hm _ hp
      exact ⟨q, hq, rfl, Relation.ReflTransGen.single (mem_childrenIn.mpr ⟨hm, hp⟩)⟩
    | head hp _ ih =>
      rintro m hm rfl
      rw [registry_parent_of_get? (hget hm)] at hp
      obtain ⟨q, hq, rfl⟩ := closed m hm _ hp
      obtain ⟨r, hr, hra, hbelow⟩ := ih q hq rfl
      exact ⟨r, hr, hra, hbelow.tail (mem_childrenIn.mpr ⟨hm, hp⟩)⟩

/-- The parents of the nodes of a run are nodes of the run. -/
theorem registeredNodes_closed (hW : db.registry.WellFormed) :
    ∀ n ∈ registeredNodes db runId none, ∀ p, n.parentId = some p →
      ∃ q ∈ registeredNodes db runId none, q.id = p := by
  intro n hn p hp
  obtain ⟨hget, rfl, _⟩ := mem_registeredNodes.mp hn
  obtain ⟨q, hq, hrun⟩ := exists_parent hW hget hp
  exact ⟨q, mem_registeredNodes.mpr ⟨found_of_get? hq, hrun, by simp⟩, Table.key_of_get? hq⟩

/-! ### Snapshots -/

/-- **A snapshot decides ancestry.** -/
theorem own_mem_snapshot_iff (hW : db.registry.WellFormed) {m n : Node}
    (hm : db.nodes.get? a = some m) (hn : db.nodes.get? x = some n) (hrun : m.runId = n.runId) :
    m.ownScopeId ∈ n.scopeSnapshot.map (·.scopeId) ↔
      x = a ∨ Ancestor db.registry.parent a x :=
  hW.own_mem_iff (registry_node_of_get? hm) (registry_node_of_get? hn) hrun

end TraceFence
