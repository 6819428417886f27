import TraceFence.Registry.Lineage
import TraceFence.Registry.Tally

/-!
# Capabilities are only ever narrowed

A child is registered with capabilities its parent has, on both paths on which a child can be
registered, and the capabilities of a node never change. So a capability that some node holds is
held by every node above it, and what an action was allowed for is held up to the root.

## Main definitions

* `Delegated` — every child has the capabilities of its parent, or fewer
* `Entitled` — an attempt was made with the capability of its tool

## Main results

* `capabilities_attenuated`
-/

namespace TraceFence

open System Checked

variable {cfg : Config} {w : Write} {a b db : Database} {s s' : Sys} {l : Label}

/-! ### From parent to child -/

/-- Every registered child has the capabilities of its parent, or fewer. -/
def Delegated (registrations : List Registration) : Prop :=
  ∀ r ∈ registrations, ∀ p, r.parentId = some p →
    ∃ q ∈ registrations, q.id = p ∧ r.capabilities ⊆ q.capabilities

/-- A registration on top keeps the delegation when it is that of an orphan or is delegated
itself. -/
theorem Delegated.concat {registrations : List Registration} {r : Registration}
    (h : Delegated registrations) (hr : ∀ p, r.parentId = some p →
      ∃ q ∈ registrations, q.id = p ∧ r.capabilities ⊆ q.capabilities) :
    Delegated (registrations ++ [r]) := by
  intro r' hr' p hp
  have hparent : ∃ q ∈ registrations, q.id = p ∧ r'.capabilities ⊆ q.capabilities := by
    rcases List.mem_append.mp hr' with hold | hnew
    · exact h r' hold p hp
    · rw [List.mem_singleton.mp hnew] at hp ⊢
      exact hr p hp
  obtain ⟨q, hq, hid, hsub⟩ := hparent
  exact ⟨q, List.mem_append_left _ hq, hid, hsub⟩

theorem mem_registrations {n : Node} (h : db.nodes.get? n.id = some n) :
    n.registration ∈ db.registrations :=
  List.mem_map_of_mem (Table.mem_of_get? h)

theorem Enrols.delegated {node : Node} (h : Enrols cfg a node) (ha : Delegated a.registrations) :
    Delegated (a.registrations ++ [node.registration]) := by
  refine ha.concat fun p hp => ?_
  cases h with
  | root orphan =>
    rw [show node.parentId = some p from hp] at orphan
    cases orphan
  | child parent found link _ _ _ delegated =>
    refine ⟨parent.registration, mem_registrations found, ?_, delegated⟩
    exact Option.some.inj (link.symm.trans hp)

/-- **Delegation holds in every reachable state.** -/
theorem delegated (h : (services cfg).Reachable s) : Delegated s.db.registrations := by
  refine h.invariant (I := fun s => Delegated s.db.tally.registrations)
    (fun _ hr => absurd hr List.not_mem_nil) fun s l s' _ hs hstep => ?_
  have hinserts := step_inserts hstep
  generalize s'.db.tally = t at hinserts ⊢
  cases hinserts with
  | nothing | command | attempt | proposal => exact hs
  | node node enrols => exact enrols.delegated hs

/-- The parent of a child has all its capabilities. -/
theorem Delegated.parent (h : Delegated db.registrations) {n : Node} {p : Id}
    (hn : db.nodes.get? n.id = some n) (hp : n.parentId = some p) :
    ∃ q, db.nodes.get? p = some q ∧ n.capabilities ⊆ q.capabilities := by
  obtain ⟨_, hmem, hid, hsub⟩ := h n.registration (mem_registrations hn) p hp
  obtain ⟨q, hq, rfl⟩ := List.mem_map.mp hmem
  exact ⟨q, hid ▸ Table.get?_of_mem hq, hsub⟩

/-! ### Up to the root -/

/-- The node with this id holds a capability. -/
def HeldBy (db : Database) (nodeId : Id) (capability : String) : Prop :=
  ∃ n, db.nodes.get? nodeId = some n ∧ capability ∈ n.capabilities

/-- What a node holds, its ancestors hold. The induction is on the links from the ancestor down. -/
theorem Delegated.ancestor (h : Delegated db.registrations) {x anc : Id} {capability : String}
    (hanc : Forest.Ancestor db.registry.parent anc x) (hx : HeldBy db x capability) :
    HeldBy db anc capability := by
  have hstep {x p : Id} (hp : db.registry.parent x = some p) (hx : HeldBy db x capability) :
      HeldBy db p capability := by
    obtain ⟨n, hn, hcapability⟩ := hx
    rw [registry_parent_of_get? hn] at hp
    obtain ⟨q, hq, hsub⟩ := h.parent (found_of_get? hn) hp
    exact ⟨q, hq, hsub hcapability⟩
  induction hanc with
  | single hp => exact hstep hp hx
  | tail _ hp ih => exact hstep hp ih

/-! ### Allowed attempts -/

/-- The node of an attempt is of its run and holds the capability of its tool. -/
def Entitled (db : Database) (x : ActionAttempt) : Prop :=
  ∃ r spec, db.registry.node x.nodeId = some r ∧ r.runId = x.runId ∧
    getToolSpec x.toolName = .ok spec ∧ spec.capability ∈ r.capabilities

theorem Entitled.mono {x : ActionAttempt} (h : Entitled a x) (hle : a.registry.Le b.registry) :
    Entitled b x := by
  obtain ⟨r, spec, hr, hrun, htool, hcapability⟩ := h
  exact ⟨r, spec, hle.node _ _ hr, hrun, htool, hcapability⟩

theorem Effect.entitled {at' : Standing} {now : Time} {x : ActionAttempt}
    (h : Effect cfg (.allow at' now x) a b) : Entitled a x := by
  cases h with
  | allow found _ tool _ capability _ row =>
    rw [row]
    exact ⟨_, _, registry_node_of_get? found, rfl, tool, capability⟩

/-- Every allowed attempt is entitled. -/
def AllEntitled (db : Database) : Prop :=
  ∀ x ∈ db.attempts, x.decision = .allow → Entitled db x

theorem Effect.allEntitled (h : Effect cfg w a b) (ha : AllEntitled a) : AllEntitled b := by
  intro x hx hallow
  rcases h.attempts_cases with heq | ⟨attempt, hinsert, hwrite⟩
  · rw [heq] at hx
    exact (ha x hx hallow).mono h.registry_le
  · have hrows : x ∈ b.attempts.rows := hx
    rw [(insertAttempt_eq_ok hinsert).1, List.mem_append, List.mem_singleton] at hrows
    rcases hrows with hold | rfl
    · exact (ha x hold hallow).mono h.registry_le
    · rcases hwrite with ⟨_, hdeny⟩ | ⟨at', now, rfl, _⟩
      · rw [hdeny] at hallow
        cases hallow
      · exact h.entitled.mono h.registry_le

theorem allEntitled (h : (services cfg).Reachable s) : AllEntitled s.db :=
  reachable_db h (fun _ hx => absurd hx Table.not_mem_empty) fun _ _ _ ha he => he.allEntitled ha

/-! ### The theorem -/

/-- **Capability attenuation.** In every reachable state every node is the root of its run or has a
registered parent with all its capabilities, however it was registered. An allowed attempt was made
by a node that holds the capability of the tool, and so do all ancestors of the node, among them
the root unless the node is the root itself. -/
theorem capabilities_attenuated (h : (services cfg).Reachable s) :
    (∀ n ∈ s.db.nodes, ∃ run, s.db.runs.get? n.runId = some run ∧ (n.id = run.rootNodeId ∨
      ∃ parent ∈ s.db.nodes, n.parentId = some parent.id ∧ n.capabilities ⊆ parent.capabilities)) ∧
    ∀ x ∈ s.db.attempts, x.decision = .allow → ∃ spec run, getToolSpec x.toolName = .ok spec ∧
      s.db.runs.get? x.runId = some run ∧ HeldBy s.db x.nodeId spec.capability ∧
      (∀ anc, Forest.Ancestor s.db.registry.parent anc x.nodeId → HeldBy s.db anc spec.capability) ∧
      (x.nodeId = run.rootNodeId ∨
        Forest.Ancestor s.db.registry.parent run.rootNodeId x.nodeId) := by
  have hW := registry_wellFormed h
  have hD := delegated h
  have hrun {id : Id} {r : Registration} (hr : s.db.registry.node id = some r) :
      ∃ run, s.db.runs.get? r.runId = some run ∧
        (id = run.rootNodeId ∨ Forest.Ancestor s.db.registry.parent run.rootNodeId id) := by
    obtain ⟨f, hf⟩ := hW.exists_run hr
    obtain ⟨run, hrun, rfl⟩ := Option.map_eq_some_iff.mp hf
    exact ⟨run, hrun, hW.root_or_ancestor hr hf⟩
  constructor
  · intro n hn
    have hget : s.db.nodes.get? n.id = some n := Table.get?_of_mem hn
    obtain ⟨run, hfound, hroot | hbelow⟩ := hrun (registry_node_of_get? hget)
    · exact ⟨run, hfound, Or.inl hroot⟩
    · obtain ⟨p, hp, _⟩ := Forest.ancestor_iff.mp hbelow
      rw [registry_parent_of_get? hget] at hp
      obtain ⟨q, hq, hsub⟩ := hD.parent hget hp
      have hid : q.id = p := Table.key_of_get? hq
      exact ⟨run, hfound, Or.inr ⟨q, Table.mem_of_get? hq, hid ▸ hp, hsub⟩⟩
  · intro x hx hallow
    obtain ⟨r, spec, hr, hrunId, htool, hcapability⟩ := allEntitled h x hx hallow
    obtain ⟨n, hn, rfl⟩ := exists_node_of_registry hr
    obtain ⟨run, hfound, hroot⟩ := hrun hr
    have hheld : HeldBy s.db x.nodeId spec.capability := ⟨n, hn, hcapability⟩
    exact ⟨spec, run, htool, hrunId ▸ hfound, hheld, fun anc hanc => hD.ancestor hanc hheld, hroot⟩

/-- The worker of the sample run reads metrics, with a capability that its root has given it. -/
def sampleReading : List Label := sampleStart ++
  [.call (.execute 20 30 { idempotencyKey := "read", toolName := "read_metrics" }) (sampleEnv 3 50)]

theorem capabilities_attenuated_sample : ∃ x ∈ (sample sampleReading).db.attempts,
    x.nodeId = 20 ∧ x.decision = .allow ∧ ∃ spec run, getToolSpec x.toolName = .ok spec ∧
      (sample sampleReading).db.runs.get? x.runId = some run ∧
      HeldBy (sample sampleReading).db x.nodeId spec.capability ∧
      (∀ anc, Forest.Ancestor (sample sampleReading).db.registry.parent anc x.nodeId →
        HeldBy (sample sampleReading).db anc spec.capability) ∧
      (x.nodeId = run.rootNodeId ∨
        Forest.Ancestor (sample sampleReading).db.registry.parent run.rootNodeId x.nodeId) := by
  obtain ⟨x, hx⟩ := Option.isSome_iff_exists.mp (show
    ((sample sampleReading).db.attempts.rows.find? fun x =>
      x.nodeId = 20 ∧ x.decision = .allow).isSome = true by decide +kernel)
  have hmem : x ∈ (sample sampleReading).db.attempts := List.mem_of_find?_eq_some hx
  obtain ⟨hnode, hallow⟩ : x.nodeId = 20 ∧ x.decision = .allow := by
    simpa using List.find?_some hx
  exact ⟨x, hmem, hnode, hallow,
    (capabilities_attenuated (sample_reachable _)).2 x hmem hallow⟩

end TraceFence
