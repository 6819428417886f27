import TraceFence.Registry.Clock
import TraceFence.Services.InvariantService
import TraceFence.Services.ProofService

/-!
# Snapshots, walks and audits agree

Ancestry is written down three times: in parent pointers, in the snapshots copied at registration,
and, for the nodes a command affects, in registration times. In every reachable state the three
say the same.

## Main definitions

* `Lineage` — the chain of nodes from the root of a run down to a node

## Main results

* `exists_lineage` — a snapshot spells the lineage of its node
* `affectedNodes_eq_auditedNodes` — the proof service and the auditor affect the same nodes
* `snapshots_are_lineages` — all of it, in every reachable state
-/

namespace TraceFence

open System Forest

variable {cfg : Config} {db : Database} {s : Sys}

/-! ### Lineages -/

/-- `chain` leads from the root of `run` to `n`, each node the parent of the next. -/
structure Lineage (db : Database) (run : Run) (n : Node) (chain : List Node) : Prop where
  nodes : ∀ m ∈ chain, m ∈ db.nodes
  root : ∃ root, chain.head? = some root ∧ root.id = run.rootNodeId ∧ root.parentId = none
  last : chain.getLast? = some n
  links : chain.IsChain fun p m => m.parentId = some p.id

/-- The snapshot that belongs to a lineage. -/
def lineageSnapshot (run : Run) (chain : List Node) : List ScopeRef :=
  ⟨run.runScopeId, 1⟩ :: chain.map fun m => ⟨m.ownScopeId, 1⟩

/-- **A snapshot spells the lineage of its node.** -/
theorem exists_lineage (hW : db.registry.WellFormed) {n : Node} (hn : db.nodes.get? n.id = some n)
    {run : Run} (hrun : db.runs.get? n.runId = some run) :
    ∃ chain, Lineage db run n chain ∧ n.scopeSnapshot = lineageSnapshot run chain := by
  induction hg : n.generation generalizing n with
  | zero =>
    have hr := registry_node_of_get? hn
    cases hp : n.parentId with
    | none =>
      obtain ⟨f, hf, hroot, _, _, hsnapshot⟩ := hW.orphan n.id _ hr hp
      obtain rfl := Option.some.inj (hf.symm.trans (registry_run_of_get? hrun))
      exact ⟨[n], ⟨by simpa using Table.mem_of_get? hn, ⟨n, rfl, hroot.symm, hp⟩, rfl, by simp⟩,
        hsnapshot⟩
    | some p =>
      obtain ⟨q, _, _, hgen, _⟩ := hW.child n.id _ p hr hp
      rw [show n.registration.generation = 0 from hg] at hgen
      omega
  | succ k ih =>
    have hr := registry_node_of_get? hn
    cases hp : n.parentId with
    | none =>
      obtain ⟨_, _, _, hgen, _⟩ := hW.orphan n.id _ hr hp
      rw [show n.registration.generation = k + 1 from hg] at hgen
      omega
    | some p =>
      obtain ⟨_, hq, hqrun, hgen, hsnapshot⟩ := hW.child n.id _ p hr hp
      obtain ⟨q, hget, rfl⟩ := exists_node_of_registry hq
      have hqid : q.id = p := Table.key_of_get? hget
      obtain ⟨chain, hchain, hspell⟩ := ih (n := q) (found_of_get? hget)
        (by rwa [show q.runId = n.runId from hqrun]) (by
          have : n.generation = q.generation + 1 := hgen
          omega)
      obtain ⟨root, hhead, hroot⟩ := hchain.root
      refine ⟨chain ++ [n], ⟨?_, ⟨root, by simp [hhead], hroot⟩, by simp, ?_⟩, ?_⟩
      · simp only [List.mem_append, List.mem_singleton]
        rintro m (hm | rfl)
        · exact hchain.nodes m hm
        · exact Table.mem_of_get? hn
      · refine List.isChain_append.mpr ⟨hchain.links, by simp, fun x hx y hy => ?_⟩
        rw [hchain.last, Option.mem_some_iff] at hx
        simp only [List.head?_cons, Option.mem_some_iff] at hy
        rw [← hx, ← hy, hp, hqid]
      · rw [show n.scopeSnapshot = q.scopeSnapshot ++ [⟨n.ownScopeId, 1⟩] from hsnapshot, hspell]
        simp [lineageSnapshot]

/-! ### Walks -/

/-- **The readings of ancestry** agree within a run: snapshots, the climb and the descent. -/
theorem ancestry_readings (hW : db.registry.WellFormed) {m n : Node}
    (hm : db.nodes.get? m.id = some m) (hn : db.nodes.get? n.id = some n)
    (hrun : m.runId = n.runId) :
    (m.ownScopeId ∈ n.scopeSnapshot.map (·.scopeId) ↔
      (n.id = m.id ∨ isDescendant db m.runId m.id n.id = true)) ∧
    ((n.id = m.id ∨ isDescendant db m.runId m.id n.id = true) ↔
      n ∈ descendantsIncludingSelf db m.runId m.id) := by
  rw [own_mem_snapshot_iff hW hm hn hrun, hrun, isDescendant_iff hW hn,
    mem_descendantsIncludingSelf_iff (registeredNodes_closed hW)]
  refine ⟨Iff.rfl, (and_iff_right ?_).symm⟩
  exact mem_registeredNodes.mpr ⟨hn, rfl, by simp⟩

/-! ### Audits -/

variable {c : ControlCommand} {n : Node}

/-- A cancelled run reaches all its nodes. -/
theorem reaches_of_cancelRun (hC : Governs db c) (hW : db.registry.WellFormed)
    (hn : db.nodes.get? n.id = some n) (hrun : n.runId = c.runId) (htype : c.commandType = .cancelRun) :
    c.reaches n := by
  obtain ⟨r, hr, hcancel, _⟩ := hC.run
  rw [ControlCommand.reaches, (hcancel htype).1]
  exact hW.runScope_mem (registry_node_of_get? hn)
    ((congrArg db.registry.run hrun).trans (registry_run_of_get? hr))

/-- What the auditor decides about a node of the command's run. -/
theorem nodeAffected_iff (hC : Governs db c) (hW : db.registry.WellFormed)
    (hn : db.nodes.get? n.id = some n) (hrun : n.runId = c.runId) :
    nodeAffected c n = true ↔ n.registeredAt ≤ c.createdAt ∧ c.reaches n := by
  have hversion := hW.version_one (registry_node_of_get? hn)
  rw [nodeAffected]
  split
  · next ht => simp [Nat.not_le.mpr ht]
  next ht =>
  rw [and_iff_right (Nat.not_lt.mp ht)]
  split
  · next htype => simp [reaches_of_cancelRun hC hW hn hrun htype]
  · rw [List.any_eq_true, ControlCommand.reaches, List.mem_map]
    refine exists_congr fun item => and_congr_right fun hitem => ?_
    simp [hversion item hitem, hC.fromVersion]

theorem mem_auditedNodes (hC : Governs db c) (hW : db.registry.WellFormed) :
    n ∈ auditedNodes db c ↔ db.nodes.get? n.id = some n ∧ n.runId = c.runId ∧
      n.registeredAt ≤ c.createdAt ∧ c.reaches n := by
  have hmem : n ∈ db.nodes.rows ↔ db.nodes.get? n.id = some n :=
    ⟨fun h => Table.get?_of_mem h, Table.mem_of_get?⟩
  rw [auditedNodes, List.mem_filter, List.mem_filter, decide_eq_true_eq, hmem, and_assoc]
  exact and_congr_right fun hn => and_congr_right fun hrun => nodeAffected_iff hC hW hn hrun

/-- What the proof service selects. -/
theorem mem_affectedNodes {past : Time → Prop} (hC : Governs db c) (hW : db.registry.WellFormed)
    (hT : Timed past db) :
    n ∈ affectedNodes db c ↔ db.nodes.get? n.id = some n ∧ n.runId = c.runId ∧
      n.registeredAt ≤ c.createdAt ∧ c.reaches n := by
  have hselected : n ∈ registeredNodes db c.runId (some c.createdAt) ↔
      db.nodes.get? n.id = some n ∧ n.runId = c.runId ∧ n.registeredAt ≤ c.createdAt := by
    simp [mem_registeredNodes]
  rw [affectedNodes]
  split
  · next htype =>
    rw [hselected]
    refine and_congr_right fun hn => and_congr_right fun hrun => ?_
    exact (and_iff_left (reaches_of_cancelRun hC hW hn hrun htype)).symm
  · rw [mem_descendantsIncludingSelf_iff ?_, hselected]
    · simp only [and_assoc]
      refine and_congr_right fun hn => and_congr_right fun hrun => and_congr_right fun _ => ?_
      rw [hC.reaches_iff hW hn, and_iff_right hrun]
    · -- A parent is registered no later than its child.
      intro m hm p hp
      obtain ⟨hget, hrun, ht⟩ := mem_registeredNodes.mp hm
      obtain ⟨q, hq, hqrun⟩ := exists_parent hW hget hp
      have hle := hT.ordered m.id m p q hget hp hq
      refine ⟨q, mem_registeredNodes.mpr ⟨found_of_get? hq, hqrun.trans hrun, fun t ht' => ?_⟩,
        Table.key_of_get? hq⟩
      exact hle.trans (ht t ht')

/-- **The proof service and the auditor affect the same nodes.** -/
theorem affectedNodes_eq_auditedNodes {past : Time → Prop} (hC : Governs db c)
    (hW : db.registry.WellFormed) (hT : Timed past db) :
    n ∈ affectedNodes db c ↔ n ∈ auditedNodes db c := by
  rw [mem_affectedNodes hC hW hT, mem_auditedNodes hC hW]

/-! ### Reachable states -/

/-- **Snapshots are lineages**, and all readings of ancestry agree, in every reachable state: the
snapshot of a node is the run scope and then the own scopes of the nodes from the root down to it,
each once and at version 1, and it never changes; within a run, holding the own scope of a node,
being it or its descendant, and being listed among its descendants are the same; and under a
non-decreasing clock the nodes that a proof and the auditor count as affected by a command are the
same. -/
theorem snapshots_are_lineages (hs : (services cfg).Reachable s) :
    (∀ n ∈ s.db.nodes, ∃ run ∈ s.db.runs, run.id = n.runId ∧
      (∃ chain, Lineage s.db run n chain ∧ n.scopeSnapshot = lineageSnapshot run chain) ∧
      (n.scopeSnapshot.map (·.scopeId)).Nodup ∧ (∀ item ∈ n.scopeSnapshot, item.version = 1) ∧
      n.scopeSnapshot.length = n.generation + 2) ∧
    (∀ n ∈ s.db.nodes, ∀ s', (services cfg).Run s s' →
      ∃ n' ∈ s'.db.nodes, n'.id = n.id ∧ n'.scopeSnapshot = n.scopeSnapshot) ∧
    (∀ a ∈ s.db.nodes, ∀ n ∈ s.db.nodes, a.runId = n.runId →
      (a.ownScopeId ∈ n.scopeSnapshot.map (·.scopeId) ↔
        (n.id = a.id ∨ isDescendant s.db a.runId a.id n.id = true)) ∧
      ((n.id = a.id ∨ isDescendant s.db a.runId a.id n.id = true) ↔
        n ∈ descendantsIncludingSelf s.db a.runId a.id)) ∧
    ((monotone cfg).Reachable s → ∀ c ∈ s.db.commands, ∀ n,
      n ∈ affectedNodes s.db c ↔ n ∈ auditedNodes s.db c) := by
  have hW := registry_wellFormed hs
  have hget {n : Node} (hn : n ∈ s.db.nodes) : s.db.nodes.get? n.id = some n := Table.get?_of_mem hn
  refine ⟨fun n hn => ?_, fun n hn s' hrun => ?_, fun a ha n hn hrun => ?_, fun hm c hc n => ?_⟩
  · have hr := registry_node_of_get? (hget hn)
    obtain ⟨f, hf⟩ := hW.exists_run hr
    obtain ⟨run, hrun, _⟩ := Option.map_eq_some_iff.mp hf
    exact ⟨run, Table.mem_of_get? hrun, Table.key_of_get? hrun,
      exists_lineage hW (hget hn) hrun, hW.nodup_snapshot hr, hW.version_one hr,
      hW.length_snapshot hr⟩
  · obtain ⟨n', hn', hreg⟩ := (run_evolves hrun).node_registration (hget hn)
    exact ⟨n', Table.mem_of_get? hn', Table.key_of_get? hn',
      congrArg Registration.scopeSnapshot hreg⟩
  · exact ancestry_readings hW (hget ha) (hget hn) hrun
  · exact affectedNodes_eq_auditedNodes ((controlled hs).command c.id c (Table.get?_of_mem hc)) hW
      (timed hm)

/-- In the sample run, after its worker is cancelled. -/
theorem snapshots_are_lineages_sample :
    (∀ n ∈ (sample sampleCancelled).db.nodes, n.scopeSnapshot.length = n.generation + 2) ∧
      ∀ c ∈ (sample sampleCancelled).db.commands, ∀ n,
        n ∈ affectedNodes (sample sampleCancelled).db c ↔
          n ∈ auditedNodes (sample sampleCancelled).db c := by
  have hmonotone : (monotone sampleConfig).Reachable (sample sampleCancelled) :=
    sample_monotone (by simp [sampleCancelled, sampleStart, Label.env, sampleEnv])
      (by decide +kernel)
  obtain ⟨hlineage, _, _, haudit⟩ := snapshots_are_lineages hmonotone.of_restrict
  refine ⟨fun n hn => ?_, haudit hmonotone⟩
  obtain ⟨_, _, _, _, _, _, hlength⟩ := hlineage n hn
  exact hlength

end TraceFence
