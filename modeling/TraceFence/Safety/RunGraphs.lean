import TraceFence.Lib.Arborescence
import TraceFence.Services.GraphService
import TraceFence.Registry.Control

/-!
# What the graph of a run shows

The four queries of `get_graph` may find four different databases. Nevertheless the picture hangs
together: the response is never the error about a corrupt registry, its spawn edges are one tree
below the root, and an edge between a node and its replacement comes with the command that ordered
it. And it does not show more authority than there is: the commands are read before the scopes, so
whatever a command of the picture has cut off is shown as blocked, and a node that is shown as live
was live when its row was read.

## Main definitions

* `Database.nodeIds` — the nodes of a run
* `Superseding` — what ties the supersession of a node to a command

## Main results

* `graph_rooted` — the picture is a tree
* `graph_honest` — what it shows of a node's authority
-/

namespace TraceFence

open Checked System Relation

variable {cfg : Config} {w : Write} {a b db : Database} {s s₀ s₁ s₂ s₃ : Sys} {runId : Id}
  {now : Time} {reads : GraphReads} {g : GraphResponse}

/-! ### The response -/

theorem mem_runNodes {n : Node} :
    n ∈ runNodes db runId ↔ db.nodes.get? n.id = some n ∧ n.runId = runId := by
  rw [runNodes, List.mem_insertionSort, List.mem_filter, decide_eq_true_eq]
  exact and_congr_left fun _ => ⟨fun h => Table.get?_of_mem h, Table.mem_of_get?⟩

theorem mem_runCommands {c : ControlCommand} :
    c ∈ runCommands db runId ↔ db.commands.get? c.id = some c ∧ c.runId = runId := by
  rw [runCommands, List.mem_insertionSort, List.mem_filter, decide_eq_true_eq]
  exact and_congr_left fun _ => ⟨fun h => Table.get?_of_mem h, Table.mem_of_get?⟩

theorem drawNode_eq_ok {n : Node} {d : GraphNode} : drawNode db runId now n = .ok d ↔
    ∃ own, liveScope db runId n.ownScopeId = some own ∧ d = graphNode db now n own := by
  simp only [drawNode, bind_eq_ok, require_eq_ok, pure_eq_ok]
  exact exists_congr fun _ => and_congr_right fun _ => eq_comm

/-- What is served. -/
structure Drawn (reads : GraphReads) (runId : Id) (now : Time) (g : GraphResponse) : Prop where
  nodes : (runNodes reads.nodes runId).mapM (drawNode reads.scopes runId now) = .ok g.nodes
  edges : g.edges = (runNodes reads.nodes runId).flatMap graphEdges
  commands : g.commands = (runCommands reads.commands runId).map graphCommand

theorem drawn_of_getGraph (h : getGraph reads runId now = .ok g) : Drawn reads runId now g := by
  simp only [getGraph, bind_eq_ok, pure_eq_ok] at h
  obtain ⟨run, _, nodes, hnodes, rfl⟩ := h
  exact ⟨hnodes, rfl, rfl⟩

/-- The nodes of the response are the rows, each drawn. -/
theorem Drawn.mem_nodes (h : Drawn reads runId now g) {d : GraphNode} : d ∈ g.nodes ↔
    ∃ n own, reads.nodes.nodes.get? n.id = some n ∧ n.runId = runId ∧
      liveScope reads.scopes runId n.ownScopeId = some own ∧ d = graphNode reads.scopes now n own := by
  simp only [mem_mapM h.nodes, mem_runNodes, drawNode_eq_ok]
  constructor
  · rintro ⟨n, ⟨hn, hrun⟩, own, hown, hd⟩
    exact ⟨n, own, hn, hrun, hown, hd⟩
  · rintro ⟨n, own, hn, hrun, hown, hd⟩
    exact ⟨n, ⟨hn, hrun⟩, own, hown, hd⟩

/-- The ids of the response are those of the rows. -/
theorem Drawn.ids (h : Drawn reads runId now g) :
    g.nodes.map (·.id) = (runNodes reads.nodes runId).map (·.id) := by
  have hids : List.Forall₂ (· = ·) ((runNodes reads.nodes runId).map (·.id))
      (g.nodes.map (·.id)) := by
    rw [List.forall₂_map_left_iff, List.forall₂_map_right_iff]
    refine (forall₂_of_mapM h.nodes).imp fun n d hd => ?_
    obtain ⟨own, _, rfl⟩ := drawNode_eq_ok.mp hd
    rfl
  rw [List.forall₂_eq_eq_eq] at hids
  exact hids.symm

/-- The nodes of a run. -/
def Database.nodeIds (db : Database) (runId : Id) : Set Id :=
  {x | ∃ n, db.nodes.get? x = some n ∧ n.runId = runId}

theorem Drawn.mem_ids (h : Drawn reads runId now g) {x : Id} :
    x ∈ g.nodes.map (·.id) ↔ x ∈ reads.nodes.nodeIds runId := by
  rw [h.ids, List.mem_map]
  constructor
  · rintro ⟨n, hn, rfl⟩
    exact ⟨n, mem_runNodes.mp hn⟩
  · rintro ⟨n, hn, hrun⟩
    exact ⟨n, mem_runNodes.mpr ⟨found_of_get? hn, hrun⟩, Table.key_of_get? hn⟩

theorem Drawn.nodup_ids (h : Drawn reads runId now g) : (g.nodes.map (·.id)).Nodup := by
  have hrows : ((reads.nodes.nodes.rows.filter fun n => n.runId = runId).map (·.id)).Nodup :=
    reads.nodes.nodes.nodup.sublist (List.filter_sublist.map _)
  rw [h.ids]
  exact ((List.perm_insertionSort _ _).map _).nodup_iff.mpr hrows

theorem mem_graphEdges {n : Node} {e : GraphEdge} : e ∈ graphEdges n ↔
    (∃ p, n.parentId = some p ∧ e = ⟨p, n.id, .spawn⟩) ∨
      ∃ o, n.supersedesNodeId = some o ∧ e = ⟨o, n.id, .supersedes⟩ := by
  rw [graphEdges, List.mem_append, Option.mem_toList, Option.mem_toList, Option.map_eq_some_iff,
    Option.map_eq_some_iff]
  simp only [eq_comm]

/-- Spawn edges are the parent pointers of the nodes of the run. -/
theorem Drawn.spawn_iff (h : Drawn reads runId now g) (p x : Id) : ⟨p, x, .spawn⟩ ∈ g.edges ↔
    x ∈ reads.nodes.nodeIds runId ∧ reads.nodes.registry.parent x = some p := by
  rw [h.edges, List.mem_flatMap]
  constructor
  · rintro ⟨n, hn, he⟩
    obtain ⟨hget, hrun⟩ := mem_runNodes.mp hn
    rcases mem_graphEdges.mp he with ⟨p', hp, he⟩ | ⟨o, _, he⟩
    · cases he
      exact ⟨⟨n, hget, hrun⟩, (registry_parent_of_get? hget).trans hp⟩
    · cases he
  · rintro ⟨⟨n, hget, hrun⟩, hp⟩
    rw [registry_parent_of_get? hget] at hp
    obtain rfl : n.id = x := Table.key_of_get? hget
    exact ⟨n, mem_runNodes.mpr ⟨hget, hrun⟩, mem_graphEdges.mpr (Or.inl ⟨p, hp, rfl⟩)⟩

/-! ### Supersession -/

/-- **What ties the supersession of a node to a command**: the correction of the node it
supersedes. -/
def Superseding (db : Database) : Prop :=
  ∀ id n old, db.nodes.get? id = some n → n.supersedesNodeId = some old →
    ∃ c, db.commands.get? c.id = some c ∧ c.commandType = .correctSubtree ∧ c.targetNodeId = old ∧
      c.runId = n.runId ∧ n.causedByCommandId = some c.id

/-- The command of a supersession stays. -/
theorem Effect.superseding (h : Effect cfg w a b) (ha : Superseding a) : Superseding b := by
  have hkept {n : Node} {old : Id} {c : ControlCommand} (hc : a.commands.get? c.id = some c)
      (htype : c.commandType = .correctSubtree) (htarget : c.targetNodeId = old)
      (hrun : c.runId = n.runId) (hcause : n.causedByCommandId = some c.id) :
      ∃ c, b.commands.get? c.id = some c ∧ c.commandType = .correctSubtree ∧
        c.targetNodeId = old ∧ c.runId = n.runId ∧ n.causedByCommandId = some c.id := by
    obtain ⟨c', hc', hissued⟩ := h.evolves.command c.id c hc
    have hid : c'.id = c.id := Table.key_of_get? hc'
    refine ⟨c', hid ▸ hc', ?_, ?_, ?_, hid ▸ hcause⟩
    · rw [issued_column (·.commandType) (fun _ => rfl) hissued, htype]
    · rw [issued_column (·.targetNodeId) (fun _ => rfl) hissued, htarget]
    · rw [issued_column (·.runId) (fun _ => rfl) hissued, hrun]
  intro id n' old hn' hold
  rcases h.node_cases hn' with ⟨_, hw⟩ | ⟨n, hn, hstep⟩
  · -- Only a replacement is registered with a node that it supersedes.
    rcases hw with rfl | rfl
    · cases h
      cases hold
    · have hcopy := h
      cases hcopy with
      | registerNode => cases hold
      | @registerReplacement _ _ _ command _ _ _ _ _ _ _ _ commandFound check _ lineage _
          supersession =>
        subst supersession
        simp only [checkReplacementCommand, bind_eq_ok, ensure_eq_ok] at check
        simp only [checkCorrectionLineage, bind_eq_ok, require_eq_ok, pure_eq_ok] at lineage
        obtain ⟨_, htype, _, hrun, _⟩ := check
        obtain ⟨row, hrow, _, _, _, _, _, _, _, _, rfl⟩ := lineage
        refine hkept commandFound htype ?_ hrun rfl
        exact (Table.key_of_get? hrow).symm.trans (Option.some.inj hold)
  · have hreg := hstep.registration
    rw [show n'.supersedesNodeId = n.supersedesNodeId from
      congrArg Registration.supersedesNodeId hreg] at hold
    obtain ⟨c, hc, htype, htarget, hrun, hcause⟩ := ha id n old hn hold
    refine hkept hc htype htarget ?_ ?_
    · rw [hrun, show n'.runId = n.runId from congrArg Registration.runId hreg]
    · rw [show n'.causedByCommandId = n.causedByCommandId from
        congrArg Registration.causedByCommandId hreg, hcause]

theorem superseding (h : (services cfg).Reachable s) : Superseding s.db :=
  reachable_db h (fun _ _ _ hn => by cases hn) fun _ _ _ ha he => he.superseding ha

/-! ### The shape of the picture -/

/-- The nodes of a run and their parent pointers are a tree. -/
theorem arborescence_of_wellFormed (hW : db.registry.WellFormed) {run : Run}
    (hrun : db.runs.get? runId = some run) {edge : Id → Id → Prop}
    (hedge : ∀ p x, edge p x ↔ x ∈ db.nodeIds runId ∧ db.registry.parent x = some p) :
    Arborescence (db.nodeIds runId) edge run.rootNodeId := by
  have hfacts := registry_run_of_get? hrun
  obtain ⟨r, hr, hroot, horphan⟩ := hW.root runId _ hfacts
  obtain ⟨root, hget, rfl⟩ := exists_node_of_registry hr
  refine .of_parent db.registry.depth ⟨root, hget, hroot⟩
    ((registry_parent_of_get? hget).trans horphan) hedge ?_ ?_
  · rintro x ⟨n, hn, rfl⟩ p hp
    rw [registry_parent_of_get? hn] at hp
    obtain ⟨q, hq, hqrun, hgeneration, _⟩ := hW.child x _ p (registry_node_of_get? hn) hp
    obtain ⟨q', hq', rfl⟩ := exists_node_of_registry hq
    refine ⟨⟨q', hq', hqrun⟩, ?_⟩
    have hx : db.registry.depth x = n.registration.generation := by
      simp [Registry.depth, registry_node_of_get? hn]
    have hp' : db.registry.depth p = q'.registration.generation := by
      simp [Registry.depth, registry_node_of_get? hq']
    omega
  · rintro x ⟨n, hn, rfl⟩ hp
    rw [registry_parent_of_get? hn] at hp
    obtain ⟨f, hf, hid, _⟩ := hW.orphan x _ (registry_node_of_get? hn) hp
    obtain rfl := Option.some.inj (hf.symm.trans hfacts)
    exact hid.symm

/-- The four queries of one call, each against a state that the services reach after the one
before. -/
structure InTurn (cfg : Config) (s₀ s₁ s₂ s₃ : Sys) : Prop where
  reachable : (services cfg).Reachable s₀
  nodes : (services cfg).Run s₀ s₁
  commands : (services cfg).Run s₁ s₂
  scopes : (services cfg).Run s₂ s₃

/-- What the queries of one call find. -/
def readsOf (s₀ s₁ s₂ s₃ : Sys) : GraphReads := ⟨s₀.db, s₁.db, s₂.db, s₃.db⟩

theorem InTurn.reachable_nodes (h : InTurn cfg s₀ s₁ s₂ s₃) : (services cfg).Reachable s₁ :=
  h.reachable.run h.nodes

theorem InTurn.evolves (h : InTurn cfg s₀ s₁ s₂ s₃) :
    Evolves s₀.db s₁.db ∧ Evolves s₁.db s₂.db ∧ Evolves s₂.db s₃.db :=
  ⟨run_evolves h.nodes, run_evolves h.commands, run_evolves h.scopes⟩

/-- The own scope of a node is found by the last query. -/
theorem InTurn.ownScope (h : InTurn cfg s₀ s₁ s₂ s₃) {x : Id} {n : Node}
    (hn : s₁.db.nodes.get? x = some n) :
    ∃ own, liveScope s₃.db n.runId n.ownScopeId = some own := by
  obtain ⟨_, hcommands, hscopes⟩ := h.evolves
  have hown := (registry_wellFormed h.reachable_nodes).ownScope x _ (registry_node_of_get? hn)
  have hlater := (hcommands.trans hscopes).registry.scope _ _ hown
  obtain ⟨own, hget, hfacts⟩ := Option.map_eq_some_iff.mp hlater
  exact ⟨own, liveScope_eq_some.mpr ⟨hget, congrArg ScopeFacts.runId hfacts⟩⟩

/-- **The graph of a run is served**, however the queries interleave with other transactions, and
it is in shape: it has each node of the run once, its spawn edges are one tree below the root, and a
node is shown with a node it supersedes only together with the correction that ordered it. -/
theorem graph_rooted (h : InTurn cfg s₀ s₁ s₂ s₃) {run : Run}
    (hrun : s₀.db.runs.get? runId = some run) (now : Time) :
    ∃ g, getGraph (readsOf s₀ s₁ s₂ s₃) runId now = .ok g ∧
      (g.nodes.map (·.id)).Nodup ∧
      (∀ x, x ∈ g.nodes.map (·.id) ↔ x ∈ s₁.db.nodeIds runId) ∧
      Arborescence {x | x ∈ g.nodes.map (·.id)} (fun p x => ⟨p, x, .spawn⟩ ∈ g.edges)
        run.rootNodeId ∧
      ∀ old x, ⟨old, x, .supersedes⟩ ∈ g.edges → old ∈ g.nodes.map (·.id) ∧
        ∃ c ∈ g.commands, c.type = .correctSubtree ∧ c.targetNodeId = old ∧
          ∃ d ∈ g.nodes, d.id = x ∧ d.supersedesNodeId = some old ∧
            d.causedByCommandId = some c.id := by
  obtain ⟨hnodes, hcommands, hscopes⟩ := h.evolves
  have hW := registry_wellFormed h.reachable_nodes
  obtain ⟨drawn, hdrawn⟩ : ∃ drawn, (runNodes s₁.db runId).mapM (drawNode s₃.db runId now) =
      .ok drawn := by
    refine exists_mapM fun n hn => ?_
    obtain ⟨hget, rfl⟩ := mem_runNodes.mp hn
    obtain ⟨own, hown⟩ := h.ownScope hget
    exact ⟨_, drawNode_eq_ok.mpr ⟨own, hown, rfl⟩⟩
  have hfound : (getRun s₀.db runId).mapError GraphFailure.error = .ok run := by
    rw [getRun, hrun]
    rfl
  obtain ⟨g, hg⟩ : ∃ g, getGraph (readsOf s₀ s₁ s₂ s₃) runId now = .ok g := by
    simp only [getGraph, bind_eq_ok, pure_eq_ok]
    exact ⟨_, run, hfound, drawn, hdrawn, rfl⟩
  have hshape := drawn_of_getGraph hg
  obtain ⟨run', hrun', hroot, _⟩ := hnodes.run_facts hrun
  refine ⟨g, hg, hshape.nodup_ids, fun x => hshape.mem_ids, ?_, fun old x he => ?_⟩
  · have hset : {x | x ∈ g.nodes.map (·.id)} = s₁.db.nodeIds runId := by
      ext x
      exact hshape.mem_ids
    rw [hset, ← hroot]
    exact arborescence_of_wellFormed hW hrun' hshape.spawn_iff
  · rw [hshape.edges, List.mem_flatMap] at he
    obtain ⟨n, hn, he⟩ := he
    obtain ⟨hget, hnrun⟩ := mem_runNodes.mp hn
    rcases mem_graphEdges.mp he with ⟨p, _, he⟩ | ⟨o, ho, he⟩
    · cases he
    · cases he
      obtain ⟨c, hc, htype, htarget, hcrun, hcause⟩ := superseding h.reachable_nodes n.id n old hget ho
      obtain ⟨t, ht, htrun, _⟩ := ((controlled h.reachable_nodes).command c.id c hc).target
      obtain ⟨c', hc', hissued⟩ := hcommands.command c.id c hc
      have hid : c'.id = c.id := Table.key_of_get? hc'
      have hcrun' : c'.runId = runId := by
        rw [issued_column (·.runId) (fun _ => rfl) hissued, hcrun, hnrun]
      refine ⟨hshape.mem_ids.mpr ⟨t, htarget ▸ ht, by rw [htrun, hcrun, hnrun]⟩, graphCommand c', ?_,
        ?_, ?_, ?_⟩
      · rw [hshape.commands]
        exact List.mem_map_of_mem (mem_runCommands.mpr ⟨hid ▸ hc', hcrun'⟩)
      · exact (issued_column (·.commandType) (fun _ => rfl) hissued).trans htype
      · exact (issued_column (·.targetNodeId) (fun _ => rfl) hissued).trans htarget
      · obtain ⟨own, hown⟩ := h.ownScope hget
        rw [hnrun] at hown
        refine ⟨graphNode s₃.db now n own, hshape.mem_nodes.mpr ⟨n, own, hget, hnrun, hown, rfl⟩,
          rfl, ho, ?_⟩
        rw [show (graphCommand c').id = c.id from hid]
        exact hcause

/-! ### What the picture says about authority -/

/-- A node that was registered has the ancestors it had. -/
theorem ancestor_of_registered (hW : a.registry.WellFormed) (hle : a.registry.Le b.registry)
    {x y : Id} {n : Node} (hn : a.nodes.get? y = some n)
    (h : Forest.Ancestor b.registry.parent x y) : Forest.Ancestor a.registry.parent x y := by
  have hparent {z : Id} {m : Node} (hm : a.nodes.get? z = some m) :
      b.registry.parent z = a.registry.parent z := by
    have hz := registry_node_of_get? hm
    rw [Registry.parent, Registry.parent, hz, hle.node _ _ hz]
  induction h using TransGen.head_induction_on generalizing n with
  | single hp => exact Forest.Ancestor.of_parent ((hparent hn).symm.trans hp)
  | @head z p hp _ ih =>
    rw [hparent hn] at hp
    have hlink := registry_parent_of_get? hn
    obtain ⟨q, hq, _⟩ := exists_parent hW (found_of_get? hn) (hlink.symm.trans hp)
    exact TransGen.head hp (ih hq)

/-- A node is drawn as blocked exactly when it is not allowed. -/
theorem blockingScopeId_eq_none_iff {n : Node} {own : ControlScope} (hsnapshot : n.scopeSnapshot ≠ []) :
    (graphNode db now n own).blockingScopeId = none ↔ (evaluateScopes db n).allowed = true := by
  change (evaluateScopes db n).mismatches.head?.map _ = none ↔ _
  rw [Option.map_eq_none_iff, List.head?_eq_none_iff, mismatches_eq, List.filterMap_eq_nil_iff,
    allowed_iff]
  exact (and_iff_right hsnapshot).symm

/-- A node that is drawn as blocked is not drawn as live. -/
theorem effectiveStatus_of_cut {n : Node} {own : ControlScope}
    (hcut : (evaluateScopes db n).allowed = false) :
    (graphNode db now n own).effectiveStatus = .cancelled ∨
      (graphNode db now n own).effectiveStatus = .superseded := by
  have heffective : (graphNode db now n own).effectiveStatus =
      (evaluateScopes db n).effectiveStatus := by
    simp [graphNode, hcut]
  rw [heffective]
  exact effectiveStatus_of_not_allowed hcut

/-- A node that is drawn as live is. -/
theorem graphNode_live {n : Node} {own : ControlScope}
    (hlive : (graphNode db now n own).effectiveStatus.isLive = true)
    (hlease : (graphNode db now n own).leaseState = .live) :
    (evaluateScopes db n).allowed = true ∧ n.status.isLive = true ∧ n.leaseExpired now = false := by
  have hallowed : (evaluateScopes db n).allowed = true := by
    by_contra hno
    rw [Bool.not_eq_true] at hno
    rcases @effectiveStatus_of_cut db now n own hno with he | he
    all_goals
      rw [he] at hlive
      cases hlive
  have heffective : (graphNode db now n own).effectiveStatus = n.status := by
    simp [graphNode, hallowed]
  have hunexpired : n.leaseExpired now = false := by
    change n.leaseState now = .live at hlease
    by_contra hexpired
    rw [Bool.not_eq_false] at hexpired
    simp only [Node.leaseState, hexpired] at hlease
    split_ifs at hlease with _ _ himpossible
    cases himpossible
  exact ⟨hallowed, heffective ▸ hlive, hunexpired⟩

theorem InTurn.snapshot_ne_nil (h : InTurn cfg s₀ s₁ s₂ s₃) {x : Id} {n : Node}
    (hn : s₁.db.nodes.get? x = some n) : n.scopeSnapshot ≠ [] := by
  intro hnil
  have hlength := (registry_wellFormed h.reachable_nodes).length_snapshot (registry_node_of_get? hn)
  rw [show n.registration.scopeSnapshot = [] from hnil] at hlength
  cases hlength

/-- What cuts a node of the second query off when the last one reads the scopes: a command to it or
to a node above it. -/
theorem InTurn.cut_iff (h : InTurn cfg s₀ s₁ s₂ s₃) {n : Node}
    (hn : s₁.db.nodes.get? n.id = some n) : (evaluateScopes s₃.db n).allowed = false ↔
      ∃ c, s₃.db.commands.get? c.id = some c ∧ c.runId = n.runId ∧
        (n.id = c.targetNodeId ∨ Forest.Ancestor s₁.db.registry.parent c.targetNodeId n.id) := by
  obtain ⟨_, hcommands, hscopes⟩ := h.evolves
  have hlater := hcommands.trans hscopes
  have hreachable : (services cfg).Reachable s₃ := (h.reachable_nodes.run h.commands).run h.scopes
  have hW := registry_wellFormed hreachable
  have hC := controlled hreachable
  obtain ⟨n', hn', hreg⟩ := hlater.node_registration hn
  have hid : n'.id = n.id := Table.key_of_get? hn'
  have hrow : s₃.db.nodes.get? n'.id = some n' := hid.symm ▸ hn'
  have hrun : n'.runId = n.runId := congrArg Registration.runId hreg
  rw [← evaluateScopes_registration hreg]
  constructor
  · intro hcut
    obtain ⟨c, hc, hreaches⟩ := hC.exists_reaches hW hrow hcut
    obtain ⟨hcrun, habove⟩ := ((hC.command _ c hc).reaches_iff hW hrow).mp hreaches
    rw [hid] at habove
    refine ⟨c, hc, hcrun.symm.trans hrun, habove.imp_right fun habove => ?_⟩
    exact ancestor_of_registered (registry_wellFormed h.reachable_nodes) hlater.registry hn habove
  · rintro ⟨c, hc, hcrun, habove⟩
    refine (hC.command _ c hc).not_allowed (((hC.command _ c hc).reaches_iff hW hrow).mpr ?_)
    rw [hid]
    exact ⟨hrun.trans hcrun.symm, habove.imp_right fun habove => ancestor_of_le hlater.registry habove⟩

/-- **The graph of a run is honest about authority**, however the queries interleave with other
transactions. A node is shown as blocked exactly when, by the last query, a command of the run was
to it or to a node from which spawn edges lead to it; so a command that is shown has everything
below its target shown as blocked, with an effective status that is not live. And a node that is
shown as live, with a live lease, was live and allowed when its row was read. -/
theorem graph_honest (h : InTurn cfg s₀ s₁ s₂ s₃)
    (hg : getGraph (readsOf s₀ s₁ s₂ s₃) runId now = .ok g) :
    (∀ d ∈ g.nodes, d.blockingScopeId ≠ none ↔
      ∃ c, s₃.db.commands.get? c.id = some c ∧ c.runId = runId ∧
        ReflTransGen (fun p x => ⟨p, x, .spawn⟩ ∈ g.edges) c.targetNodeId d.id) ∧
    (∀ c ∈ g.commands, ∀ d ∈ g.nodes,
      ReflTransGen (fun p x => ⟨p, x, .spawn⟩ ∈ g.edges) c.targetNodeId d.id →
      d.blockingScopeId ≠ none ∧
        (d.effectiveStatus = .cancelled ∨ d.effectiveStatus = .superseded)) ∧
    ∀ d ∈ g.nodes, d.effectiveStatus.isLive = true → d.leaseState = .live →
      ∃ n, s₁.db.nodes.get? d.id = some n ∧ n.status.isLive = true ∧ n.leaseExpired now = false ∧
        (evaluateScopes s₁.db n).allowed = true ∧
        (RunRunning s₁.db runId → Live s₁.db n now) := by
  have hshape := drawn_of_getGraph hg
  obtain ⟨_, hcommands, hscopes⟩ := h.evolves
  have hW := registry_wellFormed h.reachable_nodes
  have hclosed : ∀ x ∈ s₁.db.nodeIds runId, ∀ p, s₁.db.registry.parent x = some p →
      p ∈ s₁.db.nodeIds runId := by
    rintro x ⟨n, hn, rfl⟩ p hp
    have hlink := registry_parent_of_get? hn
    exact exists_parent hW (found_of_get? hn) (hlink.symm.trans hp)
  have hcut : ∀ n, s₁.db.nodes.get? n.id = some n → n.runId = runId →
      ((evaluateScopes s₃.db n).allowed = false ↔
        ∃ c, s₃.db.commands.get? c.id = some c ∧ c.runId = runId ∧
          ReflTransGen (fun p x => ⟨p, x, .spawn⟩ ∈ g.edges) c.targetNodeId n.id) := by
    rintro n hn rfl
    rw [h.cut_iff hn]
    refine exists_congr fun c => and_congr_right fun _ => and_congr_right fun _ => ?_
    exact (reflTransGen_edge_iff hshape.spawn_iff hclosed ⟨n, hn, rfl⟩).symm
  have hblocked : ∀ d ∈ g.nodes, d.blockingScopeId ≠ none ↔
      ∃ c, s₃.db.commands.get? c.id = some c ∧ c.runId = runId ∧
        ReflTransGen (fun p x => ⟨p, x, .spawn⟩ ∈ g.edges) c.targetNodeId d.id := by
    intro d hd
    obtain ⟨n, own, hn, hrun, _, rfl⟩ := hshape.mem_nodes.mp hd
    rw [Ne, blockingScopeId_eq_none_iff (h.snapshot_ne_nil hn), Bool.not_eq_true]
    exact hcut n hn hrun
  refine ⟨hblocked, fun c hc d hd hpath => ?_, fun d hd hlive hlease => ?_⟩
  · rw [hshape.commands] at hc
    obtain ⟨c₂, hc₂, rfl⟩ := List.mem_map.mp hc
    obtain ⟨hget, hrun₂⟩ := mem_runCommands.mp hc₂
    obtain ⟨c₃, hc₃, hissued⟩ := hscopes.command c₂.id c₂ hget
    have hexists : ∃ c, s₃.db.commands.get? c.id = some c ∧ c.runId = runId ∧
        ReflTransGen (fun p x => ⟨p, x, .spawn⟩ ∈ g.edges) c.targetNodeId d.id := by
      have hid : c₃.id = c₂.id := Table.key_of_get? hc₃
      refine ⟨c₃, hid ▸ hc₃, ?_, ?_⟩
      · rw [issued_column (·.runId) (fun _ => rfl) hissued, hrun₂]
      · rw [issued_column (·.targetNodeId) (fun _ => rfl) hissued]
        exact hpath
    refine ⟨(hblocked d hd).mpr hexists, ?_⟩
    obtain ⟨n, own, hn, hrun, _, rfl⟩ := hshape.mem_nodes.mp hd
    exact effectiveStatus_of_cut ((hcut n hn hrun).mpr hexists)
  · obtain ⟨n, own, hn, rfl, _, rfl⟩ := hshape.mem_nodes.mp hd
    obtain ⟨hallowed₃, hstatus, hunexpired⟩ := graphNode_live hlive hlease
    change (evaluateScopes s₃.db n).allowed = true at hallowed₃
    have hallowed₁ : (evaluateScopes s₁.db n).allowed = true := by
      by_contra hno
      obtain ⟨n', _, hreg⟩ := (hcommands.trans hscopes).node_registration hn
      have hlater := (controlled h.reachable_nodes).cut_evolves hW (hcommands.trans hscopes) hn hreg
        (Bool.not_eq_true _ ▸ hno)
      rw [evaluateScopes_registration hreg, hallowed₃] at hlater
      cases hlater
    exact ⟨n, hn, hstatus, hunexpired, hallowed₁, fun hrunning =>
      ⟨hrunning, hstatus, hunexpired, hallowed₁⟩⟩

/-! ### An inspector at the sample run -/

/-- The command commits between the second query and the third. -/
theorem sample_inTurn : InTurn sampleConfig (sample sampleStart) (sample sampleStart)
    (sample sampleCancelled) (sample sampleCancelled) where
  reachable := sample_reachable sampleStart
  nodes := .refl
  commands := sample_run sampleStart _
  scopes := .refl

theorem graph_rooted_sample :
    ∃ g, getGraph (readsOf (sample sampleStart) (sample sampleStart) (sample sampleCancelled)
        (sample sampleCancelled)) 10 (seconds 3) = .ok g ∧
      Arborescence {x | x ∈ g.nodes.map (·.id)} (fun p x => ⟨p, x, .spawn⟩ ∈ g.edges) 11 := by
  have hrun : ((sample sampleStart).db.runs.get? 10).any (fun run => run.rootNodeId = 11) = true := by
    decide +kernel
  obtain ⟨run, hget, hroot⟩ := (Option.any_eq_true _ _).mp hrun
  obtain ⟨g, hg, _, _, htree, _⟩ := graph_rooted sample_inTurn hget (seconds 3)
  rw [decide_eq_true_eq] at hroot
  exact ⟨g, hg, hroot ▸ htree⟩

/-- The worker was live when its row was read, and is drawn as blocked. -/
theorem graph_honest_sample :
    ∃ g, getGraph (readsOf (sample sampleStart) (sample sampleStart) (sample sampleCancelled)
        (sample sampleCancelled)) 10 (seconds 3) = .ok g ∧
      ∃ d ∈ g.nodes, d.id = 20 ∧ d.declaredStatus = .active ∧ d.blockingScopeId ≠ none := by
  have hserved : (getGraph (readsOf (sample sampleStart) (sample sampleStart)
      (sample sampleCancelled) (sample sampleCancelled)) 10 (seconds 3)).toOption.any (fun g =>
        g.commands.any (fun c => c.targetNodeId = 20) &&
          g.nodes.any fun d => decide (d.id = 20) && decide (d.declaredStatus = .active)) = true := by
    decide +kernel
  obtain ⟨g, hg, hserved⟩ := (Option.any_eq_true _ _).mp hserved
  rw [Bool.and_eq_true] at hserved
  obtain ⟨c, hc, htarget⟩ := List.any_eq_true.mp hserved.1
  obtain ⟨d, hd, hfields⟩ := List.any_eq_true.mp hserved.2
  rw [Bool.and_eq_true, decide_eq_true_eq, decide_eq_true_eq] at hfields
  rw [decide_eq_true_eq] at htarget
  rw [toOption_eq_some] at hg
  refine ⟨g, hg, d, hd, hfields.1, hfields.2, ?_⟩
  refine ((graph_honest sample_inTurn hg).2.1 c hc d hd ?_).1
  rw [htarget, hfields.1]

end TraceFence
