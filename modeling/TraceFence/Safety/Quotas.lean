import TraceFence.Lib.Quota
import TraceFence.Registry.Lineage
import TraceFence.Registry.Tally

/-!
# Quotas

Every limit of an installation is checked and used up in one transaction, whichever of the services
inserts the row. A root is the one row that is inserted unchecked: it opens its run, so all its run
needs is room for one node, and that the installation makes sure of when it starts.

## Main definitions

* `Config.quotaErrors` — the limits an installation refuses to start with
* `WithinQuotas` — no limit is exceeded

## Main results

* `quotas_kept`
-/

namespace TraceFence

open System Checked

variable {cfg : Config} {w : Write} {a b db : Database} {s s' : Sys} {l : Label}

/-! ### Limits -/

/-- What `validate_security` finds wrong with the limits. -/
def Config.quotaErrors (cfg : Config) : List String :=
  let limits : List (String × ℕ × ℕ) :=
    [("TRACEFENCE_MAX_ACTIVE_RUNS", cfg.maxActiveRuns, 10000),
      ("TRACEFENCE_MAX_NODES_PER_RUN", cfg.maxNodesPerRun, 100000),
      ("TRACEFENCE_MAX_GRAPH_DEPTH", cfg.maxGraphDepth, 1000),
      ("TRACEFENCE_MAX_CHILDREN_PER_NODE", cfg.maxChildrenPerNode, 10000),
      ("TRACEFENCE_MAX_COMMANDS_PER_RUN", cfg.maxCommandsPerRun, 100000),
      ("TRACEFENCE_MAX_ACTIONS_PER_RUN", cfg.maxActionsPerRun, 1000000),
      ("TRACEFENCE_MAX_PROPOSALS_PER_RUN", cfg.maxProposalsPerRun, 100000)]
  (limits.filterMap fun (name, value, maximum) =>
    if 1 ≤ value ∧ value ≤ maximum then none else some s!"{name} must be between 1 and {maximum}") ++
  if cfg.maxNodesPerRun ≤ cfg.maxChildrenPerNode then
    ["TRACEFENCE_MAX_CHILDREN_PER_NODE must be below TRACEFENCE_MAX_NODES_PER_RUN"]
  else []

/-- A run has room for its root. -/
theorem Config.nodes_pos (h : cfg.quotaErrors = []) : 0 < cfg.maxNodesPerRun := by
  have hbelow := (List.append_eq_nil_iff.mp h).2
  split at hbelow
  · cases hbelow
  · next hlt => exact Nat.lt_of_le_of_lt (Nat.zero_le _) (not_le.mp hlt)

/-- The runs that count as active. -/
def Database.activeRuns (db : Database) : ℕ :=
  db.runs.rows.countP fun run => run.status = .created ∨ run.status = .running

/-- **No limit is exceeded.** -/
structure WithinQuotas (cfg : Config) (db : Database) : Prop where
  nodes : ∀ runId, (db.nodes.rows.countP fun n => n.runId = runId) ≤ cfg.maxNodesPerRun
  generation : ∀ n ∈ db.nodes, n.generation ≤ cfg.maxGraphDepth
  children : ∀ nodeId, (db.nodes.rows.countP fun n => n.parentId = some nodeId) ≤
    cfg.maxChildrenPerNode
  commands : ∀ runId, (db.commands.rows.countP fun c => c.runId = runId) ≤ cfg.maxCommandsPerRun
  actions : ∀ runId, (db.attempts.rows.countP fun x => x.runId = runId) ≤ cfg.maxActionsPerRun
  proposals : ∀ runId, (db.proposals.rows.countP fun p => p.runId = runId) ≤ cfg.maxProposalsPerRun
  activeRuns : db.activeRuns ≤ cfg.maxActiveRuns

/-! ### The limits of a tally -/

/-- The same for the tables whose rows are only ever added. -/
structure Tally.Within (cfg : Config) (t : Tally) : Prop where
  nodes : Capped (fun runId (r : Registration) => r.runId = runId) cfg.maxNodesPerRun t.registrations
  generation : ∀ r ∈ t.registrations, r.generation ≤ cfg.maxGraphDepth
  children : Capped (fun nodeId (r : Registration) => r.parentId = some nodeId)
    cfg.maxChildrenPerNode t.registrations
  commands : Capped (fun runId (c : ControlCommand) => c.runId = runId) cfg.maxCommandsPerRun t.orders
  actions : Capped (fun runId (x : ActionAttempt) => x.runId = runId) cfg.maxActionsPerRun t.attempts
  proposals : Capped (fun runId id => id = runId) cfg.maxProposalsPerRun t.proposals

/-- A run that has not been opened has no nodes. -/
theorem count_unopened (hW : db.registry.WellFormed) {runId : Id}
    (hrun : db.runs.get? runId = none) :
    (db.registrations.countP fun r => r.runId = runId) = 0 := by
  refine List.countP_eq_zero.mpr fun r hr => ?_
  obtain ⟨n, hn, rfl⟩ := List.mem_map.mp hr
  obtain ⟨f, hf⟩ := hW.exists_run (registry_node_of_get? (Table.get?_of_mem hn))
  obtain ⟨run, hfound, _⟩ := Option.map_eq_some_iff.mp hf
  rw [decide_eq_true_eq]
  intro heq
  rw [heq, hrun] at hfound
  cases hfound

/-- The children of a node are of its run, so counting them in the run counts them all. -/
theorem count_children (hW : db.registry.WellFormed) {parent : Node}
    (found : db.nodes.get? parent.id = some parent) :
    (db.nodes.rows.countP fun n => n.runId = parent.runId ∧ n.parentId = some parent.id) =
      db.registrations.countP fun r => r.parentId = some parent.id := by
  rw [Database.registrations, List.countP_map]
  refine List.countP_congr fun n hn => ?_
  rw [Function.comp_apply, decide_eq_true_eq, decide_eq_true_eq]
  change _ ↔ n.parentId = some parent.id
  refine ⟨fun h => h.2, fun hp => ⟨?_, hp⟩⟩
  obtain ⟨q, hq, hrun⟩ := exists_parent hW (Table.get?_of_mem hn) hp
  rw [Option.some.inj (found.symm.trans hq), hrun]

/-- A checked registration keeps the limits on nodes. -/
theorem Enrols.within {node : Node} (h : Enrols cfg a node) (hW : a.registry.WellFormed)
    (hroom : 0 < cfg.maxNodesPerRun) (ha : a.tally.Within cfg) :
    Tally.Within cfg
      { a.tally with registrations := a.tally.registrations ++ [node.registration] } := by
  -- The three limits a registration is checked against.
  have hlimits : (∀ k, node.runId = k →
        (a.registrations.countP fun r => r.runId = k) < cfg.maxNodesPerRun) ∧
      node.generation ≤ cfg.maxGraphDepth ∧ ∀ k, node.parentId = some k →
        (a.registrations.countP fun r => r.parentId = some k) < cfg.maxChildrenPerNode := by
    cases h with
    | root orphan generation opened =>
      refine ⟨?_, generation ▸ Nat.zero_le _, fun k hk => ?_⟩
      · rintro k rfl
        rw [count_unopened hW opened]
        exact hroom
      · rw [orphan] at hk
        cases hk
    | child parent found link run generation budget _ =>
      simp only [enforceGraphBudget, bind_eq_ok, ensure_eq_ok] at budget
      obtain ⟨_, hdepth, _, hnodes, hchildren⟩ := budget
      refine ⟨?_, generation ▸ hdepth, fun k hk => ?_⟩
      · rintro k rfl
        rw [run, Database.registrations, List.countP_map]
        exact hnodes
      · rw [link] at hk
        rw [← Option.some.inj hk, ← count_children hW found]
        exact hchildren
  obtain ⟨hnodes, hgeneration, hchildren⟩ := hlimits
  refine ⟨ha.nodes.concat ?_, fun r hr => ?_, ha.children.concat ?_, ha.commands, ha.actions,
    ha.proposals⟩
  · intro k hk
    exact hnodes k (of_decide_eq_true hk)
  · rcases List.mem_append.mp hr with hold | hnew
    · exact ha.generation r hold
    · rw [List.mem_singleton.mp hnew]
      exact hgeneration
  · intro k hk
    exact hchildren k (of_decide_eq_true hk)

/-- **One row more keeps every limit.** -/
theorem Inserts.within {t : Tally} (h : Inserts cfg a t) (hW : a.registry.WellFormed)
    (hroom : 0 < cfg.maxNodesPerRun) (ha : a.tally.Within cfg) : t.Within cfg := by
  cases h with
  | nothing => exact ha
  | node node enrols => exact enrols.within hW hroom ha
  | command command room =>
    refine { ha with commands := ha.commands.concat fun k hk => ?_ }
    obtain rfl : command.runId = k := of_decide_eq_true hk
    change (a.commands.rows.map ControlCommand.issued).countP _ < _
    rw [List.countP_map]
    exact room
  | attempt attempt room =>
    refine { ha with actions := ha.actions.concat fun k hk => ?_ }
    obtain rfl : attempt.runId = k := of_decide_eq_true hk
    exact room
  | proposal runId room =>
    refine { ha with proposals := ha.proposals.concat fun k hk => ?_ }
    obtain rfl : runId = k := of_decide_eq_true hk
    change (a.proposals.rows.map fun p => p.runId).countP _ < _
    rw [List.countP_map]
    exact room

theorem tally_within (hcfg : cfg.quotaErrors = []) (h : (services cfg).Reachable s) :
    s.db.tally.Within cfg := by
  refine h.invariant (I := fun s => s.db.tally.Within cfg) ?_ fun s l s' hs ha hstep => ?_
  · exact ⟨.nil, fun _ hr => absurd hr List.not_mem_nil, .nil, .nil, .nil, .nil⟩
  · exact (step_inserts hstep).within (registry_wellFormed hs) (Config.nodes_pos hcfg) ha

/-! ### Active runs -/

/-- A run that has ended is not active. -/
theorem active_transitionRun {runs runs' : Table Run} {run : Run} {target : RunStatus}
    {finishedAt : Time} (h : transitionRun runs run target finishedAt = .ok runs')
    (terminal : target.isTerminal = true) :
    (runs'.rows.countP fun run => run.status = .created ∨ run.status = .running) ≤
      runs.rows.countP fun run => run.status = .created ∨ run.status = .running := by
  obtain ⟨_, _, rfl⟩ := transitionRun_eq_ok.mp h
  rw [Table.rows_modify, List.countP_map]
  refine List.countP_mono_left fun r _ hr => ?_
  rw [Function.comp_apply, decide_eq_true_eq] at hr
  split at hr
  · rcases hr with rfl | rfl <;> cases terminal
  · exact decide_eq_true hr

/-- An effect that opens no run makes none active. -/
theorem Effect.activeRuns_le (h : Effect cfg w a b) (hw : ∀ root, w ≠ .registerRun root) :
    b.activeRuns ≤ a.activeRuns := by
  cases h with
  | registerRun => exact absurd rfl (hw _)
  | record | registerNode | registerReplacement | rotateIntent | rotateToken | renew | converge
  | expireHeartbeat | expireSweep | checkpoint | states | deny | allow => exact le_rfl
  | activate =>
    rw [Database.activeRuns, runs_advanceReplacement]
    exact le_rfl
  | expireScanner _ _ failed =>
    rw [failRun] at failed
    split at failed
    · cases failed
      rw [Database.activeRuns, (expireActivation_frame _).2.2]
      exact le_rfl
    · simp only [bind_eq_ok, pure_eq_ok] at failed
      obtain ⟨runs, hruns, rfl⟩ := failed
      rw [(expireActivation_frame _).2.2] at hruns
      exact active_transitionRun hruns rfl
  | complete _ _ _ _ finish =>
    rw [Database.activeRuns, runs_advanceReplacement]
    split at finish
    · exact active_transitionRun finish rfl
    · rw [finish]
      exact le_rfl
  | issue _ _ _ _ _ _ _ _ finish =>
    rw [cancelledRuns] at finish
    split at finish
    · exact active_transitionRun finish rfl
    · cases finish
      exact le_rfl

theorem Writes.activeRuns_le {P : Write → Prop} (h : Writes cfg P a b)
    (hP : ∀ root, ¬P (.registerRun root)) : b.activeRuns ≤ a.activeRuns :=
  h.relate (R := fun a b => b.activeRuns ≤ a.activeRuns) (fun _ => le_rfl)
    (fun _ _ _ h h' => h'.trans h) fun _ _ _ hw he => he.activeRuns_le fun root heq => hP root (heq ▸ hw)

/-- A run is opened after the active runs have been counted. -/
theorem createRun_activeRuns {request : RunCreate} {env : Env} {now : Time} {c : Commit RunCreated}
    (h : createRun cfg db request env now = .ok c) : c.db.activeRuns ≤ cfg.maxActiveRuns := by
  simp only [createRun, bind_eq_ok, ensure_eq_ok, require_eq_ok, pure_eq_ok] at h
  obtain ⟨_, _, _, hroom, runs, hruns, _, _, _, _, _, _, rfl⟩ := h
  rw [Database.activeRuns, (Table.insert?_eq_some_iff.mp hruns).2, List.countP_append]
  exact Nat.succ_le_of_lt hroom

/-- A step leaves no more active runs than there were, or than there may be. -/
theorem step_activeRuns (h : (services cfg).Step s l s') :
    s'.db.activeRuns ≤ s.db.activeRuns ∨ s'.db.activeRuns ≤ cfg.maxActiveRuns := by
  refine step_commits (R := fun a b => b.activeRuns ≤ a.activeRuns ∨ b.activeRuns ≤ cfg.maxActiveRuns)
    h (Or.inl le_rfl) (fun call env c _ hc => Or.inl ?_) fun index env f c _ hf hc => ?_
  · refine ((call_booked hc).writes .record).activeRuns_le fun root hw => ?_
    cases hw
  · by_cases hcreate : ∃ request now, f = .createRun request now
    · obtain ⟨request, now, rfl⟩ := hcreate
      simp only [InFlight.commit, map_eq_ok] at hc
      obtain ⟨c', hc, rfl⟩ := hc
      exact Or.inr (createRun_activeRuns hc)
    · refine Or.inl (((finish_entries hf hc).booked.writes .record).activeRuns_le fun root hw => ?_)
      cases hw with
      | registerRun call => exact hcreate ⟨_, _, Option.some.inj (hf.symm.trans call)⟩

theorem activeRuns_le (h : (services cfg).Reachable s) : s.db.activeRuns ≤ cfg.maxActiveRuns :=
  h.invariant (I := fun s => s.db.activeRuns ≤ cfg.maxActiveRuns) (Nat.zero_le _)
    fun _ _ _ _ hs hstep => (step_activeRuns hstep).elim (·.trans hs) id

/-! ### The theorem -/

/-- **Quotas.** No limit of an installation that starts is exceeded in any reachable state, whoever
calls the services and in whatever order: the nodes of a run, the generation and the children of a
node, the commands, attempts and proposals of a run, and the active runs. -/
theorem quotas_kept (hcfg : cfg.quotaErrors = []) (h : (services cfg).Reachable s) :
    WithinQuotas cfg s.db := by
  have ht := tally_within hcfg h
  refine ⟨fun runId => ?_, fun n hn => ?_, fun nodeId => ?_, fun runId => ?_, ht.actions,
    fun runId => ?_, activeRuns_le h⟩
  · exact capped_map.mp ht.nodes runId
  · exact ht.generation n.registration (List.mem_map_of_mem hn)
  · exact capped_map.mp ht.children nodeId
  · exact capped_map.mp ht.commands runId
  · exact capped_map.mp ht.proposals runId

/-- The sample installation starts, and its sample run is within the limits. -/
theorem quotas_kept_sample : WithinQuotas sampleConfig (sample sampleCancelled).db :=
  quotas_kept (by decide +kernel) (sample_reachable _)

end TraceFence
