import TraceFence.Registry.Evaluation
import TraceFence.Registry.Refinement

/-!
# Where a row comes from

What each write can do to each table, said once. Every lemma reads an effect backwards from a row
of the later database: the row was inserted by the write, or a row with its key was there before
and one step of a small relation leads from the old to the new. Invariants are then proved by
cases on these relations, and no longer on the effects.

## Main definitions

* `NodeStep`, `CommandStep`, `ScopeStep`, `RunStep` — what a write does to a row
* `ControlCommand.issued` — the fields of a command fixed when it is issued
* `RootBirth`, `Birth` — how a root and a child are registered
* `Issuance` — the guards a command was issued under
* `Admission` — the guards an attempt was admitted under

## Main results

* `Effect.node_cases`, `Effect.command_cases`, `Effect.scope_cases`, `Effect.run_cases`
* `Effect.attempts_cases`
-/

namespace TraceFence

open Checked

variable {cfg : Config} {w : Write} {a b : Database}

/-! ### Nodes -/

/-- The node whose row a write is about. Only `rotate` does not say. -/
def Write.subject : Write → Option Id
  | .activate at' | .renew at' | .converge _ at' | .expire _ at' | .complete at' => some at'.node.id
  | .checkpoint read _ _ => some read.id
  | _ => none

/-- The standing a write is outlined with. -/
def Write.standing : Write → Option Standing
  | .activate at' | .renew at' | .converge _ at' | .expire _ at' | .complete at'
  | .allow at' _ _ => some at'
  | .checkpoint _ _ found => found
  | _ => none

/-- It is that of the row the write finds. -/
theorem Effect.found_standing (h : Effect cfg w a b) {at' : Standing} (hw : w.standing = some at') :
    at' = standing a at'.node ∧ a.nodes.get? at'.node.id = some at'.node := by
  have hfound {node : Node} (found : a.nodes.get? node.id = some node)
      (he : some (standing a node) = some at') :
      at' = standing a at'.node ∧ a.nodes.get? at'.node.id = some at'.node := by
    obtain rfl := Option.some.inj he
    exact ⟨rfl, found⟩
  cases h with
  | record | registerRun | registerNode | registerReplacement | rotateIntent | rotateToken | issue
  | states | deny => cases hw
  | activate _ _ found | renew found | converge found | expireHeartbeat found | expireSweep found
  | expireScanner found | complete _ found | allow found => exact hfound found hw
  | checkpoint =>
    obtain ⟨node, hnode, rfl⟩ := Option.map_eq_some_iff.mp hw
    exact ⟨rfl, found_of_get? hnode⟩

/-- **The life of a node's row**, one write at a time. -/
inductive NodeStep (cfg : Config) : Write → Node → Node → Prop
  | same {w : Write} {n : Node} (untouched : w.subject ≠ some n.id) : NodeStep cfg w n n
  | token {n : Node} (tokenHash : Digest) (live : n.status.isLive = true) :
      NodeStep cfg .rotate n { n with tokenHash := some tokenHash }
  | activate {at' : Standing} (request : NodeActivate) (tokenHash : Digest) (now : Time)
      (pending : at'.node.status = .pending) (tokenless : at'.node.tokenHash = none) :
      NodeStep cfg (.activate at') at'.node
        (at'.node.activated request tokenHash now (now + seconds cfg.leaseTtlSeconds))
  | renew {at' : Standing} (now : Time) (live : at'.node.status.isLive = true)
      (lease : at'.node.leaseExpired now = false) :
      NodeStep cfg (.renew at') at'.node
        { at'.node with
          lastHeartbeatAt := some now
          leaseExpiresAt := some (now + seconds cfg.leaseTtlSeconds) }
  | converge {path : Path} {at' : Standing} (status : NodeStatus)
      (live : at'.node.status.isLive = true) (cut : status = .cancelled ∨ status = .superseded) :
      NodeStep cfg (.converge path at') at'.node { at'.node with status := status }
  | expire {path : Path} {at' : Standing}
      (before : at'.node.status.isLive = true ∨ at'.node.status = .pending) :
      NodeStep cfg (.expire path at') at'.node { at'.node with status := .leaseExpired }
  | checkpoint {read : Node} {status : NodeStatus} {at' : Standing} (row : at'.node.id = read.id) :
      NodeStep cfg (.checkpoint read status (some at')) at'.node { at'.node with status := status }
  | complete {at' : Standing} (completedAt : Time) (live : at'.node.status.isLive = true) :
      NodeStep cfg (.complete at') at'.node
        { at'.node with
          status := .completed
          completedAt := some completedAt }

theorem NodeStep.registration {n n' : Node} (h : NodeStep cfg w n n') :
    n'.registration = n.registration := by
  cases h <;> rfl

/-- The rows of a rewrite of one node. -/
theorem nodeStep_modify {nodes : Table Node} {node : Node} {f : Node → Node} {id : Id} {n' : Node}
    (found : nodes.get? node.id = some node) (subject : w.subject = some node.id)
    (step : NodeStep cfg w node (f node)) (hf : ∀ r, Keyed.key (f r) = Keyed.key r)
    (h : (nodes.modify node.id f hf).get? id = some n') :
    ∃ n, nodes.get? id = some n ∧ NodeStep cfg w n n' := by
  obtain ⟨n, hn, ⟨rfl, rfl⟩ | ⟨hne, rfl⟩⟩ := Table.get?_modify_cases hf h
  · obtain rfl := Option.some.inj (found.symm.trans hn)
    exact ⟨_, hn, step⟩
  · refine ⟨n', hn, .same ?_⟩
    have hkey : n'.id = id := Table.key_of_get? hn
    rw [subject, hkey]
    exact fun he => hne (Option.some.inj he).symm

theorem nodes_advanceReplacement (db : Database) (commandId : Option Id)
    (status : ReplacementStatus) : (advanceReplacement db commandId status).nodes = db.nodes := by
  cases commandId <;> rfl

theorem sweepExpired_before {db : Database} {node : Node} {now : Time}
    (h : sweepExpired db node now = true) :
    node.status.isLive = true ∨ node.status = .pending := by
  rw [sweepExpired] at h
  split at h
  · next hl => exact Or.inl hl
  · split at h
    · next hp => exact Or.inr hp
    · cases h

theorem stale_before {db : Database} {node : Node} {runId : Option Id} {now : Time}
    (h : staleLease runId now node = true ∨ staleIntent db runId now node = true) :
    node.status.isLive = true ∨ node.status = .pending := by
  rcases h with h | h
  · simp only [staleLease, Bool.and_eq_true] at h
    exact Or.inl h.1.1
  · simp only [staleIntent, Bool.and_eq_true, decide_eq_true_eq] at h
    exact Or.inr h.1.1

/-- **Where the row of a node comes from.** -/
theorem Effect.node_cases (h : Effect cfg w a b) {id : Id} {n' : Node}
    (hn : b.nodes.get? id = some n') :
    (a.nodes.get? id = none ∧ (w = .registerRun n' ∨ w = .registerNode n')) ∨
      ∃ n, a.nodes.get? id = some n ∧ NodeStep cfg w n n' := by
  cases h with
  | record | rotateIntent | states | deny | allow | issue => exact Or.inr ⟨n', hn, .same (Option.some_ne_none _).symm⟩
  | registerRun _ _ _ root =>
    rcases Table.get?_insert?_cases root hn with ⟨hnone, _, rfl⟩ | hn
    · exact Or.inl ⟨hnone, Or.inl rfl⟩
    · exact Or.inr ⟨n', hn, .same (Option.some_ne_none _).symm⟩
  | registerNode _ _ _ _ node | registerReplacement _ _ _ _ _ _ _ _ _ node =>
    rcases Table.get?_insert?_cases node hn with ⟨hnone, _, rfl⟩ | hn
    · exact Or.inl ⟨hnone, Or.inr rfl⟩
    · exact Or.inr ⟨n', hn, .same (Option.some_ne_none _).symm⟩
  | @rotateToken _ node tokenHash found status =>
    obtain ⟨n, hm, ⟨rfl, rfl⟩ | ⟨_, rfl⟩⟩ := Table.get?_modify_cases (by intro; rfl) hn
    · obtain rfl := Option.some.inj (found.symm.trans hm)
      exact Or.inr ⟨_, hm, .token tokenHash status⟩
    · exact Or.inr ⟨_, hm, .same (Option.some_ne_none _).symm⟩
  | activate request tokenHash found _ _ _ pending tokenless =>
    rw [nodes_advanceReplacement] at hn
    exact Or.inr (nodeStep_modify found rfl (.activate request tokenHash _ pending tokenless)
      (by intro; rfl) hn)
  | renew found live =>
    exact Or.inr (nodeStep_modify found rfl (.renew _ live.status live.lease) (by intro; rfl) hn)
  | converge found _ status _ scopes =>
    exact Or.inr (nodeStep_modify found rfl
      (.converge _ status (effectiveStatus_of_not_allowed scopes)) (by intro; rfl) hn)
  | expireHeartbeat found _ status =>
    exact Or.inr (nodeStep_modify found rfl (.expire (Or.inl status)) (by intro; rfl) hn)
  | expireSweep found _ expired =>
    exact Or.inr (nodeStep_modify found rfl (.expire (sweepExpired_before expired))
      (by intro; rfl) hn)
  | expireScanner found stale failed =>
    rw [(failRun_frame failed).2.1, (expireActivation_frame _).2.1] at hn
    exact Or.inr (nodeStep_modify found rfl (.expire (stale_before stale)) (by intro; rfl) hn)
  | @checkpoint _ read status =>
    obtain ⟨n, hm, ⟨rfl, rfl⟩ | ⟨hne, rfl⟩⟩ := Table.get?_modify_cases (by intro; rfl) hn
    · refine Or.inr ⟨n, hm, ?_⟩
      rw [hm]
      exact .checkpoint (Table.key_of_get? hm)
    · refine Or.inr ⟨_, hm, .same fun he => hne ?_⟩
      exact (Table.key_of_get? hm).symm.trans (Option.some.inj he).symm
  | complete completedAt found live =>
    rw [nodes_advanceReplacement] at hn
    exact Or.inr (nodeStep_modify found rfl (.complete completedAt live.status)
      (by intro; rfl) hn)

/-- A node keeps its row, one step later. -/
theorem Effect.node_step (h : Effect cfg w a b) {id : Id} {n : Node}
    (hn : a.nodes.get? id = some n) : ∃ n', b.nodes.get? id = some n' ∧ NodeStep cfg w n n' := by
  have hr := h.registry_le.node id _ (registry_node_of_get? hn)
  obtain ⟨n', hn', _⟩ := Option.map_eq_some_iff.mp hr
  rcases h.node_cases hn' with ⟨hnone, _⟩ | ⟨m, hm, hstep⟩
  · rw [hnone] at hn
    cases hn
  · obtain rfl := Option.some.inj (hn.symm.trans hm)
    exact ⟨n', hn', hstep⟩

/-! ### New nodes -/

/-- A registered node is a new row. -/
theorem Effect.registered {n : Node} (h : Effect cfg w a b)
    (hw : w = .registerRun n ∨ w = .registerNode n) :
    a.nodes.get? n.id = none ∧ b.nodes.get? n.id = some n := by
  have hrow {nodes : Table Node} (node : a.nodes.insert? n = some nodes) :
      a.nodes.get? n.id = none ∧ nodes.get? n.id = some n := by
    refine ⟨get?_none_of_insert? node, ?_⟩
    rw [Table.get?_of_insert? node]
    exact if_pos rfl
  rcases hw with rfl | rfl
  · cases h with
    | registerRun _ _ _ root => exact hrow root
  · cases h with
    | registerNode _ _ _ _ node => exact hrow node
    | registerReplacement _ _ _ _ _ _ _ _ _ node => exact hrow node

/-- A replacement is registered for a correction that has none in use. -/
structure Commission (a : Database) (child parent : Node) (c : ControlCommand) : Prop where
  found : a.commands.get? c.id = some c
  cause : child.causedByCommandId = some c.id
  correction : c.commandType = .correctSubtree
  run : c.runId = parent.runId
  retry : checkRetry a c = .ok ()
  lineage : ∃ old, checkCorrectionLineage a parent c = .ok old

/-- **How a child is registered**: pending, under a live parent, whose snapshot it extends by a
scope of its own; as a plain child within its parent's budget, or as a replacement. -/
structure Birth (a : Database) (child parent : Node) : Prop where
  found : a.nodes.get? parent.id = some parent
  live : ∃ now, Live a parent now
  link : child.parentId = some parent.id
  run : child.runId = parent.runId
  snapshot : child.scopeSnapshot = parent.scopeSnapshot ++ [⟨child.ownScopeId, 1⟩]
  fresh : a.scopes.get? child.ownScopeId = none
  pending : child.status = .pending
  tokenless : child.tokenHash = none
  dormant : child.activatedAt = none
  origin : (child.causedByCommandId = none ∧ enforceParentChildBudget a parent = .ok ()) ∨
    ∃ c, Commission a child parent c

theorem Effect.birth {child : Node} (h : Effect cfg (.registerNode child) a b) :
    ∃ parent, Birth a child parent := by
  cases h with
  | @registerNode _ parent _ _ _ _ _ found live budget scope =>
    exact ⟨parent, found, ⟨_, live⟩, rfl, rfl, rfl, get?_none_of_insert? scope, rfl, rfl, rfl,
      Or.inl ⟨rfl, budget⟩⟩
  | @registerReplacement _ parent _ c _ _ _ _ _ _ found live commandFound check retry lineage _
      supersession scope =>
    simp only [checkReplacementCommand, bind_eq_ok, ensure_eq_ok] at check
    obtain ⟨_, hcorrection, _, hrun, _⟩ := check
    have hcause := congrArg Supersession.causedByCommandId supersession
    exact ⟨parent, found, ⟨_, live⟩, rfl, rfl, rfl, get?_none_of_insert? scope, rfl, rfl, rfl,
      Or.inr ⟨c, commandFound, hcause, hcorrection, hrun, retry, _, lineage⟩⟩

/-- **How a root is registered**: active, with the scope of its run and a scope of its own. -/
structure RootBirth (a : Database) (root : Node) : Prop where
  orphan : root.parentId = none
  uncaused : root.causedByCommandId = none
  active : root.status = .active
  token : root.tokenHash ≠ none
  activated : root.activatedAt ≠ none
  runFresh : a.runs.get? root.runId = none
  fresh : ∀ item ∈ root.scopeSnapshot, a.scopes.get? item.scopeId = none

theorem Effect.root_birth {root : Node} (h : Effect cfg (.registerRun root) a b) :
    RootBirth a root := by
  cases h with
  | registerRun run runScope rootScope =>
    refine ⟨rfl, rfl, rfl, Option.some_ne_none _, Option.some_ne_none _, get?_none_of_insert? run,
      fun item hitem => ?_⟩
    have hrun := get?_none_of_insert? runScope
    have hroot := get?_none_of_insert? rootScope
    rw [Table.get?_of_insert? runScope] at hroot
    rcases List.mem_pair.mp hitem with rfl | rfl
    · exact hrun
    · split at hroot
      · cases hroot
      · exact hroot

/-! ### Scopes -/

/-- What a write does to the row of a scope. -/
inductive ScopeStep : Write → ControlScope → ControlScope → Prop
  | same {w : Write} {s : ControlScope} (untouched : ∀ c, w = .issue c → c.targetScopeId ≠ s.id) :
      ScopeStep w s s
  | invalidate {c : ControlCommand} {s : ControlScope} (issuerNodeId : Option Id)
      (updatedAt : Time) (target : c.targetScopeId = s.id) (active : s.status = .active)
      (fromVersion : c.fromVersion = s.version) :
      ScopeStep (.issue c) s
        { s with
          version := s.version + 1
          status := c.commandType.scopeStatus
          updatedByNodeId := issuerNodeId
          reasonCode := some c.reasonCode
          updatedAt := updatedAt }

/-- A write that issues nothing changes no scope. -/
theorem ScopeStep.unissued {s : ControlScope} (hw : ∀ c, w ≠ .issue c) : ScopeStep w s s :=
  .same fun c h => absurd h (hw c)

theorem scopes_advanceReplacement (db : Database) (commandId : Option Id)
    (status : ReplacementStatus) : (advanceReplacement db commandId status).scopes = db.scopes := by
  cases commandId <;> rfl

/-- **Where the row of a scope comes from.** -/
theorem Effect.scope_cases (h : Effect cfg w a b) {id : Id} {s' : ControlScope}
    (hs : b.scopes.get? id = some s') :
    (a.scopes.get? id = none ∧ s'.status = .active ∧ s'.version = 1) ∨
      ∃ s, a.scopes.get? id = some s ∧ ScopeStep w s s' := by
  cases h with
  | record | rotateIntent | rotateToken | renew | converge | expireHeartbeat | expireSweep
  | checkpoint | states | deny | allow => exact Or.inr ⟨s', hs, .unissued (by simp)⟩
  | activate | complete =>
    rw [scopes_advanceReplacement] at hs
    exact Or.inr ⟨s', hs, .unissued (by simp)⟩
  | expireScanner _ _ failed =>
    rw [(failRun_frame failed).1.scopes, (expireActivation_frame _).1.scopes] at hs
    exact Or.inr ⟨s', hs, .unissued (by simp)⟩
  | registerRun _ runScope rootScope =>
    rcases Table.get?_insert?_cases rootScope hs with ⟨hnone, _, rfl⟩ | hs
    · refine Or.inl ⟨?_, rfl, rfl⟩
      rw [Table.get?_of_insert? runScope] at hnone
      split at hnone
      · cases hnone
      · exact hnone
    · rcases Table.get?_insert?_cases runScope hs with ⟨hnone, _, rfl⟩ | hs
      · exact Or.inl ⟨hnone, rfl, rfl⟩
      · exact Or.inr ⟨s', hs, .unissued (by simp)⟩
  | registerNode _ _ _ scope | registerReplacement _ _ _ _ _ _ _ _ scope =>
    rcases Table.get?_insert?_cases scope hs with ⟨hnone, _, rfl⟩ | hs
    · exact Or.inl ⟨hnone, rfl, rfl⟩
    · exact Or.inr ⟨s', hs, .unissued (by simp)⟩
  | @issue _ _ _ _ _ _ scope plan _ _ _ _ _ _ _ _ _ scopeFound _ active =>
    have hkey : scope.id = plan.targetScopeId := Table.key_of_get? scopeFound
    rw [← hkey] at scopeFound
    obtain ⟨s, hm, ⟨rfl, rfl⟩ | ⟨hne, rfl⟩⟩ := Table.get?_modify_cases (by intro; rfl) hs
    · obtain rfl := Option.some.inj (scopeFound.symm.trans hm)
      exact Or.inr ⟨_, hm, .invalidate _ _ hkey.symm active rfl⟩
    · refine Or.inr ⟨_, hm, .same fun c hc he => hne ?_⟩
      cases hc
      exact (Table.key_of_get? hm).symm.trans (he.symm.trans hkey.symm)

/-- A scope keeps its row, one step later. -/
theorem Effect.scope_step (h : Effect cfg w a b) {id : Id} {s : ControlScope}
    (hs : a.scopes.get? id = some s) : ∃ s', b.scopes.get? id = some s' ∧ ScopeStep w s s' := by
  obtain ⟨s', hs', _⟩ := Option.map_eq_some_iff.mp
    (h.registry_le.scope id _ (registry_scope_of_get? hs))
  rcases h.scope_cases hs' with ⟨hnone, _⟩ | ⟨m, hm, hstep⟩
  · rw [hnone] at hs
    cases hs
  · obtain rfl := Option.some.inj (hs.symm.trans hm)
    exact ⟨s', hs', hstep⟩

/-! ### Runs -/

/-- The run a write ends, as far as the write shows it. -/
def Write.ends (w : Write) (r : Run) : Prop :=
  match w with
  | .complete at' => at'.node.runId = r.id ∧ at'.node.id = r.rootNodeId
  | .expire .scanner at' => at'.node.runId = r.id ∧ at'.node.id = r.rootNodeId ∧ r.status = .running
  | .issue c => c.runId = r.id ∧ c.commandType = .cancelRun
  | _ => False

/-- The status a write ends a run with. -/
def Write.verdict : Write → RunStatus
  | .complete _ => .completed
  | .issue _ => .cancelled
  | _ => .failed

/-- What a write does to the row of a run. -/
inductive RunStep : Write → Run → Run → Prop
  | same {w : Write} {r : Run} (open' : ¬ w.ends r) : RunStep w r r
  | finish {w : Write} {r : Run} (finishedAt : Time) (ends : w.ends r) (running : r.status = .running) :
      RunStep w r
        { r with
          status := w.verdict
          finishedAt := some finishedAt }

theorem runStep_transitionRun {runs runs' : Table Run} {run : Run} {finishedAt : Time} {id : Id}
    {r' : Run} (h : transitionRun runs run w.verdict finishedAt = .ok runs')
    (terminal : w.verdict.isTerminal = true) (found : runs.get? run.id = some run)
    (running : run.status = .running) (ends : w.ends run)
    (only : ∀ r, runs.get? id = some r → w.ends r → id = run.id) (hr : runs'.get? id = some r') :
    ∃ r, runs.get? id = some r ∧ RunStep w r r' := by
  obtain ⟨_, _, rfl⟩ := transitionRun_eq_ok.mp h
  obtain ⟨r, hm, ⟨rfl, rfl⟩ | ⟨hne, rfl⟩⟩ := Table.get?_modify_cases (by intro; rfl) hr
  · obtain rfl := Option.some.inj (found.symm.trans hm)
    rw [if_pos terminal]
    exact ⟨_, hm, .finish _ ends running⟩
  · exact ⟨r', hm, .same fun he => hne (only r' hm he)⟩

theorem runs_advanceReplacement (db : Database) (commandId : Option Id)
    (status : ReplacementStatus) : (advanceReplacement db commandId status).runs = db.runs := by
  cases commandId <;> rfl

/-- **Where the row of a run comes from.** -/
theorem Effect.run_cases (h : Effect cfg w a b) {id : Id} {r' : Run} (hr : b.runs.get? id = some r') :
    (a.runs.get? id = none ∧ r'.status = .running ∧ r'.finishedAt = none ∧
        ∃ root, w = .registerRun root ∧ root.runId = id ∧ root.id = r'.rootNodeId) ∨
      ∃ r, a.runs.get? id = some r ∧ RunStep w r r' := by
  cases h with
  | record | rotateIntent | rotateToken | renew | converge | expireHeartbeat | expireSweep
  | checkpoint | states | deny | allow | registerNode | registerReplacement =>
    exact Or.inr ⟨r', hr, .same nofun⟩
  | activate =>
    rw [runs_advanceReplacement] at hr
    exact Or.inr ⟨r', hr, .same nofun⟩
  | registerRun run =>
    rcases Table.get?_insert?_cases run hr with ⟨hnone, hid, rfl⟩ | hr
    · exact Or.inl ⟨hnone, rfl, rfl, _, rfl, hid.symm, rfl⟩
    · exact Or.inr ⟨r', hr, .same nofun⟩
  | @expireScanner _ _ node runId now found stale failed =>
    rw [failRun, (expireActivation_frame _).2.2] at failed
    split at failed
    · next hnone =>
      cases failed
      rw [(expireActivation_frame _).2.2] at hr
      refine Or.inr ⟨r', hr, .same fun he => ?_⟩
      obtain ⟨hrun, hroot, hrunning⟩ := he
      rw [Option.filter_eq_none_iff] at hnone
      refine hnone r' ?_ ?_
      · change a.runs.get? node.runId = some r'
        rw [show node.runId = r'.id from hrun, show r'.id = id from Table.key_of_get? hr]
        exact hr
      · simpa using ⟨hroot.symm, hrunning⟩
    · next run hsome =>
      simp only [bind_eq_ok, pure_eq_ok] at failed
      obtain ⟨runs, hruns, rfl⟩ := failed
      simp only [Option.filter_eq_some_iff, decide_eq_true_eq] at hsome
      obtain ⟨hrun, hroot, hrunning⟩ := hsome
      have hkey : run.id = node.runId := Table.key_of_get? hrun
      refine Or.inr (runStep_transitionRun (w := .expire .scanner (standing a node)) hruns rfl
        (hkey ▸ hrun) hrunning ⟨hkey.symm, hroot.symm, hrunning⟩ ?_ hr)
      rintro r hr ⟨he, _⟩
      exact (Table.key_of_get? hr).symm.trans (he.symm.trans hkey.symm)
  | @complete _ node run now finishedAt _ runs _ found live runFound finish =>
    rw [runs_advanceReplacement] at hr
    have hkey : run.id = node.runId := Table.key_of_get? runFound
    have hrunning : run.status = .running := by
      obtain ⟨row, hrow, hs⟩ := live.running
      rwa [← Option.some.inj (hrow.symm.trans runFound)]
    split at finish
    · next hroot =>
      refine Or.inr (runStep_transitionRun (w := .complete (standing a node)) finish rfl
        (hkey ▸ runFound) hrunning ⟨hkey.symm, hroot.symm⟩ ?_ hr)
      rintro r hr ⟨he, _⟩
      exact (Table.key_of_get? hr).symm.trans (he.symm.trans hkey.symm)
    · next hroot =>
      subst finish
      refine Or.inr ⟨r', hr, .same fun he => hroot ?_⟩
      have hid : id = node.runId := (Table.key_of_get? hr).symm.trans he.1.symm
      rw [hid, runFound] at hr
      cases hr
      exact he.2.symm
  | @issue _ request principal issuer run target scope plan source env runs commands targetFound
      runFound running _ _ _ _ _ finish =>
    have hkey : run.id = target.runId := Table.key_of_get? runFound
    rw [cancelledRuns] at finish
    split at finish
    · next htype =>
      refine Or.inr (runStep_transitionRun (w := .issue (newCommand cfg request principal issuer run
        target source plan scope.version env)) finish rfl (hkey ▸ runFound) running ⟨rfl, htype⟩ ?_ hr)
      rintro r hr ⟨he, _⟩
      exact (Table.key_of_get? hr).symm.trans he.symm
    · next htype =>
      cases finish
      exact Or.inr ⟨r', hr, .same fun he => htype he.2⟩

/-- A run keeps its row, one step later. -/
theorem Effect.run_step (h : Effect cfg w a b) {id : Id} {r : Run} (hr : a.runs.get? id = some r) :
    ∃ r', b.runs.get? id = some r' ∧ RunStep w r r' := by
  obtain ⟨r', hr', _⟩ := Option.map_eq_some_iff.mp
    (h.registry_le.run id _ (registry_run_of_get? hr))
  rcases h.run_cases hr' with ⟨hnone, _⟩ | ⟨m, hm, hstep⟩
  · rw [hnone] at hr
    cases hr
  · obtain rfl := Option.some.inj (hr.symm.trans hm)
    exact ⟨r', hr', hstep⟩

/-! ### Commands -/

/-- The command whose replacement a write is about. -/
def Write.cause : Write → Option Id
  | .registerNode child => child.causedByCommandId
  | .activate at' | .expire .scanner at' | .complete at' => at'.node.causedByCommandId
  | _ => none

/-- A command without the two columns that follow its replacement. -/
def ControlCommand.issued (c : ControlCommand) : ControlCommand :=
  { c with replacementNodeId := none, replacementStatus := none }

/-- A column that is fixed when a command is issued. -/
theorem issued_column {α : Type} (f : ControlCommand → α) (hf : ∀ c, f c.issued = f c)
    {c c' : ControlCommand} (he : c'.issued = c.issued) : f c' = f c := by
  rw [← hf c', he, hf]

/-- `c` points to `node`, under the given status. -/
def ControlCommand.pointsTo (c : ControlCommand) (node : Node) (status : ReplacementStatus) : Prop :=
  c.replacementNodeId = some node.id ∧ c.replacementStatus = some status

/-- What a write does to the row of a command: **the replacement lifecycle**. -/
inductive CommandStep (a : Database) : Write → ControlCommand → ControlCommand → Prop
  | same {w : Write} {c : ControlCommand} (untouched : w.cause ≠ some c.id) : CommandStep a w c c
  | register {child : Node} {c : ControlCommand} (cause : child.causedByCommandId = some c.id)
      (retry : checkRetry a c = .ok ()) :
      CommandStep a (.registerNode child) c
        { c with
          replacementNodeId := some child.id
          replacementStatus := some .pending }
  | activate {at' : Standing} {c : ControlCommand} (cause : at'.node.causedByCommandId = some c.id)
      (pending : c.pointsTo at'.node .pending) :
      CommandStep a (.activate at') c { c with replacementStatus := some .active }
  | complete {at' : Standing} {c : ControlCommand} (cause : at'.node.causedByCommandId = some c.id)
      (active : c.pointsTo at'.node .active) :
      CommandStep a (.complete at') c { c with replacementStatus := some .completed }
  | expire {at' : Standing} {c : ControlCommand} (cause : at'.node.causedByCommandId = some c.id)
      (pending : c.pointsTo at'.node .pending) :
      CommandStep a (.expire .scanner at') c { c with replacementStatus := some .activationExpired }
  | skip {at' : Standing} {c : ControlCommand} (cause : at'.node.causedByCommandId = some c.id)
      (other : ¬ c.pointsTo at'.node .pending) : CommandStep a (.expire .scanner at') c c

theorem CommandStep.issued {c c' : ControlCommand} (h : CommandStep a w c c') :
    c'.issued = c.issued := by
  cases h <;> rfl

/-- The columns of a command that follow its replacement, through `causingCommand`. -/
theorem commandStep_advance {node : Node} {expected status : ReplacementStatus} {message : String}
    {commandId : Option Id} {id : Id} {db : Database} {c' : ControlCommand}
    (hc : (advanceReplacement db commandId status).commands.get? id = some c')
    (command : causingCommand a node expected message = .ok commandId)
    (same : db.commands = a.commands) (cause : w.cause = node.causedByCommandId)
    (step : ∀ c, node.causedByCommandId = some c.id → c.pointsTo node expected →
      CommandStep a w c { c with replacementStatus := some status }) :
    ∃ c, a.commands.get? id = some c ∧ CommandStep a w c c' := by
  rw [causingCommand] at command
  split at command
  · next hnone =>
    cases command
    rw [show (advanceReplacement db none status).commands = a.commands from same] at hc
    exact ⟨c', hc, .same (by simp [cause, hnone])⟩
  · next commandId hcause =>
    simp only [bind_eq_ok, require_eq_ok, Option.filter_eq_some_iff, decide_eq_true_eq,
      pure_eq_ok] at command
    obtain ⟨c, ⟨hfound, hpoints⟩, rfl⟩ := command
    have hkey : c.id = commandId := Table.key_of_get? hfound
    obtain ⟨c₀, hm, ⟨rfl, rfl⟩ | ⟨hne, rfl⟩⟩ := Table.get?_modify_cases (by intro; rfl) hc
    · rw [same, hfound] at hm
      cases hm
      exact ⟨_, hfound, step _ (hkey ▸ hcause) hpoints⟩
    · rw [same] at hm
      refine ⟨_, hm, .same fun he => hne ?_⟩
      rw [cause, hcause] at he
      exact (Table.key_of_get? hm).symm.trans (Option.some.inj he).symm

/-- **Where the row of a command comes from.** -/
theorem Effect.command_cases (h : Effect cfg w a b) {id : Id} {c' : ControlCommand}
    (hc : b.commands.get? id = some c') :
    (a.commands.get? id = none ∧ w = .issue c') ∨
      ∃ c, a.commands.get? id = some c ∧ CommandStep a w c c' := by
  cases h with
  | record | rotateIntent | rotateToken | renew | converge | expireHeartbeat | expireSweep
  | checkpoint | states | deny | allow | registerRun | registerNode =>
    exact Or.inr ⟨c', hc, .same (Option.some_ne_none _).symm⟩
  | @registerReplacement _ _ old command _ env s _ _ _ _ _ commandFound _ retry _ _ supersession =>
    have hcause : s.causedByCommandId = some command.id := by rw [supersession]
    obtain ⟨c, hm, ⟨rfl, rfl⟩ | ⟨hne, rfl⟩⟩ := Table.get?_modify_cases (by intro; rfl) hc
    · obtain rfl := Option.some.inj (commandFound.symm.trans hm)
      exact Or.inr ⟨_, hm, .register hcause retry⟩
    · refine Or.inr ⟨_, hm, .same fun he => hne ?_⟩
      exact (Table.key_of_get? hm).symm.trans (Option.some.inj (he.symm.trans hcause))
  | activate _ _ _ _ _ _ _ _ _ command =>
    exact Or.inr (commandStep_advance hc command rfl rfl fun _ h h' => .activate h h')
  | complete _ _ _ _ _ command =>
    exact Or.inr (commandStep_advance hc command rfl rfl fun _ h h' => .complete h h')
  | @expireScanner _ _ node _ _ _ _ failed =>
    rw [(failRun_frame failed).2.2, expireActivation] at hc
    refine Or.inr ?_
    split at hc
    · next hnone => exact ⟨c', hc, .same (by simp [Write.cause, standing, hnone])⟩
    · next commandId hcause =>
      split at hc
      · next hpoints =>
        obtain ⟨c, hfound, hp⟩ := (Option.any_eq_true _ _).mp hpoints
        have hkey : c.id = commandId := Table.key_of_get? hfound
        obtain ⟨c₀, hm, ⟨rfl, rfl⟩ | ⟨hne, rfl⟩⟩ := Table.get?_modify_cases (by intro; rfl) hc
        · obtain rfl := Option.some.inj (Eq.trans (Eq.symm hfound) hm)
          exact ⟨_, hm, .expire (hkey ▸ hcause) (by simpa [ControlCommand.pointsTo, standing] using hp)⟩
        · refine ⟨_, hm, .same fun he => hne ?_⟩
          exact (Table.key_of_get? hm).symm.trans (Option.some.inj (he.symm.trans hcause))
      · next hpoints =>
        by_cases hid : c'.id = commandId
        · refine ⟨c', hc, .skip (hid ▸ hcause) fun hp => hpoints ?_⟩
          have hget : a.commands.get? commandId = some c' := by
            rw [← hid, show c'.id = id from Table.key_of_get? hc]
            exact hc
          refine (Option.any_eq_true _ _).mpr ⟨c', hget, ?_⟩
          simpa [ControlCommand.pointsTo, standing] using hp
        · exact ⟨c', hc, .same fun he => hid (Option.some.inj (he.symm.trans hcause))⟩
  | issue _ _ _ _ _ _ _ _ _ inserted =>
    rcases Table.get?_insert?_cases inserted hc with ⟨hnone, _, rfl⟩ | hc
    · exact Or.inl ⟨hnone, rfl⟩
    · exact Or.inr ⟨c', hc, .same (Option.some_ne_none _).symm⟩

theorem get?_advanceReplacement {db : Database} {commandId : Option Id} {status : ReplacementStatus}
    {id : Id} {c : ControlCommand} (hc : db.commands.get? id = some c) :
    ∃ c', (advanceReplacement db commandId status).commands.get? id = some c' := by
  cases commandId with
  | none => exact ⟨c, hc⟩
  | some commandId => exact Table.exists_get?_modify (by intro; rfl) hc

/-- A command keeps its row, one step later. -/
theorem Effect.command_step (h : Effect cfg w a b) {id : Id} {c : ControlCommand}
    (hc : a.commands.get? id = some c) :
    ∃ c', b.commands.get? id = some c' ∧ CommandStep a w c c' := by
  have hkept : ∃ c', b.commands.get? id = some c' := by
    cases h with
    | record | rotateIntent | rotateToken | renew | converge | expireHeartbeat | expireSweep
    | checkpoint | states | deny | allow | registerRun | registerNode => exact ⟨c, hc⟩
    | registerReplacement => exact Table.exists_get?_modify (by intro; rfl) hc
    | activate | complete => exact get?_advanceReplacement hc
    | expireScanner _ _ failed =>
      rw [(failRun_frame failed).2.2, expireActivation]
      split
      · exact ⟨c, hc⟩
      · next commandId _ =>
        split
        · exact @get?_advanceReplacement _ (some commandId) _ id c hc
        · exact ⟨c, hc⟩
    | issue _ _ _ _ _ _ _ _ _ inserted => exact ⟨c, Table.get?_insert?_of_get? inserted hc⟩
  obtain ⟨c', hc'⟩ := hkept
  rcases h.command_cases hc' with ⟨hnone, _⟩ | ⟨m, hm, hstep⟩
  · rw [hnone] at hc
    cases hc
  · obtain rfl := Option.some.inj (hc.symm.trans hm)
    exact ⟨c', hc', hstep⟩

/-! ### Attempts -/

/-- **Where an attempt comes from.** -/
theorem Effect.attempts_cases (h : Effect cfg w a b) :
    b.attempts = a.attempts ∨ ∃ attempt, insertAttempt a attempt = .ok b.attempts ∧
      ((w = .deny attempt ∧ attempt.decision = .deny) ∨
        ∃ at' now, w = .allow at' now attempt ∧ attempt.decision = .allow) := by
  cases h with
  | record | rotateIntent | rotateToken | renew | converge | expireHeartbeat | expireSweep
  | checkpoint | states | registerRun | registerNode | registerReplacement | issue => exact Or.inl rfl
  | @activate _ _ _ _ commandId | @complete _ _ _ _ _ commandId =>
    left
    cases commandId <;> rfl
  | expireScanner _ _ failed =>
    left
    rw [(failRun_frame failed).1.attempts, (expireActivation_frame _).1.attempts]
    rfl
  | deny decision inserted => exact Or.inr ⟨_, inserted, Or.inl ⟨rfl, decision⟩⟩
  | allow _ _ _ _ _ _ row inserted =>
    exact Or.inr ⟨_, inserted, Or.inr ⟨_, _, rfl, by rw [row]; rfl⟩⟩

/-- An inserted attempt comes last, and is the first of its node under its key. -/
theorem insertAttempt_eq_ok {db : Database} {attempt : ActionAttempt}
    {attempts : Table ActionAttempt} (h : insertAttempt db attempt = .ok attempts) :
    attempts.rows = db.attempts.rows ++ [attempt] ∧ ∀ x ∈ db.attempts.rows,
      ¬(x.nodeId = attempt.nodeId ∧ x.idempotencyKey = attempt.idempotencyKey) := by
  simp only [insertAttempt, bind_eq_ok, ensure_eq_ok, require_eq_ok] at h
  obtain ⟨_, _, _, hfresh, hinsert⟩ := h
  exact ⟨(Table.insert?_eq_some_iff.mp hinsert).2, hfresh⟩

/-- What the contract of a replacement has granted an attempt. -/
structure Grant (a : Database) (node : Node) (x : ActionAttempt) (c : ControlCommand)
    (m : ReplacementManifest) : Prop where
  found : a.commands.get? c.id = some c
  manifest : c.replacementManifest = some m.modelDump
  tool : some x.toolName = m.recoveryContract.expectedTool
  arguments : x.argumentsDigest = m.recoveryContract.expectedArgumentsDigest
  budget : a.attempts.rows.countP (·.committedBy node) < m.recoveryContract.maxCommittedInvocations

/-- A rung of a ladder of denials is passed when its condition is false. -/
theorem denial_eq_none {p : Prop} [Decidable p] {reason : ReasonCode} {rest : Option ReasonCode} :
    (if p then some reason else rest) = none ↔ ¬p ∧ rest = none := by
  by_cases hp : p <;> simp [hp]

theorem manifestDenial_eq_none {node : Node} {c : ControlCommand} {request : ActionExecute}
    {spec : ToolSpec} {m : ReplacementManifest}
    (h : manifestDenial cfg a node c request spec m = none) :
    some request.toolName = m.recoveryContract.expectedTool ∧
      cfg.jsonDigest (some (.obj request.arguments)) = m.recoveryContract.expectedArgumentsDigest ∧
      a.attempts.rows.countP (·.committedBy node) < m.recoveryContract.maxCommittedInvocations := by
  simp only [manifestDenial, denial_eq_none] at h
  obtain ⟨_, _, _, _, _, _, htool, _, harguments, hbudget, _⟩ := h
  exact ⟨by_contra fun hne => htool (Or.inl hne), not_not.mp harguments, not_le.mp hbudget⟩

/-- **The guards an attempt was admitted under.** -/
structure Admission (a : Database) (node : Node) (now : Time) (x : ActionAttempt) : Prop where
  found : a.nodes.get? node.id = some node
  live : Live a node now
  actor : x.nodeId = node.id
  run : x.runId = node.runId
  committed : x.committedAt.isSome = true
  grant : ∀ cid, node.causedByCommandId = some cid → ∃ c m, c.id = cid ∧ Grant a node x c m

theorem Effect.admission {at' : Standing} {now : Time} {x : ActionAttempt}
    (h : Effect cfg (.allow at' now x) a b) : Admission a at'.node now x := by
  cases h with
  | @allow _ node request spec env executed _ _ found live tool contract _ _ row =>
    refine ⟨found, live, by rw [row]; rfl, by rw [row]; rfl, by rw [row]; rfl, fun cid hcause => ?_⟩
    rw [recoveryContractDenial, show node.causedByCommandId = some cid from hcause] at contract
    simp only at contract
    split at contract
    · cases contract
    next c hc =>
    simp only [Option.filter_eq_some_iff] at hc
    have hkey : c.id = cid := Table.key_of_get? hc.1
    split at contract
    · cases contract
    split at contract
    · cases contract
    next j hj =>
    split at contract
    · cases contract
    split at contract
    · cases contract
    next m hm =>
    obtain ⟨htool, harguments, hbudget⟩ := manifestDenial_eq_none contract
    refine ⟨c, m, hkey, hkey ▸ hc.1, ?_, ?_, ?_, hbudget⟩
    · rw [hj, ReplacementManifest.modelDump_of_modelValidate hm]
    · rw [row]
      exact htool
    · rw [row]
      exact harguments

/-! ### Issued commands -/

section Plan

variable {run : Run} {target : Node} {request : CommandCreate} {env : Env} {plan : CommandPlan}

theorem planCommand_targetScopeId (h : planCommand cfg a run target request env = .ok plan) :
    plan.targetScopeId =
      if request.commandType = .cancelRun then run.runScopeId else target.ownScopeId := by
  rw [planCommand] at h
  split at h
  · next ht =>
    cases h
    rw [if_pos ht]
  · next ht =>
    cases h
    rw [if_neg (by simp [ht])]
  · next ht =>
    simp only [bind_eq_ok, pure_eq_ok] at h
    obtain ⟨_, _, _, _, rfl⟩ := h
    rw [if_neg (by simp [ht])]

theorem withState_freshRows (t : ServiceTable) (runId : Id) (name status : String) (now : Time) :
    FreshRows t (withState t runId name status now) :=
  Relation.ReflTransGen.single ⟨runId, name, status, now, rfl⟩

/-- Building a contract makes sure of rows and changes none. -/
theorem buildContract_freshRows {runId : Id} {spec : Option ToolSpec}
    {built : ServiceTable × RecoveryContract} (hspec : ∀ s ∈ spec, s ∈ toolRegistry)
    (h : buildContract cfg a runId spec request env = .ok built) :
    FreshRows a.serviceStates built.1 := by
  unfold buildContract at h
  simp only at h
  split at h
  · next s =>
    simp only [bind_eq_ok, pure_eq_ok] at h
    obtain ⟨_, _, rfl⟩ := h
    have hs := hspec s rfl
    simp only [toolRegistry, List.mem_cons, List.not_mem_nil, or_false] at hs
    obtain rfl | rfl | rfl := hs
    · exact Relation.ReflTransGen.refl
    · exact withState_freshRows ..
    · exact ((withState_freshRows ..).trans (withState_freshRows ..)).trans (withState_freshRows ..)
  · simp only [bind_eq_ok, pure_eq_ok] at h
    obtain ⟨_, _, rfl⟩ := h
    exact Relation.ReflTransGen.refl

theorem expectedSpec_mem {spec : Option ToolSpec} (h : expectedSpec request = .ok spec) :
    ∀ s ∈ spec, s ∈ toolRegistry := by
  rw [expectedSpec] at h
  split at h
  · cases h
    simp
  · simp only [bind_eq_ok, getToolSpec_eq_ok, pure_eq_ok] at h
    obtain ⟨s, ⟨hs, _⟩, rfl⟩ := h
    simpa using hs

theorem buildReplacementManifest_spec {built : ServiceTable × ReplacementManifest}
    (h : buildReplacementManifest cfg a run target request env = .ok built) :
    FreshRows a.serviceStates built.1 ∧ built.2.maxChildren = 0 := by
  simp only [buildReplacementManifest, bind_eq_ok, ensure_eq_ok, require_eq_ok, pure_eq_ok] at h
  obtain ⟨spec, hspec, _, _, _, _, _, _, contract, hcontract, _, hzero, _, _, m, hm, rfl⟩ := h
  refine ⟨buildContract_freshRows (expectedSpec_mem hspec) hcontract, ?_⟩
  have hdump := ReplacementManifest.modelDump_of_modelValidate hm
  simp only [ReplacementManifest.modelDump, ManifestJson.fields.injEq] at hdump
  rw [hdump]
  exact hzero

theorem planCommand_serviceStates (h : planCommand cfg a run target request env = .ok plan) :
    FreshRows a.serviceStates plan.serviceStates := by
  rw [planCommand] at h
  split at h
  · cases h
    exact Relation.ReflTransGen.refl
  · cases h
    exact Relation.ReflTransGen.refl
  · simp only [bind_eq_ok, pure_eq_ok] at h
    obtain ⟨built, hbuilt, _, _, rfl⟩ := h
    exact (buildReplacementManifest_spec hbuilt).1

theorem planCommand_corrects (h : planCommand cfg a run target request env = .ok plan)
    (ht : request.commandType = .correctSubtree) : plan.manifest ≠ none := by
  rw [planCommand, ht] at h
  simp only [bind_eq_ok, pure_eq_ok] at h
  obtain ⟨_, _, _, _, rfl⟩ := h
  exact Option.some_ne_none _

theorem planCommand_manifest (h : planCommand cfg a run target request env = .ok plan)
    {m : ReplacementManifest} (hm : plan.manifest = some m) : m.maxChildren = 0 := by
  rw [planCommand] at h
  split at h
  · cases h
    cases hm
  · cases h
    cases hm
  · simp only [bind_eq_ok, pure_eq_ok] at h
    obtain ⟨built, hbuilt, _, _, rfl⟩ := h
    cases hm
    exact (buildReplacementManifest_spec hbuilt).2

end Plan

/-- **The guards a command was issued under**, and what it says about its target. -/
structure Issuance (a : Database) (c : ControlCommand) : Prop where
  run : ∃ r, a.runs.get? c.runId = some r ∧ r.status = .running ∧
    (c.commandType = .cancelRun → c.targetScopeId = r.runScopeId) ∧
    (c.commandType = .cancelRun ↔ c.targetNodeId = r.rootNodeId)
  target : ∃ t, a.nodes.get? c.targetNodeId = some t ∧ t.runId = c.runId ∧
    (c.commandType ≠ .cancelRun → c.targetScopeId = t.ownScopeId)
  scope : ∃ s, a.scopes.get? c.targetScopeId = some s ∧ s.runId = c.runId ∧ s.status = .active ∧
    s.version = c.fromVersion
  version : c.toVersion = c.fromVersion + 1
  unassigned : c.replacementNodeId = none
  lifecycle : c.replacementStatus = if c.commandType = .correctSubtree then some .pending else none
  manifest : ∀ j, c.replacementManifest = some j →
    ∃ m : ReplacementManifest, m.modelDump = j ∧ m.maxChildren = 0
  corrects : c.commandType = .correctSubtree → c.replacementManifest ≠ none

theorem Effect.issuance {c : ControlCommand} (h : Effect cfg (.issue c) a b) : Issuance a c := by
  cases h with
  | @issue _ request _ issuer run target scope plan _ _ _ _ targetFound runFound running authority
      planned scopeFound scopeRun active =>
    have hrun : run.id = target.runId := Table.key_of_get? runFound
    have hfound : a.runs.get? run.id = some run := by rwa [hrun]
    have hscope := planCommand_targetScopeId planned
    simp only [authorizeCommand, bind_eq_ok, ensure_eq_ok] at authority
    obtain ⟨_, hallowed, hshape⟩ := authority
    have hroot : request.commandType = .cancelRun → target.id = run.rootNodeId := by
      intro htype
      by_contra hne
      unfold mayIssueCommand at hallowed
      rw [if_neg (by simp [hrun]), if_pos ⟨htype, hne⟩] at hallowed
      cases hallowed
    refine ⟨⟨run, hfound, running, fun htype => ?_, hroot, fun he => ?_⟩,
      ⟨target, targetFound, hrun.symm, fun htype => ?_⟩,
      ⟨scope, scopeFound, scopeRun, active, rfl⟩, rfl, rfl, rfl, fun j hj => ?_, fun htype => ?_⟩
    · exact hscope.trans (if_pos htype)
    · by_contra htype
      exact hshape ⟨he, htype⟩
    · exact hscope.trans (if_neg htype)
    · obtain ⟨m, hm, rfl⟩ := Option.map_eq_some_iff.mp hj
      exact ⟨m, rfl, planCommand_manifest planned hm⟩
    · intro hnone
      exact planCommand_corrects planned htype (Option.map_eq_none_iff.mp hnone)

/-- What becomes of the target of a command. -/
theorem Effect.issued_scope {c : ControlCommand} (h : Effect cfg (.issue c) a b) :
    ∃ s, b.scopes.get? c.targetScopeId = some s ∧ s.runId = c.runId ∧
      s.status = c.commandType.scopeStatus ∧ s.version = c.toVersion := by
  obtain ⟨s, hs, hrun, _, hversion⟩ := h.issuance.scope
  obtain ⟨s', hs', hstep⟩ := h.scope_step hs
  have hkey : s.id = c.targetScopeId := Table.key_of_get? hs
  cases hstep with
  | same untouched => exact absurd hkey.symm (untouched c rfl)
  | invalidate => exact ⟨_, hs', hrun, rfl, by rw [h.issuance.version, ← hversion]⟩

end TraceFence
