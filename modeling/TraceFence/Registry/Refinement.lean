import TraceFence.Registry.Basic
import TraceFence.Effect.Step

/-!
# The database refines the registry

The immutable part of a database is a registry, an effect either leaves it alone or grows it, and
so every reachable database has a well-formed registry that only ever grows.

## Main definitions

* `Database.registry` — the abstraction

## Main results

* `Effect.registry_eq`, `Effect.grows` — what an effect does to the registry
* `registry_wellFormed` — the lineage invariant in every reachable state
-/

namespace TraceFence

variable {cfg : Config} {w : Write} {a b : Database}

/-- The immutable part of a database. -/
def Database.registry (db : Database) : Registry where
  node id := (db.nodes.get? id).map Node.registration
  run id := (db.runs.get? id).map fun r => ⟨r.rootNodeId, r.runScopeId⟩
  scope id := (db.scopes.get? id).map fun s => ⟨s.runId, s.ownerNodeId⟩

theorem registry_node_of_get? {x : Id} {n : Node} (h : a.nodes.get? x = some n) :
    a.registry.node x = some n.registration := by
  simp [Database.registry, h]

theorem registry_run_of_get? {x : Id} {r : Run} (h : a.runs.get? x = some r) :
    a.registry.run x = some ⟨r.rootNodeId, r.runScopeId⟩ := by
  simp [Database.registry, h]

theorem registry_scope_of_get? {x : Id} {s : ControlScope} (h : a.scopes.get? x = some s) :
    a.registry.scope x = some ⟨s.runId, s.ownerNodeId⟩ := by
  simp [Database.registry, h]

/-- Whether a write registers something. -/
def Write.registers : Write → Bool
  | .registerRun _ | .registerNode _ => true
  | _ => false

/-! ### Effects that register nothing -/

theorem registry_congr
    (nodes : ∀ id, (b.nodes.get? id).map Node.registration = (a.nodes.get? id).map Node.registration)
    (runs : ∀ id, (b.runs.get? id).map (fun r => RunFacts.mk r.rootNodeId r.runScopeId) =
      (a.runs.get? id).map fun r => RunFacts.mk r.rootNodeId r.runScopeId)
    (scopes : ∀ id, (b.scopes.get? id).map (fun s => ScopeFacts.mk s.runId s.ownerNodeId) =
      (a.scopes.get? id).map fun s => ScopeFacts.mk s.runId s.ownerNodeId) :
    b.registry = a.registry := by
  rw [Database.registry, Database.registry, funext nodes, funext runs, funext scopes]

theorem registry_advanceReplacement (db : Database) (commandId : Option Id)
    (status : ReplacementStatus) : (advanceReplacement db commandId status).registry = db.registry := by
  cases commandId <;> rfl

theorem registry_expireActivation (db : Database) (node : Node) :
    (expireActivation db node).registry = db.registry := by
  rw [expireActivation]
  split
  · rfl
  · split <;> rfl

theorem runFacts_transitionRun {runs runs' : Table Run} {run : Run} {target : RunStatus}
    {finishedAt : Time} (h : transitionRun runs run target finishedAt = .ok runs') (id : Id) :
    (runs'.get? id).map (fun r => RunFacts.mk r.rootNodeId r.runScopeId) =
      (runs.get? id).map fun r => RunFacts.mk r.rootNodeId r.runScopeId := by
  obtain ⟨_, _, rfl⟩ := transitionRun_eq_ok.mp h
  exact Table.map_get?_modify (by intro; rfl) id (by intro; rfl)

theorem registry_failRun {db db' : Database} {node : Node} {now : Time}
    (h : failRun db node now = .ok db') : db'.registry = db.registry := by
  rw [failRun] at h
  split at h
  · cases h
    rfl
  · simp only [Checked.bind_eq_ok, Checked.pure_eq_ok] at h
    obtain ⟨runs, hruns, rfl⟩ := h
    exact registry_congr (fun _ => rfl) (runFacts_transitionRun hruns) fun _ => rfl

theorem registry_setStatus (db : Database) (nodeId : Id) (status : NodeStatus) :
    (setStatus db nodeId status).registry = db.registry :=
  registry_congr (fun id => Table.map_get?_modify (by intro; rfl) id (by intro; rfl)) (fun _ => rfl) fun _ => rfl

/-- An effect that registers nothing leaves the registry alone. -/
theorem Effect.registry_eq (h : Effect cfg w a b) (hw : w.registers = false) :
    b.registry = a.registry := by
  cases h with
  | registerRun | registerNode | registerReplacement => cases hw
  | record | states | deny | allow | rotateIntent => rfl
  | rotateToken | renew =>
    exact registry_congr (fun id => Table.map_get?_modify (by intro; rfl) id (by intro; rfl)) (fun _ => rfl) fun _ => rfl
  | activate =>
    rw [registry_advanceReplacement]
    exact registry_congr (fun id => Table.map_get?_modify (by intro; rfl) id (by intro; rfl)) (fun _ => rfl) fun _ => rfl
  | converge | expireHeartbeat | expireSweep | checkpoint => exact registry_setStatus ..
  | expireScanner _ _ failed =>
    rw [registry_failRun failed, registry_expireActivation, registry_setStatus]
  | complete _ _ _ _ finish =>
    rw [registry_advanceReplacement]
    refine registry_congr (fun id => Table.map_get?_modify (by intro; rfl) id (by intro; rfl)) (fun id => ?_) fun _ => rfl
    split at finish
    · exact runFacts_transitionRun finish id
    · rw [finish]
  | issue _ _ _ _ _ _ _ _ finish =>
    refine registry_congr (fun _ => rfl) (fun id => ?_) (fun id => Table.map_get?_modify (by intro; rfl) id (by intro; rfl))
    rw [cancelledRuns] at finish
    split at finish
    · exact runFacts_transitionRun finish id
    · cases finish
      rfl

/-! ### Effects that register -/

theorem map_get?_insert? {ρ α : Type} [Keyed ρ Id] {t t' : Table ρ} {row : ρ} {g : ρ → α}
    (h : t.insert? row = some t') :
    (fun id => (t'.get? id).map g) =
      Function.update (fun id => (t.get? id).map g) (Keyed.key row) (some (g row)) := by
  funext id
  rw [Table.get?_of_insert? h, Function.update_apply]
  by_cases hk : Keyed.key row = id
  · simp [hk]
  · simp [hk, Ne.symm hk]

theorem get?_none_of_insert? {ρ : Type} [Keyed ρ Id] {t t' : Table ρ} {row : ρ}
    (h : t.insert? row = some t') : t.get? (Keyed.key row) = none :=
  (Table.insert?_eq_some_iff.mp h).1

/-- The registration of a child, whatever it is registered for. -/
theorem grows_child {db db' : Database} {parent : Node} {request : SpawnCreate} {s : Supersession}
    {env : Env} (found : db.nodes.get? parent.id = some parent)
    (scope : db.scopes.insert? (childScope parent env) = some db'.scopes)
    (node : db.nodes.insert? (childNode parent request s env) = some db'.nodes)
    (runs : db'.runs = db.runs) : db.registry.Grows db'.registry := by
  have heq : db'.registry = db.registry.addNode (childNode parent request s env).registration := by
    rw [Database.registry, Registry.addNode]
    simp only [map_get?_insert? scope, map_get?_insert? node, runs]
    rfl
  rw [heq]
  refine @Registry.Grows.node _ _ parent.registration ?_ ?_ ?_ rfl rfl rfl rfl
  · exact Option.map_eq_none_iff.mpr (get?_none_of_insert? node)
  · exact Option.map_eq_none_iff.mpr (get?_none_of_insert? scope)
  · change (db.nodes.get? parent.id).map _ = _
    rw [found]
    rfl

/-- An effect that registers grows the registry. -/
theorem Effect.grows (h : Effect cfg w a b) (hw : w.registers = true) :
    a.registry.Grows b.registry := by
  cases h with
  | @registerRun _ request env now runs scopes₁ scopes₂ nodes run runScope rootScope root =>
    have heq : { a with runs := runs, nodes := nodes, scopes := scopes₂ }.registry =
        a.registry.addRun (newRoot cfg request env now).registration (env.uuid 2) := by
      rw [Database.registry, Registry.addRun]
      simp only [map_get?_insert? run, map_get?_insert? rootScope, map_get?_insert? runScope,
        map_get?_insert? root]
      rfl
    rw [heq]
    -- The root's scope was inserted after the run's, so they differ.
    have hfresh : scopes₁.get? (env.uuid 3) = none := get?_none_of_insert? rootScope
    rw [Table.get?_of_insert? runScope] at hfresh
    split at hfresh
    · cases hfresh
    next hne =>
    refine .run ?_ ?_ ?_ ?_ (Ne.symm hne) rfl rfl rfl rfl
    · exact Option.map_eq_none_iff.mpr (get?_none_of_insert? root)
    · exact Option.map_eq_none_iff.mpr (get?_none_of_insert? run)
    · exact Option.map_eq_none_iff.mpr (get?_none_of_insert? runScope)
    · exact Option.map_eq_none_iff.mpr hfresh
  | registerNode found _ _ scope node => exact grows_child found scope node rfl
  | registerReplacement found _ _ _ _ _ _ _ scope node => exact grows_child found scope node rfl
  | record | states | deny | allow | rotateIntent | rotateToken | renew | activate | converge
  | expireHeartbeat | expireSweep | expireScanner | checkpoint | complete | issue => cases hw

theorem Effect.registry_wellFormed (h : Effect cfg w a b) (ha : a.registry.WellFormed) :
    b.registry.WellFormed := by
  cases hw : w.registers with
  | false => rwa [h.registry_eq hw]
  | true => exact ha.grows (h.grows hw)

theorem Effect.registry_le (h : Effect cfg w a b) : a.registry.Le b.registry := by
  cases hw : w.registers with
  | false =>
    rw [h.registry_eq hw]
    exact .refl _
  | true => exact (h.grows hw).le

/-! ### Runs -/

open System

variable {s s' : Sys}

/-- **The lineage invariant** holds in every reachable state. -/
theorem registry_wellFormed (h : (services cfg).Reachable s) : s.db.registry.WellFormed :=
  reachable_db h ⟨nofun, nofun, nofun, nofun, nofun, nofun⟩ fun _ _ _ ha he =>
    he.registry_wellFormed ha

end TraceFence
