import TraceFence.Services.ToolRegistry

/-!
# Runs

`services/run_lifecycle.py` and `RunService.create_run`.

## Main definitions

* `transitionRun` — the guarded `UPDATE` every change of a run's status goes through
* `createRun` — a run with its run scope and its active root
-/

namespace TraceFence

open Checked

/-! ### The run state machine -/

/-- `RUN_STATE_TRANSITIONS`. -/
def runStateTransitions : RunStatus → List RunStatus
  | .created => [.running, .cancelled, .failed]
  | .running => [.completed, .cancelled, .failed]
  | .completed | .cancelled | .failed => []

/-- `TERMINAL_RUN_STATES`. -/
def RunStatus.isTerminal : RunStatus → Bool
  | .completed | .cancelled | .failed => true
  | _ => false

/-- The text of a run status. -/
def RunStatus.value : RunStatus → String
  | .created => "CREATED"
  | .running => "RUNNING"
  | .completed => "COMPLETED"
  | .cancelled => "CANCELLED"
  | .failed => "FAILED"

/-- `transition_run`. The source status and a missing terminal timestamp are part of the `UPDATE`
predicate, and an `UPDATE` that matches no row is an error. -/
def transitionRun (runs : Table Run) (run : Run) (target : RunStatus) (finishedAt : Time) :
    Except Failure (Table Run) := do
  let source := run.status
  ensure (target ∈ runStateTransitions source)
    (conflictError s!"Run transition {source.value} -> {target.value} is not allowed"
      (if source.isTerminal then "RUN_TERMINAL_STATE" else "RUN_TRANSITION_INVALID"))
  let _ ← require
    ((runs.get? run.id).filter fun row => row.status = source ∧ row.finishedAt = none)
    (conflictError "Run state changed concurrently" "RUN_TERMINAL_STATE")
  return runs.modify run.id fun row =>
    { row with
      status := target
      finishedAt := if target.isTerminal then some finishedAt else none }

theorem transitionRun_eq_ok {runs runs' : Table Run} {run : Run} {target : RunStatus}
    {finishedAt : Time} :
    transitionRun runs run target finishedAt = .ok runs' ↔
      target ∈ runStateTransitions run.status ∧
      (∃ row, runs.get? run.id = some row ∧ row.status = run.status ∧ row.finishedAt = none) ∧
      runs' = runs.modify run.id fun row =>
        { row with
          status := target
          finishedAt := if target.isTerminal then some finishedAt else none } := by
  simp only [transitionRun, bind_eq_ok, ensure_eq_ok, require_eq_ok, pure_eq_ok,
    Option.filter_eq_some_iff, decide_eq_true_eq]
  constructor
  · rintro ⟨_, h, row, ⟨hr, hs, hf⟩, rfl⟩
    exact ⟨h, ⟨row, hr, hs, hf⟩, rfl⟩
  · rintro ⟨h, ⟨row, hr, hs, hf⟩, rfl⟩
    exact ⟨(), h, row, ⟨hr, hs, hf⟩, rfl⟩

/-! ### Creation -/

structure RunCreated where
  runId : Id
  rootNodeId : Id
  rootToken : Token
  status : RunStatus
  deriving DecidableEq, Repr

/-- `_ALLOWED_NON_TOOL_CAPABILITIES` and the capabilities of the registered tools. -/
def allowedCapabilities : List String :=
  ["control:descendants", "tool:propose_correction"] ++ toolRegistry.map (·.capability)

/-- The run `create_run` inserts. -/
def newRun (request : RunCreate) (env : Env) (now : Time) : Run where
  id := env.uuid 0
  name := request.name
  status := .running
  rootNodeId := env.uuid 1
  runScopeId := env.uuid 2
  createdAt := now

/-- The root it inserts, already active. -/
def newRoot (cfg : Config) (request : RunCreate) (env : Env) (now : Time) : Node where
  id := env.uuid 1
  runId := env.uuid 0
  parentId := none
  role := request.rootRole
  behavior := "cooperative"
  generation := 0
  lineagePath := []
  status := .active
  ownScopeId := env.uuid 3
  scopeSnapshot := [⟨env.uuid 2, 1⟩, ⟨env.uuid 3, 1⟩]
  instructionVersion := 1
  instruction := request.rootInstruction
  capabilities := sortedSet request.rootCapabilities
  tokenHash := some (cfg.hashToken (env.token 0))
  registeredAt := now
  activatedAt := some now
  lastHeartbeatAt := some now
  leaseExpiresAt := some (now + seconds cfg.leaseTtlSeconds)

/-- An active scope at version 1. -/
def newScope (id runId : Id) (ownerNodeId : Option Id) (now : Time) : ControlScope where
  id := id
  runId := runId
  ownerNodeId := ownerNodeId
  version := 1
  status := .active
  updatedAt := now

/-- `create_run`, which reads the clock, as `now`, before it acquires the write lock. -/
def createRun (cfg : Config) (db : Database) (request : RunCreate) (env : Env) (now : Time) :
    Except Failure (Commit RunCreated) := do
  let unknown := request.rootCapabilities.filter (· ∉ allowedCapabilities)
  let names := String.intercalate ", " (sortedSet unknown)
  ensure unknown.isEmpty (conflictError s!"Unknown root capabilities: {names}" "UNKNOWN_CAPABILITY")
  let activeRuns := db.runs.rows.countP fun run => run.status = .created ∨ run.status = .running
  ensure (activeRuns < cfg.maxActiveRuns)
    (conflictError "Active run quota exceeded" "ACTIVE_RUN_QUOTA_EXCEEDED")
  let run := newRun request env now
  let root := newRoot cfg request env now
  let runs ← require (db.runs.insert? run) (.integrityError "runs")
  let scopes ← require (db.scopes.insert? (newScope run.runScopeId run.id none now))
    (.integrityError "control_scopes")
  let scopes ← require (scopes.insert? (newScope root.ownScopeId run.id (some root.id) now))
    (.integrityError "control_scopes")
  let nodes ← require (db.nodes.insert? root) (.integrityError "nodes")
  let events : List RuntimeEvent :=
    [{ runId := run.id, eventType := .runCreated, occurredAt := now },
      { runId := run.id, eventType := .nodeRegistered, occurredAt := now, nodeId := some root.id,
        scopeId := some root.ownScopeId, snapshotVersion := some 1,
        authoritativeVersion := some 1 },
      { runId := run.id, eventType := .nodeActivated, occurredAt := now, nodeId := some root.id },
      { runId := run.id, eventType := .leaseGranted, occurredAt := now, nodeId := some root.id }]
  return {
    db := { db with runs := runs, nodes := nodes, scopes := scopes, events := db.events ++ events }
    read := some now
    value := ⟨run.id, root.id, env.token 0, .running⟩ }

end TraceFence
