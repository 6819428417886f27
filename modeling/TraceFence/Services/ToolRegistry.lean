import TraceFence.Db.Models
import TraceFence.Lib.Checked

/-!
# Tools

`services/tool_registry.py`: the three tools of the fixture, what each does to the mutable service
rows of a run, and the recovery contract each one yields. An executor's clock readings are
numbered after the gateway's own, which are `0` and `1`.

## Main definitions

* `ToolSpec` — a registered tool
* `toolRegistry`, `getToolSpec`
* `ToolSpec.execute`, `ToolSpec.buildRecoveryContract`
* `verifyPostconditions`
-/

namespace TraceFence

open Checked

/-- The mutable service rows. -/
abbrev ServiceTable := Table ServiceState

structure ToolSpec where
  name : String
  capability : String
  sideEffecting : Bool
  allowedArgumentKeys : List String
  resources : List String
  /-- From the service rows, the run and the action: the rows afterwards and the result. -/
  executor : ServiceTable → Id → Id → (ℕ → Time) → ServiceTable × Json
  recommendedReplacementRole : Option String := none
  /-- From the service rows, the run, the tool, the digest of the arguments and the window: the
  rows afterwards and a contract whose environment and resources are still blank. -/
  recoveryContractBuilder : Option
    (ServiceTable → Id → String → Digest → ℕ → (ℕ → Time) → ServiceTable × RecoveryContract) := none

/-- `validate_arguments`. -/
def ToolSpec.validateArguments (spec : ToolSpec) (arguments : Dict) : Except Failure Unit :=
  let unknown := (arguments.map Prod.fst).filter (· ∉ spec.allowedArgumentKeys)
  let names := String.intercalate ", " (sortedSet unknown)
  ensure unknown.isEmpty
    (conflictError s!"Unsupported arguments for {spec.name}: {names}" "INVALID_TOOL_ARGUMENTS")

/-- `execute`. -/
def ToolSpec.execute (spec : ToolSpec) (states : ServiceTable) (runId actionId : Id)
    (arguments : Dict) (clock : ℕ → Time) : Except Failure (ServiceTable × Json) := do
  spec.validateArguments arguments
  return spec.executor states runId actionId clock

/-- `build_recovery_contract`. -/
def ToolSpec.buildRecoveryContract (spec : ToolSpec) (cfg : Config) (states : ServiceTable)
    (runId : Id) (arguments : Dict) (stabilityWindowSeconds : ℕ) (clock : ℕ → Time) :
    ServiceTable × RecoveryContract :=
  let argumentsDigest := cfg.payloadDigest (.json (.obj arguments))
  match spec.recoveryContractBuilder with
  | none =>
    (states,
      { expectedTool := some spec.name
        expectedArgumentsDigest := argumentsDigest
        allowedEnvironment := cfg.environment
        allowedResources := sorted spec.resources
        maxCommittedInvocations := 1
        stabilityWindowSeconds := stabilityWindowSeconds })
  | some builder =>
    let built := builder states runId spec.name argumentsDigest stabilityWindowSeconds clock
    (built.1,
      { built.2 with
        allowedEnvironment := cfg.environment
        allowedResources := sorted spec.resources })

/-! ### Service rows -/

/-- The row `_state` adds when a service has none. -/
def freshState (runId : Id) (serviceName defaultStatus : String) (now : Time) : ServiceState where
  runId := runId
  serviceName := serviceName
  status := defaultStatus
  updatedAt := now

/-- `_state`, as the table it leaves behind: it reads the clock only to add a missing row. -/
def withState (states : ServiceTable) (runId : Id) (serviceName defaultStatus : String)
    (now : Time) : ServiceTable :=
  states.insertNew (freshState runId serviceName defaultStatus now)

/-- `state.restart_count` and the like, of a row that `_state` has made sure of. -/
def readState (states : ServiceTable) (runId : Id) (serviceName : String)
    (field : ServiceState → ℕ) : ℕ :=
  ((states.get? (runId, serviceName)).map field).getD 0

/-! ### Executors -/

/-- The rows come as the index of the table has them, by their service. -/
def readMetrics (states : ServiceTable) (runId _actionId : Id) (_clock : ℕ → Time) :
    ServiceTable × Json :=
  let rows := (states.rows.filter fun row => row.runId = runId).insertionSort
    fun row row' => row.serviceName ≤ row'.serviceName
  (states, .obj [("services", .arr (rows.map fun row => .obj
    [("service", .str row.serviceName), ("status", .str row.status),
      ("restart_count", .num row.restartCount), ("pool_reset_count", .num row.poolResetCount)]))])

def restartPostgres (states : ServiceTable) (runId actionId : Id) (clock : ℕ → Time) :
    ServiceTable × Json :=
  let states := withState states runId "postgres" "healthy" (clock 2)
  let states := states.modify (runId, "postgres") fun state =>
    { state with
      restartCount := state.restartCount + 1
      status := "healthy"
      lastActionId := some actionId
      updatedAt := clock 3 }
  (states, .obj [("service", .str "postgres"), ("status", .str "healthy"),
    ("restart_count", .num (readState states runId "postgres" (·.restartCount)))])

def resetRedisPool (states : ServiceTable) (runId actionId : Id) (clock : ℕ → Time) :
    ServiceTable × Json :=
  let states := withState states runId "redis" "connection_pool_exhausted" (clock 2)
  let states := states.modify (runId, "redis") fun redis =>
    { redis with
      poolResetCount := redis.poolResetCount + 1
      status := "healthy"
      lastActionId := some actionId
      updatedAt := clock 3 }
  let states := withState states runId "checkout" "degraded" (clock 4)
  let states := states.modify (runId, "checkout") fun checkout =>
    { checkout with
      status := "healthy"
      lastActionId := some actionId
      updatedAt := clock 5 }
  (states, .obj [("service", .str "redis"), ("status", .str "healthy"),
    ("pool_reset_count", .num (readState states runId "redis" (·.poolResetCount))),
    ("checkout_status", .str "healthy")])

/-! ### Recovery contracts -/

def restartPostgresContract (states : ServiceTable) (runId : Id) (toolName : String)
    (argumentsDigest : Digest) (stabilityWindowSeconds : ℕ) (clock : ℕ → Time) :
    ServiceTable × RecoveryContract :=
  let states := withState states runId "postgres" "healthy" (clock 1)
  (states,
    { expectedTool := some toolName
      expectedArgumentsDigest := argumentsDigest
      allowedEnvironment := ""
      maxCommittedInvocations := 1
      stabilityWindowSeconds := stabilityWindowSeconds
      postconditions :=
        [⟨"postgres", .status, .str "healthy", true⟩,
          ⟨"postgres", .restartCount,
            .num (readState states runId "postgres" (·.restartCount) + 1), true⟩] })

def resetRedisContract (states : ServiceTable) (runId : Id) (toolName : String)
    (argumentsDigest : Digest) (stabilityWindowSeconds : ℕ) (clock : ℕ → Time) :
    ServiceTable × RecoveryContract :=
  let states := withState states runId "redis" "connection_pool_exhausted" (clock 1)
  let states := withState states runId "checkout" "degraded" (clock 2)
  let states := withState states runId "postgres" "healthy" (clock 3)
  (states,
    { expectedTool := some toolName
      expectedArgumentsDigest := argumentsDigest
      allowedEnvironment := ""
      maxCommittedInvocations := 1
      stabilityWindowSeconds := stabilityWindowSeconds
      postconditions :=
        [⟨"redis", .status, .str "healthy", true⟩,
          ⟨"redis", .poolResetCount,
            .num (readState states runId "redis" (·.poolResetCount) + 1), true⟩,
          ⟨"checkout", .status, .str "healthy", true⟩,
          ⟨"postgres", .restartCount,
            .num (readState states runId "postgres" (·.restartCount)), false⟩] })

/-! ### Postconditions -/

/-- The column a postcondition is about. -/
def PostconditionField.value : PostconditionField → String
  | .status => "status"
  | .restartCount => "restart_count"
  | .poolResetCount => "pool_reset_count"

/-- Whether a column holds an expected value. A truth value equals the count it stands for. -/
def ServiceState.equals (state : ServiceState) : PostconditionField → Json → Bool
  | .status, .str s => decide (state.status = s)
  | .restartCount, .num n => decide ((state.restartCount : ℤ) = n)
  | .restartCount, .bool b => decide (state.restartCount = b.toNat)
  | .poolResetCount, .num n => decide ((state.poolResetCount : ℤ) = n)
  | .poolResetCount, .bool b => decide (state.poolResetCount = b.toNat)
  | _, _ => false

structure PostconditionEvaluation where
  discrepancies : List String := []
  inconsistent : Bool := false
  incomplete : Bool := false
  stabilityIncomplete : Bool := false

/-- One turn of the loop of `verify_postconditions`. The text about a value that is not the
expected one stops before the two values. -/
def evaluatePostcondition (states : ServiceTable) (runId actionId : Id)
    (contract : RecoveryContract) (stableBefore : ℤ) (postcondition : RecoveryPostcondition) :
    PostconditionEvaluation :=
  let column := s!"{postcondition.serviceName}.{postcondition.field.value}"
  match states.get? (runId, postcondition.serviceName) with
  | none =>
    { discrepancies :=
        [s!"Recovery postcondition service is missing: {postcondition.serviceName}"]
      incomplete := true
      stabilityIncomplete := true }
  | some state =>
    if !state.equals postcondition.field postcondition.expected then
      { discrepancies := [s!"Recovery postcondition failed: {column}"]
        incomplete := true
        stabilityIncomplete := true }
    else if postcondition.requireRecoveryAction ∧ state.lastActionId ≠ some actionId then
      { discrepancies := [s!"Recovery postcondition {column} is not causally bound to the " ++
          "authorized recovery action"]
        inconsistent := true }
    else if 0 < contract.stabilityWindowSeconds ∧ stableBefore < state.updatedAt then
      { discrepancies := [s!"Recovery postcondition {column} has not remained stable for " ++
          s!"{contract.stabilityWindowSeconds} seconds"]
        stabilityIncomplete := true }
    else {}

/-- The findings of two turns. -/
def PostconditionEvaluation.add (e e' : PostconditionEvaluation) : PostconditionEvaluation where
  discrepancies := e.discrepancies ++ e'.discrepancies
  inconsistent := e.inconsistent || e'.inconsistent
  incomplete := e.incomplete || e'.incomplete
  stabilityIncomplete := e.stabilityIncomplete || e'.stabilityIncomplete

/-- `verify_postconditions`. -/
def verifyPostconditions (states : ServiceTable) (runId actionId : Id)
    (contract : RecoveryContract) (stableBefore : ℤ) : PostconditionEvaluation :=
  (contract.postconditions.map
    (evaluatePostcondition states runId actionId contract stableBefore)).foldl
      PostconditionEvaluation.add {}

/-! ### The registry -/

def readMetricsSpec : ToolSpec where
  name := "read_metrics"
  capability := "tool:read_metrics"
  sideEffecting := false
  allowedArgumentKeys := []
  resources := ["metrics"]
  executor := readMetrics

def restartPostgresSpec : ToolSpec where
  name := "restart_postgres"
  capability := "tool:restart_postgres"
  sideEffecting := true
  allowedArgumentKeys := []
  resources := ["postgres"]
  executor := restartPostgres
  recommendedReplacementRole := some "postgres_recovery"
  recoveryContractBuilder := some restartPostgresContract

def resetRedisPoolSpec : ToolSpec where
  name := "reset_redis_pool"
  capability := "tool:reset_redis_pool"
  sideEffecting := true
  allowedArgumentKeys := []
  resources := ["checkout", "postgres", "redis"]
  executor := resetRedisPool
  recommendedReplacementRole := some "redis_recovery"
  recoveryContractBuilder := some resetRedisContract

/-- `TOOL_REGISTRY`. -/
def toolRegistry : List ToolSpec := [readMetricsSpec, restartPostgresSpec, resetRedisPoolSpec]

/-- `get_tool_spec`. -/
def getToolSpec (toolName : String) : Except Failure ToolSpec :=
  require (toolRegistry.find? fun spec => spec.name = toolName)
    (conflictError s!"Unsupported tool: {toolName}" "UNSUPPORTED_TOOL")

/-- A registered tool is one of three. -/
theorem getToolSpec_eq_ok {toolName : String} {spec : ToolSpec} :
    getToolSpec toolName = .ok spec ↔ spec ∈ toolRegistry ∧ spec.name = toolName := by
  rw [getToolSpec, require_eq_ok]
  constructor
  · intro h
    exact ⟨List.mem_of_find?_eq_some h, by simpa using List.find?_some h⟩
  · rintro ⟨h, rfl⟩
    simp only [toolRegistry, List.mem_cons, List.not_mem_nil, or_false] at h
    obtain rfl | rfl | rfl := h <;> rfl

end TraceFence
