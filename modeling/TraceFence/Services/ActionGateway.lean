import TraceFence.Services.NodeLifecycle

/-!
# The action gateway

`ActionGateway.execute`: one transaction that decides about an action, records the decision and,
when it is to allow, runs the tool. The clock readings are the lease check, the attempt's
timestamp, then either those of the acknowledgements, one for each that is inserted, or the
tool's and the commit timestamp.

## Main definitions

* `recoveryContractDenial` — what a replacement may do
* `admission` — the decision
* `recordAttempt`, `denyAction`, `allowAction` — its consequences
* `execute`
-/

namespace TraceFence

open Checked

variable (cfg : Config) (db : Database)

/-! ### The decision -/

/-- Whether an attempt of `node` was allowed and committed. -/
def ActionAttempt.committedBy (a : ActionAttempt) (node : Node) : Bool :=
  decide (a.runId = node.runId ∧ a.nodeId = node.id ∧ a.decision = .allow) && a.committedAt.isSome

/-- The checks of `_recovery_contract_denial` against a manifest that validates. -/
def manifestDenial (node : Node) (command : ControlCommand) (request : ActionExecute)
    (spec : ToolSpec) (manifest : ReplacementManifest) : Option ReasonCode :=
  let contract := manifest.recoveryContract
  if node.role ≠ manifest.role then some .recoveryRoleMismatch
  else if node.behavior ≠ manifest.behavior then some .recoveryBehaviorMismatch
  else if sorted node.capabilities ≠ manifest.capabilitiesExact then
    some .recoveryCapabilitiesMismatch
  else if cfg.jsonDigest (some node.instruction) ≠ manifest.instructionDigest then
    some .recoveryInstructionMismatch
  else if node.instructionVersion ≠ manifest.instructionVersion then
    some .recoveryInstructionVersionMismatch
  else if contract.allowedEnvironment ≠ cfg.environment then some .recoveryEnvironmentMismatch
  else if some request.toolName ≠ contract.expectedTool ∨
      command.replacementExpectedTool ≠ contract.expectedTool then
    some .recoveryToolMismatch
  else if sorted spec.resources ≠ contract.allowedResources then some .recoveryResourceMismatch
  else if cfg.jsonDigest (some (.obj request.arguments)) ≠ contract.expectedArgumentsDigest then
    some .recoveryArgumentsMismatch
  else if contract.maxCommittedInvocations ≤ db.attempts.rows.countP (·.committedBy node) then
    some .recoveryInvocationLimitExceeded
  else none

/-- `_recovery_contract_denial`. -/
def recoveryContractDenial (node : Node) (request : ActionExecute) (spec : ToolSpec) :
    Option ReasonCode :=
  match node.causedByCommandId with
  | none => none
  | some commandId =>
    match (db.commands.get? commandId).filter fun command =>
        command.commandType = .correctSubtree ∧ command.runId = node.runId with
    | none => some .recoveryCommandMismatch
    | some command =>
      if command.replacementNodeId ≠ some node.id then some .recoveryNodeMismatch
      else
        match command.replacementManifest with
        | none => some .recoveryManifestInvalid
        | some manifestJson =>
          if command.replacementManifestDigest ≠
              some (cfg.payloadDigest (.manifest manifestJson)) then
            some .recoveryManifestInvalid
          else
            match ReplacementManifest.modelValidate manifestJson with
            | none => some .recoveryManifestInvalid
            | some manifest => manifestDenial cfg db node command request spec manifest

/-- The admission ladder: `none` admits the action. -/
def admission (run : Run) (node : Node) (request : ActionExecute) (spec : ToolSpec) (now : Time) :
    Except Failure (Option ReasonCode) := do
  let evaluation := evaluateScopes db node
  if run.status ≠ .running then return some .runNotActive
  else if !node.status.isLive then return some .nodeNotActive
  else if node.leaseExpired now then return some .leaseExpired
  else if !evaluation.allowed then return some (evaluation.primaryReason.getD .scopeInvalid)
  else
    match recoveryContractDenial cfg db node request spec with
    | some reason => return some reason
    | none =>
      if spec.capability ∉ node.capabilities then return some .toolNotAllowed
      else do
        spec.validateArguments request.arguments
        return none

/-! ### The attempt -/

/-- The commands a stale denial is attributed to. -/
def attributedCommands (node : Node) (denial : Option ReasonCode) : List ControlCommand :=
  if denial.any ReasonCode.isStale then applicableCommands db node else []

/-- The mismatch reported with the attempt: that of the last command, or the first of all. -/
def matchedMismatch (node : Node) (denial : Option ReasonCode) : Option ScopeMismatch :=
  if denial.any ReasonCode.isStale then
    let mismatches := (evaluateScopes db node).mismatches
    let ofCommand := (attributedCommands db node denial).getLast?.bind fun command =>
      mismatches.find? fun m => m.scopeId = command.targetScopeId
    ofCommand.or mismatches.head?
  else none

/-- The attempt row, before the result of the tool is attached. -/
def newAttempt (node : Node) (request : ActionExecute) (spec : ToolSpec)
    (denial : Option ReasonCode) (env : Env) : ActionAttempt :=
  let matched := matchedMismatch db node denial
  { id := env.uuid 0
    runId := node.runId
    nodeId := node.id
    toolName := request.toolName
    sideEffecting := spec.sideEffecting
    idempotencyKey := request.idempotencyKey
    decision := if denial.isSome then .deny else .allow
    denialReason := denial
    matchedCommandId := (attributedCommands db node denial).getLast?.map (·.id)
    matchedScopeId := matched.map (·.scopeId)
    matchedSnapshotVersion := matched.map (·.snapshotVersion)
    matchedLiveVersion := matched.bind (·.liveVersion)
    matchedLiveStatus := matched.bind (·.liveStatus)
    requestPayloadDigest := cfg.payloadDigest (.action request)
    arguments := request.arguments
    argumentsDigest := cfg.jsonDigest (some (.obj request.arguments))
    attemptedAt := env.clock 1 }

/-- `ck_action_match_shape`: the matched columns are all null or none is. -/
def ActionAttempt.matchShape (a : ActionAttempt) : Bool :=
  (a.matchedCommandId.isNone && a.matchedScopeId.isNone && a.matchedSnapshotVersion.isNone &&
      a.matchedLiveVersion.isNone && a.matchedLiveStatus.isNone) ||
    (a.matchedCommandId.isSome && a.matchedScopeId.isSome && a.matchedSnapshotVersion.isSome &&
      a.matchedLiveVersion.isSome && a.matchedLiveStatus.isSome)

/-- The `INSERT` of an attempt under its constraints. -/
def insertAttempt (attempt : ActionAttempt) : Except Failure (Table ActionAttempt) := do
  ensure attempt.matchShape (.integrityError "ck_action_match_shape")
  ensure (∀ a ∈ db.attempts.rows, ¬(a.nodeId = attempt.nodeId ∧
      a.idempotencyKey = attempt.idempotencyKey)) (.integrityError "uq_action_idempotency")
  require (db.attempts.insert? attempt) (.integrityError "action_attempts")

/-- The matches of a denied attempt, one for each command with a live mismatch. -/
def commandMatches (node : Node) (attemptId : Id) (commands : List ControlCommand) :
    List ActionCommandMatch :=
  commands.filterMap fun command => do
    let m ← (evaluateScopes db node).mismatches.find? fun m => m.scopeId = command.targetScopeId
    let liveVersion ← m.liveVersion
    let liveStatus ← m.liveStatus
    return ⟨node.runId, attemptId, command.id, m.scopeId, m.snapshotVersion, liveVersion,
      liveStatus⟩

/-- The insertion of the matches. -/
def insertMatches (matched : List ActionCommandMatch) :
    Except Failure (Table ActionCommandMatch) :=
  matched.foldlM (fun t m => require (t.insert? m) (.integrityError "pk_action_command_match"))
    db.commandMatches

/-! ### Denial -/

/-- One step of the acknowledgement loop: the clock is read only for a row that is inserted. -/
def gatewayAckStep (node : Node) (clock : ℕ → Time) (acc : Database × ℕ)
    (command : ControlCommand) : Database × ℕ :=
  match acc.1.acknowledgements.get? (command.id, node.id, .gatewayBlock) with
  | some _ => acc
  | none => (recordAck acc.1 node command .gatewayBlock (clock acc.2), acc.2 + 1)

/-- The acknowledgements of a denial, and the number of the next clock reading. -/
def recordGatewayAcks (node : Node) (commands : List ControlCommand) (clock : ℕ → Time) :
    Database × ℕ :=
  commands.foldl (gatewayAckStep node clock) (db, 2)

/-- The two events of a denied attempt, or the first of an allowed one. -/
def requestedEvent (attempt : ActionAttempt) : RuntimeEvent where
  runId := attempt.runId
  eventType := .actionRequested
  occurredAt := attempt.attemptedAt
  nodeId := some attempt.nodeId
  actionId := some attempt.id
  commandId := attempt.matchedCommandId
  scopeId := attempt.matchedScopeId
  snapshotVersion := attempt.matchedSnapshotVersion
  authoritativeVersion := attempt.matchedLiveVersion

/-- The consequences of a denial. -/
def denyAction (node : Node) (attempt : ActionAttempt) (reason : ReasonCode) (env : Env) :
    Except Failure (Commit ActionAttempt) := do
  let commands := attributedCommands db node (some reason)
  let attempts ← insertAttempt db attempt
  let matches' ← insertMatches db (commandMatches db node attempt.id commands)
  let recorded := { db with attempts := attempts, commandMatches := matches' }
  let converged :=
    if reason.isStale then setStatus recorded node.id (evaluateScopes db node).effectiveStatus
    else recorded
  let acked := recordGatewayAcks converged node commands env.clock
  let denied : RuntimeEvent :=
    { requestedEvent attempt with
      eventType := .actionDenied
      decision := some .deny
      reasonCode := some reason.code }
  return ⟨{ acked.1 with events := acked.1.events ++ [requestedEvent attempt, denied] },
    some (env.clock (acked.2 - 1)), attempt⟩

/-! ### Execution -/

/-- The consequences of an admission: the tool runs, and the attempt is inserted with its result
already attached. -/
def allowAction (node : Node) (request : ActionExecute) (spec : ToolSpec)
    (attempt : ActionAttempt) (env : Env) : Except Failure (Commit ActionAttempt) := do
  let executed ← spec.execute db.serviceStates node.runId attempt.id request.arguments env.clock
  let attempt := { attempt with
    result := some executed.2
    resultDigest := some (cfg.jsonDigest (some executed.2))
    committedAt := some (env.clock 6) }
  let attempts ← insertAttempt db attempt
  let committed : RuntimeEvent :=
    { runId := node.runId, eventType := .actionCommitted, occurredAt := env.clock 6,
      nodeId := some node.id, actionId := some attempt.id, commandId := node.causedByCommandId,
      decision := some .allow }
  return ⟨{ db with
    attempts := attempts
    serviceStates := executed.1
    events := db.events ++ [requestedEvent attempt, committed] }, some (env.clock 6), attempt⟩

/-! ### `execute` -/

structure ActionResult where
  actionId : Id
  decision : ActionDecision
  denialReason : Option ReasonCode
  committed : Bool
  result : Option Json
  duplicate : Bool

/-- `_result`. -/
def actionResult (attempt : ActionAttempt) (duplicate : Bool) : ActionResult where
  actionId := attempt.id
  decision := attempt.decision
  denialReason := attempt.denialReason
  committed := attempt.committedAt.isSome
  result := attempt.result
  duplicate := duplicate

/-- The attempt of a node under an idempotency key. -/
def findAttempt (nodeId : Id) (idempotencyKey : String) : Option ActionAttempt :=
  db.attempts.rows.find? fun a => a.nodeId = nodeId ∧ a.idempotencyKey = idempotencyKey

/-- The part of `execute` after the replay check. -/
def executeNew (node : Node) (request : ActionExecute) (env : Env) :
    Except Failure (Commit ActionAttempt) := do
  env.checkRate "action"
  let spec ← getToolSpec request.toolName
  ensure ((db.attempts.rows.countP fun a => a.runId = node.runId) < cfg.maxActionsPerRun)
    (conflictError "Action quota exceeded for run" "RUN_ACTION_QUOTA_EXCEEDED")
  let run ← getRun db node.runId
  let denial ← admission cfg db run node request spec (env.clock 0)
  let attempt := newAttempt cfg db node request spec denial env
  match denial with
  | some reason => denyAction db node attempt reason env
  | none => allowAction cfg db node request spec attempt env

/-- `execute`. -/
def execute (nodeId : Id) (nodeToken : Token) (request : ActionExecute) (env : Env) :
    Except Failure (Commit ActionResult) := do
  let node ← authenticateNode cfg db nodeId nodeToken
  match findAttempt db nodeId request.idempotencyKey with
  | some existing => do
    ensure (existing.requestPayloadDigest = cfg.payloadDigest (.action request))
      (conflictError "Idempotency key was reused with a different action payload"
        "IDEMPOTENCY_PAYLOAD_MISMATCH")
    return ⟨db, none, actionResult existing true⟩
  | none => do
    let done ← executeNew cfg db node request env
    return ⟨done.db, done.read, actionResult done.value false⟩

end TraceFence
