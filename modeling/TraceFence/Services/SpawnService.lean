import TraceFence.Services.CredentialRecovery

/-!
# Registering nodes

`SpawnService.create_spawn` and `SpawnService.create_replacement`, with the budgets and the
recovery of a lost response they share. Both are one transaction; each registers at most one
pending node.

## Main definitions

* `createSpawnLocked` — the scope, the node and the intent of a pending child
* `createSpawn`, `createReplacement`
-/

namespace TraceFence

open Checked

variable (cfg : Config) (db : Database)

/-! ### Budgets -/

/-- `_enforce_graph_budget`. -/
def enforceGraphBudget (parent : Node) : Except Failure Unit := do
  ensure (parent.generation + 1 ≤ cfg.maxGraphDepth)
    (conflictError "Maximum graph depth exceeded" "GRAPH_DEPTH_QUOTA_EXCEEDED")
  ensure ((db.nodes.rows.countP fun n => n.runId = parent.runId) < cfg.maxNodesPerRun)
    (conflictError "Maximum nodes per run exceeded" "RUN_NODE_QUOTA_EXCEEDED")
  ensure ((db.nodes.rows.countP fun n => n.runId = parent.runId ∧ n.parentId = some parent.id) <
      cfg.maxChildrenPerNode)
    (conflictError "Maximum children per node exceeded" "NODE_CHILD_QUOTA_EXCEEDED")

/-- `_enforce_parent_child_budget`. -/
def enforceParentChildBudget (parent : Node) : Except Failure Unit :=
  match parent.causedByCommandId with
  | none => .ok ()
  | some commandId => do
    let manifest ← require ((db.commands.get? commandId).bind (·.replacementManifest))
      (conflictError "Replacement parent has no authoritative manifest"
        "REPLACEMENT_MANIFEST_MISSING")
    let manifestModel ← require (ReplacementManifest.modelValidate manifest)
      (conflictError "Replacement parent manifest violates its schema"
        "REPLACEMENT_MANIFEST_INVALID")
    let existingChildren :=
      db.nodes.rows.countP fun n => n.runId = parent.runId ∧ n.parentId = some parent.id
    ensure (existingChildren < manifestModel.maxChildren)
      (conflictError "Replacement child budget is exhausted" "REPLACEMENT_CHILD_BUDGET_EXCEEDED")

/-- `_validate_capability_delegation`. -/
def validateCapabilityDelegation (parent : Node) (request : SpawnCreate) : Except Failure Unit :=
  ensure (request.capabilities ⊆ parent.capabilities)
    (authorizationError "Requested capabilities are not delegable by parent")

/-- The liveness check of a calling node: `allowed` or a conflict under the reason. -/
def requireLive (node : Node) (now : Time) (prose fallback : String) : Except Failure Unit := do
  let state ← validateNodeRuntimeState db node now
  let code := (state.reason.map ReasonCode.code).getD fallback
  let reason := (state.reason.map ReasonCode.code).getD "None"
  ensure state.allowed (conflictError s!"{prose}: {reason}" code)

/-! ### Registration -/

/-- What distinguishes a replacement from a plain child. -/
structure Supersession where
  supersedesNodeId : Option Id := none
  causedByCommandId : Option Id := none
  instructionVersion : ℕ := 1

/-- The pending node `_create_spawn_locked` inserts. -/
def childNode (parent : Node) (request : SpawnCreate) (s : Supersession) (env : Env) : Node where
  id := env.uuid 0
  runId := parent.runId
  parentId := some parent.id
  supersedesNodeId := s.supersedesNodeId
  causedByCommandId := s.causedByCommandId
  role := request.role
  behavior := request.behavior
  generation := parent.generation + 1
  lineagePath := parent.lineagePath ++ [parent.id]
  status := .pending
  ownScopeId := env.uuid 1
  scopeSnapshot := parent.scopeSnapshot ++ [⟨env.uuid 1, 1⟩]
  instructionVersion := s.instructionVersion
  instruction := request.instruction
  capabilities := sortedSet request.capabilities
  registeredAt := env.clock 2

/-- Its own scope. -/
def childScope (parent : Node) (env : Env) : ControlScope where
  id := env.uuid 1
  runId := parent.runId
  ownerNodeId := some (env.uuid 0)
  version := 1
  status := .active
  updatedAt := env.clock 2

/-- Its intent, under the digest of a fresh activation token. -/
def childIntent (parent : Node) (env : Env) : SpawnIntent where
  runId := parent.runId
  parentNodeId := parent.id
  childNodeId := env.uuid 0
  activationTokenHash := cfg.hashToken (env.token 0)
  traceContext := env.carrier
  expiresAt := env.clock 1 + seconds cfg.spawnIntentTtlSeconds

/-- The response of a registration. -/
def spawnCreated (env : Env) : SpawnCreated where
  childNodeId := env.uuid 0
  activationToken := env.token 0
  expiresAt := env.clock 1 + seconds cfg.spawnIntentTtlSeconds
  traceContext := env.carrier

/-- `_create_spawn_locked`. -/
def createSpawnLocked (parent : Node) (request : SpawnCreate) (s : Supersession) (env : Env) :
    Except Failure Database := do
  let scopes ← require (db.scopes.insert? (childScope parent env)) (.integrityError "control_scopes")
  let nodes ← require (db.nodes.insert? (childNode parent request s env)) (.integrityError "nodes")
  let intents ← require (db.intents.insert? (childIntent cfg parent env))
    (.integrityError "spawn_intents")
  let event : RuntimeEvent :=
    { runId := parent.runId
      eventType := if s.causedByCommandId.isSome then .replacementCreated else .nodeRegistered
      occurredAt := env.clock 2
      nodeId := some (env.uuid 0)
      parentNodeId := some parent.id
      commandId := s.causedByCommandId
      scopeId := some (env.uuid 1)
      snapshotVersion := some 1
      authoritativeVersion := some 1 }
  return { db with
    scopes := scopes, nodes := nodes, intents := intents, events := db.events ++ [event] }

def recoveryExpired : Failure :=
  conflictError "Spawn credential is no longer recoverable" "CREDENTIAL_RECOVERY_EXPIRED"

/-- `_recover_spawn_response`: hand the sealed response out again, or, when the envelope has
expired before the intent, issue a new activation token for the same pending node. -/
def recoverSpawnResponse (e : CredentialRecoveryEnvelope) (env : Env) :
    Except Failure (Commit SpawnCreated) := do
  let now := env.clock 0
  let node ← require (db.nodes.get? e.subjectNodeId) recoveryExpired
  let intent ← require (db.intents.get? e.subjectNodeId) recoveryExpired
  ensure (node.status = .pending ∧ intent.consumedAt = none ∧ now < intent.expiresAt)
    recoveryExpired
  if now < e.expiresAt then
    let response ← openSpawn e
    return ⟨db, some now, response⟩
  else
    let expiresAt := env.clock 1 + seconds cfg.spawnIntentTtlSeconds
    let recovered : SpawnCreated := ⟨node.id, env.token 0, expiresAt, intent.traceContext⟩
    let rotated := { db with
      intents := db.intents.modify e.subjectNodeId fun row =>
        { row with activationTokenHash := cfg.hashToken (env.token 0), expiresAt := expiresAt } }
    return ⟨resealEnvelope cfg rotated e (.spawn recovered) (env.clock 2), some (env.clock 2),
      recovered⟩

/-! ### `create_spawn` -/

/-- The branch without an envelope. -/
def registerChild (parent : Node) (request : SpawnCreate) (requestDigest : Digest) (env : Env) :
    Except Failure (Commit SpawnCreated) := do
  env.checkRate "spawn"
  requireLive db parent (env.clock 0) "Parent cannot spawn" "SPAWN_DENIED"
  enforceGraphBudget cfg db parent
  enforceParentChildBudget db parent
  validateCapabilityDelegation parent request
  let registered ← createSpawnLocked cfg db parent request {} env
  let created := spawnCreated cfg env
  let sealedDb ← sealRecovery cfg registered parent.runId .spawn parent.id created.childNodeId
    request.operationKey requestDigest (.spawn created) (env.clock 3)
  return ⟨sealedDb, some (env.clock (if request.operationKey.isSome then 3 else 2)), created⟩

/-- `create_spawn`. -/
def createSpawn (parentNodeId : Id) (parentToken : Token) (request : SpawnCreate) (env : Env) :
    Except Failure (Commit SpawnCreated) := do
  let requestDigest := cfg.recoveryRequestDigest (.spawn none request)
  let parent ← authenticateNode cfg db parentNodeId parentToken
  match ← findRecovery db .spawn parent.id request.operationKey requestDigest with
  | some envelope => recoverSpawnResponse cfg db envelope env
  | none => registerChild cfg db parent request requestDigest env

/-! ### `create_replacement` -/

/-- The checks on the command and the caller. -/
def checkReplacementCommand (parent : Node) (command : ControlCommand) : Except Failure Unit := do
  ensure (command.commandType = .correctSubtree)
    (conflictError "Replacement requires a CORRECT_SUBTREE command" "REPLACEMENT_COMMAND_INVALID")
  ensure (command.runId = parent.runId) (authorizationError "Cross-run replacement is not allowed")
  ensure (command.replacementParentId = some parent.id)
    (authorizationError "Only the command-designated parent may create the replacement")

/-- A command that already has a replacement gets another only after the activation of that one
has expired. -/
def checkRetry (command : ControlCommand) : Except Failure Unit :=
  match command.replacementNodeId with
  | none => .ok ()
  | some priorId =>
    ensure (command.replacementStatus = some .activationExpired ∧
        ((db.nodes.get? priorId).any fun prior => prior.status = .leaseExpired) = true)
      (conflictError "Correction command already has a replacement node"
        "REPLACEMENT_ALREADY_CREATED")

/-- The checks on the corrected node and its scope: the node, when they all pass. -/
def checkCorrectionLineage (parent : Node) (command : ControlCommand) : Except Failure Node := do
  let incomplete :=
    conflictError "Correction lineage is incomplete" "CORRECTION_LINEAGE_INVALID"
  let old ← require (db.nodes.get? command.targetNodeId) incomplete
  let scope ← require (db.scopes.get? command.targetScopeId) incomplete
  let rootFallback := (db.runs.get? command.runId).any (fun run => parent.id = run.rootNodeId) &&
    decide (command.replacementParentId = some parent.id)
  ensure (old.runId = parent.runId ∧ (old.parentId = some parent.id ∨ rootFallback = true))
    (conflictError "Replacement must use the command-authorized parent"
      "REPLACEMENT_PARENT_MISMATCH")
  ensure (old.ownScopeId = command.targetScopeId)
    (conflictError "Command does not target the corrected node's owned scope"
      "CORRECTION_SCOPE_MISMATCH")
  ensure (scope.status = .superseded ∧ scope.version = command.toVersion)
    (conflictError "Correction scope is not in the expected superseded state"
      "CORRECTION_SCOPE_NOT_SUPERSEDED")
  return old

/-- `payload_digest` of a column that may be null. -/
def Config.jsonDigest (cfg : Config) (value : Option Json) : Digest :=
  cfg.payloadDigest (.json (value.getD .null))

/-- The checks of the request against the authorized manifest. -/
def checkReplacementManifest (command : ControlCommand) (old : Node) (request : SpawnCreate) :
    Except Failure Unit := do
  ensure (cfg.jsonDigest (some request.instruction) = cfg.jsonDigest command.replacementInstruction)
    (conflictError "Replacement instruction does not match the correction command"
      "REPLACEMENT_INSTRUCTION_MISMATCH")
  let corrupted := conflictError "Correction replacement manifest is missing or corrupted"
    "REPLACEMENT_MANIFEST_INVALID"
  let manifest ← require command.replacementManifest corrupted
  ensure (command.replacementManifestDigest = some (cfg.payloadDigest (.manifest manifest)))
    corrupted
  let manifestModel ← require (ReplacementManifest.modelValidate manifest)
    (conflictError "Correction replacement manifest violates its schema"
      "REPLACEMENT_MANIFEST_INVALID")
  ensure (request.role = manifestModel.role ∧ request.behavior = manifestModel.behavior ∧
      sortedSet request.capabilities = manifestModel.capabilitiesExact ∧
      cfg.jsonDigest (some request.instruction) = manifestModel.instructionDigest ∧
      old.instructionVersion + 1 = manifestModel.instructionVersion)
    (conflictError "Replacement does not exactly match the authorized manifest"
      "REPLACEMENT_MANIFEST_MISMATCH")

/-- The branch that returns the response of an earlier, identical call. -/
def recoverReplacement (parent : Node) (correctionCommandId : Id) (request : SpawnCreate)
    (e : CredentialRecoveryEnvelope) (env : Env) : Except Failure (Commit SpawnCreated) := do
  let command ← require ((db.commands.get? correctionCommandId).filter fun command =>
      command.replacementNodeId = some e.subjectNodeId)
    (conflictError "Recovered replacement does not match the command"
      "CREDENTIAL_RECOVERY_SUBJECT_MISMATCH")
  let recovered ← recoverSpawnResponse cfg db e env
  checkReplacementCommand parent command
  let old ← checkCorrectionLineage db parent command
  checkReplacementManifest cfg command old request
  validateCapabilityDelegation parent request
  return recovered

/-- `command.replacement_node_id` and `command.replacement_status` of a new replacement. -/
def assignReplacement (commandId nodeId : Id) : Database :=
  { db with
    commands := db.commands.modify commandId fun command =>
      { command with
        replacementNodeId := some nodeId
        replacementStatus := some .pending } }

/-- The branch that registers a replacement. -/
def registerReplacement (parent : Node) (correctionCommandId : Id) (request : SpawnCreate)
    (requestDigest : Digest) (env : Env) : Except Failure (Commit SpawnCreated) := do
  env.checkRate "spawn"
  requireLive db parent (env.clock 0) "Replacement parent is not live" "REPLACEMENT_PARENT_DENIED"
  let command ← require (db.commands.get? correctionCommandId)
    (notFoundError s!"Correction command {correctionCommandId} was not found")
  checkReplacementCommand parent command
  checkRetry db command
  enforceGraphBudget cfg db parent
  let old ← checkCorrectionLineage db parent command
  checkReplacementManifest cfg command old request
  validateCapabilityDelegation parent request
  let s : Supersession := ⟨some old.id, some command.id, old.instructionVersion + 1⟩
  let registered ← createSpawnLocked cfg db parent request s env
  let created := spawnCreated cfg env
  let assigned := assignReplacement registered command.id created.childNodeId
  let sealedDb ← sealRecovery cfg assigned parent.runId .replacement parent.id created.childNodeId
    request.operationKey requestDigest (.spawn created) (env.clock 3)
  return ⟨sealedDb, some (env.clock (if request.operationKey.isSome then 3 else 2)), created⟩

/-- `create_replacement`. -/
def createReplacement (parentNodeId : Id) (parentToken : Token) (correctionCommandId : Id)
    (request : SpawnCreate) (env : Env) : Except Failure (Commit SpawnCreated) := do
  let requestDigest := cfg.recoveryRequestDigest (.spawn (some correctionCommandId) request)
  let parent ← authenticateNode cfg db parentNodeId parentToken
  match ← findRecovery db .replacement parent.id request.operationKey requestDigest with
  | some envelope => recoverReplacement cfg db parent correctionCommandId request envelope env
  | none => registerReplacement cfg db parent correctionCommandId request requestDigest env

end TraceFence
