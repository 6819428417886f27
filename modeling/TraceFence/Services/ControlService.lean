import TraceFence.Services.RunService
import TraceFence.Services.SpawnService

/-!
# Commands

`services/authority_service.py` and `ControlService.issue_command`, the one operation that changes
a scope.

## Main definitions

* `mayIssueCommand` — who may issue what
* `checkSourceProposal`, `buildReplacementManifest`, `chooseReplacementParent`
* `issueCommand`
-/

namespace TraceFence

open Checked

variable (cfg : Config) (db : Database)

/-! ### Authority -/

structure AuthorityDecision where
  allowed : Bool
  reasonCode : String
  deriving DecidableEq, Repr

/-- `may_issue_command`. -/
def mayIssueCommand (principal : Principal) (issuerNode : Option Node) (target : Node) (run : Run)
    (commandType : CommandType) (targetIsDescendant : Bool) : AuthorityDecision :=
  if target.runId ≠ run.id then ⟨false, "CROSS_RUN_CONTROL_DENIED"⟩
  else if commandType = .cancelRun ∧ target.id ≠ run.rootNodeId then
    ⟨false, "RUN_CANCELLATION_TARGET_MUST_BE_ROOT"⟩
  else if principal.issuerType = .human then ⟨true, "HUMAN_OPERATOR"⟩
  else
    match issuerNode with
    | none => ⟨false, "ISSUER_NODE_REQUIRED"⟩
    | some issuer =>
      if issuer.runId ≠ run.id then ⟨false, "CROSS_RUN_CONTROL_DENIED"⟩
      else if commandType = .cancelRun then
        if issuer.id ≠ run.rootNodeId then ⟨false, "RUN_CANCELLATION_REQUIRES_ROOT"⟩
        else ⟨true, "ROOT_COORDINATOR"⟩
      else if issuer.id = run.rootNodeId then ⟨true, "ROOT_COORDINATOR"⟩
      else if "control:descendants" ∉ issuer.capabilities then
        ⟨false, "CONTROL_CAPABILITY_REQUIRED"⟩
      else if targetIsDescendant then ⟨true, "AUTHORIZED_ANCESTOR"⟩
      else ⟨false, "NON_DESCENDANT_TARGET"⟩

/-! ### Source proposals -/

/-- `proposal_payload`. -/
def proposalPayload (p : CorrectionProposal) : ProposalFacts where
  id := p.id
  runId := p.runId
  reporterNodeId := p.reporterNodeId
  targetNodeId := p.targetNodeId
  proposalType := p.proposalType
  evidence := p.evidence
  reason := p.reason
  createdAt := p.createdAt

/-- The command type a proposal type stands for. -/
def ProposalType.commandType : ProposalType → CommandType
  | .correct => .correctSubtree
  | .cancel => .cancelSubtree

/-- `_canonical_capabilities`, where `none` is a `ValidationError`. -/
def canonicalCapabilities (values : List String) : Option (List String) :=
  if values.Nodup ∧ values ⊆ allowedCapabilities then some (sorted values) else none

/-- The capabilities of a request, canonical when there are any. -/
def requestedCapabilities (request : CommandCreate) : Except Failure (Option (List String)) :=
  match request.replacementCapabilities with
  | none => .ok none
  | some values => do
    let canonical ← require (canonicalCapabilities values)
      (.validationError "ProposalCommandAuthorization")
    return some canonical

/-- `command_authorization_payload`: the request without its replay metadata, validated. -/
def commandAuthorizationPayload (request : CommandCreate) :
    Except Failure ProposalCommandAuthorization := do
  ensure (request.commandType ≠ .cancelRun) (.validationError "ProposalCommandAuthorization")
  let capabilities ← requestedCapabilities request
  return {
    commandType := request.commandType
    targetNodeId := request.targetNodeId
    reasonCode := request.reasonCode
    reasonText := request.reasonText
    replacementInstruction := request.replacementInstruction
    replacementExpectedTool := request.replacementExpectedTool
    replacementRole := request.replacementRole
    replacementBehavior := request.replacementBehavior
    replacementCapabilities := capabilities
    replacementArguments := request.replacementArguments
    replacementMaxChildren := request.replacementMaxChildren
    recoveryStabilitySeconds := request.recoveryStabilitySeconds }

/-- The checks on an accepted proposal a command is issued for. -/
def checkSourceProposal (target : Node) (request : CommandCreate) (proposal : CorrectionProposal) :
    Except Failure Unit := do
  ensure (proposal.status = .accepted)
    (conflictError "Source proposal is not accepted" "SOURCE_PROPOSAL_NOT_ACCEPTED")
  ensure (proposal.resultingCommandId = none)
    (conflictError "Source proposal already produced a command" "SOURCE_PROPOSAL_ALREADY_USED")
  ensure (proposal.targetNodeId = target.id)
    (conflictError "Source proposal targets a different node" "SOURCE_PROPOSAL_TARGET_MISMATCH")
  ensure (request.commandType = proposal.proposalType.commandType)
    (conflictError "Command type does not match the accepted proposal"
      "SOURCE_PROPOSAL_TYPE_MISMATCH")
  ensure (proposal.acceptedPayloadDigest =
      some (cfg.payloadDigest (.proposal (proposalPayload proposal))))
    (conflictError "Accepted proposal payload was modified after review"
      "SOURCE_PROPOSAL_DIGEST_MISMATCH")
  ensure (proposal.authorizedCommandDigest ≠ none ∧ proposal.authorizedCommandDigest =
      proposal.authorizedCommand.map fun command => cfg.payloadDigest (.authorization command))
    (conflictError "Accepted proposal command authorization is missing or corrupt"
      "SOURCE_PROPOSAL_AUTHORIZATION_CORRUPT")
  let authorization ← commandAuthorizationPayload request
  ensure (proposal.authorizedCommandDigest = some (cfg.payloadDigest (.authorization authorization)))
    (conflictError "Command differs from the exact operator-authorized proposal command"
      "SOURCE_PROPOSAL_COMMAND_MISMATCH")

/-- The source proposal of a request, when it names one. -/
def findSourceProposal (run : Run) (target : Node) (request : CommandCreate) :
    Except Failure (Option Id) :=
  match request.sourceProposalId with
  | none => .ok none
  | some proposalId => do
    let proposal ← require
      ((db.proposals.get? proposalId).filter fun proposal => proposal.runId = run.id)
      (conflictError "Source proposal was not found in the target run" "SOURCE_PROPOSAL_NOT_FOUND")
    checkSourceProposal cfg target request proposal
    return some proposal.id

/-! ### The replacement a correction authorizes -/

/-- `get_tool_spec` of the expected tool, if the request names one. -/
def expectedSpec (request : CommandCreate) : Except Failure (Option ToolSpec) :=
  match request.replacementExpectedTool with
  | none => .ok none
  | some name => do
    let spec ← getToolSpec name
    return some spec

/-- The contract of a correction that expects no tool. -/
def noToolContract (stabilityWindowSeconds : ℕ) : RecoveryContract where
  expectedTool := none
  expectedArgumentsDigest := cfg.payloadDigest (.json (.obj []))
  allowedEnvironment := cfg.environment
  maxCommittedInvocations := 0
  stabilityWindowSeconds := stabilityWindowSeconds

/-- The recovery contract, and the service rows its construction leaves behind. -/
def buildContract (runId : Id) (spec : Option ToolSpec) (request : CommandCreate) (env : Env) :
    Except Failure (ServiceTable × RecoveryContract) :=
  let expectedArguments := request.replacementArguments.getD []
  match spec with
  | some spec => do
    spec.validateArguments expectedArguments
    return spec.buildRecoveryContract cfg db.serviceStates runId expectedArguments
      request.recoveryStabilitySeconds env.clock
  | none => do
    ensure expectedArguments.isEmpty
      (conflictError "Replacement arguments require replacement_expected_tool"
        "REPLACEMENT_ARGUMENTS_WITHOUT_TOOL")
    return (db.serviceStates, noToolContract cfg request.recoveryStabilitySeconds)

/-- The role a replacement must have. -/
def expectedRole (spec : Option ToolSpec) (target : Node) : String :=
  match (spec.bind (·.recommendedReplacementRole)).filter fun role => !role.isEmpty with
  | some role => role
  | none => target.role ++ "_replacement"

/-- The manifest of a correction, and the service rows its construction leaves behind. -/
def buildReplacementManifest (run : Run) (target : Node) (request : CommandCreate) (env : Env) :
    Except Failure (ServiceTable × ReplacementManifest) := do
  let spec ← expectedSpec request
  let role := expectedRole spec target
  ensure (∀ r ∈ request.replacementRole, r = role)
    (conflictError s!"Replacement role must be {role}" "REPLACEMENT_ROLE_POLICY_VIOLATION")
  ensure ((request.replacementBehavior.filter fun b => !b.isEmpty).getD "cooperative" =
      "cooperative")
    (conflictError "Correction replacements must use cooperative behavior"
      "REPLACEMENT_BEHAVIOR_POLICY_VIOLATION")
  let exactCapabilities := spec.toList.map (·.capability)
  let capabilities := sortedSet
    ((request.replacementCapabilities.filter fun values => !values.isEmpty).getD exactCapabilities)
  ensure (capabilities = sorted exactCapabilities)
    (conflictError "Replacement capabilities must exactly match the recovery policy"
      "REPLACEMENT_CAPABILITY_POLICY_VIOLATION")
  let built ← buildContract cfg db run.id spec request env
  let maxChildren := request.replacementMaxChildren.getD 0
  ensure (maxChildren = 0)
    (conflictError "Recovery replacements cannot spawn descendants in the current policy"
      "REPLACEMENT_CHILD_BUDGET_POLICY_VIOLATION")
  ensure built.2.Valid (.validationError "RecoveryContract")
  let manifest ← require
    (ReplacementManifest.modelValidate (.fields
      { role := role
        instructionDigest := cfg.jsonDigest request.replacementInstruction
        instructionVersion := target.instructionVersion + 1
        capabilitiesExact := capabilities
        maxChildren := maxChildren
        recoveryContract := built.2 }))
    (.validationError "ReplacementManifest")
  return (built.1, manifest)

/-- Whether a node passes `validate_node_runtime_state`. -/
def isLive (node : Node) (now : Time) : Except Failure Bool := do
  let state ← validateNodeRuntimeState db node now
  return state.allowed

/-- The target's own parent, if it is live. -/
def intendedParent (target : Node) (env : Env) : Except Failure (Option Id) :=
  match target.parentId.bind db.nodes.get? with
  | none => .ok none
  | some parent => do
    let live ← isLive db parent (env.clock 4)
    return if live then some parent.id else none

/-- The root of the run, which must be live and not the target itself. -/
def fallbackParent (run : Run) (target : Node) (env : Env) : Except Failure Id := do
  let unavailable := conflictError "No live authorized replacement parent is available"
    "REPLACEMENT_PARENT_UNAVAILABLE"
  let root ← require ((db.nodes.get? run.rootNodeId).filter fun root => root.id ≠ target.id)
    unavailable
  let rootLive ← isLive db root (env.clock 5)
  ensure (rootLive = true) unavailable
  return root.id

/-- The parent a replacement is to have. -/
def chooseReplacementParent (run : Run) (target : Node) (env : Env) : Except Failure Id := do
  match ← intendedParent db target env with
  | some parentId => return parentId
  | none => fallbackParent db run target env

/-- What a command of each type is about: the scope it invalidates, and for a correction the
replacement's parent and manifest. -/
structure CommandPlan where
  targetScopeId : Id
  replacementParentId : Option Id := none
  manifest : Option ReplacementManifest := none
  serviceStates : ServiceTable

/-- The plan of a command. -/
def planCommand (run : Run) (target : Node) (request : CommandCreate) (env : Env) :
    Except Failure CommandPlan :=
  match request.commandType with
  | .cancelRun => .ok { targetScopeId := run.runScopeId, serviceStates := db.serviceStates }
  | .cancelSubtree => .ok { targetScopeId := target.ownScopeId, serviceStates := db.serviceStates }
  | .correctSubtree => do
    let built ← buildReplacementManifest cfg db run target request env
    let parentId ← chooseReplacementParent db run target env
    return {
      targetScopeId := target.ownScopeId
      replacementParentId := some parentId
      manifest := some built.2
      serviceStates := built.1 }

/-! ### Issuing -/

/-- The status a command gives its target scope. -/
def CommandType.scopeStatus : CommandType → ScopeStatus
  | .correctSubtree => .superseded
  | .cancelRun | .cancelSubtree => .cancelled

structure CommandIssued where
  commandId : Id
  targetScopeId : Id
  fromVersion : ℕ
  toVersion : ℕ
  status : ScopeStatus
  replacementParentId : Option Id
  replacementInstruction : Option Json
  replacementExpectedTool : Option String
  replacementManifest : Option ManifestJson
  replacementStatus : Option ReplacementStatus
  duplicate : Bool

/-- `_to_response`. -/
def toResponse (command : ControlCommand) (duplicate : Bool) : CommandIssued where
  commandId := command.id
  targetScopeId := command.targetScopeId
  fromVersion := command.fromVersion
  toVersion := command.toVersion
  status := command.commandType.scopeStatus
  replacementParentId := command.replacementParentId
  replacementInstruction := command.replacementInstruction
  replacementExpectedTool := command.replacementExpectedTool
  replacementManifest := command.replacementManifest
  replacementStatus := command.replacementStatus
  duplicate := duplicate

/-- The issuer of a command and the fingerprint its idempotency keys are counted under. -/
structure Issuer where
  node : Option Node
  fingerprint : String

/-- The authentication of the principal. -/
def authenticateIssuer (principal : Principal) (nodeToken : Option Token) :
    Except Failure Issuer :=
  match principal.issuerType with
  | .human => .ok ⟨none, (principal.principalId.filter fun p => !p.isEmpty).getD "human:operator"⟩
  | .agent => do
    let missing := authorizationError "Agent principal requires a node token"
    let nodeId ← require principal.nodeId missing
    let token ← require nodeToken missing
    let node ← authenticateNode cfg db nodeId token
    return ⟨some node, s!"agent:{node.id}"⟩

/-- The authority check and the shape a command on the root must have. -/
def authorizeCommand (principal : Principal) (issuer : Issuer) (target : Node) (run : Run)
    (commandType : CommandType) : Except Failure Unit := do
  let targetIsDescendant := issuer.node.any fun node =>
    decide (node.id ≠ run.rootNodeId) && isDescendant db run.id node.id target.id
  let decision := mayIssueCommand principal issuer.node target run commandType targetIsDescendant
  ensure decision.allowed (authorizationError s!"Command denied: {decision.reasonCode}")
  ensure (¬(target.id = run.rootNodeId ∧ commandType ≠ .cancelRun))
    (conflictError "Root control changes must use CANCEL_RUN in the MVP"
      "ROOT_SUBTREE_CONTROL_UNSUPPORTED")

/-- The command of a run with a given issuer fingerprint and idempotency key. -/
def findCommand (runId : Id) (fingerprint idempotencyKey : String) : Option ControlCommand :=
  db.commands.rows.find? fun command =>
    command.runId = runId ∧ command.issuerFingerprint = fingerprint ∧
      command.idempotencyKey = idempotencyKey

/-- `validate_node_runtime_state` of an issuing node. -/
def requireIssuerLive (issuer : Issuer) (now : Time) : Except Failure Unit :=
  match issuer.node with
  | none => .ok ()
  | some node => do
    let state ← validateNodeRuntimeState db node now
    let reason := (state.reason.map ReasonCode.code).getD "None"
    ensure state.allowed (authorizationError s!"Issuer is not live: {reason}")

/-- The command row. -/
def newCommand (request : CommandCreate) (principal : Principal) (issuer : Issuer) (run : Run)
    (target : Node) (sourceProposalId : Option Id) (plan : CommandPlan) (oldVersion : ℕ)
    (env : Env) : ControlCommand where
  id := env.uuid 0
  idempotencyKey := request.idempotencyKey
  issuerFingerprint := issuer.fingerprint
  requestPayloadDigest := cfg.payloadDigest (.command request)
  runId := run.id
  issuerNodeId := issuer.node.map (·.id)
  issuerType := principal.issuerType
  commandType := request.commandType
  sourceProposalId := sourceProposalId
  targetNodeId := target.id
  targetScopeId := plan.targetScopeId
  fromVersion := oldVersion
  toVersion := oldVersion + 1
  reasonCode := request.reasonCode
  reasonText := request.reasonText
  replacementParentId := plan.replacementParentId
  replacementInstruction := request.replacementInstruction
  replacementExpectedTool := request.replacementExpectedTool
  replacementManifest := plan.manifest.map (·.modelDump)
  replacementManifestDigest :=
    plan.manifest.map fun manifest => cfg.payloadDigest (.manifest manifest.modelDump)
  replacementStatus := if request.commandType = .correctSubtree then some .pending else none
  createdAt := env.clock 8

/-- `ck_command_replacement_shape`. -/
def ControlCommand.replacementShape (c : ControlCommand) : Bool :=
  if c.commandType = .correctSubtree then
    c.replacementParentId.isSome && c.replacementInstruction.isSome &&
      c.replacementManifest.isSome && c.replacementManifestDigest.isSome &&
      c.replacementStatus.isSome
  else
    c.replacementParentId.isNone && c.replacementInstruction.isNone &&
      c.replacementExpectedTool.isNone && c.replacementManifest.isNone &&
      c.replacementManifestDigest.isNone && c.replacementNodeId.isNone &&
      c.replacementStatus.isNone

/-- The `INSERT` of a command under its `CHECK` and `UNIQUE` constraints. -/
def insertCommand? (command : ControlCommand) : Option (Table ControlCommand) :=
  if command.replacementShape ∧ ∀ c ∈ db.commands.rows,
      command.sourceProposalId = none ∨ c.sourceProposalId ≠ command.sourceProposalId then
    db.commands.insert? command
  else none

/-- The change of the target scope. -/
def invalidateScope (scopeId : Id) (status : ScopeStatus) (issuerNodeId : Option Id)
    (reasonCode : String) (now : Time) : Table ControlScope :=
  db.scopes.modify scopeId fun row =>
    { row with
      version := row.version + 1
      status := status
      updatedByNodeId := issuerNodeId
      reasonCode := some reasonCode
      updatedAt := now }

/-- The two events of a command. -/
def commandEvents (command : ControlCommand) (updatedAt : Time) : List RuntimeEvent :=
  let issued : RuntimeEvent :=
    { runId := command.runId, eventType := .commandIssued, occurredAt := command.createdAt,
      nodeId := some command.targetNodeId, commandId := some command.id,
      scopeId := some command.targetScopeId, reasonCode := some command.reasonCode,
      snapshotVersion := some command.fromVersion,
      authoritativeVersion := some command.toVersion }
  [issued,
    { issued with
      eventType := if command.commandType = .correctSubtree then .scopeSuperseded
        else .scopeCancelled
      occurredAt := updatedAt }]

/-- The answer to a violated constraint: an exact replay, if one is there by now. -/
def replayCommand (runId : Id) (fingerprint : String) (request : CommandCreate) :
    Except Failure (Commit CommandIssued) :=
  let conflict := conflictError "Duplicate command idempotency key"
  match findCommand db runId fingerprint request.idempotencyKey with
  | none => .error conflict
  | some replay =>
    if replay.requestPayloadDigest = cfg.payloadDigest (.command request) then
      .ok ⟨db, none, toResponse replay true⟩
    else .error conflict

/-- The runs after a command: `CANCEL_RUN` ends its run. -/
def cancelledRuns (request : CommandCreate) (run : Run) (env : Env) :
    Except Failure (Table Run) :=
  if request.commandType = .cancelRun then transitionRun db.runs run .cancelled (env.clock 7)
  else .ok db.runs

/-- The writes: the scope, the run of a cancelled run, the command, its proposal. -/
def commitCommand (request : CommandCreate) (principal : Principal) (issuer : Issuer) (run : Run)
    (target : Node) (sourceProposalId : Option Id) (plan : CommandPlan) (env : Env) :
    Except Failure (Commit CommandIssued) := do
  let scope ← require ((db.scopes.get? plan.targetScopeId).filter fun scope => scope.runId = run.id)
    (conflictError "Target control scope was not found" "SCOPE_NOT_FOUND")
  ensure (scope.status = .active) (conflictError "Target scope is not active" "SCOPE_NOT_ACTIVE")
  let runs ← cancelledRuns db request run env
  let command := newCommand cfg request principal issuer run target sourceProposalId plan
    scope.version env
  match insertCommand? db command with
  | none => replayCommand cfg db run.id issuer.fingerprint request
  | some commands =>
    let proposals := match sourceProposalId with
      | none => db.proposals
      | some proposalId => db.proposals.modify proposalId fun row =>
        { row with resultingCommandId := some command.id }
    return ⟨{ db with
      scopes := invalidateScope db scope.id request.commandType.scopeStatus
        (issuer.node.map (·.id)) request.reasonCode (env.clock 6)
      runs := runs
      serviceStates := plan.serviceStates
      commands := commands
      proposals := proposals
      events := db.events ++ commandEvents command (env.clock 6) },
      some (env.clock 8), toResponse command false⟩

/-- The part of `issue_command` after the replay check. -/
def issueNewCommand (request : CommandCreate) (principal : Principal) (issuer : Issuer) (run : Run)
    (target : Node) (env : Env) : Except Failure (Commit CommandIssued) := do
  env.checkRate "command"
  requireIssuerLive db issuer (env.clock 0)
  ensure (run.status = .running)
    (conflictError "Terminal runs cannot accept new commands" "RUN_TERMINAL_STATE")
  ensure ((db.commands.rows.countP fun c => c.runId = run.id) < cfg.maxCommandsPerRun)
    (conflictError "Command quota exceeded for run" "RUN_COMMAND_QUOTA_EXCEEDED")
  let sourceProposalId ← findSourceProposal cfg db run target request
  let plan ← planCommand cfg db run target request env
  commitCommand cfg db request principal issuer run target sourceProposalId plan env

/-- `issue_command`. The digest of the request is taken before anything is read. -/
def issueCommand (request : CommandCreate) (principal : Principal) (nodeToken : Option Token)
    (env : Env) : Except Failure (Commit CommandIssued) := do
  ensure request.Dumps (.valueError ("Exceeds the limit (4300 digits) for integer string " ++
    "conversion; use sys.set_int_max_str_digits() to increase the limit"))
  let target ← getNode db request.targetNodeId
  let run ← getRun db target.runId
  let issuer ← authenticateIssuer cfg db principal nodeToken
  authorizeCommand db principal issuer target run request.commandType
  match findCommand db run.id issuer.fingerprint request.idempotencyKey with
  | some existing => do
    ensure (existing.requestPayloadDigest = cfg.payloadDigest (.command request))
      (conflictError "Idempotency key was reused with a different command payload"
        "IDEMPOTENCY_PAYLOAD_MISMATCH")
    return ⟨db, none, toResponse existing true⟩
  | none => issueNewCommand cfg db request principal issuer run target env

end TraceFence
