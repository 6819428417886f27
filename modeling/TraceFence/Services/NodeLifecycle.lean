import TraceFence.Services.RunService
import TraceFence.Services.SpawnService

/-!
# The life of a node

`SpawnService.activate`, `heartbeat`, `checkpoint` and `complete`. `activate` and `heartbeat`
read the clock before they acquire the write lock. `checkpoint` never issues `BEGIN IMMEDIATE`:
its reads run first and see whatever is committed, and its writes run later as a transaction of
their own, so it is two functions here, joined by the `CheckpointWrite` that the first leaves for
the second.

## Main definitions

* `recordAck`, `recordLeaseExpiryAck` — acknowledgements
* `activate`, `heartbeat`, `complete`
* `checkpointRead`, `checkpointWrite`
-/

namespace TraceFence

open Checked

variable (cfg : Config) (db : Database)

/-! ### Writes shared by the operations -/

/-- `node.status = status`. -/
def setStatus (nodeId : Id) (status : NodeStatus) : Database :=
  { db with nodes := db.nodes.modify nodeId fun row => { row with status := status } }

/-- `command.replacement_status = status`. -/
def setReplacementStatus (commandId : Id) (status : ReplacementStatus) : Database :=
  { db with
    commands := db.commands.modify commandId fun row =>
      { row with replacementStatus := some status } }

/-- `record_runtime_event`. -/
def recordRuntimeEvent (event : RuntimeEvent) : Database :=
  { db with events := db.events ++ [event] }

/-- The row `_record_ack` inserts. -/
def newAck (node : Node) (command : ControlCommand) (ackType : AckType) (now : Time) :
    CommandAcknowledgement where
  runId := node.runId
  commandId := command.id
  nodeId := node.id
  ackType := ackType
  observedAt := now
  observedScopeVersion := command.toVersion

/-- `_record_ack`: at most one acknowledgement of a kind from a node to a command. -/
def recordAck (node : Node) (command : ControlCommand) (ackType : AckType) (now : Time) :
    Database :=
  { db with acknowledgements := db.acknowledgements.insertNew (newAck node command ackType now) }

/-- The commands whose scopes a node fails against. -/
def applicableCommands (node : Node) : List ControlCommand :=
  commandsForScopeMismatches db (evaluateScopes db node).mismatches node.runId

/-- An acknowledgement to each of a list of commands. -/
def recordAcks (node : Node) (commands : List ControlCommand) (ackType : AckType) (now : Time) :
    Database :=
  commands.foldl (fun db command => recordAck db node command ackType now) db

/-- `_record_lease_expiry_ack`. -/
def recordLeaseExpiryAck (node : Node) (now : Time) : Database :=
  recordAcks db node (applicableCommands db node) .leaseExpired now

/-- `node.caused_by_command_id`, looked up and checked against the node: the command whose
replacement lifecycle moves with the node, or `none` for a node no command caused. -/
def causingCommand (node : Node) (expected : ReplacementStatus) (message : String) :
    Except Failure (Option Id) :=
  match node.causedByCommandId with
  | none => .ok none
  | some commandId => do
    let _ ← require ((db.commands.get? commandId).filter fun command =>
        command.replacementNodeId = some node.id ∧ command.replacementStatus = some expected)
      (conflictError message "REPLACEMENT_LIFECYCLE_INVALID")
    return some commandId

/-- The lifecycle change of the causing command, if there is one. -/
def advanceReplacement (commandId : Option Id) (status : ReplacementStatus) : Database :=
  match commandId with
  | none => db
  | some commandId => setReplacementStatus db commandId status

/-! ### `activate` -/

/-- The columns of a node that `activate` sets. -/
def Node.activated (node : Node) (request : NodeActivate) (tokenHash : Digest) (now lease : Time) :
    Node :=
  { node with
    status := .active
    tokenHash := some tokenHash
    activatedAt := some now
    lastHeartbeatAt := some now
    leaseExpiresAt := some lease
    processId := request.processId }

/-- The branch that consumes the activation token. -/
def consumeActivation (node : Node) (intent : SpawnIntent) (request : NodeActivate)
    (requestDigest : Digest) (env : Env) (now : Time) : Except Failure (Commit NodeActivated) := do
  ensure (intent.consumedAt = none)
    (conflictError "Activation token already used" "ACTIVATION_TOKEN_USED")
  env.checkRate "activation"
  ensure (now < intent.expiresAt)
    (conflictError "Activation token expired" "ACTIVATION_TOKEN_EXPIRED")
  ensure (node.status = .pending ∧ node.tokenHash = none)
    (conflictError "Node is not pending activation" "NODE_NOT_PENDING")
  let evaluation := evaluateScopes db node
  let code := (evaluation.primaryReason.map ReasonCode.code).getD "SCOPE_INVALID"
  ensure evaluation.allowed
    (conflictError "Inherited control state is no longer active" code)
  let commandId ← causingCommand db node .pending "Replacement activation lifecycle is inconsistent"
  let lease := now + seconds cfg.leaseTtlSeconds
  let tokenHash := cfg.hashToken (env.token 0)
  let written := { db with
    intents := db.intents.modify node.id fun row => { row with consumedAt := some now }
    nodes := db.nodes.modify node.id fun row => row.activated request tokenHash now lease }
  let advanced := advanceReplacement written commandId .active
  let activated : NodeActivated := ⟨node.id, node.runId, node.role, env.token 0, lease⟩
  let sealedDb ← sealRecovery cfg advanced node.runId .activation node.id node.id
    request.operationKey requestDigest (.activation activated) (env.clock 0)
  let events : List RuntimeEvent :=
    [{ runId := node.runId, eventType := .nodeActivated, occurredAt := now, nodeId := some node.id,
        parentNodeId := node.parentId, commandId := node.causedByCommandId },
      { runId := node.runId, eventType := .leaseGranted, occurredAt := now,
        nodeId := some node.id }]
  return ⟨{ sealedDb with events := sealedDb.events ++ events },
    some (if request.operationKey.isSome then env.clock 0 else now), activated⟩

/-- The branch that hands an earlier response out again, or, when its envelope has expired, gives
a node that is still live a new token. -/
def recoverActivation (node : Node) (e : CredentialRecoveryEnvelope) (env : Env) (now : Time) :
    Except Failure (Commit NodeActivated) := do
  if now < e.expiresAt then
    let response ← openActivation e
    return ⟨db, some now, response⟩
  else
    let inactive := conflictError "Expired activation recovery cannot revive an inactive node"
      "CREDENTIAL_RECOVERY_EXPIRED"
    ensure (node.status.isLive ∧ node.leaseExpired now = false) inactive
    let lease ← require node.leaseExpiresAt inactive
    let tokenHash := cfg.hashToken (env.token 1)
    let rotated : NodeActivated := ⟨node.id, node.runId, node.role, env.token 1, lease⟩
    let written := { db with
      nodes := db.nodes.modify node.id fun row => { row with tokenHash := some tokenHash } }
    return ⟨resealEnvelope cfg written e (.activation rotated) (env.clock 0), some (env.clock 0),
      rotated⟩

/-- `activate`. -/
def activate (nodeId : Id) (request : NodeActivate) (env : Env) (now : Time) :
    Except Failure (Commit NodeActivated) := do
  let requestDigest := cfg.recoveryRequestDigest (.activate request)
  let node ← getNode db nodeId
  let intent ← require ((db.intents.get? nodeId).filter fun intent =>
      cfg.tokenMatches request.activationToken (some intent.activationTokenHash))
    (conflictError "Invalid activation token" "INVALID_ACTIVATION_TOKEN")
  match ← findRecovery db .activation node.id request.operationKey requestDigest with
  | some envelope => recoverActivation cfg db node envelope env now
  | none => consumeActivation cfg db node intent request requestDigest env now

/-! ### `heartbeat` -/

/-- A live node whose lease has run out. -/
def expireByHeartbeat (node : Node) (now : Time) : Database :=
  recordRuntimeEvent (recordLeaseExpiryAck (setStatus db node.id .leaseExpired) node now)
    { runId := node.runId, eventType := .leaseExpired, occurredAt := now, nodeId := some node.id,
      parentNodeId := node.parentId }

/-- A live node that a command has cut off: it acknowledges and takes the effective status. -/
def convergeByHeartbeat (node : Node) (now : Time) : Database :=
  setStatus (recordAcks db node (applicableCommands db node) .cooperative now) node.id
    (evaluateScopes db node).effectiveStatus

/-- A live node in good standing. -/
def renewLease (node : Node) (now : Time) : Database :=
  recordRuntimeEvent
    { db with
      nodes := db.nodes.modify node.id fun row =>
        { row with
          lastHeartbeatAt := some now
          leaseExpiresAt := some (now + seconds cfg.leaseTtlSeconds) } }
    { runId := node.runId, eventType := .leaseRenewed, occurredAt := now, nodeId := some node.id,
      parentNodeId := node.parentId }

/-- `heartbeat`. The value is the code the caller is refused with, after the commit. -/
def heartbeat (nodeId : Id) (nodeToken : Token) (env : Env) (now : Time) :
    Except Failure (Commit (Option ReasonCode)) := do
  let node ← authenticateNode cfg db nodeId nodeToken
  env.checkRate "heartbeat"
  let run ← getRun db node.runId
  let evaluation := evaluateScopes db node
  if run.status ≠ .running then return ⟨db, some now, some .runNotActive⟩
  else if !node.status.isLive then return ⟨db, some now, some .nodeNotActive⟩
  else if node.leaseExpired now then
    return ⟨expireByHeartbeat db node now, some now, some .leaseExpired⟩
  else if !evaluation.allowed then
    return ⟨convergeByHeartbeat db node now, some now,
      some (evaluation.primaryReason.getD .scopeInvalid)⟩
  else return ⟨renewLease cfg db node now, some now, none⟩

/-! ### `checkpoint` -/

/-- What the read half of `checkpoint` decides to write. `node` is the row as it was read. -/
inductive CheckpointWrite
  /-- The node is in good standing and waits. -/
  | wait (node : Node) (now : Time)
  /-- The lease has run out. -/
  | expire (node : Node) (now : Time)
  /-- Commands apply to the node. `unacknowledged` are those from the first without an
  acknowledgement on: that one was looked for before the write lock was taken. -/
  | converge (node : Node) (unacknowledged : List ControlCommand) (effective : NodeStatus)
      (now : Time)
  /-- The call is refused and writes nothing; `read` is its clock reading, if it got to one. -/
  | refuse (read : Option Time)

structure CheckpointResponse where
  allowed : Bool
  effectiveStatus : NodeStatus
  commandId : Option Id := none
  reasonCode : Option ReasonCode := none
  deriving DecidableEq, Repr

/-- Whether a cooperative acknowledgement of `node` to `command` exists. -/
def cooperativeAcked (node : Node) (command : ControlCommand) : Bool :=
  (db.acknowledgements.get? (command.id, node.id, .cooperative)).isSome

/-- The read half of `checkpoint`: the first clock reading decides about the lease, the second is
what the writes are stamped with. -/
def checkpointRead (nodeId : Id) (nodeToken : Token) (env : Env) :
    Except Failure (CheckpointWrite × CheckpointResponse) := do
  let node ← authenticateNode cfg db nodeId nodeToken
  env.checkRate "heartbeat"
  let state ← validateNodeRuntimeState db node (env.clock 0)
  if state.allowed then return (.wait node (env.clock 1), ⟨true, .waiting, none, none⟩)
  else
    let commands := commandsForScopeMismatches db state.evaluation.mismatches node.runId
    let commandId := commands.getLast?.map (·.id)
    let effective := state.evaluation.effectiveStatus
    if state.reason = some .leaseExpired then
      return (.expire node (env.clock 1), ⟨false, .leaseExpired, commandId, state.reason⟩)
    else if commands.isEmpty then
      let unread := state.reason = some .runNotActive ∨ state.reason = some .nodeNotActive
      return (.refuse (if unread then none else some (env.clock 0)),
        ⟨false, effective, none, state.reason⟩)
    else
      return (.converge node (commands.dropWhile (cooperativeAcked db node)) effective
        (env.clock 1), ⟨false, effective, commandId, state.reason⟩)

/-- `node.status = status` on a row that was read as `node`: assigning the value that was read
emits no `UPDATE`. -/
def assignStatus (node : Node) (status : NodeStatus) : Database :=
  if node.status = status then db else setStatus db node.id status

/-- The acknowledgements of a convergence: the first is inserted without looking again. -/
def recordUnacknowledged (node : Node) (commands : List ControlCommand) (now : Time) :
    Except Failure Database :=
  match commands with
  | [] => .ok db
  | command :: rest => do
    let acknowledgements ← require
      (db.acknowledgements.insert? (newAck node command .cooperative now))
      (.integrityError "uq_command_ack")
    return recordAcks { db with acknowledgements := acknowledgements } node rest .cooperative now

/-- The write half of `checkpoint`. Setting the expired status begins the transaction, so the
commands acknowledged there are looked up inside it. -/
def checkpointWrite (write : CheckpointWrite) : Except Failure (Commit Unit) :=
  match write with
  | .wait node now =>
    .ok ⟨recordRuntimeEvent (assignStatus db node .waiting)
      { runId := node.runId, eventType := .nodeWaiting, occurredAt := now, nodeId := some node.id,
        parentNodeId := node.parentId, commandId := node.causedByCommandId }, some now, ()⟩
  | .expire node now =>
    .ok ⟨recordLeaseExpiryAck (assignStatus db node .leaseExpired) node now, some now, ()⟩
  | .converge node commands effective now => do
    let acked ← recordUnacknowledged db node commands now
    return ⟨assignStatus acked node effective, some now, ()⟩
  | .refuse read => .ok ⟨db, read, ()⟩

/-! ### `complete` -/

/-- `intent is None or intent.consumed_at is None and intent.expires_at <= now`. -/
def intentLapsed (node : Node) (now : Time) : Bool :=
  match (db.intents.get? node.id).filter fun intent => intent.runId = node.runId with
  | none => true
  | some intent => intent.consumedAt.isNone && decide (intent.expiresAt ≤ now)

/-- Whether the sweep finds a node expired. -/
def sweepExpired (node : Node) (now : Time) : Bool :=
  if node.status.isLive then node.leaseExpired now
  else if node.status = .pending then intentLapsed db node now
  else false

/-- The sweep's loop over the other nodes of the run: the database so far, and whether a valid
node was met. -/
def sweepNode (now : Time) (acc : Database × Bool) (other : Node) : Database × Bool :=
  if other.status.isTerminal then acc
  else if sweepExpired acc.1 other now then
    (recordLeaseExpiryAck (setStatus acc.1 other.id .leaseExpired) other now, acc.2)
  else (acc.1, acc.2 || (evaluateScopes acc.1 other).allowed)

/-- The sweep of a completing root. -/
def sweep (root : Node) (now : Time) : Database × Bool :=
  (db.nodes.rows.filter fun other => other.runId = root.runId ∧ other.id ≠ root.id).foldl
    (sweepNode now) (db, false)

/-- What the completion of a root does to its run. -/
def completeRun (run : Run) (root : Node) (env : Env) : Except Failure Database := do
  let swept := sweep db root (env.clock 1)
  ensure (swept.2 = false)
    (conflictError "Root cannot complete while valid descendant nodes remain live"
      "RUN_HAS_LIVE_NODES")
  let runs ← transitionRun swept.1.runs run .completed (env.clock 2)
  return { swept.1 with runs := runs }

/-- What comes before a node's own completion: a root takes its run with it. -/
def finishRun (run : Run) (node : Node) (env : Env) : Except Failure Database :=
  if run.rootNodeId = node.id then completeRun db run node env else .ok db

/-- The node's own completion. -/
def completeNode (node : Node) (commandId : Option Id) (now : Time) : Database :=
  let written := { db with
    nodes := db.nodes.modify node.id fun row =>
      { row with
        status := .completed
        completedAt := some now } }
  let advanced := advanceReplacement written commandId .completed
  let completed : RuntimeEvent :=
    { runId := node.runId, eventType := .nodeCompleted, occurredAt := now, nodeId := some node.id,
      parentNodeId := node.parentId, commandId := node.causedByCommandId }
  let events :=
    if node.causedByCommandId.isSome then
      [completed, { completed with eventType := .recoveryCompleted }]
    else [completed]
  { advanced with events := advanced.events ++ events }

/-- `complete`. -/
def complete (nodeId : Id) (nodeToken : Token) (env : Env) : Except Failure (Commit Unit) := do
  let node ← authenticateNode cfg db nodeId nodeToken
  env.checkRate "heartbeat"
  requireLive db node (env.clock 0) "Node cannot complete" "COMPLETE_DENIED"
  let run ← getRun db node.runId
  let swept ← finishRun db run node env
  let commandId ← causingCommand db node .active "Replacement completion lifecycle is inconsistent"
  return ⟨completeNode swept node commandId (env.clock 3), some (env.clock 3), ()⟩

end TraceFence
