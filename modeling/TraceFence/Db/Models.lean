import TraceFence.Domain.Schemas
import TraceFence.Lib.Table

/-!
# The authoritative registry

`db/models.py`: one row type for each table the services decide by, and the `Database` that
holds them. A table carries its primary key (see `Table`); where the source looks rows up by
another unique key, that key is the table's here. Columns that no service reads back (display
fields, stored explanations, event metadata, the requested fields copied into an intent) are left
out.

A row's immutable columns at registration are collected in `Node.registration`: nothing but an
insertion changes them, so what depends on ancestry depends on these alone.
-/

namespace TraceFence

/-- One entry of a scope snapshot. -/
structure ScopeRef where
  scopeId : Id
  version : ℕ
  deriving DecidableEq, Repr

structure Run where
  id : Id
  name : String
  status : RunStatus
  rootNodeId : Id
  runScopeId : Id
  createdAt : Time
  finishedAt : Option Time := none
  deriving DecidableEq, Repr

structure Node where
  id : Id
  runId : Id
  parentId : Option Id
  supersedesNodeId : Option Id := none
  causedByCommandId : Option Id := none
  role : String
  behavior : String
  generation : ℕ
  lineagePath : List Id
  status : NodeStatus
  ownScopeId : Id
  scopeSnapshot : List ScopeRef
  instructionVersion : ℕ
  instruction : Json
  capabilities : List String
  tokenHash : Option Digest := none
  registeredAt : Time
  activatedAt : Option Time := none
  completedAt : Option Time := none
  lastHeartbeatAt : Option Time := none
  leaseExpiresAt : Option Time := none
  processId : Option ℕ := none

structure ControlScope where
  id : Id
  runId : Id
  ownerNodeId : Option Id
  version : ℕ
  status : ScopeStatus
  updatedByNodeId : Option Id := none
  reasonCode : Option String := none
  updatedAt : Time
  deriving DecidableEq, Repr

structure SpawnIntent where
  runId : Id
  parentNodeId : Id
  childNodeId : Id
  activationTokenHash : Digest
  traceContext : TraceContext
  expiresAt : Time
  consumedAt : Option Time := none
  deriving DecidableEq, Repr

structure SpawnCreated where
  childNodeId : Id
  activationToken : Token
  expiresAt : Time
  traceContext : TraceContext
  deriving DecidableEq, Repr

structure NodeActivated where
  nodeId : Id
  runId : Id
  role : String
  nodeToken : Token
  leaseExpiresAt : Time
  deriving DecidableEq, Repr

/-- A response held in a recovery envelope. -/
inductive Credential
  | spawn (response : SpawnCreated)
  | activation (response : NodeActivated)
  deriving DecidableEq, Repr

/-- The associated data an envelope is bound to, `_aad`. -/
structure AssociatedData where
  operationType : OperationType
  callerNodeId : Id
  operationKey : String
  requestDigest : Digest
  subjectNodeId : Id
  deriving DecidableEq, Repr

/-- An envelope's ciphertext, as ideal authenticated encryption: it opens to `plaintext` under
the associated data it was sealed with, and under no other. -/
structure Sealed where
  associatedData : AssociatedData
  plaintext : Credential
  deriving DecidableEq, Repr

structure CredentialRecoveryEnvelope where
  runId : Id
  operationType : OperationType
  callerNodeId : Id
  subjectNodeId : Id
  operationKey : String
  requestPayloadDigest : Digest
  ciphertext : Sealed
  expiresAt : Time
  createdAt : Time
  updatedAt : Time
  deriving DecidableEq, Repr

structure CorrectionProposal where
  id : Id
  runId : Id
  reporterNodeId : Id
  targetNodeId : Id
  proposalType : ProposalType
  evidence : Json
  reason : String
  status : ProposalStatus
  reviewedByPrincipal : Option String := none
  acceptedPayloadDigest : Option Digest := none
  authorizedCommand : Option ProposalCommandAuthorization := none
  authorizedCommandDigest : Option Digest := none
  resultingCommandId : Option Id := none
  reviewedAt : Option Time := none
  createdAt : Time

structure ControlCommand where
  id : Id
  idempotencyKey : String
  issuerFingerprint : String
  requestPayloadDigest : Digest
  runId : Id
  issuerNodeId : Option Id
  issuerType : IssuerType
  commandType : CommandType
  sourceProposalId : Option Id
  targetNodeId : Id
  targetScopeId : Id
  fromVersion : ℕ
  toVersion : ℕ
  reasonCode : String
  reasonText : String
  replacementParentId : Option Id
  replacementInstruction : Option Json
  replacementExpectedTool : Option String
  replacementManifest : Option ManifestJson
  replacementManifestDigest : Option Digest
  replacementNodeId : Option Id := none
  replacementStatus : Option ReplacementStatus
  createdAt : Time

structure CommandAcknowledgement where
  runId : Id
  commandId : Id
  nodeId : Id
  ackType : AckType
  observedAt : Time
  observedScopeVersion : ℕ
  deriving DecidableEq, Repr

structure ActionAttempt where
  id : Id
  runId : Id
  nodeId : Id
  toolName : String
  sideEffecting : Bool
  idempotencyKey : String
  decision : ActionDecision
  denialReason : Option ReasonCode
  matchedCommandId : Option Id
  matchedScopeId : Option Id
  matchedSnapshotVersion : Option ℕ
  matchedLiveVersion : Option ℕ
  matchedLiveStatus : Option ScopeStatus
  requestPayloadDigest : Digest
  arguments : Dict
  argumentsDigest : Digest
  result : Option Json := none
  resultDigest : Option Digest := none
  attemptedAt : Time
  committedAt : Option Time := none

structure ActionCommandMatch where
  runId : Id
  actionId : Id
  commandId : Id
  scopeId : Id
  snapshotVersion : ℕ
  liveVersion : ℕ
  liveStatus : ScopeStatus
  deriving DecidableEq, Repr

structure ServiceState where
  runId : Id
  serviceName : String
  status : String
  restartCount : ℕ := 0
  poolResetCount : ℕ := 0
  lastActionId : Option Id := none
  updatedAt : Time
  deriving DecidableEq, Repr

structure RuntimeEvent where
  runId : Id
  eventType : EventType
  occurredAt : Time
  nodeId : Option Id := none
  parentNodeId : Option Id := none
  commandId : Option Id := none
  actionId : Option Id := none
  scopeId : Option Id := none
  decision : Option ActionDecision := none
  reasonCode : Option String := none
  snapshotVersion : Option ℕ := none
  authoritativeVersion : Option ℕ := none
  deriving DecidableEq, Repr

/-- `_ViolationCandidate`. -/
structure ViolationCandidate where
  runId : Id
  commandId : Id
  actionId : Id
  nodeId : Id
  toolName : String
  attemptedAt : Time
  committedAt : Time
  deriving DecidableEq, Repr

/-- The `details` of a violation, which are the payload of its event. -/
structure ViolationDetails extends ViolationCandidate where
  violationId : Id
  deriving DecidableEq, Repr

/-- The only type of violation is `STALE_ACTION_COMMITTED`. -/
structure InvariantViolation where
  id : Id
  runId : Id
  commandId : Id
  actionId : Id
  details : ViolationDetails
  detectedAt : Time
  deriving DecidableEq, Repr

/-- The text `stale-commit:{command_id}:{action_id}`, as its two parts. -/
structure EventKey where
  commandId : Id
  actionId : Id
  deriving DecidableEq, Repr

/-- The only type of event is `tracefence.stale_action_committed`. -/
structure TelemetryOutbox where
  id : Id
  eventKey : EventKey
  runId : Id
  payload : ViolationDetails
  createdAt : Time
  deliveredAt : Option Time := none
  attempts : ℕ := 0
  lastError : Option String := none
  lastAttemptAt : Option Time := none
  nextAttemptAt : Option Time := none
  claimOwner : Option String := none
  claimExpiresAt : Option Time := none
  deriving DecidableEq, Repr

/-! ### Keys -/

instance : Keyed Run Id := ⟨Run.id⟩
instance : Keyed Node Id := ⟨Node.id⟩
instance : Keyed ControlScope Id := ⟨ControlScope.id⟩
instance : Keyed SpawnIntent Id := ⟨SpawnIntent.childNodeId⟩
instance : Keyed CredentialRecoveryEnvelope (OperationType × Id × String) :=
  ⟨fun e => (e.operationType, e.callerNodeId, e.operationKey)⟩
instance : Keyed CorrectionProposal Id := ⟨CorrectionProposal.id⟩
instance : Keyed ControlCommand Id := ⟨ControlCommand.id⟩
instance : Keyed CommandAcknowledgement (Id × Id × AckType) :=
  ⟨fun a => (a.commandId, a.nodeId, a.ackType)⟩
instance : Keyed ActionAttempt Id := ⟨ActionAttempt.id⟩
instance : Keyed ActionCommandMatch (Id × Id) := ⟨fun m => (m.actionId, m.commandId)⟩
instance : Keyed ServiceState (Id × String) := ⟨fun s => (s.runId, s.serviceName)⟩

instance : Keyed InvariantViolation (Id × Id × Id) := ⟨fun v => (v.runId, v.commandId, v.actionId)⟩
instance : Keyed TelemetryOutbox Id := ⟨TelemetryOutbox.id⟩

/-! ### The database -/

structure Database where
  runs : Table Run
  nodes : Table Node
  scopes : Table ControlScope
  intents : Table SpawnIntent
  envelopes : Table CredentialRecoveryEnvelope
  proposals : Table CorrectionProposal
  commands : Table ControlCommand
  acknowledgements : Table CommandAcknowledgement
  attempts : Table ActionAttempt
  commandMatches : Table ActionCommandMatch
  serviceStates : Table ServiceState
  /-- Append-only; the position is the sequence number. -/
  events : List RuntimeEvent

/-- The database the services start from. -/
def Database.empty : Database :=
  ⟨.empty, .empty, .empty, .empty, .empty, .empty, .empty, .empty, .empty, .empty, .empty, []⟩

/-- The two tables that the auditor alone reads and writes. -/
structure Ledger where
  violations : Table InvariantViolation
  outbox : Table TelemetryOutbox

def Ledger.empty : Ledger := ⟨.empty, .empty⟩

/-- What a committed transaction leaves behind: the database, the latest clock value the call
read before it committed, and its response. -/
structure Commit (α : Type) where
  db : Database
  read : Option Time
  value : α

/-- The columns of a node that are written once, when it is registered. -/
structure Registration where
  id : Id
  runId : Id
  parentId : Option Id
  supersedesNodeId : Option Id
  causedByCommandId : Option Id
  role : String
  behavior : String
  generation : ℕ
  lineagePath : List Id
  ownScopeId : Id
  scopeSnapshot : List ScopeRef
  instructionVersion : ℕ
  instruction : Json
  capabilities : List String
  registeredAt : Time

def Node.registration (n : Node) : Registration where
  id := n.id
  runId := n.runId
  parentId := n.parentId
  supersedesNodeId := n.supersedesNodeId
  causedByCommandId := n.causedByCommandId
  role := n.role
  behavior := n.behavior
  generation := n.generation
  lineagePath := n.lineagePath
  ownScopeId := n.ownScopeId
  scopeSnapshot := n.scopeSnapshot
  instructionVersion := n.instructionVersion
  instruction := n.instruction
  capabilities := n.capabilities
  registeredAt := n.registeredAt

end TraceFence
