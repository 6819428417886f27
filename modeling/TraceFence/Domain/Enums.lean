import Mathlib.Data.Nat.Notation

/-!
# Enumerations, reason codes and errors

`domain/enums.py` and `domain/errors.py`. The reason codes are strings in the source; they are
one closed set there, so they are an enumeration here, with `ReasonCode.code` as their text.
-/

namespace TraceFence

inductive RunStatus
  | created | running | completed | cancelled | failed
  deriving DecidableEq, Repr

inductive NodeStatus
  | pending | active | waiting | completed | cancelled | superseded | leaseExpired
  deriving DecidableEq, Repr

inductive ScopeStatus
  | active | cancelled | superseded
  deriving DecidableEq, Repr

inductive CommandType
  | cancelRun | cancelSubtree | correctSubtree
  deriving DecidableEq, Repr

inductive ReplacementStatus
  | pending | activationExpired | active | completed | failed
  deriving DecidableEq, Repr

inductive ProposalType
  | cancel | correct
  deriving DecidableEq, Repr

inductive ProposalStatus
  | pending | accepted | rejected
  deriving DecidableEq, Repr

inductive IssuerType
  | human | agent
  deriving DecidableEq, Repr

inductive ActionDecision
  | allow | deny
  deriving DecidableEq, Repr

inductive AckType
  | cooperative | gatewayBlock | leaseExpired
  deriving DecidableEq, Repr

inductive ProofVerdict
  | verified | stateChangedDuringProof | incomplete | partiallyVerified | inconsistent | unavailable
  | notApplicable
  deriving DecidableEq, Repr

/-- The kinds of recovery envelope, `ck_credential_recovery_operation_type`. -/
inductive OperationType
  | spawn | replacement | activation
  deriving DecidableEq, Repr

/-- The runtime journal's vocabulary, `ck_runtime_event_type`. Only the demonstration records a
`DEMO_WORKER_RELEASED`. -/
inductive EventType
  | runCreated | nodeRegistered | nodeActivated | nodeWaiting | nodeCompleted | leaseGranted
  | leaseRenewed | leaseExpired | commandIssued | scopeCancelled | scopeSuperseded
  | actionRequested | actionDenied | actionCommitted | replacementCreated | recoveryCompleted
  | demoWorkerReleased
  deriving DecidableEq, Repr

/-- `{NodeStatus.ACTIVE, NodeStatus.WAITING}`, the set every liveness check tests against. -/
def NodeStatus.isLive : NodeStatus → Bool
  | .active | .waiting => true
  | _ => false

/-- The statuses the sweep of a completing root passes over. -/
def NodeStatus.isTerminal : NodeStatus → Bool
  | .completed | .cancelled | .superseded | .leaseExpired => true
  | _ => false

/-! ### Reason codes -/

inductive ReasonCode
  | runNotActive | nodeNotActive | leaseExpired
  | scopeNotFound | scopeCancelled | scopeSuperseded | scopeVersionMismatch | scopeInvalid
  | recoveryCommandMismatch | recoveryNodeMismatch | recoveryManifestInvalid
  | recoveryRoleMismatch | recoveryBehaviorMismatch | recoveryCapabilitiesMismatch
  | recoveryInstructionMismatch | recoveryInstructionVersionMismatch
  | recoveryEnvironmentMismatch | recoveryToolMismatch | recoveryResourceMismatch
  | recoveryArgumentsMismatch | recoveryInvocationLimitExceeded
  | toolNotAllowed
  deriving DecidableEq, Repr

/-- The text of a reason code. -/
def ReasonCode.code : ReasonCode → String
  | .runNotActive => "RUN_NOT_ACTIVE"
  | .nodeNotActive => "NODE_NOT_ACTIVE"
  | .leaseExpired => "LEASE_EXPIRED"
  | .scopeNotFound => "SCOPE_NOT_FOUND"
  | .scopeCancelled => "SCOPE_CANCELLED"
  | .scopeSuperseded => "SCOPE_SUPERSEDED"
  | .scopeVersionMismatch => "SCOPE_VERSION_MISMATCH"
  | .scopeInvalid => "SCOPE_INVALID"
  | .recoveryCommandMismatch => "RECOVERY_COMMAND_MISMATCH"
  | .recoveryNodeMismatch => "RECOVERY_NODE_MISMATCH"
  | .recoveryManifestInvalid => "RECOVERY_MANIFEST_INVALID"
  | .recoveryRoleMismatch => "RECOVERY_ROLE_MISMATCH"
  | .recoveryBehaviorMismatch => "RECOVERY_BEHAVIOR_MISMATCH"
  | .recoveryCapabilitiesMismatch => "RECOVERY_CAPABILITIES_MISMATCH"
  | .recoveryInstructionMismatch => "RECOVERY_INSTRUCTION_MISMATCH"
  | .recoveryInstructionVersionMismatch => "RECOVERY_INSTRUCTION_VERSION_MISMATCH"
  | .recoveryEnvironmentMismatch => "RECOVERY_ENVIRONMENT_MISMATCH"
  | .recoveryToolMismatch => "RECOVERY_TOOL_MISMATCH"
  | .recoveryResourceMismatch => "RECOVERY_RESOURCE_MISMATCH"
  | .recoveryArgumentsMismatch => "RECOVERY_ARGUMENTS_MISMATCH"
  | .recoveryInvocationLimitExceeded => "RECOVERY_INVOCATION_LIMIT_EXCEEDED"
  | .toolNotAllowed => "TOOL_NOT_ALLOWED"

/-- `STALE_REASONS` of the gateway. -/
def ReasonCode.isStale : ReasonCode → Bool
  | .scopeCancelled | .scopeSuperseded | .scopeVersionMismatch => true
  | _ => false

/-! ### Errors -/

/-- `TraceFenceError`, with the code and status its subclasses fix. -/
structure TraceFenceError where
  message : String
  code : String := "TRACEFENCE_ERROR"
  statusCode : ℕ := 400
  deriving DecidableEq, Repr

/-- What a service call can raise: an error of its own, or one that escapes from the database
(a constraint), from the schema layer (a model that does not validate) or from `json.dumps`. -/
inductive Failure
  | error (e : TraceFenceError)
  | integrityError (name : String)
  | validationError (model : String)
  | valueError (message : String)
  deriving DecidableEq, Repr

def authenticationError (message : String) : Failure :=
  .error ⟨message, "AUTHENTICATION_FAILED", 401⟩

def authorizationError (message : String) : Failure :=
  .error ⟨message, "AUTHORIZATION_FAILED", 403⟩

def notFoundError (message : String) : Failure := .error ⟨message, "NOT_FOUND", 404⟩

def conflictError (message : String) (code : String := "CONFLICT") : Failure :=
  .error ⟨message, code, 409⟩

def rateLimitError (category : String) : Failure :=
  .error ⟨"Authenticated request rate limit exceeded",
    category.toUpper ++ "_RATE_LIMIT_EXCEEDED", 429⟩

end TraceFence
