import TraceFence.Signoz.McpClient

/-!
# Telemetry about a blocked action

What a proof expects of the evidence for a denied attempt, and what the gateway emits when it
denies one: a span and a log record. Both are made from the columns of the attempt.

## Main definitions

* `runtimeBlockedActions` — the blocked actions of a proof
* `setSpan`, `actionDeniedLog` — the span and the log record of a denied attempt
-/

namespace TraceFence

/-- The text of a scope status. -/
def ScopeStatus.value : ScopeStatus → String
  | .active => "ACTIVE"
  | .cancelled => "CANCELLED"
  | .superseded => "SUPERSEDED"

/-- The text of a decision. -/
def ActionDecision.value : ActionDecision → String
  | .allow => "ALLOW"
  | .deny => "DENY"

/-! ### The proof's side -/

/-- The blocked action of an attempt. -/
def runtimeBlockedAction (action : ActionAttempt) : RuntimeBlockedAction where
  actionId := toString action.id
  nodeId := toString action.nodeId
  targetScopeId := (action.matchedScopeId.map toString).getD ""
  snapshotVersion := action.matchedSnapshotVersion.getD 0
  liveVersion := action.matchedLiveVersion.getD 0
  liveStatus := (action.matchedLiveStatus.map ScopeStatus.value).getD ""
  denialReason := (action.denialReason.map ReasonCode.code).getD ""

/-- The value of an attribute. -/
inductive AttributeValue
  | text (s : String)
  | int (n : ℤ)
  | bool (b : Bool)
  deriving DecidableEq, Repr

/-- A row id as an attribute. -/
def AttributeValue.ofId (id : Id) : AttributeValue := .text (toString id)

/-- A version as an attribute. -/
def AttributeValue.ofNat (n : ℕ) : AttributeValue := .int n

abbrev Attributes := List (String × AttributeValue)

/-- An attribute that is set only when there is a value. -/
def optional (name : String) (value : Option AttributeValue) : Attributes :=
  (value.map fun v => (name, v)).toList

/-- `_set_span`, on the span `tracefence.action.block` when the attempt is denied. -/
def setSpan (node : Node) (request : ActionExecute) (attempt : ActionAttempt) : Attributes :=
  [("tracefence.run.id", .ofId node.runId), ("tracefence.node.id", .ofId node.id),
    ("tracefence.node.role", .text node.role), ("tracefence.action.id", .ofId attempt.id),
    ("tracefence.action.tool", .text request.toolName),
    ("tracefence.action.side_effecting", .bool attempt.sideEffecting),
    ("tracefence.action.decision", .text attempt.decision.value)] ++
  optional "tracefence.action.denial_reason" (attempt.denialReason.map (.text ·.code)) ++
  optional "tracefence.command.id" (attempt.matchedCommandId.map .ofId) ++
  optional "tracefence.scope.id" (attempt.matchedScopeId.map .ofId) ++
  optional "tracefence.scope.snapshot_version" (attempt.matchedSnapshotVersion.map .ofNat) ++
  optional "tracefence.scope.live_version" (attempt.matchedLiveVersion.map .ofNat) ++
  optional "tracefence.scope.status" (attempt.matchedLiveStatus.map (.text ·.value))

/-- How `%s` formats a value that may be `None`. -/
def formatted {α : Type} [ToString α] (value : Option α) : String := (value.map toString).getD "None"

end TraceFence
