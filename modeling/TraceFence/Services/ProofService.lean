import Mathlib.Data.List.MinMax
import TraceFence.Services.ControlService

/-!
# Proofs about commands

`ProofService._build_uncached`: one pass over the database that finds out which nodes a command
affects, where each of them stands, what they have done since, and how the replacement of a
correction has fared. What the telemetry backend answers is a parameter.

## Main definitions

* `affectedNodes`, `unrelatedInterrupted`, `affectedActions`, `staleCommittedActions`
* `classify`, `controlVerdict` — whether a command has converged
* `lifecycleFinding`, `replacementVerdicts` — how its replacement has fared
* `combineProofVerdicts`, `buildUncached` — the response
-/

namespace TraceFence

open Checked

variable (cfg : Config) (db : Database)

/-! ### The reach of a command -/

/-- `affected`. -/
def affectedNodes (command : ControlCommand) : List Node :=
  if command.commandType = .cancelRun then
    registeredNodes db command.runId (some command.createdAt)
  else descendantsIncludingSelf db command.runId command.targetNodeId (some command.createdAt)

/-- `unrelated_interrupted`. -/
def unrelatedInterrupted (command : ControlCommand) : ℕ :=
  if command.commandType = .cancelRun then 0
  else
    let affectedIds := (affectedNodes db command).map (·.id)
    (db.nodes.rows.filter fun node => node.runId = command.runId).countP fun node =>
      let evaluation := evaluateScopes db node
      decide (node.id ∉ affectedIds) && (!evaluation.allowed &&
        evaluation.mismatches.any fun mismatch => mismatch.scopeId = command.targetScopeId)

/-! ### Actions since the command -/

/-- `actions`. -/
def affectedActions (command : ControlCommand) : List ActionAttempt :=
  let affectedIds := (affectedNodes db command).map (·.id)
  db.attempts.rows.filter fun action =>
    action.nodeId ∈ affectedIds ∧ command.createdAt ≤ action.attemptedAt

/-- `stale_committed_actions`. -/
def staleCommittedActions (command : ControlCommand) : List ActionAttempt :=
  (affectedActions db command).filter fun action =>
    action.sideEffecting && decide (action.decision = .allow) && action.committedAt.isSome

/-- `matched_action_ids`. -/
def matchedActionIds (command : ControlCommand) : List Id :=
  (db.commandMatches.rows.filter fun m =>
    m.runId = command.runId ∧ m.commandId = command.id).map (·.actionId)

/-- Whether an action was denied because of the command. -/
def blockedUnder (command : ControlCommand) (action : ActionAttempt) : Bool :=
  decide (action.decision = .deny) && action.denialReason.any ReasonCode.isStale &&
    decide (action.id ∈ matchedActionIds db command)

/-- `stale_attempts`. -/
def staleAttempts (command : ControlCommand) : ℕ :=
  (affectedActions db command).countP fun action =>
    action.sideEffecting && blockedUnder db command action

/-! ### Convergence -/

/-- The classes of affected nodes. -/
inductive Classification
  | completedBeforeCommand | convergedBeforeCommand | acknowledged | blockedAtGateway
  | leaseExpired
  deriving DecidableEq, Repr

/-- Whether `node_acks` of a node has a type. -/
def hasAck (command : ControlCommand) (node : Node) (ackType : AckType) : Bool :=
  db.acknowledgements.rows.any fun ack =>
    ack.commandId = command.id ∧ ack.nodeId = node.id ∧ ack.ackType = ackType

/-- Whether an affected node is in `prior_ack_nodes`. -/
def hasPriorAck (command : ControlCommand) (node : Node) : Bool :=
  db.acknowledgements.rows.any fun ack =>
    ack.runId = command.runId ∧ ack.nodeId = node.id ∧ ack.observedAt ≤ command.createdAt ∧
      ack.commandId ≠ command.id

/-- The class of an affected node, if it has one. -/
def classify (command : ControlCommand) (now : Time) (node : Node) : Option Classification :=
  if node.completedAt.any fun t => t ≤ command.createdAt then some .completedBeforeCommand
  else if hasPriorAck db command node && node.status.isTerminal then some .convergedBeforeCommand
  else if hasAck db command node .cooperative then some .acknowledged
  else if hasAck db command node .gatewayBlock || ((affectedActions db command).any fun action =>
      decide (action.nodeId = node.id) && blockedUnder db command action) then
    some .blockedAtGateway
  else if hasAck db command node .leaseExpired || decide (node.status = .leaseExpired) ||
      node.leaseExpiresAt.any fun t => t ≤ now then
    some .leaseExpired
  else none

/-- `unclassified`. -/
def unclassified (command : ControlCommand) (now : Time) : List Node :=
  (affectedNodes db command).filter fun node => (classify db command now node).isNone

/-- `control_verdict`. -/
def controlVerdict (command : ControlCommand) (now : Time) : ProofVerdict :=
  if 0 < (staleCommittedActions db command).length then .inconsistent
  else if !(unclassified db command now).isEmpty ∨ 0 < unrelatedInterrupted db command then
    .incomplete
  else .verified

/-! ### The lifecycle of a replacement -/

/-- The text of a replacement status. -/
def ReplacementStatus.value : ReplacementStatus → String
  | .pending => "PENDING"
  | .activationExpired => "ACTIVATION_EXPIRED"
  | .active => "ACTIVE"
  | .completed => "COMPLETED"
  | .failed => "FAILED"

/-- What `_replacement_verdicts` finds about a lifecycle state and the replacement it belongs to:
the verdict and the discrepancy it returns with, or `none` when it goes on to the lineage. -/
def lifecycleStateFinding (command : ControlCommand) (status : ReplacementStatus) :
    Option (ProofVerdict × String) :=
  if status = .activationExpired ∨ status = .failed then
    some (.inconsistent, s!"Replacement lifecycle terminated as {status.value}")
  else
    match command.replacementNodeId with
    | none =>
      if status ≠ .pending then
        some (.inconsistent, "Replacement lifecycle claims progress without a registered node")
      else some (.incomplete, "Correction replacement is pending registration")
    | some nodeId =>
      match db.nodes.get? nodeId with
      | none => some (.inconsistent, "Correction references a missing replacement node")
      | some replacement =>
        if status = .pending then
          if replacement.status = .pending then
            some (.incomplete, "Correction replacement is pending activation")
          else
            some (.inconsistent,
              "Pending replacement lifecycle disagrees with the replacement node")
        else
          let expected := if status = .active then replacement.status.isLive
            else decide (replacement.status = .completed)
          if expected then none
          else
            some (.inconsistent,
              "Replacement lifecycle state disagrees with the replacement node status")

/-- The findings of `_replacement_verdicts` up to the lifecycle: `none` when the command is not a
correction or the lifecycle agrees with the node. -/
def lifecycleFinding (command : ControlCommand) : Option (ProofVerdict × String) :=
  if command.commandType ≠ .correctSubtree then none
  else
    let corrupted : ProofVerdict × String :=
      (.inconsistent, "Correction replacement manifest is missing or corrupted")
    match command.replacementManifest with
    | none => some corrupted
    | some manifest =>
      if command.replacementManifestDigest ≠ some (cfg.payloadDigest (.manifest manifest)) then
        some corrupted
      else
        match ReplacementManifest.modelValidate manifest with
        | none =>
          some (.inconsistent, "Correction replacement manifest violates its schema")
        | some _ =>
          match command.replacementStatus with
          | none => some (.inconsistent, "Correction replacement lifecycle state is missing")
          | some status => lifecycleStateFinding db command status

/-! ### The replacement -/

/-- The verdicts of `_replacement_verdicts`. -/
structure ReplacementVerdicts where
  lineage : ProofVerdict
  action : ProofVerdict
  postcondition : ProofVerdict
  stability : ProofVerdict
  deriving DecidableEq, Repr

/-- One verdict in all dimensions. -/
def ReplacementVerdicts.all (v : ProofVerdict) : ReplacementVerdicts := ⟨v, v, v, v⟩

/-- The nodes of the replacement's subtree. -/
def replacementNodes (command : ControlCommand) (replacement : Node) : List Node :=
  descendantsIncludingSelf db command.runId replacement.id none

/-- `lineage_ok`. -/
def lineageOk (command : ControlCommand) (target replacement : Node)
    (manifest : ReplacementManifest) : Bool :=
  decide (replacement.runId = command.runId ∧
    replacement.parentId = command.replacementParentId ∧
    replacement.supersedesNodeId = some target.id ∧
    replacement.causedByCommandId = some command.id ∧
    replacement.role = manifest.role ∧
    replacement.behavior = manifest.behavior ∧
    sortedSet replacement.capabilities = manifest.capabilitiesExact ∧
    cfg.jsonDigest (some replacement.instruction) = manifest.instructionDigest ∧
    replacement.instructionVersion = manifest.instructionVersion ∧
    command.createdAt ≤ replacement.registeredAt) &&
  replacement.activatedAt.any fun t => command.createdAt ≤ t

/-- The manifest and the replacement of a correction whose lineage is in order, or the verdict and
the discrepancy with which `_replacement_verdicts` returns before it looks at the recovery. -/
def authorizedReplacement (command : ControlCommand) (target : Node) :
    Except (ProofVerdict × String) (ReplacementManifest × Node) :=
  match lifecycleFinding cfg db command with
  | some finding => .error finding
  | none => do
    -- The lifecycle is in order only when there is a manifest and a replacement.
    let unreachable := (.inconsistent, "Correction references a missing replacement node")
    let manifest ← require (command.replacementManifest.bind ReplacementManifest.modelValidate)
      unreachable
    let replacement ← require (command.replacementNodeId.bind db.nodes.get?) unreachable
    ensure (lineageOk cfg command target replacement manifest)
      (.inconsistent, "Replacement lineage, identity, capabilities, behavior or instruction " ++
        "does not match the authorized manifest")
    ensure ((replacementNodes db command replacement).countP
        (fun node => node.parentId = some replacement.id) ≤ manifest.maxChildren)
      (.inconsistent, "Replacement exceeded its authorized child budget")
    return (manifest, replacement)

/-- `order_by(committed_at.asc(), id.asc())`. -/
def recoveryOrder (a a' : ActionAttempt) : Prop :=
  a.committedAt.getD 0 < a'.committedAt.getD 0 ∨
    (a.committedAt.getD 0 = a'.committedAt.getD 0 ∧ a.id ≤ a'.id)

instance : DecidableRel recoveryOrder := fun _ _ => inferInstanceAs (Decidable (_ ∨ _))

/-- `committed_actions`: what the subtree has committed of the recovery. -/
def recoveryActions (command : ControlCommand) (replacement : Node) (tool : String)
    (contract : RecoveryContract) : List ActionAttempt :=
  let replacementIds := (replacementNodes db command replacement).map (·.id)
  (db.attempts.rows.filter fun action =>
    action.runId = command.runId ∧ action.nodeId ∈ replacementIds ∧ action.toolName = tool ∧
      action.argumentsDigest = contract.expectedArgumentsDigest ∧ action.decision = .allow ∧
      action.committedAt.isSome ∧ command.createdAt ≤ action.attemptedAt).insertionSort
        recoveryOrder

/-- The recovery action, when the actions and the replacement are in order, or the verdict and the
discrepancy about them. -/
def recoveryAction (replacement : Node) (tool : String) (contract : RecoveryContract)
    (actions : List ActionAttempt) : Except (ProofVerdict × String) ActionAttempt := do
  let action ← require actions.getLast?
    (.incomplete, s!"Expected recovery tool {tool} has not committed")
  ensure (actions.length ≤ contract.maxCommittedInvocations)
    (.inconsistent, s!"Recovery tool {tool} committed {actions.length} times; " ++
      s!"manifest allows {contract.maxCommittedInvocations}")
  ensure (action.result.isSome ∧ action.resultDigest = some (cfg.jsonDigest action.result))
    (.inconsistent, "Recovery action result digest is missing or inconsistent")
  let completedAt ← require (replacement.completedAt.filter fun _ => replacement.status = .completed)
    (.incomplete, "Replacement recovery action committed but replacement is not complete")
  ensure (action.committedAt.any fun t => t ≤ completedAt)
    (.inconsistent, "Replacement completed before its recovery action committed")
  return action

/-- The verdicts about a recovery whose action is in order. -/
def postconditionVerdicts (e : PostconditionEvaluation) : ReplacementVerdicts where
  lineage := .verified
  action := .verified
  postcondition :=
    if e.inconsistent then .inconsistent else if e.incomplete then .incomplete else .verified
  stability :=
    if e.inconsistent then .inconsistent
    else if e.incomplete ∨ e.stabilityIncomplete then .incomplete
    else .verified

/-- `_replacement_verdicts`, with the discrepancies it adds. -/
def replacementVerdicts (command : ControlCommand) (target : Node) (now : Time) :
    Except Failure (ReplacementVerdicts × List String) :=
  if command.commandType ≠ .correctSubtree then .ok (.all .notApplicable, [])
  else
    match authorizedReplacement cfg db command target with
    | .error (verdict, discrepancy) => .ok (.all verdict, [discrepancy])
    | .ok (manifest, replacement) =>
      let contract := manifest.recoveryContract
      match contract.expectedTool with
      | none => .ok (⟨.verified, .notApplicable, .notApplicable, .notApplicable⟩, [])
      | some tool =>
        match recoveryAction cfg replacement tool contract
            (recoveryActions db command replacement tool contract) with
        | .error (verdict, discrepancy) =>
          .ok (⟨.verified, verdict, verdict, verdict⟩, [discrepancy])
        | .ok action => do
          let _ ← getToolSpec tool
          let stableBefore : ℤ := now - seconds contract.stabilityWindowSeconds
          let evaluation := verifyPostconditions db.serviceStates command.runId action.id contract
            stableBefore
          return (postconditionVerdicts evaluation, evaluation.discrepancies)

/-! ### Verdicts -/

/-- `_VERDICT_SEVERITY`. -/
def verdictSeverity : List ProofVerdict :=
  [.inconsistent, .stateChangedDuringProof, .incomplete, .partiallyVerified, .unavailable, .verified]

/-- `combine_proof_verdicts`: the most severe of the verdicts that apply. -/
def combineProofVerdicts (verdicts : List ProofVerdict) : ProofVerdict :=
  ((verdicts.filter (· ≠ .notApplicable)).argmin (verdictSeverity.idxOf ·)).getD .notApplicable

/-- `TelemetryProof`. -/
structure TelemetryProof where
  verdict : ProofVerdict
  traceIds : List String := []
  discrepancies : List String := []

structure ProofResponse where
  commandId : Id
  commandType : CommandType
  affectedRegisteredNodes : ℕ
  /-- A counter, as the list that is counted. -/
  classifications : List Classification
  staleActionAttempts : ℕ
  staleActionsCommitted : ℕ
  unrelatedBranchesInterrupted : ℕ
  controlConvergenceVerdict : ProofVerdict
  replacementLineageVerdict : ProofVerdict
  recoveryActionVerdict : ProofVerdict
  recoveryPostconditionVerdict : ProofVerdict
  recoveryStabilityVerdict : ProofVerdict
  recoveryOutcomeVerdict : ProofVerdict
  runtimeVerdict : ProofVerdict
  telemetryVerdict : ProofVerdict
  overallVerdict : ProofVerdict
  traceIds : List String
  discrepancies : List String

/-! ### `_build_uncached` -/

/-- What the pass notes about affected nodes that have no class. -/
def scopeValidDiscrepancies (command : ControlCommand) (now : Time) : List String :=
  ((unclassified db command now).filter fun node => (evaluateScopes db node).allowed).map
    fun node => s!"Affected node {node.id} remained scope-valid after command"

/-- The last discrepancy, which names the nodes without a class. -/
def unclassifiedDiscrepancy (command : ControlCommand) (now : Time) : List String :=
  if (unclassified db command now).isEmpty then []
  else
    let ids := String.intercalate ", " ((unclassified db command now).map fun node => toString node.id)
    [s!"Unclassified live affected nodes: {ids}"]

/-- `_build_uncached`. Its first clock reading is that of the classes, its second that of the
stability window. -/
def buildUncached (commandId : Id) (clock : ℕ → Time) (telemetry : TelemetryProof) :
    Except Failure ProofResponse := do
  let command ← require (db.commands.get? commandId)
    (notFoundError s!"Command {commandId} was not found")
  let _ ← getRun db command.runId
  let target ← require (db.nodes.get? command.targetNodeId)
    (notFoundError "Command target node was not found")
  let affected := affectedNodes db command
  let (replacement, discrepancies) ← replacementVerdicts cfg db command target (clock 1)
  let control := controlVerdict db command (clock 0)
  let recovery := combineProofVerdicts
    [replacement.action, replacement.postcondition, replacement.stability]
  let runtime := combineProofVerdicts [control, replacement.lineage, recovery]
  return {
    commandId := command.id
    commandType := command.commandType
    affectedRegisteredNodes := affected.length
    classifications := affected.filterMap (classify db command (clock 0))
    staleActionAttempts := staleAttempts db command
    staleActionsCommitted := (staleCommittedActions db command).length
    unrelatedBranchesInterrupted := unrelatedInterrupted db command
    controlConvergenceVerdict := control
    replacementLineageVerdict := replacement.lineage
    recoveryActionVerdict := replacement.action
    recoveryPostconditionVerdict := replacement.postcondition
    recoveryStabilityVerdict := replacement.stability
    recoveryOutcomeVerdict := recovery
    runtimeVerdict := runtime
    telemetryVerdict := telemetry.verdict
    overallVerdict := combineProofVerdicts [runtime, telemetry.verdict]
    traceIds := telemetry.traceIds
    discrepancies := scopeValidDiscrepancies db command (clock 0) ++ discrepancies ++
      telemetry.discrepancies ++ unclassifiedDiscrepancy db command (clock 0) }

end TraceFence
