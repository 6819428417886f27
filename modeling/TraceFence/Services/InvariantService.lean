import TraceFence.Services.Common

/-!
# The invariant auditor

`InvariantService`: a scan compares the attempts of the nodes a command affects with the command,
and keeps what it finds in a ledger of violations with an outbox of events; deliveries claim events
for a while, export them and acknowledge. Every transaction is a function of its own here, because
exporting and flushing happen between them and outside the write lock.

## Main definitions

* `nodeAffected`, `auditedNodes` — the auditor's own notion of the nodes a command affects
* `discoverCandidates`, `recordCandidate` — a scan
* `claimPending`, `lookUp`, `acknowledge`, `recordFailure` — a delivery
-/

namespace TraceFence

/-! ### Scans -/

section
variable (db : Database)

/-- `_node_affected`. -/
def nodeAffected (command : ControlCommand) (node : Node) : Bool :=
  if node.registeredAt > command.createdAt then false
  else if command.commandType = .cancelRun then true
  else node.scopeSnapshot.any fun item =>
    item.scopeId = command.targetScopeId && item.version = command.fromVersion

/-- The nodes `_discover_candidates` finds affected: it looks at the nodes of the command's
run. -/
def auditedNodes (command : ControlCommand) : List Node :=
  (db.nodes.rows.filter fun node => node.runId = command.runId).filter (nodeAffected command)

/-- The attempts `_discover_candidates` selects for a command. -/
def auditedActions (command : ControlCommand) : List ActionAttempt :=
  let affectedIds := (auditedNodes db command).map (·.id)
  db.attempts.rows.filter fun action =>
    action.runId = command.runId ∧ action.nodeId ∈ affectedIds ∧ action.sideEffecting = true ∧
      action.decision = .allow ∧ action.committedAt.isSome ∧ command.createdAt ≤ action.attemptedAt

/-- The candidate an attempt becomes, if it has been committed. -/
def violationCandidate (command : ControlCommand) (action : ActionAttempt) :
    Option ViolationCandidate :=
  action.committedAt.map fun committedAt =>
    { runId := command.runId
      commandId := command.id
      actionId := action.id
      nodeId := action.nodeId
      toolName := action.toolName
      attemptedAt := action.attemptedAt
      committedAt := committedAt }

/-- `_discover_candidates`. -/
def discoverCandidates (runId : Option Id) : List ViolationCandidate :=
  let commands := (db.commands.rows.filter fun command => ∀ id ∈ runId, command.runId = id)
    |>.insertionSort fun command command' => command.createdAt ≤ command'.createdAt
  commands.flatMap fun command =>
    (auditedActions db command).filterMap (violationCandidate command)

end

variable (ledger : Ledger)

/-- An `INSERT` of a violation, whose id is unique as well. -/
def insertViolation? (violation : InvariantViolation) : Option (Table InvariantViolation) :=
  if ledger.violations.rows.any (·.id = violation.id) then none
  else ledger.violations.insert? violation

/-- An `INSERT` into the outbox: `uq_telemetry_outbox_event_key`. -/
def insertOutbox? (row : TelemetryOutbox) : Option (Table TelemetryOutbox) :=
  if ledger.outbox.rows.any (·.eventKey = row.eventKey) then none else ledger.outbox.insert? row

/-- The row of a candidate. -/
def newViolation (candidate : ViolationCandidate) (env : Env) : InvariantViolation where
  id := env.uuid 0
  runId := candidate.runId
  commandId := candidate.commandId
  actionId := candidate.actionId
  details := { candidate with violationId := env.uuid 0 }
  detectedAt := env.clock 0

/-- The event of a candidate. -/
def newOutbox (candidate : ViolationCandidate) (env : Env) : TelemetryOutbox where
  id := env.uuid 1
  eventKey := ⟨candidate.commandId, candidate.actionId⟩
  runId := candidate.runId
  payload := { candidate with violationId := env.uuid 0 }
  createdAt := env.clock 1

/-- The transaction of `scan` about one candidate. -/
def recordCandidate (candidate : ViolationCandidate) (env : Env) : Ledger :=
  match ledger.violations.get? (candidate.runId, candidate.commandId, candidate.actionId) with
  | some _ => ledger
  | none =>
    match insertViolation? ledger (newViolation candidate env),
      insertOutbox? ledger (newOutbox candidate env) with
    | some violations, some outbox => ⟨violations, outbox⟩
    | _, _ => ledger

/-! ### Deliveries -/

/-- The rows `_claim_pending` selects among. -/
def TelemetryOutbox.claimable (row : TelemetryOutbox) (now : Time) : Bool :=
  row.deliveredAt.isNone && row.nextAttemptAt.all (fun t => t ≤ now) &&
    (row.claimOwner.isNone || row.claimExpiresAt.any fun t => t ≤ now)

/-- A claim lasts half a minute. -/
def TelemetryOutbox.claimed (row : TelemetryOutbox) (owner : String) (now : Time) :
    TelemetryOutbox :=
  { row with
    claimOwner := some owner
    claimExpiresAt := some (now + seconds 30)
    lastAttemptAt := some now
    attempts := row.attempts + 1 }

/-- The ids `_claim_pending` returns. -/
def pendingIds (limit : ℕ) (now : Time) : List Id :=
  (((ledger.outbox.rows.filter (·.claimable now)).insertionSort fun row row' =>
    row.createdAt ≤ row'.createdAt).take limit).map (·.id)

/-- `_claim_pending`. -/
def claimPending (owner : String) (limit : ℕ) (now : Time) : Ledger × List Id :=
  let ids := pendingIds ledger limit now
  ({ ledger with
      outbox := ledger.outbox.mapRows
        (fun row => if row.id ∈ ids then row.claimed owner now else row)
        fun row => by split <;> rfl },
    ids)

/-- Whether a delivery goes on with a row. -/
def TelemetryOutbox.heldBy (row : TelemetryOutbox) (owner : String) : Bool :=
  row.deliveredAt.isNone && decide (row.claimOwner = some owner)

/-- What `deliver_pending` reads of a row before it exports. -/
def lookUp (owner : String) (rowId : Id) : Option TelemetryOutbox :=
  (ledger.outbox.get? rowId).filter (·.heldBy owner)

/-- A row after its delivery. -/
def TelemetryOutbox.delivered (row : TelemetryOutbox) (now : Time) : TelemetryOutbox :=
  { row with
    deliveredAt := some now
    lastError := none
    nextAttemptAt := none
    claimOwner := none
    claimExpiresAt := none }

/-- The transaction of `deliver_pending` after the flush. -/
def acknowledge (owner : String) (rowId : Id) (now : Time) : Ledger :=
  match lookUp ledger owner rowId with
  | none => ledger
  | some _ => { ledger with outbox := ledger.outbox.modify rowId (·.delivered now) }

/-- `backoff_seconds`. -/
def TelemetryOutbox.backoffSeconds (row : TelemetryOutbox) : ℕ := min 300 (Nat.pow 2 (min row.attempts 8))

/-- A row after a failure. -/
def TelemetryOutbox.failed (row : TelemetryOutbox) (error : String) (now : Time) :
    TelemetryOutbox :=
  { row with
    lastError := some ((error.take 1000).toString)
    nextAttemptAt := some (now + seconds row.backoffSeconds)
    claimOwner := none
    claimExpiresAt := none }

/-- The transaction of `deliver_pending` after an exception. -/
def recordFailure (owner : String) (rowId : Id) (error : String) (now : Time) : Ledger :=
  match lookUp ledger owner rowId with
  | none => ledger
  | some _ => { ledger with outbox := ledger.outbox.modify rowId (·.failed error now) }

end TraceFence
