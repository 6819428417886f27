import Mathlib.Data.Finset.Sort
import Mathlib.Data.List.Sort
import Mathlib.Data.String.Basic
import TraceFence.Lib.Json
import TraceFence.Services.ProofService

/-!
# The reconciliation of telemetry

`_reconcile_evidence` of the telemetry client: six answers of the backend are parsed into rows of
strict schemas, and the rows are held against what the runtime knows. The schemas are tables of
fields, as the code reads the fields of a row by name.

## Main definitions

* `EvidenceModel`, `EvidenceRow` — a schema, and a row that satisfies it
* `parseRows` — the rows of an answer
* `TelemetryVerificationContext` — what the runtime knows
* `reconcileEvidence`, `verifyCommand` — the verdict
-/

namespace TraceFence

open Checked

/-! ### Schemas -/

/-- A value of a row. -/
inductive RowValue
  | text (text : String)
  | int (value : ℤ)
  | float (value : Binary64)
  deriving DecidableEq

/-- The annotations of the row models. -/
inductive FieldType
  /-- `str = Field(min_length=1)`. -/
  | text
  /-- `str = Field(pattern=r"^[0-9a-f]{32}$")`. -/
  | traceId
  /-- `int = Field(ge=...)`. -/
  | int (ge : ℤ)
  /-- `FiniteFloat`. -/
  | finiteFloat
  deriving DecidableEq

/-- The pattern of trace ids. -/
def isTraceId (text : String) : Bool :=
  decide (text.length = 32) && text.toList.all fun c => c ∈ "0123456789abcdef".toList

/-- The integers below this bound in absolute value have a finite float. -/
def floatBound : ℕ := Nat.pow 2 1024 - Nat.pow 2 970

/-- Whether a value is one of the values of a field. An integer passes for a finite float, and
nothing reads what it is rounded to. -/
def FieldType.Admits : FieldType → RowValue → Prop
  | .text, .text s => s ≠ ""
  | .traceId, .text s => isTraceId s = true
  | .int ge, .int value => ge ≤ value
  | .finiteFloat, .float value => value.IsFinite
  | .finiteFloat, .int value => value.natAbs < floatBound
  | _, _ => False

instance : DecidableRel FieldType.Admits := fun type value => by
  unfold FieldType.Admits
  split <;> infer_instance

/-- The value of a row that a JSON value is in strict mode, whatever the field. -/
def RowValue.ofJson : JsonValue → Option RowValue
  | .str s => some (.text s)
  | .int value => some (.int value)
  | .float value => some (.float value)
  | _ => none

/-- A `_StrictEvidenceModel`: its fields and their annotations. -/
abbrev EvidenceModel := List (String × FieldType)

/-- A row of a model: each field has a value that the annotation admits. -/
structure EvidenceRow (model : EvidenceModel) where
  fields : List (String × RowValue)
  valid : List.Forall₂ (fun field annotation => field.1 = annotation.1 ∧
    FieldType.Admits annotation.2 field.2) fields model

namespace EvidenceRow

variable {model : EvidenceModel}

/-- `getattr`. -/
def getattr (row : EvidenceRow model) (field : String) : Option RowValue := row.fields.lookup field

/-- The text of a field of text. -/
def text (row : EvidenceRow model) (field : String) : String :=
  match row.getattr field with
  | some (.text text) => text
  | _ => ""

/-- The number of a field of integers. -/
def int (row : EvidenceRow model) (field : String) : ℤ :=
  match row.getattr field with
  | some (.int value) => value
  | _ => 0

end EvidenceRow

def identityRow : EvidenceModel :=
  [("service_name", .text), ("service_instance_id", .text), ("process_instance_id", .text),
    ("build_commit", .text), ("schema_version", .int 1)]

def commandTraceRow : EvidenceModel :=
  identityRow ++ [("trace_id", .traceId), ("command_id", .text), ("run_id", .text),
    ("operation", .text), ("timestamp_ms", .int 0)]

/-- The fields that `_BlockedTraceRow` and `_BlockedLogRow` share. -/
def blockedFields : EvidenceModel :=
  [("command_id", .text), ("run_id", .text), ("action_id", .text), ("node_id", .text),
    ("target_scope_id", .text), ("snapshot_version", .int 1), ("live_version", .int 1),
    ("live_status", .text), ("denial_reason", .text)]

def blockedTraceRow : EvidenceModel :=
  identityRow ++ [("trace_id", .traceId)] ++ blockedFields ++
    [("operation", .text), ("timestamp_ms", .int 0)]

def blockedLogRow : EvidenceModel :=
  identityRow ++ blockedFields ++ [("event_name", .text), ("timestamp_ms", .int 0)]

def exportWatermarkRow : EvidenceModel :=
  identityRow ++ [("trace_id", .traceId), ("command_id", .text), ("run_id", .text),
    ("operation", .text), ("exported_at_ms", .int 0), ("sequence", .int 1)]

def metricRow : EvidenceModel := [("metric_name", .text), ("value", .finiteFloat)]

/-! ### Parsing -/

/-- The fields of a model, read from an object. -/
def validateFields (payload : JsonValue) : (model : EvidenceModel) → Option (EvidenceRow model)
  | [] => some ⟨[], .nil⟩
  | (name, type) :: rest => do
    let value ← (payload.get? name).bind RowValue.ofJson
    let row ← validateFields payload rest
    if h : type.Admits value then
      some ⟨(name, value) :: row.fields, .cons ⟨rfl, h⟩ row.valid⟩
    else none

/-- `model_validate`: an object with the fields of the model and no others. -/
def modelValidate (model : EvidenceModel) (payload : JsonValue) : Option (EvidenceRow model) :=
  match payload with
  | .dict entries =>
    if JsonValue.keys entries ⊆ (model.map Prod.fst).toFinset then validateFields payload model
    else none
  | _ => none

/-- The rows of an answer before they are validated. -/
def resultRows (payload : JsonValue) (label : String) : Except String (List JsonValue) := do
  let ambiguous := s!"{label} must contain exactly one top-level results array"
  match payload with
  | .dict entries =>
    ensure (JsonValue.keys entries = {"results"}) ambiguous
    match payload.get? "results" with
    | some (.list rows) => return rows
    | _ => throw s!"{label}.results must be an array"
  | _ => throw ambiguous

/-- `_parse_rows`. What the schema layer says about the first row that does not validate, its
location and message, is `firstError`. -/
def parseRows (firstError : EvidenceModel → JsonValue → String) (payload : JsonValue)
    (model : EvidenceModel) (label : String) : Except String (List (EvidenceRow model)) := do
  let rows ← resultRows payload label
  rows.mapM fun row =>
    require (modelValidate model row) s!"{label} row schema mismatch at {firstError model row}"

/-! ### What the runtime knows -/

structure ExportWatermark where
  serviceName : String
  serviceInstanceId : String
  processInstanceId : String
  buildCommit : String
  schemaVersion : ℤ
  runId : String
  commandId : String
  exportedAtMs : ℤ
  sequence : ℤ
  deriving DecidableEq, Repr

structure RuntimeBlockedAction where
  actionId : String
  nodeId : String
  targetScopeId : String
  snapshotVersion : ℤ
  liveVersion : ℤ
  liveStatus : String
  denialReason : String
  deriving DecidableEq, Repr

structure TelemetryVerificationContext where
  commandId : String
  runId : String
  commandCreatedMs : ℤ
  startMs : ℤ
  endMs : ℤ
  commandOperation : String
  serviceName : String
  serviceInstanceId : String
  processInstanceId : String
  buildCommit : String
  schemaVersion : ℤ
  blockedActions : List RuntimeBlockedAction
  exportWatermark : Option ExportWatermark
  deriving DecidableEq, Repr

/-- The six answers; one that is missing is `JsonValue.null`, as `evidence.get` has it. -/
structure Evidence where
  commandTraces : JsonValue := .null
  blockedTraces : JsonValue := .null
  blockedLogs : JsonValue := .null
  exportWatermarks : JsonValue := .null
  attemptsMetric : JsonValue := .null
  committedMetric : JsonValue := .null

/-- The failure kinds of reconciliation and of what precedes it. -/
inductive TelemetryFailureKind
  | configurationUnavailable | exporterUnavailable | responseSchemaMismatch | evidenceInconsistent
  deriving DecidableEq, Repr

/-- A `TelemetryProof` with the evidence it rests on. -/
structure Reconciliation extends TelemetryProof where
  evidence : Evidence
  failureKind : Option TelemetryFailureKind := none

/-! ### Discrepancies -/

/-- A discrepancy, unless `p` holds. -/
def expect (p : Prop) [Decidable p] (discrepancy : String) : List String :=
  if p then [] else [discrepancy]

/-- `_duplicates`. -/
def duplicates (values : List String) : Finset String :=
  (values.foldl (fun (seen, duplicates) value =>
    (insert value seen, if value ∈ seen then insert value duplicates else duplicates))
    ((∅, ∅) : Finset String × Finset String)).2

section

variable {model : EvidenceModel} (ctx : TelemetryVerificationContext) (row : EvidenceRow model)

/-- The discrepancies of the fields that do not have their expected values, in order. -/
def fieldDiscrepancies (expected : List (String × RowValue)) (message : String → String) :
    List String :=
  (expected.filter fun field => row.getattr field.1 ≠ some field.2).map fun field =>
    message field.1

/-- The identity of the process. -/
def identityFields : List (String × RowValue) :=
  [("service_name", .text ctx.serviceName), ("service_instance_id", .text ctx.serviceInstanceId),
    ("process_instance_id", .text ctx.processInstanceId), ("build_commit", .text ctx.buildCommit),
    ("schema_version", .int ctx.schemaVersion)]

/-- `_identity_discrepancies`. -/
def identityDiscrepancies : List String :=
  fieldDiscrepancies row (identityFields ctx) fun field =>
    s!"{field} does not match the active TraceFence process"

/-- The time of a row lies in the window. -/
def InWindow (time : ℤ) : Prop := ctx.startMs ≤ time ∧ time ≤ ctx.endMs

instance (time : ℤ) : Decidable (InWindow ctx time) := inferInstanceAs (Decidable (_ ∧ _))

/-- `_command_row_discrepancies`. -/
def commandRowDiscrepancies (row : EvidenceRow commandTraceRow) : List String :=
  identityDiscrepancies ctx row ++
    expect (row.getattr "command_id" = some (.text ctx.commandId))
      "Command trace belongs to another command" ++
    expect (row.getattr "run_id" = some (.text ctx.runId)) "Command trace belongs to another run" ++
    expect (row.getattr "operation" = some (.text ctx.commandOperation))
      "Command trace operation does not match" ++
    expect (InWindow ctx (row.int "timestamp_ms")) "Command trace is outside the proof time window"

/-- The fields of a blocked action that its rows repeat. -/
def actionFields (action : RuntimeBlockedAction) : List (String × RowValue) :=
  [("node_id", .text action.nodeId), ("target_scope_id", .text action.targetScopeId),
    ("snapshot_version", .int action.snapshotVersion), ("live_version", .int action.liveVersion),
    ("live_status", .text action.liveStatus), ("denial_reason", .text action.denialReason)]

/-- How a row differs from the blocked action with its id. -/
def actionDiscrepancies (expected : Option RuntimeBlockedAction) : List String :=
  let actionId := row.text "action_id"
  match expected with
  | none => [s!"Blocked action {actionId} is absent from runtime"]
  | some action => fieldDiscrepancies row (actionFields action) fun field =>
      s!"Blocked action {actionId} {field} does not match runtime"

/-- `_blocked_row_discrepancies`. -/
def blockedRowDiscrepancies (expected : Option RuntimeBlockedAction)
    (operation expectedOperation : Option RowValue) : List String :=
  identityDiscrepancies ctx row ++
    expect (row.getattr "command_id" = some (.text ctx.commandId))
      "Blocked evidence belongs to another command" ++
    expect (row.getattr "run_id" = some (.text ctx.runId))
      "Blocked evidence belongs to another run" ++
    expect (operation = expectedOperation) "Blocked evidence operation/event does not match" ++
    expect (InWindow ctx (row.int "timestamp_ms"))
      "Blocked evidence is outside the proof time window" ++
    actionDiscrepancies row expected

/-- The fields of a watermark that its row repeats. -/
def watermarkFields (watermark : ExportWatermark) : List (String × RowValue) :=
  [("command_id", .text watermark.commandId), ("run_id", .text watermark.runId),
    ("service_name", .text watermark.serviceName),
    ("service_instance_id", .text watermark.serviceInstanceId),
    ("process_instance_id", .text watermark.processInstanceId),
    ("build_commit", .text watermark.buildCommit), ("schema_version", .int watermark.schemaVersion),
    ("exported_at_ms", .int watermark.exportedAtMs), ("sequence", .int watermark.sequence)]

/-- `_watermark_discrepancies`. -/
def watermarkDiscrepancies (row : EvidenceRow exportWatermarkRow) : List String :=
  match ctx.exportWatermark with
  | none => identityDiscrepancies ctx row ++ ["No local successful export watermark exists"]
  | some expected =>
    identityDiscrepancies ctx row ++
      fieldDiscrepancies row (watermarkFields expected)
        (fun field => s!"Export watermark {field} does not match") ++
      expect (row.getattr "operation" = some (.text "tracefence.telemetry.export_watermark"))
        "Export watermark operation does not match" ++
      expect (ctx.commandCreatedMs < row.int "exported_at_ms")
        "Export watermark predates the command" ++
      expect (InWindow ctx (row.int "exported_at_ms"))
        "Export watermark is outside the proof time window"

end

/-! ### Reconciliation -/

/-- `runtime_by_id.get`: of blocked actions with one id the last counts. -/
def runtimeById (ctx : TelemetryVerificationContext) (actionId : String) :
    Option RuntimeBlockedAction :=
  ctx.blockedActions.reverse.find? fun action => action.actionId = actionId

/-- The rows of the four answers that are reconciled. -/
structure ParsedEvidence where
  commandRows : List (EvidenceRow commandTraceRow)
  blockedTraces : List (EvidenceRow blockedTraceRow)
  blockedLogs : List (EvidenceRow blockedLogRow)
  watermarkRows : List (EvidenceRow exportWatermarkRow)

/-- `trace_ids`. -/
def ParsedEvidence.traceIds (rows : ParsedEvidence) : List String :=
  rows.commandRows.map (·.text "trace_id") ++ rows.blockedTraces.map (·.text "trace_id") ++
    rows.watermarkRows.map (·.text "trace_id")

/-- The six answers are parsed in order, the metrics only for their schema. -/
def parseEvidence (firstError : EvidenceModel → JsonValue → String) (evidence : Evidence) :
    Except String ParsedEvidence := do
  let commandRows ← parseRows firstError evidence.commandTraces commandTraceRow "command_traces"
  let blockedTraces ← parseRows firstError evidence.blockedTraces blockedTraceRow "blocked_traces"
  let blockedLogs ← parseRows firstError evidence.blockedLogs blockedLogRow "blocked_logs"
  let watermarkRows ←
    parseRows firstError evidence.exportWatermarks exportWatermarkRow "export_watermarks"
  let _ ← parseRows firstError evidence.attemptsMetric metricRow "attempts_metric"
  let _ ← parseRows firstError evidence.committedMetric metricRow "committed_metric"
  return { commandRows, blockedTraces, blockedLogs, watermarkRows }

/-- The discrepancies of rows against the context. -/
def evidenceDiscrepancies (ctx : TelemetryVerificationContext) (rows : ParsedEvidence) :
    List String :=
  let duplicateTraceIds := duplicates rows.traceIds
  let traceActionIds := rows.blockedTraces.map (·.text "action_id")
  let logActionIds := rows.blockedLogs.map (·.text "action_id")
  let duplicateActionIds := duplicates traceActionIds ∪ duplicates logActionIds
  let runtimeIds := (ctx.blockedActions.map (·.actionId)).toFinset
  expect (rows.commandRows.length = 1)
      s!"Expected exactly one command trace, received {rows.commandRows.length}" ++
    expect (rows.watermarkRows.length = 1)
      s!"Expected exactly one export watermark, received {rows.watermarkRows.length}" ++
    expect (duplicateTraceIds = ∅)
      ("Duplicate trace IDs: " ++ String.intercalate ", " (duplicateTraceIds.sort (· ≤ ·))) ++
    expect (duplicateActionIds = ∅)
      ("Duplicate blocked action IDs: " ++
        String.intercalate ", " (duplicateActionIds.sort (· ≤ ·))) ++
    expect (runtimeIds.card = ctx.blockedActions.length)
      "Authoritative runtime action IDs are duplicated" ++
    expect (runtimeIds = traceActionIds.toFinset ∧ runtimeIds = logActionIds.toFinset)
      "Runtime, trace and log blocked action-ID sets do not match exactly" ++
    rows.commandRows.flatMap (commandRowDiscrepancies ctx) ++
    rows.blockedTraces.flatMap (fun row =>
      blockedRowDiscrepancies ctx row (runtimeById ctx (row.text "action_id"))
        (row.getattr "operation") (some (.text "tracefence.action.block"))) ++
    rows.blockedLogs.flatMap (fun row =>
      blockedRowDiscrepancies ctx row (runtimeById ctx (row.text "action_id"))
        (row.getattr "event_name") (some (.text "action_denied"))) ++
    rows.watermarkRows.flatMap (watermarkDiscrepancies ctx)

/-- `_failure`. -/
def failure (verdict : ProofVerdict) (kind : TelemetryFailureKind) (discrepancy : String)
    (evidence : Evidence := {}) : Reconciliation where
  verdict := verdict
  discrepancies := [discrepancy]
  evidence := evidence
  failureKind := some kind

/-- `_reconcile_evidence`. -/
def reconcileEvidence (firstError : EvidenceModel → JsonValue → String)
    (ctx : TelemetryVerificationContext) (evidence : Evidence) : Reconciliation :=
  match ctx.exportWatermark with
  | none => failure .unavailable .exporterUnavailable
      "OpenTelemetry exporter is disabled or has no successful command export" evidence
  | some watermark =>
    if watermark.exportedAtMs ≤ ctx.commandCreatedMs then
      failure .inconsistent .evidenceInconsistent
        "Successful export watermark predates the command" evidence
    else
      match parseEvidence firstError evidence with
      | .error message =>
        failure .partiallyVerified .responseSchemaMismatch message evidence
      | .ok rows =>
        let discrepancies := evidenceDiscrepancies ctx rows
        if discrepancies ≠ [] then
          { verdict := .inconsistent
            traceIds := rows.traceIds.toFinset.sort (· ≤ ·)
            discrepancies := discrepancies
            evidence := evidence
            failureKind := some .evidenceInconsistent }
        else
          { verdict := .verified
            traceIds := rows.traceIds.mergeSort (· ≤ ·)
            evidence := evidence }

/-! ### `verify_command` -/

/-- `_configuration_error`. -/
def configurationError (signozApiKey : String) (ctx : TelemetryVerificationContext) :
    Option Reconciliation :=
  if signozApiKey = "" then
    some (failure .unavailable .configurationUnavailable "SIGNOZ_API_KEY is not configured")
  else if ctx.buildCommit = "" ∨ ctx.buildCommit = "UNSET" then
    some (failure .unavailable .configurationUnavailable
      "TRACEFENCE_BUILD_COMMIT is required for telemetry verification")
  else if ctx.exportWatermark = none then
    some (failure .unavailable .exporterUnavailable
      "No successful TraceFence export watermark exists for this command")
  else none

/-- `verify_command`, when the six queries are answered. -/
def verifyCommand (signozApiKey : String) (firstError : EvidenceModel → JsonValue → String)
    (ctx : TelemetryVerificationContext) (evidence : Evidence) : Reconciliation :=
  (configurationError signozApiKey ctx).getD (reconcileEvidence firstError ctx evidence)

end TraceFence
