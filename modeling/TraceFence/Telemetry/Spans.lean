import TraceFence.Telemetry.BlockedAction
import TraceFence.Telemetry.Setup

/-!
# Spans and rows

The spans that a proof asks the telemetry backend for: the issue of a command, a denied action and
the watermark of a flush. A span has its own attributes and those of its process, and the backend
returns them as the columns of a row.

## Main definitions

* `resourceAttributes`, `commandSpan`, `watermarkAttributes` — what is emitted
* `spanRow` — the row of a span
-/

namespace TraceFence

/-- The text of a command type. -/
def CommandType.value : CommandType → String
  | .cancelRun => "CANCEL_RUN"
  | .cancelSubtree => "CANCEL_SUBTREE"
  | .correctSubtree => "CORRECT_SUBTREE"

/-! ### What is emitted -/

/-- The resource of `configure_telemetry`. -/
def resourceAttributes (identity : ProcessIdentity) (environment : String) : Attributes :=
  [("service.name", .text identity.serviceName),
    ("service.instance.id", .text identity.serviceInstanceId),
    ("process.instance.id", .text identity.processInstanceId),
    ("tracefence.build.commit", .text identity.buildCommit),
    ("tracefence.telemetry.schema_version", .int identity.schemaVersion),
    ("deployment.environment", .text environment)]

/-- The span `tracefence.control.command_issue`. -/
def commandSpan (command : ControlCommand) : Attributes :=
  [("tracefence.run.id", .ofId command.runId), ("tracefence.command.id", .ofId command.id),
    ("tracefence.command.type", .text command.commandType.value),
    ("tracefence.command.reason_code", .text command.reasonCode),
    ("tracefence.scope.id", .ofId command.targetScopeId),
    ("tracefence.scope.snapshot_version", .ofNat command.fromVersion),
    ("tracefence.scope.live_version", .ofNat command.toVersion),
    ("tracefence.scope.status", .text command.commandType.scopeStatus.value)]

/-- The span `tracefence.telemetry.export_watermark`. -/
def watermarkAttributes (watermark : ExportWatermark) : Attributes :=
  [("tracefence.run.id", .text watermark.runId), ("tracefence.command.id", .text watermark.commandId),
    ("tracefence.telemetry.exported_at_ms", .int watermark.exportedAtMs),
    ("tracefence.telemetry.export_sequence", .int watermark.sequence),
    ("tracefence.telemetry.schema_version", .int watermark.schemaVersion)]

/-- The attributes of a span and those of its process that it does not have itself. -/
def withResource (attributes resource : Attributes) : Attributes :=
  attributes ++ resource.filter fun a => a.1 ∉ attributes.map Prod.fst

/-! ### What is returned -/

/-- The value of an attribute in a row. -/
def AttributeValue.toJson : AttributeValue → JsonValue
  | .text s => .str s
  | .int n => .int n
  | .bool b => .bool b

/-- How the backend names the column of an attribute. -/
inductive KeyStyle
  | bare | ofAttribute | ofResource
  deriving DecidableEq, Repr

def KeyStyle.key : KeyStyle → String → String
  | .bare, name => name
  | .ofAttribute, name => "attribute." ++ name
  | .ofResource, name => "resource." ++ name

/-- The columns of the trace id. -/
def traceIdColumns : List String := ["trace_id", "traceID", "traceId"]

/-- A span as the backend has it. -/
structure ReturnedSpan where
  name : String
  traceId : String
  timestamp : JsonValue
  attributes : Attributes
  /-- How the column of each attribute is named. -/
  style : String → KeyStyle
  /-- How the column of the trace id is named. -/
  traceIdColumn : { column : String // column ∈ traceIdColumns }

/-- The columns of a span. -/
def spanColumns (span : ReturnedSpan) : List (String × JsonValue) :=
  (span.traceIdColumn.val, .str span.traceId) :: ("name", .str span.name) ::
    span.attributes.map fun a => ((span.style a.1).key a.1, a.2.toJson)

/-- The row of a span. -/
def spanRow (span : ReturnedSpan) : JsonValue :=
  .dict [("timestamp", span.timestamp), ("data", .dict (spanColumns span))]

end TraceFence
