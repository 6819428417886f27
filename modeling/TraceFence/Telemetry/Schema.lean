import Mathlib.Logic.Function.Basic
import TraceFence.Lib.Checked
import TraceFence.Lib.Json

/-!
# The metric catalogue

`telemetry/schema.py`: the metrics TraceFence exports, and the check that the metrics a dashboard or
an alert refers to are in the catalogue, are aggregated as their instruments allow, and are not
defined in two ways.

A reference is extracted from a document, so that all but its name may be any JSON value; a value
that is missing is `JsonValue.null`. What Python makes of a text, `str.casefold` and `repr`, are
parameters.

## Main definitions

* `metricCatalog` — the catalogue
* `validatedAggregation`, `validatedOptionalMetadata` — the checks of one reference
* `validateMetricReferences` — the check of a list
-/

namespace TraceFence

open Checked

inductive MetricInstrumentKind
  | observableGauge
  | counter
  | histogram
  deriving DecidableEq, Repr

/-- A metric of the catalogue, without its discovery policy. -/
structure MetricDefinition where
  name : String
  instrumentKind : MetricInstrumentKind
  timeAggregations : List String
  spaceAggregations : List String
  deriving DecidableEq, Repr

def gaugeTimeAggregations : List String := ["latest", "last"]
def gaugeSpaceAggregations : List String := ["latest", "last", "max"]
def counterTimeAggregations : List String := ["increase", "rate"]
def counterSpaceAggregations : List String := ["sum"]
def histogramAggregations : List String := ["avg", "average", "p50", "p75", "p90", "p95", "p99"]

def gaugeMetric (name : String) : MetricDefinition :=
  ⟨name, .observableGauge, gaugeTimeAggregations, gaugeSpaceAggregations⟩

def counterMetric (name : String) : MetricDefinition :=
  ⟨name, .counter, counterTimeAggregations, counterSpaceAggregations⟩

def histogramMetric (name : String) : MetricDefinition :=
  ⟨name, .histogram, histogramAggregations, histogramAggregations⟩

/-- `METRIC_CATALOG`. -/
def metricCatalog : List MetricDefinition :=
  [gaugeMetric "tracefence_active_nodes",
    gaugeMetric "tracefence_live_affected_nodes",
    gaugeMetric "tracefence_unacknowledged_live_nodes",
    gaugeMetric "tracefence_orphan_nodes",
    gaugeMetric "tracefence_telemetry_outbox_pending",
    gaugeMetric "tracefence_stale_violation_latched",
    gaugeMetric "tracefence_telemetry_delivery_last_success_unixtime",
    counterMetric "tracefence_runs_total",
    counterMetric "tracefence_nodes_spawned_total",
    counterMetric "tracefence_control_commands_total",
    counterMetric "tracefence_action_attempts_total",
    counterMetric "tracefence_actions_allowed_total",
    counterMetric "tracefence_actions_denied_total",
    counterMetric "tracefence_stale_action_attempts_total",
    counterMetric "tracefence_leases_expired_total",
    histogramMetric "tracefence_action_gateway_duration_ms",
    histogramMetric "tracefence_scope_validation_duration_ms",
    histogramMetric "tracefence_control_ack_latency_ms",
    histogramMetric "tracefence_proof_generation_duration_ms",
    counterMetric "tracefence_stale_actions_committed_total",
    counterMetric "tracefence_exporter_failures_total",
    counterMetric "tracefence_proof_inconsistent_total",
    counterMetric "tracefence_recovery_postcondition_failures_total"]

/-- The module raises when the catalogue has a name twice. -/
example : (metricCatalog.map (·.name)).Nodup := by decide

/-- `METRICS_BY_NAME.get(name)`. -/
def metricsByName (name : String) : Option MetricDefinition :=
  metricCatalog.find? fun metric => metric.name = name

structure MetricReference where
  name : String
  timeAggregation : JsonValue
  spaceAggregation : JsonValue
  metricType : JsonValue := .null
  isMonotonic : JsonValue := .null
  temporality : JsonValue := .null

/-- What Python makes of a text: `str.casefold`, and `repr`, which messages use. -/
structure TextMethods where
  casefold : String → String
  repr : String → String

/-! ### One reference -/

variable (text : TextMethods)

/-- `_validated_aggregation`. -/
def validatedAggregation (metricName dimension : String) (aggregation : JsonValue)
    (allowed : List String) : Except String String :=
  let unsupported (rendered : String) :=
    "TraceFence metric " ++ text.repr metricName ++ " does not support " ++ dimension ++
      " aggregation " ++ text.repr rendered
  match aggregation with
  | .str a => if a ∈ allowed then .ok a else .error (unsupported a)
  | _ => .error (unsupported "<missing>")

/-- The metadata of a reference that are known. -/
structure MetricMetadata where
  metricType : Option String
  isMonotonic : Option Bool
  temporality : Option String
  deriving DecidableEq, Repr

/-- `expected_types`. -/
def MetricInstrumentKind.expectedTypes : MetricInstrumentKind → List String
  | .observableGauge => ["gauge"]
  | .counter => ["sum"]
  | .histogram => ["histogram", "exponential_histogram"]

/-- `expected_monotonicity`. -/
def MetricInstrumentKind.expectedMonotonicity : MetricInstrumentKind → Option Bool
  | .observableGauge => some false
  | .counter => some true
  | .histogram => none

/-- `_validated_optional_metadata`, up to the type. -/
def validatedType (reference : MetricReference) (metric : MetricDefinition) :
    Except String (Option String) :=
  match reference.metricType with
  | .null => .ok none
  | .str t =>
    if text.casefold t ∈ metric.instrumentKind.expectedTypes then .ok (some (text.casefold t))
    else .error ("TraceFence metric " ++ text.repr reference.name ++
      " type does not match its catalog instrument kind")
  | _ => .error ("TraceFence metric " ++ text.repr reference.name ++ " has an invalid metric type")

/-- `_validated_optional_metadata`, the monotonicity. -/
def validatedMonotonicity (reference : MetricReference) (metric : MetricDefinition) :
    Except String (Option Bool) :=
  match reference.isMonotonic with
  | .null => .ok none
  | .bool b =>
    if metric.instrumentKind.expectedMonotonicity.all fun expected => b = expected then .ok (some b)
    else .error ("TraceFence metric " ++ text.repr reference.name ++
      " monotonicity does not match its catalog instrument kind")
  | _ => .error ("TraceFence metric " ++ text.repr reference.name ++ " has invalid monotonicity")

/-- `_validated_optional_metadata`, the temporality. -/
def validatedTemporality (reference : MetricReference) (metric : MetricDefinition) :
    Except String (Option String) :=
  match reference.temporality with
  | .null => .ok none
  | .str t =>
    if metric.instrumentKind = .counter ∧ text.casefold t ≠ "cumulative" then
      .error ("TraceFence counter " ++ text.repr reference.name ++
        " must use cumulative temporality")
    else .ok (some (text.casefold t))
  | _ => .error ("TraceFence metric " ++ text.repr reference.name ++ " has invalid temporality")

/-- `_validated_optional_metadata`. -/
def validatedOptionalMetadata (reference : MetricReference) (metric : MetricDefinition) :
    Except String MetricMetadata := do
  let metricType ← validatedType text reference metric
  let isMonotonic ← validatedMonotonicity text reference metric
  let temporality ← validatedTemporality text reference metric
  return { metricType, isMonotonic, temporality }

/-! ### A list of references -/

/-- What is kept of a metric in `seen`. -/
structure MetricUse where
  timeAggregation : String
  spaceAggregation : String
  metadata : MetricMetadata
  deriving DecidableEq, Repr

/-- `old is not None and new is not None and old != new`. -/
def differs {α : Type} [DecidableEq α] (old new : Option α) : Bool :=
  old.isSome && new.isSome && decide (old ≠ new)

/-- `existing[:2] != current[:2] or any(…)`. -/
def MetricUse.contradicts (existing current : MetricUse) : Bool :=
  decide ((existing.timeAggregation, existing.spaceAggregation) ≠
    (current.timeAggregation, current.spaceAggregation)) ||
  (differs existing.metadata.metricType current.metadata.metricType ||
    differs existing.metadata.isMonotonic current.metadata.isMonotonic ||
    differs existing.metadata.temporality current.metadata.temporality)

/-- What is kept when a reference does not contradict. -/
def MetricUse.merge (existing current : MetricUse) : MetricUse where
  timeAggregation := existing.timeAggregation
  spaceAggregation := existing.spaceAggregation
  metadata :=
    { metricType := existing.metadata.metricType.or current.metadata.metricType
      isMonotonic := existing.metadata.isMonotonic.or current.metadata.isMonotonic
      temporality := existing.metadata.temporality.or current.metadata.temporality }

/-- The body of the loop of `validate_metric_references`. -/
def validateMetricReference (seen : String → Option MetricUse) (reference : MetricReference) :
    Except String (String → Option MetricUse) := do
  let metric ← require (metricsByName reference.name)
    ("Unknown TraceFence metric: " ++ text.repr reference.name)
  let timeAggregation ← validatedAggregation text reference.name "time" reference.timeAggregation
    metric.timeAggregations
  let spaceAggregation ← validatedAggregation text reference.name "space"
    reference.spaceAggregation metric.spaceAggregations
  let metadata ← validatedOptionalMetadata text reference metric
  let current : MetricUse := { timeAggregation, spaceAggregation, metadata }
  match seen reference.name with
  | none => return Function.update seen reference.name (some current)
  | some existing =>
    if existing.contradicts current then
      throw ("TraceFence metric " ++ text.repr reference.name ++
        " has contradictory aggregation definitions")
    else return Function.update seen reference.name (some (existing.merge current))

/-- `validate_metric_references`. -/
def validateMetricReferences (references : List MetricReference) : Except String Unit := do
  let _ ← references.foldlM (validateMetricReference text) fun _ => none
  return ()

end TraceFence
