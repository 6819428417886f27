import TraceFence.Safety.Reconciliation
import TraceFence.Safety.RowAdaptation
import TraceFence.Telemetry.Spans

/-!
# Producer and consumer of telemetry

The spans that the control plane emits should come back as rows of the evidence schemas. They do
not: the schemas ask for the identity of the process, and no alias of the field stands among the
names that are emitted, with a prefix or without.

## Main definitions

* `CorrespondsTo` — a row is adapted to a row of a schema that has the values of the runtime

## Main results

* `lookup_adapted_eq_none` — a field without an alias among the columns has no value
* `not_correspondsTo` — a span whose identity has no alias is no row of a schema
* `telemetry_contract` — no span comes back as a row of its schema
-/

namespace TraceFence

open Checked JsonValue

variable {dates : Dates} {defaults adapted : AdaptedRow} {row : JsonValue}
variable {columns : Option (List String)} {items : List (String × JsonValue)} {field : String}

/-- A field has no value if it has no default and no column is an alias of it. -/
theorem lookup_adapted_eq_none (hitems : rowItems row columns = .ok items)
    (hdefault : defaults.lookup field = none) (htimestamp : field ≠ "timestamp_ms")
    (hcolumns : ∀ item ∈ items, fieldAliases.lookup item.1 ≠ some field)
    (h : adaptQueryBuilderRow dates row columns defaults = .ok adapted) :
    adapted.lookup field = none := by
  obtain ⟨_, timestamp, heq, htime, hput⟩ := adaptQueryBuilderRow_eq_ok.mp h
  obtain rfl := Except.ok.inj (hitems.symm.trans heq)
  have hcanonical : Merge.valuesOf (canonicalItems items) field = [] := by
    refine List.eq_nil_iff_forall_not_mem.mpr fun v hv => ?_
    obtain ⟨name, hname, hfield⟩ := mem_valuesOf_canonicalItems.mp hv
    exact hcolumns _ hname hfield
  have hlast : Merge.valuesOf timestamp field = [] := by
    unfold timestampItems at htime
    split at htime
    · obtain ⟨milliseconds, -, hpure⟩ := bind_eq_ok.mp htime
      cases hpure
      rw [Merge.valuesOf_cons, if_neg (Ne.symm htimestamp), Merge.valuesOf_nil]
    · cases htime
      rfl
  rw [Merge.lookup_putAll hput, Merge.valuesOf_append, hcanonical, hlast, hdefault]
  rfl

/-! ### Runtime values -/

/-- The fields of the identity of a process. -/
def processFields (identity : ProcessIdentity) : List (String × RowValue) :=
  [("service_name", .text identity.serviceName),
    ("service_instance_id", .text identity.serviceInstanceId),
    ("process_instance_id", .text identity.processInstanceId),
    ("build_commit", .text identity.buildCommit), ("schema_version", .int identity.schemaVersion)]

/-- The fields that correlate a row with a command. -/
def correlationFields (commandId runId operation : String) : List (String × RowValue) :=
  [("command_id", .text commandId), ("run_id", .text runId), ("operation", .text operation)]

variable (dates)

/-- A row is adapted to a row of a schema, and the fields there have the expected values. -/
def CorrespondsTo (model : EvidenceModel) (expected : List (String × RowValue)) (row : JsonValue) :
    Prop :=
  ∃ adapted evidence, adaptQueryBuilderRow dates row none [] = .ok adapted ∧
    modelValidate model (.dict adapted) = some evidence ∧ evidence.Has expected

/-- The row of the issue of a command. -/
def CommandCorresponds (identity : ProcessIdentity) (command : ControlCommand)
    (span : ReturnedSpan) : Prop :=
  CorrespondsTo dates commandTraceRow
    (processFields identity ++ correlationFields (toString command.id) (toString command.runId)
      "tracefence.control.command_issue" ++ [("trace_id", .text span.traceId)]) (spanRow span)

/-- The row of a denied action. -/
def ActionCorresponds (identity : ProcessIdentity) (node : Node) (attempt : ActionAttempt)
    (span : ReturnedSpan) : Prop :=
  CorrespondsTo dates blockedTraceRow
    (processFields identity ++ correlationFields ((attempt.matchedCommandId.map toString).getD "")
      (toString node.runId) "tracefence.action.block" ++
      actionFields (runtimeBlockedAction attempt) ++
      [("action_id", .text (toString attempt.id)), ("trace_id", .text span.traceId)]) (spanRow span)

/-- The row of the watermark of a flush. -/
def WatermarkCorresponds (watermark : ExportWatermark) (span : ReturnedSpan) : Prop :=
  CorrespondsTo dates exportWatermarkRow
    (watermarkFields watermark ++ [("operation", .text "tracefence.telemetry.export_watermark"),
      ("trace_id", .text span.traceId)]) (spanRow span)

variable {dates}

/-! ### Emitted names -/

/-- The names of the attributes of the spans and of their process. -/
def emittedNames : List String :=
  ["tracefence.run.id", "tracefence.command.id", "tracefence.command.type",
    "tracefence.command.reason_code", "tracefence.scope.id", "tracefence.scope.snapshot_version",
    "tracefence.scope.live_version", "tracefence.scope.status", "tracefence.node.id",
    "tracefence.node.role", "tracefence.action.id", "tracefence.action.tool",
    "tracefence.action.side_effecting", "tracefence.action.decision",
    "tracefence.action.denial_reason", "tracefence.telemetry.exported_at_ms",
    "tracefence.telemetry.export_sequence", "tracefence.telemetry.schema_version", "service.name",
    "service.instance.id", "process.instance.id", "tracefence.build.commit",
    "deployment.environment"]

/-- No emitted name is an alias of the identity of the process, with a prefix or without. -/
theorem not_alias_of_emitted {name : String} (h : name ∈ emittedNames) (style : KeyStyle) :
    fieldAliases.lookup (style.key name) ≠ some "process_instance_id" := by
  have hall : ∀ name ∈ emittedNames, ∀ style ∈ [KeyStyle.bare, .ofAttribute, .ofResource],
      fieldAliases.lookup (style.key name) ≠ some "process_instance_id" := by
    decide +kernel
  exact hall name h style (by cases style <;> simp)

theorem names_optional {name : String} {value : Option AttributeValue} {a : String × AttributeValue}
    (h : a ∈ optional name value) : a.1 = name := by
  obtain ⟨v, -, rfl⟩ := Option.map_eq_some_iff.mp (Option.mem_toList.mp h)
  rfl

theorem names_withResource {attributes : Attributes} {identity : ProcessIdentity}
    {environment : String} (h : ∀ a ∈ attributes, a.1 ∈ emittedNames) :
    ∀ a ∈ withResource attributes (resourceAttributes identity environment), a.1 ∈ emittedNames := by
  intro a ha
  rcases List.mem_append.mp ha with ha | ha
  · exact h a ha
  · have hnames : ∀ a ∈ resourceAttributes identity environment, a.1 ∈ emittedNames := by
      simp [resourceAttributes, emittedNames]
    exact hnames a (List.mem_of_mem_filter ha)

theorem names_commandSpan (command : ControlCommand) :
    ∀ a ∈ commandSpan command, a.1 ∈ emittedNames := by
  simp [commandSpan, emittedNames]

theorem names_watermarkAttributes (watermark : ExportWatermark) :
    ∀ a ∈ watermarkAttributes watermark, a.1 ∈ emittedNames := by
  simp [watermarkAttributes, emittedNames]

theorem names_setSpan (node : Node) (request : ActionExecute) (attempt : ActionAttempt) :
    ∀ a ∈ setSpan node request attempt, a.1 ∈ emittedNames := by
  intro a ha
  simp only [setSpan, List.mem_append] at ha
  rcases ha with (((((ha | ha) | ha) | ha) | ha) | ha) | ha
  · revert a
    simp [emittedNames]
  all_goals
    rw [names_optional ha]
    simp [emittedNames]

/-! ### No row corresponds -/

/-- The row of a span without emitted aliases of the identity of the process is no row of a schema
that asks for it. -/
theorem not_correspondsTo {model : EvidenceModel} {expected : List (String × RowValue)}
    {span : ReturnedSpan} (hmodel : model.lookup "process_instance_id" = some .text)
    (hnames : ∀ a ∈ span.attributes, a.1 ∈ emittedNames) :
    ¬ CorrespondsTo dates model expected (spanRow span) := by
  rintro ⟨adapted, evidence, hadapted, hvalid, -⟩
  have hcolumns : ∀ item ∈ spanColumns span,
      fieldAliases.lookup item.1 ≠ some "process_instance_id" := by
    intro item hitem
    rcases List.mem_cons.mp hitem with rfl | hitem
    · have htrace : ∀ column ∈ traceIdColumns,
          fieldAliases.lookup column ≠ some "process_instance_id" := by decide +kernel
      exact htrace _ span.traceIdColumn.property
    · rcases List.mem_cons.mp hitem with rfl | hitem
      · show fieldAliases.lookup "name" ≠ _
        decide +kernel
      · obtain ⟨a, ha, rfl⟩ := List.mem_map.mp hitem
        exact not_alias_of_emitted (hnames a ha) (span.style a.1)
  have hmissing := lookup_adapted_eq_none rfl rfl (by decide) hcolumns hadapted
  have hfield := @get?_of_modelValidate _ _ _ "process_instance_id" hvalid
  rw [EvidenceRow.getattr_text hmodel, get?_dict, hmissing] at hfield
  cases hfield

/-- Neither the issue of a command nor a denied action nor a watermark comes back as a row of its
schema with the values of the runtime, however the backend names the columns. -/
theorem telemetry_contract (dates : Dates) (identity : ProcessIdentity) (environment : String)
    (traceId : String) (timestamp : JsonValue) (style : String → KeyStyle)
    (traceIdColumn : { column : String // column ∈ traceIdColumns }) :
    (∀ command, ¬ CommandCorresponds dates identity command
      { name := "tracefence.control.command_issue", traceId, timestamp, style, traceIdColumn
        attributes := withResource (commandSpan command)
          (resourceAttributes identity environment) }) ∧
    (∀ node request attempt, ¬ ActionCorresponds dates identity node attempt
      { name := "tracefence.action.block", traceId, timestamp, style, traceIdColumn
        attributes := withResource (setSpan node request attempt)
          (resourceAttributes identity environment) }) ∧
    ∀ watermark, ¬ WatermarkCorresponds dates watermark
      { name := "tracefence.telemetry.export_watermark", traceId, timestamp, style, traceIdColumn
        attributes := withResource (watermarkAttributes watermark)
          (resourceAttributes identity environment) } :=
  ⟨fun command => not_correspondsTo (by decide) (names_withResource (names_commandSpan command)),
    fun node request attempt =>
      not_correspondsTo (by decide) (names_withResource (names_setSpan node request attempt)),
    fun watermark =>
      not_correspondsTo (by decide) (names_withResource (names_watermarkAttributes watermark))⟩

/-- The watermark of a flush. -/
def returnedWatermark : ExportWatermark where
  serviceName := "tracefence-control-plane"
  serviceInstanceId := "1"
  processInstanceId := "2"
  buildCommit := "abc"
  schemaVersion := 1
  runId := "10"
  commandId := "40"
  exportedAtMs := 1000
  sequence := 1

/-- The span of the watermark, under the names it was emitted with. -/
def returnedSpan : ReturnedSpan where
  name := "tracefence.telemetry.export_watermark"
  traceId := "0123456789abcdef0123456789abcdef"
  timestamp := .int 1000
  attributes := withResource (watermarkAttributes returnedWatermark)
    (resourceAttributes ⟨"tracefence-control-plane", "1", "2", "abc", 1⟩ "test")
  style := fun _ => .bare
  traceIdColumn := ⟨"trace_id", List.mem_cons_self ..⟩

theorem telemetry_contract_fails :
    ¬ WatermarkCorresponds (fun _ => none) returnedWatermark returnedSpan :=
  not_correspondsTo (by decide) (names_withResource (names_watermarkAttributes returnedWatermark))

end TraceFence
