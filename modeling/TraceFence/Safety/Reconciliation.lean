import Mathlib.Data.Finset.Card
import TraceFence.Signoz.McpClient

/-!
# Verified telemetry is exact

Reconciliation counts rows, compares sets of ids and matches the rows one by one. Together these
tests say that the rows are an exact image of what the runtime knows: the rows of the blocked
actions, read as actions, are a permutation of the runtime's. The permutation is what makes every
tampering visible, as all but two fields of a row are determined by the action it stands for.

## Main definitions

* `ExactRows`, `ExactEvidence` — evidence that agrees with the runtime in every respect
* `Tampered` — a row was dropped, repeated or changed

## Main results

* `evidence_exact` — evidence is verified exactly when it is exact, and not after tampering
-/

namespace TraceFence

open Checked

variable {model : EvidenceModel} {ctx : TelemetryVerificationContext}

/-! ### Rows -/

/-- The row has the expected values. -/
def EvidenceRow.Has (row : EvidenceRow model) (expected : List (String × RowValue)) : Prop :=
  ∀ field ∈ expected, row.getattr field.1 = some field.2

namespace EvidenceRow

variable {row row' : EvidenceRow model}

theorem has_append {expected expected' : List (String × RowValue)} :
    row.Has (expected ++ expected') ↔ row.Has expected ∧ row.Has expected' :=
  List.forall_mem_append

theorem has_singleton {field : String} {value : RowValue} :
    row.Has [(field, value)] ↔ row.getattr field = some value := by
  simp [Has]

/-- A field of the model has a value that its annotation admits. -/
theorem exists_getattr {name : String} {type : FieldType} (h : model.lookup name = some type) :
    ∃ value, row.getattr name = some value ∧ type.Admits value := by
  obtain ⟨fields, valid⟩ := row
  simp only [getattr]
  induction valid with
  | nil => exact absurd h (Option.some_ne_none _).symm
  | @cons field annotation fields model hfield _ ih =>
    obtain ⟨field, value⟩ := field
    obtain ⟨annotated, type'⟩ := annotation
    obtain ⟨rfl, hadmits⟩ := hfield
    by_cases hname : name = field
    · subst hname
      simp only [List.lookup_cons, beq_self_eq_true, Option.some.injEq] at h ⊢
      exact ⟨value, rfl, h ▸ hadmits⟩
    · have hne : (name == field) = false := beq_eq_false_iff_ne.mpr hname
      simp only [List.lookup_cons, hne] at h ⊢
      exact ih h

/-- A row has no field beyond its model. -/
theorem getattr_eq_none {name : String} (h : name ∉ model.map Prod.fst) :
    row.getattr name = none := by
  obtain ⟨fields, valid⟩ := row
  refine List.lookup_eq_none_iff.mpr fun field hfield => bne_iff_ne.mpr ?_
  rintro rfl
  change field ∈ fields at hfield
  induction valid with
  | nil => exact absurd hfield List.not_mem_nil
  | cons hhead _ ih =>
    simp only [List.map_cons, List.mem_cons, not_or] at h
    rcases List.mem_cons.mp hfield with rfl | hrest
    · exact h.1 hhead.1
    · exact ih h.2 hrest

theorem getattr_text {name : String} (h : model.lookup name = some .text) :
    row.getattr name = some (.text (row.text name)) := by
  obtain ⟨value, hvalue, hadmits⟩ := @exists_getattr _ row _ _ h
  cases value with
  | text s => simp only [text, hvalue]
  | int | float => exact hadmits.elim

theorem getattr_int {name : String} {ge : ℤ} (h : model.lookup name = some (.int ge)) :
    row.getattr name = some (.int (row.int name)) := by
  obtain ⟨value, hvalue, hadmits⟩ := @exists_getattr _ row _ _ h
  cases value with
  | int n => simp only [int, hvalue]
  | text | float => exact hadmits.elim

/-- Two rows with the same expected values agree on every field but those nobody expects. -/
theorem getattr_eq_of_has {expected : List (String × RowValue)} {free : List String} {name : String}
    (hcover : ∀ field ∈ model.map Prod.fst, field ∈ free ∨ field ∈ expected.map Prod.fst)
    (h : row.Has expected) (h' : row'.Has expected) (hname : name ∉ free) :
    row.getattr name = row'.getattr name := by
  by_cases hmodel : name ∈ model.map Prod.fst
  · obtain ⟨field, hfield, rfl⟩ := List.mem_map.mp ((hcover name hmodel).resolve_left hname)
    rw [h field hfield, h' field hfield]
  · rw [getattr_eq_none hmodel, getattr_eq_none hmodel]

end EvidenceRow

/-! ### Parsing -/

/-- The JSON value that a value of a row was read from. -/
def RowValue.toJson : RowValue → JsonValue
  | .text s => .str s
  | .int value => .int value
  | .float value => .float value

theorem RowValue.eq_toJson {payload : JsonValue} {value : RowValue}
    (h : RowValue.ofJson payload = some value) : payload = value.toJson := by
  cases payload with
  | str | int | float =>
    cases h
    rfl
  | null | bool | list | dict => exact absurd h (Option.some_ne_none _).symm

/-- A row has the values of the object it was read from, and only these. -/
theorem get?_of_modelValidate {payload : JsonValue} {row : EvidenceRow model} {name : String}
    (h : modelValidate model payload = some row) :
    payload.get? name = (row.getattr name).map RowValue.toJson := by
  unfold modelValidate at h
  split at h
  case h_2 => cases h
  case h_1 entries =>
  split at h
  case isFalse => cases h
  case isTrue hkeys =>
  by_cases hname : name ∈ model.map Prod.fst
  · clear hkeys
    induction model with
    | nil => exact absurd hname List.not_mem_nil
    | cons annotation rest ih =>
      obtain ⟨field, type⟩ := annotation
      simp only [validateFields, Option.bind_eq_bind, Option.bind_eq_some_iff] at h
      obtain ⟨value, ⟨found, hfound, hread⟩, row', hrow', h⟩ := h
      split at h
      case isFalse => cases h
      case isTrue =>
      cases h
      simp only [EvidenceRow.getattr, List.lookup_cons]
      by_cases hfield : name = field
      · subst hfield
        rw [beq_self_eq_true, hfound, RowValue.eq_toJson hread]
        rfl
      · rw [beq_eq_false_iff_ne.mpr hfield]
        exact ih hrow' ((List.mem_cons.mp hname).resolve_left hfield)
  · rw [EvidenceRow.getattr_eq_none hname]
    exact JsonValue.get?_eq_none fun hkey => hname (List.mem_toFinset.mp (hkeys hkey))

/-- An answer is an object with nothing but results, and these are rows of the model. -/
def StrictRows (model : EvidenceModel) (payload : JsonValue) (rows : List (EvidenceRow model)) :
    Prop :=
  ∃ entries results, payload = .dict entries ∧ JsonValue.keys entries = {"results"} ∧
    payload.get? "results" = some (.list results) ∧
    results.map (modelValidate model) = rows.map some

theorem mapM_require_eq_ok {α β : Type} {f : α → Option β} {error : α → String} {as : List α}
    {bs : List β} :
    as.mapM (fun a => require (f a) (error a)) = .ok bs ↔ as.map f = bs.map some := by
  induction as generalizing bs with
  | nil =>
    simp only [List.mapM_nil, pure_eq_ok, List.map_nil, List.nil_eq, List.map_eq_nil_iff]
  | cons a as ih =>
    simp only [List.mapM_cons, bind_eq_ok, require_eq_ok, pure_eq_ok, ih]
    constructor
    · rintro ⟨b, hb, rest, hrest, rfl⟩
      rw [List.map_cons, List.map_cons, hb, hrest]
    · intro h
      obtain ⟨b, rest, rfl, hb, hrest⟩ := List.map_eq_cons_iff.mp h.symm
      exact ⟨b, hb.symm, rest, hrest.symm, rfl⟩

variable {firstError : EvidenceModel → JsonValue → String}

theorem parseRows_eq_ok {payload : JsonValue} {label : String} {rows : List (EvidenceRow model)} :
    parseRows firstError payload model label = .ok rows ↔ StrictRows model payload rows := by
  simp only [parseRows, bind_eq_ok, mapM_require_eq_ok, StrictRows]
  constructor
  · rintro ⟨results, hresults, hrows⟩
    unfold resultRows at hresults
    split at hresults
    case h_2 => cases hresults
    case h_1 entries =>
    simp only [bind_eq_ok, ensure_eq_ok] at hresults
    obtain ⟨_, hkeys, hresults⟩ := hresults
    split at hresults
    case h_2 => cases hresults
    case h_1 results' hget =>
    cases pure_eq_ok.mp hresults
    exact ⟨entries, results, rfl, hkeys, hget, hrows⟩
  · rintro ⟨entries, results, rfl, hkeys, hget, hrows⟩
    refine ⟨results, ?_, hrows⟩
    simp only [resultRows, bind_eq_ok, ensure_eq_ok]
    refine ⟨(), hkeys, ?_⟩
    rw [hget]
    rfl

/-- Every answer passes, and those that are reconciled have these rows. -/
structure StrictEvidence (evidence : Evidence) (rows : ParsedEvidence) : Prop where
  commandTraces : StrictRows commandTraceRow evidence.commandTraces rows.commandRows
  blockedTraces : StrictRows blockedTraceRow evidence.blockedTraces rows.blockedTraces
  blockedLogs : StrictRows blockedLogRow evidence.blockedLogs rows.blockedLogs
  exportWatermarks : StrictRows exportWatermarkRow evidence.exportWatermarks rows.watermarkRows
  attemptsMetric : ∃ metrics, StrictRows metricRow evidence.attemptsMetric metrics
  committedMetric : ∃ metrics, StrictRows metricRow evidence.committedMetric metrics

theorem parseEvidence_eq_ok {evidence : Evidence} {rows : ParsedEvidence} :
    parseEvidence firstError evidence = .ok rows ↔ StrictEvidence evidence rows := by
  simp only [parseEvidence, bind_eq_ok, parseRows_eq_ok, pure_eq_ok]
  constructor
  · rintro ⟨_, hcommands, _, htraces, _, hlogs, _, hwatermarks, m, hm, m', hm', rfl⟩
    exact ⟨hcommands, htraces, hlogs, hwatermarks, ⟨m, hm⟩, ⟨m', hm'⟩⟩
  · rintro ⟨hcommands, htraces, hlogs, hwatermarks, ⟨m, hm⟩, ⟨m', hm'⟩⟩
    exact ⟨_, hcommands, _, htraces, _, hlogs, _, hwatermarks, m, hm, m', hm', rfl⟩

/-! ### Discrepancies -/

theorem expect_eq_nil {p : Prop} [Decidable p] {discrepancy : String} :
    expect p discrepancy = [] ↔ p := by
  unfold expect
  split <;> simp_all

theorem fieldDiscrepancies_eq_nil {row : EvidenceRow model} {expected : List (String × RowValue)}
    {message : String → String} :
    fieldDiscrepancies row expected message = [] ↔ row.Has expected := by
  simp [fieldDiscrepancies, EvidenceRow.Has]

/-- The loop finds the values that are repeated or were seen before. -/
theorem duplicates_loop (values : List String) (seen found : Finset String) :
    (values.foldl (fun (seen, duplicates) value =>
      (insert value seen, if value ∈ seen then insert value duplicates else duplicates))
      (seen, found)).2 = ∅ ↔ found = ∅ ∧ values.Nodup ∧ ∀ value ∈ values, value ∉ seen := by
  induction values generalizing seen found with
  | nil => simp
  | cons value rest ih =>
    simp only [List.foldl_cons, ih, List.nodup_cons, List.mem_cons, Finset.mem_insert, not_or]
    by_cases hseen : value ∈ seen
    · simp [hseen]
    · simp only [if_neg hseen]
      constructor
      · rintro ⟨rfl, hnodup, hrest⟩
        refine ⟨rfl, ⟨fun hmem => (hrest value hmem).1 rfl, hnodup⟩, ?_⟩
        rintro v (rfl | hv)
        · exact hseen
        · exact (hrest v hv).2
      · rintro ⟨rfl, ⟨hnot, hnodup⟩, hrest⟩
        refine ⟨rfl, hnodup, fun v hv => ⟨?_, hrest v (.inr hv)⟩⟩
        rintro rfl
        exact hnot hv

theorem duplicates_eq_empty {values : List String} : duplicates values = ∅ ↔ values.Nodup := by
  rw [duplicates, duplicates_loop]
  simp

/-! ### Exact evidence -/

/-- The action that a row reports. -/
def RuntimeBlockedAction.ofRow (row : EvidenceRow model) : RuntimeBlockedAction where
  actionId := row.text "action_id"
  nodeId := row.text "node_id"
  targetScopeId := row.text "target_scope_id"
  snapshotVersion := row.int "snapshot_version"
  liveVersion := row.int "live_version"
  liveStatus := row.text "live_status"
  denialReason := row.text "denial_reason"

/-- The values of the command row. -/
def commandFields (ctx : TelemetryVerificationContext) : List (String × RowValue) :=
  identityFields ctx ++ [("command_id", .text ctx.commandId)] ++ [("run_id", .text ctx.runId)] ++
    [("operation", .text ctx.commandOperation)]

/-- The values of the watermark row. -/
def exportFields (ctx : TelemetryVerificationContext) (watermark : ExportWatermark) :
    List (String × RowValue) :=
  identityFields ctx ++ watermarkFields watermark ++
    [("operation", .text "tracefence.telemetry.export_watermark")]

/-- The values that the rows of all blocked actions share, `event` among them. -/
def blockedEvidenceFields (ctx : TelemetryVerificationContext) (event : String × RowValue) :
    List (String × RowValue) :=
  identityFields ctx ++ [("command_id", .text ctx.commandId)] ++ [("run_id", .text ctx.runId)] ++
    [event]

/-- **The rows are an image of the runtime's blocked actions**: one row for each, and in each row
the values that are expected. -/
structure Covers (ctx : TelemetryVerificationContext) (event : String × RowValue)
    (rows : List (EvidenceRow model)) : Prop where
  actions : (rows.map RuntimeBlockedAction.ofRow).Perm ctx.blockedActions
  fields : ∀ row ∈ rows, row.Has (blockedEvidenceFields ctx event)
  window : ∀ row ∈ rows, InWindow ctx (row.int "timestamp_ms")

/-- **Rows that agree with the runtime in every respect.** -/
structure ExactRows (ctx : TelemetryVerificationContext) (watermark : ExportWatermark)
    (rows : ParsedEvidence) : Prop where
  command : ∃ row, rows.commandRows = [row] ∧ row.Has (commandFields ctx) ∧
    InWindow ctx (row.int "timestamp_ms")
  export' : ∃ row, rows.watermarkRows = [row] ∧ row.Has (exportFields ctx watermark) ∧
    InWindow ctx (row.int "exported_at_ms")
  actions : (ctx.blockedActions.map (·.actionId)).Nodup
  traces : Covers ctx ("operation", .text "tracefence.action.block") rows.blockedTraces
  logs : Covers ctx ("event_name", .text "action_denied") rows.blockedLogs
  traceIds : rows.traceIds.Nodup

/-- **Exact evidence**: the watermark is later than the command, every answer parses, and the rows
agree with the runtime. -/
def ExactEvidence (ctx : TelemetryVerificationContext) (evidence : Evidence) : Prop :=
  ∃ watermark rows, ctx.exportWatermark = some watermark ∧
    ctx.commandCreatedMs < watermark.exportedAtMs ∧ StrictEvidence evidence rows ∧
    ExactRows ctx watermark rows

/-! ### The image of the blocked actions -/

theorem blockedTraceRow_lookup :
    ∀ field ∈ blockedFields, blockedTraceRow.lookup field.1 = some field.2 := by decide

theorem blockedLogRow_lookup :
    ∀ field ∈ blockedFields, blockedLogRow.lookup field.1 = some field.2 := by decide

theorem runtimeById_eq_some (hnodup : (ctx.blockedActions.map (·.actionId)).Nodup) {actionId : String}
    {action : RuntimeBlockedAction} : runtimeById ctx actionId = some action ↔
      action ∈ ctx.blockedActions ∧ action.actionId = actionId := by
  constructor
  · intro h
    exact ⟨List.mem_reverse.mp (List.mem_of_find?_eq_some h), by simpa using List.find?_some h⟩
  · rintro ⟨hmem, rfl⟩
    cases hfind : runtimeById ctx action.actionId with
    | none =>
      have hnone := List.find?_eq_none.mp hfind action (List.mem_reverse.mpr hmem)
      simp at hnone
    | some found =>
      have hfound : found.actionId = action.actionId := by simpa using List.find?_some hfind
      have hin : found ∈ ctx.blockedActions := List.mem_reverse.mp (List.mem_of_find?_eq_some hfind)
      rw [List.inj_on_of_nodup_map hnodup hin hmem hfound]

/-- A row repeats a blocked action exactly when that action is what it reports. -/
theorem has_actionFields {row : EvidenceRow model} {action : RuntimeBlockedAction}
    (hmodel : ∀ field ∈ blockedFields, model.lookup field.1 = some field.2)
    (hid : action.actionId = row.text "action_id") :
    row.Has (actionFields action) ↔ RuntimeBlockedAction.ofRow row = action := by
  have htext : ∀ name : String, (name, FieldType.text) ∈ blockedFields →
      row.getattr name = some (.text (row.text name)) :=
    fun name h => EvidenceRow.getattr_text (hmodel _ h)
  have hint : ∀ name : String, (name, FieldType.int 1) ∈ blockedFields →
      row.getattr name = some (.int (row.int name)) :=
    fun name h => EvidenceRow.getattr_int (hmodel _ h)
  obtain ⟨actionId, nodeId, targetScopeId, snapshotVersion, liveVersion, liveStatus, denialReason⟩ :=
    action
  have hid' : actionId = row.text "action_id" := hid
  simp [EvidenceRow.Has, actionFields, RuntimeBlockedAction.ofRow, hid',
    htext "node_id" (by simp [blockedFields]), htext "target_scope_id" (by simp [blockedFields]),
    hint "snapshot_version" (by simp [blockedFields]), hint "live_version" (by simp [blockedFields]),
    htext "live_status" (by simp [blockedFields]), htext "denial_reason" (by simp [blockedFields])]

/-- A row agrees with the action of its id exactly when it reports one of the runtime's. -/
theorem actionDiscrepancies_eq_nil {row : EvidenceRow model}
    (hmodel : ∀ field ∈ blockedFields, model.lookup field.1 = some field.2)
    (hnodup : (ctx.blockedActions.map (·.actionId)).Nodup) :
    actionDiscrepancies row (runtimeById ctx (row.text "action_id")) = [] ↔
      RuntimeBlockedAction.ofRow row ∈ ctx.blockedActions := by
  cases hfind : runtimeById ctx (row.text "action_id") with
  | none =>
    simp only [actionDiscrepancies, List.cons_ne_nil, false_iff]
    intro hmem
    have hsome := (@runtimeById_eq_some ctx hnodup (row.text "action_id") _).mpr ⟨hmem, rfl⟩
    rw [hfind] at hsome
    cases hsome
  | some action =>
    obtain ⟨hmem, hid⟩ := (runtimeById_eq_some hnodup).mp hfind
    simp only [actionDiscrepancies, fieldDiscrepancies_eq_nil, has_actionFields hmodel hid]
    constructor
    · rintro rfl
      exact hmem
    · intro hrow
      exact List.inj_on_of_nodup_map hnodup hrow hmem hid.symm

theorem blockedRowDiscrepancies_eq_nil {row : EvidenceRow model} {event : String} {value : RowValue}
    (hmodel : ∀ field ∈ blockedFields, model.lookup field.1 = some field.2)
    (hnodup : (ctx.blockedActions.map (·.actionId)).Nodup) :
    blockedRowDiscrepancies ctx row (runtimeById ctx (row.text "action_id")) (row.getattr event)
        (some value) = [] ↔
      row.Has (blockedEvidenceFields ctx (event, value)) ∧
        InWindow ctx (row.int "timestamp_ms") ∧
        RuntimeBlockedAction.ofRow row ∈ ctx.blockedActions := by
  simp only [blockedRowDiscrepancies, identityDiscrepancies, List.append_eq_nil_iff,
    fieldDiscrepancies_eq_nil, expect_eq_nil, blockedEvidenceFields, EvidenceRow.has_append,
    EvidenceRow.has_singleton, actionDiscrepancies_eq_nil hmodel hnodup, and_assoc]

/-- What the tests of one kind of blocked rows amount to. -/
theorem covers_iff {event : String} {value : RowValue} {rows : List (EvidenceRow model)}
    (hmodel : ∀ field ∈ blockedFields, model.lookup field.1 = some field.2)
    (hnodup : (ctx.blockedActions.map (·.actionId)).Nodup) :
    Covers ctx (event, value) rows ↔ (rows.map (·.text "action_id")).Nodup ∧
      (ctx.blockedActions.map (·.actionId)).toFinset = (rows.map (·.text "action_id")).toFinset ∧
      ∀ row ∈ rows, blockedRowDiscrepancies ctx row (runtimeById ctx (row.text "action_id"))
        (row.getattr event) (some value) = [] := by
  have hids : rows.map (·.text "action_id") =
      (rows.map RuntimeBlockedAction.ofRow).map (·.actionId) := by
    rw [List.map_map]
    rfl
  simp only [blockedRowDiscrepancies_eq_nil hmodel hnodup, hids]
  constructor
  · intro h
    have hperm := h.actions.map (·.actionId)
    refine ⟨hperm.nodup_iff.mpr hnodup, (List.toFinset_eq_of_perm _ _ hperm).symm,
      fun row hrow => ⟨h.fields row hrow, h.window row hrow, ?_⟩⟩
    exact h.actions.subset (List.mem_map_of_mem hrow)
  · rintro ⟨hrows, hsets, hall⟩
    refine ⟨?_, fun row hrow => (hall row hrow).1, fun row hrow => (hall row hrow).2.1⟩
    refine (List.perm_ext_iff_of_nodup (List.Nodup.of_map _ hrows)
      (List.Nodup.of_map _ hnodup)).mpr fun action => ⟨?_, fun haction => ?_⟩
    · intro haction
      obtain ⟨row, hrow, rfl⟩ := List.mem_map.mp haction
      exact (hall row hrow).2.2
    · -- Some row has the id of the action, and the runtime has one action with that id.
      have hid : action.actionId ∈ ((rows.map RuntimeBlockedAction.ofRow).map
          (·.actionId)).toFinset := by
        rw [← hsets]
        exact List.mem_toFinset.mpr (List.mem_map_of_mem haction)
      obtain ⟨found, hfound, heq⟩ := List.mem_map.mp (List.mem_toFinset.mp hid)
      obtain ⟨row, hrow, rfl⟩ := List.mem_map.mp hfound
      rw [List.inj_on_of_nodup_map hnodup haction (hall row hrow).2.2 heq.symm]
      exact hfound

/-! ### Verified means exact -/

theorem commandRowDiscrepancies_eq_nil {row : EvidenceRow commandTraceRow} :
    commandRowDiscrepancies ctx row = [] ↔
      row.Has (commandFields ctx) ∧ InWindow ctx (row.int "timestamp_ms") := by
  simp only [commandRowDiscrepancies, identityDiscrepancies, List.append_eq_nil_iff,
    fieldDiscrepancies_eq_nil, expect_eq_nil, commandFields, EvidenceRow.has_append,
    EvidenceRow.has_singleton]

theorem watermarkDiscrepancies_eq_nil {watermark : ExportWatermark}
    {row : EvidenceRow exportWatermarkRow} (hwatermark : ctx.exportWatermark = some watermark)
    (hlater : ctx.commandCreatedMs < watermark.exportedAtMs) :
    watermarkDiscrepancies ctx row = [] ↔
      row.Has (exportFields ctx watermark) ∧ InWindow ctx (row.int "exported_at_ms") := by
  simp only [watermarkDiscrepancies, hwatermark, identityDiscrepancies, List.append_eq_nil_iff,
    fieldDiscrepancies_eq_nil, expect_eq_nil, exportFields, EvidenceRow.has_append,
    EvidenceRow.has_singleton]
  -- The row repeats the watermark's time, so that the row too is later than the command.
  have htime : row.Has (watermarkFields watermark) →
      row.int "exported_at_ms" = watermark.exportedAtMs := by
    intro h
    have hget := h ("exported_at_ms", .int watermark.exportedAtMs) (by simp [watermarkFields])
    simp only [EvidenceRow.int, hget]
  constructor
  · rintro ⟨⟨⟨h, hoperation⟩, _⟩, hwindow⟩
    exact ⟨⟨h, hoperation⟩, hwindow⟩
  · rintro ⟨⟨h, hoperation⟩, hwindow⟩
    exact ⟨⟨⟨h, hoperation⟩, by rw [htime h.2]; exact hlater⟩, hwindow⟩

/-- **No discrepancy is left exactly when the rows are exact.** -/
theorem evidenceDiscrepancies_eq_nil {watermark : ExportWatermark} {rows : ParsedEvidence}
    (hwatermark : ctx.exportWatermark = some watermark)
    (hlater : ctx.commandCreatedMs < watermark.exportedAtMs) :
    evidenceDiscrepancies ctx rows = [] ↔ ExactRows ctx watermark rows := by
  have hcard : (ctx.blockedActions.map (·.actionId)).toFinset.card = ctx.blockedActions.length ↔
      (ctx.blockedActions.map (·.actionId)).Nodup := by
    have h := @Multiset.toFinset_card_eq_card_iff_nodup String _
      ↑(ctx.blockedActions.map (·.actionId))
    rwa [Multiset.coe_card, List.length_map, Multiset.coe_nodup] at h
  simp only [evidenceDiscrepancies, List.append_eq_nil_iff, expect_eq_nil, List.flatMap_eq_nil_iff,
    duplicates_eq_empty, Finset.union_eq_empty, hcard, commandRowDiscrepancies_eq_nil,
    watermarkDiscrepancies_eq_nil hwatermark hlater]
  constructor
  · rintro ⟨⟨⟨⟨⟨⟨⟨⟨⟨hcommand, hexport⟩, htraceIds⟩, htrace, hlog⟩, hnodup⟩, hset, hset'⟩, hcommands⟩,
      htraces⟩, hlogs⟩, hexports⟩
    obtain ⟨command, hcommand⟩ := List.length_eq_one_iff.mp hcommand
    obtain ⟨row, hexport⟩ := List.length_eq_one_iff.mp hexport
    exact
      { command := ⟨command, hcommand, hcommands command (by simp [hcommand])⟩
        export' := ⟨row, hexport, hexports row (by simp [hexport])⟩
        actions := hnodup
        traces := (covers_iff blockedTraceRow_lookup hnodup).mpr ⟨htrace, hset, htraces⟩
        logs := (covers_iff blockedLogRow_lookup hnodup).mpr ⟨hlog, hset', hlogs⟩
        traceIds := htraceIds }
  · intro h
    obtain ⟨command, hcommand, hfields⟩ := h.command
    obtain ⟨row, hexport, hfields'⟩ := h.export'
    obtain ⟨htrace, hset, htraces⟩ := (covers_iff blockedTraceRow_lookup h.actions).mp h.traces
    obtain ⟨hlog, hset', hlogs⟩ := (covers_iff blockedLogRow_lookup h.actions).mp h.logs
    rw [hcommand, hexport]
    simp only [List.length_singleton, List.forall_mem_singleton, true_and]
    exact ⟨⟨⟨⟨⟨⟨⟨h.traceIds, htrace, hlog⟩, h.actions⟩, hset, hset'⟩, hfields⟩, htraces⟩, hlogs⟩,
      hfields'⟩

/-- **Evidence is verified exactly when it is exact.** -/
theorem reconcileEvidence_verified {evidence : Evidence} :
    (reconcileEvidence firstError ctx evidence).verdict = .verified ↔ ExactEvidence ctx evidence := by
  unfold reconcileEvidence ExactEvidence
  split
  case h_1 hnone => simp [failure, hnone]
  case h_2 watermark hwatermark =>
  split
  case isTrue hearly =>
    simp only [failure, reduceCtorEq, false_iff]
    rintro ⟨found, rows, hfound, hlater, -⟩
    rw [hwatermark] at hfound
    cases hfound
    omega
  case isFalse hlater =>
  split
  case h_1 message hparse =>
    simp only [failure, reduceCtorEq, false_iff]
    rintro ⟨found, rows, -, -, hrows, -⟩
    rw [(@parseEvidence_eq_ok firstError _ _).mpr hrows] at hparse
    cases hparse
  case h_2 rows hparse =>
  have hrows := parseEvidence_eq_ok.mp hparse
  dsimp only
  split
  case isTrue hdiscrepancies =>
    simp only [reduceCtorEq, false_iff]
    rintro ⟨found, rows', hfound, hlater, hrows', hexact⟩
    have hsame : rows' = rows := by
      have h := (@parseEvidence_eq_ok firstError _ _).mpr hrows'
      rw [hparse] at h
      exact (Except.ok.inj h).symm
    rw [hsame] at hexact
    exact hdiscrepancies ((evidenceDiscrepancies_eq_nil hfound hlater).mpr hexact)
  case isFalse hdiscrepancies =>
    refine iff_of_true rfl ⟨watermark, rows, hwatermark, not_le.mp hlater, hrows, ?_⟩
    exact (evidenceDiscrepancies_eq_nil hwatermark (not_le.mp hlater)).mp
      (not_not.mp hdiscrepancies)

/-! ### Tampering -/

/-- A row is read differently somewhere, its trace id and time apart. -/
def Differs (result result' : JsonValue) : Prop :=
  ∃ name, name ∉ ["trace_id", "timestamp_ms"] ∧ result'.get? name ≠ result.get? name

/-- A row is dropped, repeated or changed. -/
inductive TamperedRows : List JsonValue → List JsonValue → Prop
  | drop (before after : List JsonValue) (result : JsonValue) :
      TamperedRows (before ++ result :: after) (before ++ after)
  | duplicate (before after : List JsonValue) (result : JsonValue)
      (found : result ∈ before ++ after) : TamperedRows (before ++ after) (before ++ result :: after)
  | change (before after : List JsonValue) (result result' : JsonValue)
      (differs : Differs result result') :
      TamperedRows (before ++ result :: after) (before ++ result' :: after)

/-- An answer with its rows. -/
def answer (results : List JsonValue) : JsonValue := .dict [("results", .list results)]

/-- One of the four answers with correlated rows is tampered with. -/
inductive Tampered : Evidence → Evidence → Prop
  | commandTraces (evidence : Evidence) {results results' : List JsonValue}
      (h : evidence.commandTraces = answer results) (rows : TamperedRows results results') :
      Tampered evidence { evidence with commandTraces := answer results' }
  | blockedTraces (evidence : Evidence) {results results' : List JsonValue}
      (h : evidence.blockedTraces = answer results) (rows : TamperedRows results results') :
      Tampered evidence { evidence with blockedTraces := answer results' }
  | blockedLogs (evidence : Evidence) {results results' : List JsonValue}
      (h : evidence.blockedLogs = answer results) (rows : TamperedRows results results') :
      Tampered evidence { evidence with blockedLogs := answer results' }
  | exportWatermarks (evidence : Evidence) {results results' : List JsonValue}
      (h : evidence.exportWatermarks = answer results) (rows : TamperedRows results results') :
      Tampered evidence { evidence with exportWatermarks := answer results' }

theorem strictRows_answer {results : List JsonValue} {rows : List (EvidenceRow model)}
    (h : StrictRows model (answer results) rows) :
    results.map (modelValidate model) = rows.map some := by
  obtain ⟨entries, found, -, -, hget, hrows⟩ := h
  have hfound : found = results := by
    simpa [answer] using hget.symm
  rwa [hfound] at hrows

/-- Rows that differ somewhere differ in a field that is expected, so that no list of expected
values with all the fields but the free ones fits both. -/
theorem not_has_of_differs {result result' : JsonValue} {row row' : EvidenceRow model}
    {expected : List (String × RowValue)}
    (hcover : ∀ field ∈ model.map Prod.fst,
      field ∈ ["trace_id", "timestamp_ms"] ∨ field ∈ expected.map Prod.fst)
    (hdiffers : Differs result result') (hrow : modelValidate model result = some row)
    (hrow' : modelValidate model result' = some row') (h : row.Has expected) :
    ¬ row'.Has expected := by
  intro h'
  obtain ⟨name, hname, hne⟩ := hdiffers
  refine hne ?_
  rw [get?_of_modelValidate hrow, get?_of_modelValidate hrow',
    EvidenceRow.getattr_eq_of_has hcover h h' hname]

theorem map_some_injective {α : Type} : Function.Injective (List.map (some : α → Option α)) :=
  List.map_injective_iff.mpr (Option.some_injective α)

/-- The row in the middle of an answer stands between the rows of the others. -/
theorem rows_of_middle {before after : List JsonValue} {result : JsonValue}
    {rows : List (EvidenceRow model)}
    (h : (before ++ result :: after).map (modelValidate model) = rows.map some) :
    ∃ before' row after', rows = before' ++ row :: after' ∧
      before.map (modelValidate model) = before'.map some ∧
      modelValidate model result = some row ∧
      after.map (modelValidate model) = after'.map some := by
  rw [List.map_append, List.map_cons] at h
  obtain ⟨before', rest, rfl, hbefore, hrest⟩ := List.map_eq_append_iff.mp h.symm
  obtain ⟨row, after', rfl, hrow, hafter⟩ := List.map_eq_cons_iff.mp hrest
  exact ⟨before', row, after', rfl, hbefore.symm, hrow.symm, hafter.symm⟩

/-- **What tampering does to the rows**: their number changes, or one of them differs. -/
theorem rows_of_tampered {results results' : List JsonValue} {rows rows' : List (EvidenceRow model)}
    (h : TamperedRows results results') (hrows : StrictRows model (answer results) rows)
    (hrows' : StrictRows model (answer results') rows') :
    rows.length ≠ rows'.length ∨ ∃ before row row' after result result',
      rows = before ++ row :: after ∧ rows' = before ++ row' :: after ∧ Differs result result' ∧
      modelValidate model result = some row ∧ modelValidate model result' = some row' := by
  have hvalid := strictRows_answer hrows
  have hvalid' := strictRows_answer hrows'
  have hlength : results.length = rows.length := by simpa using congrArg List.length hvalid
  have hlength' : results'.length = rows'.length := by simpa using congrArg List.length hvalid'
  cases h with
  | drop | duplicate =>
    simp only [List.length_append, List.length_cons] at hlength hlength'
    exact .inl (by omega)
  | change before after result result' hdiffers =>
    obtain ⟨b, row, a, rfl, hb, hrow, ha⟩ := rows_of_middle hvalid
    obtain ⟨b', row', a', rfl, hb', hrow', ha'⟩ := rows_of_middle hvalid'
    obtain rfl : b = b' := map_some_injective (hb.symm.trans hb')
    obtain rfl : a = a' := map_some_injective (ha.symm.trans ha')
    exact .inr ⟨b, row, row', a, result, result', rfl, rfl, hdiffers, hrow, hrow'⟩

/-- When one row is all there may be, tampering shows. -/
theorem not_tampered_single {results results' : List JsonValue} {row row' : EvidenceRow model}
    {expected : List (String × RowValue)}
    (hcover : ∀ field ∈ model.map Prod.fst,
      field ∈ ["trace_id", "timestamp_ms"] ∨ field ∈ expected.map Prod.fst)
    (hrows : StrictRows model (answer results) [row])
    (hrows' : StrictRows model (answer results') [row'])
    (h : row.Has expected) (h' : row'.Has expected) : ¬ TamperedRows results results' := by
  intro htampered
  rcases rows_of_tampered htampered hrows hrows' with hlength |
    ⟨before, r, r', after, result, result', heq, heq', hdiffers, hrow, hrow'⟩
  · exact hlength rfl
  · have hlength := congrArg List.length heq
    simp only [List.length_append, List.length_cons, List.length_nil] at hlength
    obtain rfl : before = [] := List.length_eq_zero_iff.mp (by omega)
    cases heq
    cases heq'
    exact not_has_of_differs hcover hdiffers hrow hrow' h h'

/-- All values of a row that stands for a blocked action. -/
def reportFields (ctx : TelemetryVerificationContext) (event : String × RowValue)
    (action : RuntimeBlockedAction) : List (String × RowValue) :=
  blockedEvidenceFields ctx event ++ [("action_id", .text action.actionId)] ++ actionFields action

theorem has_reportFields {event : String × RowValue} {row : EvidenceRow model}
    (hmodel : ∀ field ∈ blockedFields, model.lookup field.1 = some field.2)
    (h : row.Has (blockedEvidenceFields ctx event)) :
    row.Has (reportFields ctx event (.ofRow row)) := by
  rw [reportFields, EvidenceRow.has_append, EvidenceRow.has_append, EvidenceRow.has_singleton]
  exact ⟨⟨h, EvidenceRow.getattr_text (hmodel ("action_id", .text) (by simp [blockedFields]))⟩,
    (has_actionFields hmodel rfl).mpr rfl⟩

/-- When the rows are an image of the blocked actions, tampering shows. -/
theorem not_tampered_covers {event : String × RowValue} {results results' : List JsonValue}
    {rows rows' : List (EvidenceRow model)}
    (hmodel : ∀ field ∈ blockedFields, model.lookup field.1 = some field.2)
    (hcover : ∀ action, ∀ field ∈ model.map Prod.fst, field ∈ ["trace_id", "timestamp_ms"] ∨
      field ∈ (reportFields ctx event action).map Prod.fst)
    (hrows : StrictRows model (answer results) rows)
    (hrows' : StrictRows model (answer results') rows')
    (h : Covers ctx event rows) (h' : Covers ctx event rows') : ¬ TamperedRows results results' := by
  intro htampered
  rcases rows_of_tampered htampered hrows hrows' with hlength |
    ⟨before, row, row', after, result, result', rfl, rfl, hdiffers, hrow, hrow'⟩
  · have hactions := h.actions.length_eq
    have hactions' := h'.actions.length_eq
    rw [List.length_map] at hactions hactions'
    exact hlength (hactions.trans hactions'.symm)
  · -- The other rows are the same, and so the two rows report the same action.
    have hperm := h.actions.trans h'.actions.symm
    rw [List.map_append, List.map_append, List.map_cons, List.map_cons,
      List.perm_append_left_iff] at hperm
    have haction : RuntimeBlockedAction.ofRow row = RuntimeBlockedAction.ofRow row' :=
      List.singleton_perm_singleton.mp ((List.perm_append_right_iff (after.map _)).mp hperm)
    have hreport := has_reportFields hmodel (h.fields row (by simp))
    have hreport' := has_reportFields hmodel (h'.fields row' (by simp))
    rw [← haction] at hreport'
    exact not_has_of_differs (hcover _) hdiffers hrow hrow' hreport hreport'

/-- **Exact evidence is not exact any more after tampering.** -/
theorem not_exact_of_tampered {evidence evidence' : Evidence} (h : ExactEvidence ctx evidence)
    (htampered : Tampered evidence evidence') : ¬ ExactEvidence ctx evidence' := by
  rintro ⟨watermark', rows', hwatermark', -, hstrict', hexact'⟩
  obtain ⟨watermark, rows, hwatermark, -, hstrict, hexact⟩ := h
  obtain rfl : watermark = watermark' := by
    rw [hwatermark] at hwatermark'
    exact Option.some.inj hwatermark'
  cases htampered with
  | commandTraces hanswer htampered =>
    obtain ⟨row, hrow, hfields, -⟩ := hexact.command
    obtain ⟨row', hrow', hfields', -⟩ := hexact'.command
    exact not_tampered_single (by simp [commandTraceRow, identityRow, commandFields, identityFields])
      (hrow ▸ hanswer ▸ hstrict.commandTraces) (hrow' ▸ hstrict'.commandTraces) hfields hfields'
      htampered
  | blockedTraces hanswer htampered =>
    exact not_tampered_covers blockedTraceRow_lookup (by simp [blockedTraceRow, identityRow, blockedFields,
        reportFields, blockedEvidenceFields, identityFields, actionFields])
      (hanswer ▸ hstrict.blockedTraces) hstrict'.blockedTraces hexact.traces hexact'.traces htampered
  | blockedLogs hanswer htampered =>
    exact not_tampered_covers blockedLogRow_lookup (by simp [blockedLogRow, identityRow, blockedFields,
        reportFields, blockedEvidenceFields, identityFields, actionFields])
      (hanswer ▸ hstrict.blockedLogs) hstrict'.blockedLogs hexact.logs hexact'.logs htampered
  | exportWatermarks hanswer htampered =>
    obtain ⟨row, hrow, hfields, -⟩ := hexact.export'
    obtain ⟨row', hrow', hfields', -⟩ := hexact'.export'
    exact not_tampered_single (by simp [exportWatermarkRow, identityRow, exportFields,
        identityFields, watermarkFields])
      (hrow ▸ hanswer ▸ hstrict.exportWatermarks) (hrow' ▸ hstrict'.exportWatermarks) hfields
      hfields' htampered

/-! ### The sample of the tests -/

def sampleIdentity : List (String × JsonValue) :=
  [("service_name", .str "tracefence-control-plane"),
    ("service_instance_id", .str "service-instance-a"), ("process_instance_id", .str "process-a"),
    ("build_commit", .str "0123456789abcdef"), ("schema_version", .int 1)]

def sampleContext : TelemetryVerificationContext where
  commandId := "command-123"
  runId := "run-123"
  commandCreatedMs := 1000000
  startMs := 995000
  endMs := 1010000
  commandOperation := "tracefence.control.command_issue"
  serviceName := "tracefence-control-plane"
  serviceInstanceId := "service-instance-a"
  processInstanceId := "process-a"
  buildCommit := "0123456789abcdef"
  schemaVersion := 1
  blockedActions :=
    [{ actionId := "action-123", nodeId := "node-123", targetScopeId := "scope-123",
       snapshotVersion := 1, liveVersion := 2, liveStatus := "CANCELLED",
       denialReason := "SCOPE_CANCELLED" }]
  exportWatermark := some
    { serviceName := "tracefence-control-plane", serviceInstanceId := "service-instance-a",
      processInstanceId := "process-a", buildCommit := "0123456789abcdef", schemaVersion := 1,
      runId := "run-123", commandId := "command-123", exportedAtMs := 1005000, sequence := 7 }

def sampleBlocked : List (String × JsonValue) :=
  [("command_id", .str "command-123"), ("run_id", .str "run-123"), ("action_id", .str "action-123"),
    ("node_id", .str "node-123"), ("target_scope_id", .str "scope-123"),
    ("snapshot_version", .int 1), ("live_version", .int 2), ("live_status", .str "CANCELLED"),
    ("denial_reason", .str "SCOPE_CANCELLED"), ("timestamp_ms", .int 1003000)] ++ sampleIdentity

def sampleEvidence : Evidence where
  commandTraces := answer [.dict ([("trace_id", .str "aaaaaaaaaaaaaaaaaaaaaaaaaaaaaaaa"),
    ("command_id", .str "command-123"), ("run_id", .str "run-123"),
    ("operation", .str "tracefence.control.command_issue"), ("timestamp_ms", .int 1001000)] ++
      sampleIdentity)]
  blockedTraces := answer [.dict (sampleBlocked ++
    [("trace_id", .str "bbbbbbbbbbbbbbbbbbbbbbbbbbbbbbbb"),
      ("operation", .str "tracefence.action.block")])]
  blockedLogs := answer [.dict (sampleBlocked ++ [("event_name", .str "action_denied")])]
  exportWatermarks := answer [.dict ([("trace_id", .str "cccccccccccccccccccccccccccccccc"),
    ("command_id", .str "command-123"), ("run_id", .str "run-123"),
    ("operation", .str "tracefence.telemetry.export_watermark"), ("exported_at_ms", .int 1005000),
    ("sequence", .int 7)] ++ sampleIdentity)]
  attemptsMetric := answer []
  committedMetric := answer []

theorem sampleEvidence_verified :
    (reconcileEvidence (fun _ _ => "") sampleContext sampleEvidence).verdict = .verified := by
  decide

/-- **Verified evidence is exact.** Evidence is verified exactly when it agrees with the runtime in
every respect, and no evidence that was tampered with is verified. -/
theorem evidence_exact (firstError : EvidenceModel → JsonValue → String)
    (ctx : TelemetryVerificationContext) (evidence : Evidence) :
    ((reconcileEvidence firstError ctx evidence).verdict = .verified ↔
      ExactEvidence ctx evidence) ∧
    ((reconcileEvidence firstError ctx evidence).verdict = .verified →
      ∀ evidence', Tampered evidence evidence' →
        (reconcileEvidence firstError ctx evidence').verdict ≠ .verified) := by
  refine ⟨reconcileEvidence_verified, fun h evidence' htampered h' => ?_⟩
  exact not_exact_of_tampered (reconcileEvidence_verified.mp h) htampered
    (reconcileEvidence_verified.mp h')

theorem evidence_exact_sample :
    (reconcileEvidence (fun _ _ => "") sampleContext
      { sampleEvidence with blockedLogs := answer [] }).verdict ≠ .verified :=
  (evidence_exact (fun _ _ => "") sampleContext sampleEvidence).2 sampleEvidence_verified _
    (.blockedLogs sampleEvidence rfl (.drop [] [] _))

end TraceFence
