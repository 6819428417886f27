import Mathlib.Data.List.Infix
import TraceFence.Lib.JsonText
import TraceFence.Lib.Merge
import TraceFence.Signoz.McpClient

/-!
# Results of the telemetry backend

`_normalize_tool_result` of the telemetry client. A tool result is a JSON document and notes about
it. The notes are advisories, of which only two kinds are admitted; the document holds pages of
rows, and the columns of a row are renamed to the fields of the evidence schemas.

## Main definitions

* `validateAdvisory`, `validateAdvisories` — which notes are admitted
* `adaptQueryBuilderRow` — the fields of a row
* `adaptQueryBuilderPayload` — the rows of the pages of a document
* `normalizeToolResult` — the result of a tool
-/

namespace TraceFence

open Checked

/-- The errors of the client: `MCPToolResultError` and `ResponseSchemaError`. -/
inductive ResultFailure
  | mcpToolResult (message : String)
  | responseSchema (message : String)
  deriving DecidableEq, Repr

/-! ### Advisories -/

/-- `_AdvisoryKind`. -/
inductive AdvisoryKind
  | noPagination | pageComplete | pageIncomplete | metricsDecision | decisionWarning
  | malformedMetricsDecision | backendWarning | unknown
  deriving DecidableEq, Repr

/-- The code points of the white space that `strip` removes. -/
def spaces : List ℕ :=
  [0x9, 0xa, 0xb, 0xc, 0xd, 0x1c, 0x1d, 0x1e, 0x1f, 0x20, 0x85, 0xa0, 0x1680, 0x2000, 0x2001, 0x2002,
    0x2003, 0x2004, 0x2005, 0x2006, 0x2007, 0x2008, 0x2009, 0x200a, 0x2028, 0x2029, 0x202f, 0x205f,
    0x3000]

/-- `strip`. -/
def strip (text : List Char) : List Char :=
  let isSpace (c : Char) : Bool := c.toNat ∈ spaces
  ((text.dropWhile isSpace).reverse.dropWhile isSpace).reverse

/-- The zeros of the scripts that have decimal digits. -/
def decimalZeros : List ℕ :=
  [0x30, 0x660, 0x6f0, 0x7c0, 0x966, 0x9e6, 0xa66, 0xae6, 0xb66, 0xbe6, 0xc66, 0xce6, 0xd66, 0xde6,
    0xe50, 0xed0, 0xf20, 0x1040, 0x1090, 0x17e0, 0x1810, 0x1946, 0x19d0, 0x1a80, 0x1a90, 0x1b50,
    0x1bb0, 0x1c40, 0x1c50, 0xa620, 0xa8d0, 0xa900, 0xa9d0, 0xa9f0, 0xaa50, 0xabf0, 0xff10, 0x104a0,
    0x10d30, 0x11066, 0x110f0, 0x11136, 0x111d0, 0x112f0, 0x11450, 0x114d0, 0x11650, 0x116c0,
    0x11730, 0x118e0, 0x11950, 0x11c50, 0x11d50, 0x11da0, 0x11f50, 0x16a60, 0x16ac0, 0x16b50,
    0x1d7ce, 0x1d7d8, 0x1d7e2, 0x1d7ec, 0x1d7f6, 0x1e140, 0x1e2f0, 0x1e4f0, 0x1e950, 0x1fbf0]

/-- What `\d` matches. -/
def isDecimal (c : Char) : Bool :=
  decimalZeros.any fun first => first ≤ c.toNat && c.toNat < first + 10

/-- What comes after a literal at the start of a text. -/
def after (start : String) (text : List Char) : Option (List Char) :=
  if start.toList <+: text then some (text.drop start.toList.length) else none

/-- What comes after the digits at the start of a text, if there are any. -/
def afterDigits (text : List Char) : Option (List Char) :=
  if text.takeWhile isDecimal = [] then none else some (text.dropWhile isDecimal)

/-- Whether a text is something in one line and an ending. -/
def endsWith (ending : String) (text : List Char) : Bool :=
  let something := text.take (text.length - ending.toList.length)
  decide (ending.toList <:+ text) && !something.isEmpty && !something.contains '\n'

/-- A note about how many rows there are, with one of the endings. -/
def pageNote (endings : List String) (text : List Char) : Bool :=
  let rest := do
    let rest ← afterDigits (← after "note: returned " text)
    let rest ← afterDigits (← after " rows (limit " rest)
    after ") " rest
  rest.any fun rest => endings.any fun ending => endsWith ending rest

/-- `_PAGINATION_NOTE.fullmatch`. -/
def paginationNote : List Char → Bool := pageNote ["all matching results returned (hasMore=false)."]

/-- `_INCOMPLETE_PAGINATION_NOTE.fullmatch`. -/
def incompletePaginationNote : List Char → Bool :=
  pageNote ["(hasMore=true).", "more results exist.", "result limited.", "results limited.",
    "results truncated."]

/-- `lower`, as far as it makes letters of ASCII. -/
def lower (text : List Char) : List Char :=
  text.flatMap fun c =>
    if 'A' ≤ c ∧ c ≤ 'Z' then [Char.ofNat (c.toNat + 32)]
    else if c.toNat = 0x130 then ['i', Char.ofNat 0x307]
    else if c.toNat = 0x212a then ['k']
    else [c]

/-- The code points at which `splitlines` breaks a text. -/
def lineBreaks : List ℕ := [0xa, 0xb, 0xc, 0xd, 0x1c, 0x1d, 0x1e, 0x85, 0x2028, 0x2029]

/-- `splitlines`. -/
def splitLines : List Char → List (List Char)
  | [] => []
  | '\r' :: '\n' :: rest => [] :: splitLines rest
  | c :: rest =>
    if c.toNat ∈ lineBreaks then [] :: splitLines rest
    else
      match splitLines rest with
      | line :: lines => (c :: line) :: lines
      | [] => [[c]]

/-- The markers of a decision that does not stand. -/
def decisionMarkers : List String := ["warning:", "unknown", "assumed"]

/-- `_validate_advisory`. -/
def validateAdvisory (advisory : String) : AdvisoryKind :=
  let text := strip advisory.toList
  if paginationNote text then .pageComplete
  else if incompletePaginationNote text then .pageIncomplete
  else if "[Decisions applied]\n".toList <+: text then
    if decisionMarkers.any fun marker => marker.toList <:+: lower text then .decisionWarning
    else
      let lines := (splitLines text).drop 1
      if lines ≠ [] ∧ ∀ line ∈ lines, "  ".toList <+: line ∧ ':' ∈ line then .metricsDecision
      else .malformedMetricsDecision
  else if "note: signoz backend returned non-fatal warnings:".toList <+: lower text then
    .backendWarning
  else .unknown

/-- The kinds of advisories that make evidence inadmissible, and why. -/
def AdvisoryKind.refusal? : AdvisoryKind → Option String
  | .backendWarning => some "SigNoz backend warning makes evidence ambiguous"
  | .decisionWarning => some "SigNoz decision advisory contains a warning or assumption"
  | .malformedMetricsDecision => some "SigNoz metrics decision advisory is malformed"
  | .pageIncomplete => some "SigNoz evidence page is incomplete"
  | .unknown => some "MCP result contained an unknown advisory content block"
  | .noPagination | .pageComplete | .metricsDecision => none

variable (floats : JsonText.Floats)

/-- One advisory. `state` is what the ones before it say about pages. -/
def nextAdvisory (state : AdvisoryKind) (advisory : String) : Except ResultFailure AdvisoryKind := do
  ensure ((JsonText.loads floats advisory.toList).isNone = true)
    (.responseSchema "MCP result contained ambiguous multiple JSON content blocks")
  let kind := validateAdvisory advisory
  match kind.refusal? with
  | some message => throw (.responseSchema message)
  | none => return if kind = .pageComplete then kind else state

/-- `_validate_advisories`. -/
def validateAdvisories (advisories : List String) : Except ResultFailure AdvisoryKind :=
  advisories.foldlM (nextAdvisory floats) .noPagination

/-! ### Rows -/

/-- `_FIELD_ALIASES`. -/
def fieldAliases : List (String × String) :=
  [("trace_id", "trace_id"), ("traceID", "trace_id"), ("traceId", "trace_id"),
    ("command_id", "command_id"), ("tracefence.command.id", "command_id"),
    ("attribute.tracefence.command.id", "command_id"),
    ("run_id", "run_id"), ("tracefence.run.id", "run_id"),
    ("attribute.tracefence.run.id", "run_id"),
    ("action_id", "action_id"), ("tracefence.action.id", "action_id"),
    ("attribute.tracefence.action.id", "action_id"),
    ("node_id", "node_id"), ("tracefence.node.id", "node_id"),
    ("attribute.tracefence.node.id", "node_id"),
    ("target_scope_id", "target_scope_id"), ("tracefence.target_scope.id", "target_scope_id"),
    ("attribute.tracefence.target_scope.id", "target_scope_id"),
    ("snapshot_version", "snapshot_version"), ("tracefence.snapshot.version", "snapshot_version"),
    ("attribute.tracefence.snapshot.version", "snapshot_version"),
    ("live_version", "live_version"), ("tracefence.live.version", "live_version"),
    ("attribute.tracefence.live.version", "live_version"),
    ("live_status", "live_status"), ("tracefence.live.status", "live_status"),
    ("attribute.tracefence.live.status", "live_status"),
    ("denial_reason", "denial_reason"), ("tracefence.denial.reason", "denial_reason"),
    ("attribute.tracefence.denial.reason", "denial_reason"),
    ("operation", "operation"), ("name", "operation"),
    ("event_name", "event_name"), ("event.name", "event_name"),
    ("timestamp_ms", "timestamp_ms"),
    ("service_name", "service_name"), ("service.name", "service_name"),
    ("resource.service.name", "service_name"),
    ("service_instance_id", "service_instance_id"),
    ("service.instance.id", "service_instance_id"),
    ("resource.service.instance.id", "service_instance_id"),
    ("process_instance_id", "process_instance_id"),
    ("tracefence.process.instance.id", "process_instance_id"),
    ("attribute.tracefence.process.instance.id", "process_instance_id"),
    ("build_commit", "build_commit"), ("tracefence.build.commit", "build_commit"),
    ("attribute.tracefence.build.commit", "build_commit"),
    ("schema_version", "schema_version"), ("tracefence.schema.version", "schema_version"),
    ("attribute.tracefence.schema.version", "schema_version"),
    ("exported_at_ms", "exported_at_ms"), ("tracefence.exported_at_ms", "exported_at_ms"),
    ("attribute.tracefence.exported_at_ms", "exported_at_ms"),
    ("sequence", "sequence"), ("tracefence.export.sequence", "sequence"),
    ("attribute.tracefence.export.sequence", "sequence"),
    ("metric_name", "metric_name"), ("metric.name", "metric_name"),
    ("value", "value"), ("__result", "value"), ("__result_0", "value")]

/-- A row on its way to the evidence schemas. -/
abbrev AdaptedRow := List (String × JsonValue)

/-- `_put_unambiguous`, for values in order. -/
def putUnambiguous (target values : AdaptedRow) : Except ResultFailure AdaptedRow :=
  Merge.putAll JsonValue.eq
    (fun key => .responseSchema s!"Conflicting SigNoz aliases for {key}") target values

/-- How the language reads a date in ISO format: not at all, or without a timezone, or as
milliseconds. -/
abbrev Dates := String → Option (Option ℤ)

variable (dates : Dates)

/-- `_timestamp_to_milliseconds`. -/
def timestampToMilliseconds : JsonValue → Except ResultFailure ℤ
  | .int value => return value
  | .float value => do
    -- a whole number of the units that floats count in
    ensure (value.IsFinite ∧ (Binary64.unit : ℤ) ∣ value.scaled)
      (.responseSchema "SigNoz timestamp is malformed")
    return value.scaled / Binary64.unit
  | .str value => do
    let parsed ← require (dates (value.replace "Z" "+00:00"))
      (.responseSchema "SigNoz timestamp is malformed")
    require parsed (.responseSchema "SigNoz timestamp lacks a timezone")
  | _ => throw (.responseSchema "SigNoz timestamp is malformed")

/-- The columns of a row with their values. -/
def rowItems (row : JsonValue) (columns : Option (List String)) :
    Except ResultFailure (List (String × JsonValue)) := do
  let entries ← require row.dict? (.responseSchema "SigNoz Query Builder row must be an object")
  ensure (JsonValue.keys entries ⊆ {"timestamp", "data"})
    (.responseSchema "SigNoz row contains an ambiguous data container")
  match row.get? "data" with
  | some (.dict items) => return items
  | some (.list values) =>
    let columns ← require (columns.filter fun columns => columns.length = values.length)
      (.responseSchema "Positional SigNoz row requires matching column aliases")
    return columns.zip values
  | _ => throw (.responseSchema "SigNoz Query Builder row data is malformed")

/-- The columns that are aliases of a field, under the names of the fields. -/
def canonicalItems (items : List (String × JsonValue)) : AdaptedRow :=
  items.filterMap fun item => (fieldAliases.lookup item.1).map fun canonical => (canonical, item.2)

/-- `_adapt_query_builder_row`. -/
def adaptQueryBuilderRow (row : JsonValue) (columns : Option (List String)) (defaults : AdaptedRow) :
    Except ResultFailure AdaptedRow := do
  let items ← rowItems row columns
  let normalized ← putUnambiguous defaults (canonicalItems items)
  match row.get? "timestamp" with
  | some timestamp =>
    let milliseconds ← timestampToMilliseconds dates timestamp
    putUnambiguous normalized [("timestamp_ms", .int milliseconds)]
  | none => return normalized

/-! ### Pages -/

/-- Whether a value counts as true. -/
def truthy : JsonValue → Bool
  | .null => false
  | .bool value => value
  | .int value => value ≠ 0
  | .float value => !(decide value.IsFinite && decide (value.scaled = 0))
  | .str text => text ≠ ""
  | .list items => !items.isEmpty
  | .dict entries => !entries.isEmpty

/-- `column.get("alias") or column.get("name")`, if it is a text. -/
def columnAlias (column : JsonValue) : Option String :=
  let name := column.get? "name"
  let value := match column.get? "alias" with
    | some value => if truthy value then some value else name
    | none => name
  (value.bind JsonValue.text?).filter (· ≠ "")

/-- One of the columns of `_parse_column_aliases`. -/
def parseColumn (column : JsonValue) : Except ResultFailure String :=
  match column with
  | .str name =>
    if name ≠ "" then return name
    else throw (.responseSchema "SigNoz Query Builder column metadata is malformed")
  | .dict _ =>
    require (columnAlias column)
      (.responseSchema "SigNoz Query Builder column lacks an alias")
  | _ => throw (.responseSchema "SigNoz Query Builder column metadata is malformed")

/-- `_parse_column_aliases`. A value that is missing is `None`. -/
def parseColumnAliases (rawColumns : Option JsonValue) :
    Except ResultFailure (Option (List String)) :=
  match rawColumns.getD .null with
  | .null => return none
  | .list columns => do
    ensure (columns ≠ [])
      (.responseSchema "SigNoz Query Builder columns must be a non-empty array")
    let aliases ← columns.mapM parseColumn
    ensure aliases.Nodup
      (.responseSchema "SigNoz Query Builder column aliases are duplicated")
    return some aliases
  | _ => throw (.responseSchema "SigNoz Query Builder columns must be a non-empty array")

/-- `_QueryBuilderPage`. -/
structure QueryBuilderPage where
  queryName : String
  rows : List JsonValue
  columns : Option (List String)
  nextCursor : Option String

/-- The rows of a page. A value that is missing is `None`. -/
def parsePageRows (rows : Option JsonValue) : Except ResultFailure (List JsonValue) :=
  match rows.getD .null with
  | .null => return []
  | .list rows => return rows
  | _ => throw (.responseSchema "SigNoz Query Builder rows must be an array")

/-- The cursor of a page: it may be missing, but not `None`. -/
def parseNextCursor (cursor : Option JsonValue) : Except ResultFailure (Option String) :=
  match cursor with
  | none => return none
  | some (.str cursor) => return some cursor
  | some _ => throw (.responseSchema "SigNoz Query Builder nextCursor must be a string")

/-- A page of rows. -/
def parseRowPage (queryName : String) (resultSet : JsonValue) :
    Except ResultFailure QueryBuilderPage := do
  let rows ← parsePageRows (resultSet.get? "rows")
  let nextCursor ← parseNextCursor (resultSet.get? "nextCursor")
  let columns ← parseColumnAliases (resultSet.get? "columns")
  return { queryName, rows, columns, nextCursor }

/-- A page of metrics: what it has is the data of rows. -/
def parseMetricPage (queryName : String) (resultSet : JsonValue) :
    Except ResultFailure QueryBuilderPage := do
  let rawData ← require ((resultSet.get? "data").bind JsonValue.list?)
    (.responseSchema "SigNoz metric Query Builder data must be an array")
  let columns ← parseColumnAliases (resultSet.get? "columns")
  -- an empty page of scalars has no columns
  ensure (columns = none → rawData = [])
    (.responseSchema "SigNoz metric Query Builder data requires columns")
  return { queryName, columns
           rows := rawData.map fun row => .dict [("data", row)]
           nextCursor := none }

/-- `_parse_query_builder_page`. -/
def parseQueryBuilderPage (resultSet : JsonValue) : Except ResultFailure QueryBuilderPage := do
  let entries ← require resultSet.dict?
    (.responseSchema "SigNoz Query Builder result set must be an object")
  let queryName ← require (((resultSet.get? "queryName").bind JsonValue.text?).filter (· ≠ ""))
    (.responseSchema "SigNoz Query Builder result set lacks queryName")
  if JsonValue.keys entries ⊆ {"queryName", "rows", "columns", "nextCursor"} then
    parseRowPage queryName resultSet
  else if JsonValue.keys entries = {"queryName", "data", "columns"} then
    parseMetricPage queryName resultSet
  else throw (.responseSchema "SigNoz result set contains an ambiguous row container")

/-- What the pages so far hold. -/
structure Collected where
  normalized : List JsonValue := []
  queryNames : List String := []
  hasNonemptyCursor : Bool := false

/-- One page. -/
def collectPage (defaults : AdaptedRow) (state : Collected) (resultSet : JsonValue) :
    Except ResultFailure Collected := do
  let page ← parseQueryBuilderPage resultSet
  ensure (page.queryName ∉ state.queryNames)
    (.responseSchema "SigNoz Query Builder queryName is duplicated")
  let rows ← page.rows.mapM fun row => adaptQueryBuilderRow dates row page.columns defaults
  return { normalized := state.normalized ++ rows.map .dict
           queryNames := page.queryName :: state.queryNames
           hasNonemptyCursor := state.hasNonemptyCursor || page.nextCursor.any (· ≠ "") }

/-- The warnings of a data envelope: there have to be none. -/
def checkWarning : Option JsonValue → Except ResultFailure Unit
  | none | some .null => return
  | some (.dict entries) => do
    ensure (JsonValue.keys entries = {"warnings"})
      (.responseSchema "SigNoz warning envelope is malformed")
    let warnings ← require ((entries.lookup "warnings").bind JsonValue.list?)
      (.responseSchema "SigNoz warning list is malformed")
    ensure (warnings = []) (.responseSchema "SigNoz backend warning makes evidence ambiguous")
  | some _ => throw (.responseSchema "SigNoz warning envelope is malformed")

/-- The result sets of a document. -/
def resultSets (payload : JsonValue) : Except ResultFailure (List JsonValue) := do
  let entries ← require payload.dict?
    (.responseSchema "SigNoz response contains an ambiguous result container")
  ensure (JsonValue.keys entries = {"status", "data"})
    (.responseSchema "SigNoz response contains an ambiguous result container")
  ensure ((payload.get? "status").bind JsonValue.text? = some "success")
    (.responseSchema "SigNoz Query Builder response was not successful")
  let outer ← require ((payload.get? "data").bind JsonValue.dict?)
    (.responseSchema "SigNoz Query Builder data envelope must be an object")
  ensure (JsonValue.keys outer ⊆ {"type", "data", "meta", "warning"})
    (.responseSchema "SigNoz data envelope contains an ambiguous result container")
  ensure (((outer.lookup "type").bind JsonValue.text?).isSome = true)
    (.responseSchema "SigNoz Query Builder response lacks a result type")
  ensure ((outer.lookup "meta").all fun value => value.dict?.isSome)
    (.responseSchema "SigNoz Query Builder metadata is malformed")
  checkWarning (outer.lookup "warning")
  let queryData ← require (((outer.lookup "data").bind JsonValue.dict?).filter fun queryData =>
      JsonValue.keys queryData = {"results"})
    (.responseSchema "SigNoz Query Builder response must contain data.data.results")
  match queryData.lookup "results" with
  | none | some .null => return []
  | some (.list sets) => return sets
  | some _ => throw (.responseSchema "SigNoz Query Builder results must be an array")

/-- `_adapt_query_builder_payload`. -/
def adaptQueryBuilderPayload (payload : JsonValue) (defaults : AdaptedRow)
    (advisoryState : AdvisoryKind) : Except ResultFailure JsonValue := do
  let sets ← resultSets payload
  let collected ← sets.foldlM (collectPage dates defaults) {}
  ensure (collected.hasNonemptyCursor = true → advisoryState = .pageComplete)
    (.responseSchema "SigNoz evidence page is incomplete")
  return .dict [("results", .list collected.normalized)]

/-! ### Tool results -/

/-- A block of content. -/
structure ContentBlock where
  type : String := "text"
  /-- The text, if it is one. -/
  text : Option String

/-- The content of a result. -/
inductive ToolContent
  | none
  | text (s : String)
  | blocks (items : List ContentBlock)

/-- `content in (None, [], "")`. -/
def ToolContent.isEmpty : ToolContent → Bool
  | .none => true
  | .text s => s = ""
  | .blocks items => items.isEmpty

/-- What a tool answers; either spelling of an attribute counts. -/
structure ToolResult where
  isError : Bool := false
  structuredContent : Option JsonValue := none
  content : ToolContent := .none

/-- The texts of the blocks. -/
def blockTexts (content : ToolContent) : Except ResultFailure (List String) :=
  match content with
  | .blocks blocks => do
    ensure (blocks ≠ [])
      (.responseSchema "MCP result has no unambiguous structured result container")
    blocks.mapM fun block => require (block.text.filter fun _ => block.type = "text")
      (.responseSchema "MCP result contained unexpected executable content")
  | _ => throw (.responseSchema "MCP result has no unambiguous structured result container")

/-- `_normalize_tool_result`. -/
def normalizeToolResult (result : ToolResult) (defaults : AdaptedRow) :
    Except ResultFailure JsonValue := do
  ensure (result.isError = false) (.mcpToolResult "MCP tool returned isError=true")
  match result.structuredContent with
  | some structured =>
    ensure (result.content.isEmpty = true)
      (.responseSchema "MCP result contained additional content beside structured evidence")
    ensure (structured.dict?.isSome = true)
      (.responseSchema "MCP structured evidence must be an object")
    return structured
  | none =>
    let texts ← blockTexts result.content
    let parsed ← require (JsonText.loads floats (texts.headD "").toList)
      (.responseSchema "MCP first text block was not valid JSON")
    let entries ← require parsed.dict?
      (.responseSchema "MCP first JSON content block must be an object")
    let advisoryState ← validateAdvisories floats texts.tail
    if JsonValue.keys entries = {"results"} then return parsed
    else adaptQueryBuilderPayload dates parsed defaults advisoryState

end TraceFence
