import Mathlib.Data.List.Forall2
import Mathlib.Data.List.TakeWhile
import TraceFence.Signoz.QueryBuilder

/-!
# Complete results

A tool result counts only if nothing in it says that rows are missing. Each advisory of an accepted
result is a note that all rows were returned or a list of decisions without a warning; a page with
a cursor needs a note of the first kind. What is accepted has one row for each row of the pages.

## Main definitions

* `CompleteNote`, `DecisionNote` — the advisories that are admitted
* `documentRows` — the rows of a document, in order
* `AdaptedFrom` — a row of the payload comes from a row of the document

## Main results

* `validateAdvisories_sound` — admitted advisories are complete notes and decision notes
* `collectPages_sound` — the rows of the pages, in order
* `accepted_result` — what an accepted result is
-/

namespace TraceFence

open Checked JsonValue

variable {floats : JsonText.Floats} {dates : Dates} {defaults : AdaptedRow}
variable {text rest : List Char} {advisory : String} {advisories : List String}

/-! ### Notes -/

/-- A number, as it stands in a note. -/
def IsNumber (text : List Char) : Prop := text ≠ [] ∧ ∀ c ∈ text, isDecimal c = true

/-- A note that all rows were returned. -/
def CompleteNote (advisory : String) : Prop :=
  ∃ returned limit about, IsNumber returned ∧ IsNumber limit ∧ about ≠ [] ∧ '\n' ∉ about ∧
    strip advisory.toList = "note: returned ".toList ++ returned ++ " rows (limit ".toList ++ limit ++
      ") ".toList ++ about ++ "all matching results returned (hasMore=false).".toList

/-- A list of decisions, one a line, none of which is in doubt. -/
def DecisionNote (advisory : String) : Prop :=
  "[Decisions applied]\n".toList <+: strip advisory.toList ∧
    (∀ marker ∈ decisionMarkers, ¬ marker.toList <:+: lower (strip advisory.toList)) ∧
    (splitLines (strip advisory.toList)).drop 1 ≠ [] ∧
    ∀ line ∈ (splitLines (strip advisory.toList)).drop 1, "  ".toList <+: line ∧ ':' ∈ line

theorem after_eq_some {start : String} :
    after start text = some rest ↔ text = start.toList ++ rest := by
  unfold after
  split
  · next h =>
    obtain ⟨tail, rfl⟩ := h
    rw [List.drop_left, Option.some_inj, List.append_cancel_left_eq]
  · next h =>
    refine iff_of_false (by simp) ?_
    rintro rfl
    exact h (List.prefix_append ..)

theorem of_afterDigits (h : afterDigits text = some rest) :
    ∃ digits, IsNumber digits ∧ text = digits ++ rest := by
  unfold afterDigits at h
  split at h
  · cases h
  · next hne =>
    cases h
    exact ⟨_, ⟨hne, fun c hc => List.mem_takeWhile_imp hc⟩, List.takeWhile_append_dropWhile.symm⟩

theorem of_endsWith {ending : String} (h : endsWith ending text = true) :
    ∃ about, about ≠ [] ∧ '\n' ∉ about ∧ text = about ++ ending.toList := by
  unfold endsWith at h
  simp only [Bool.and_eq_true, decide_eq_true_iff, Bool.not_eq_true', List.isEmpty_eq_false_iff] at h
  obtain ⟨⟨⟨about, rfl⟩, hne⟩, hline⟩ := h
  rw [List.length_append, Nat.add_sub_cancel, List.take_left] at hne hline
  refine ⟨about, hne, ?_, rfl⟩
  simpa using hline

/-- What the pattern of complete notes matches. -/
theorem completeNote_of_paginationNote (h : paginationNote (strip advisory.toList) = true) :
    CompleteNote advisory := by
  unfold paginationNote pageNote at h
  obtain ⟨rest, hrest, hending⟩ := (Option.any_eq_true _ _).mp h
  simp only [Option.bind_eq_bind, Option.bind_eq_some_iff] at hrest
  obtain ⟨rest₁, h₁, rest₂, h₂, rest₃, h₃, rest₄, h₄, h₅⟩ := hrest
  rw [after_eq_some] at h₁ h₃ h₅
  obtain ⟨returned, hreturned, rfl⟩ := of_afterDigits h₂
  obtain ⟨limit, hlimit, rfl⟩ := of_afterDigits h₄
  simp only [List.any_cons, List.any_nil, Bool.or_false] at hending
  obtain ⟨about, hne, hline, rfl⟩ := of_endsWith hending
  refine ⟨returned, limit, about, hreturned, hlimit, hne, hline, ?_⟩
  rw [h₁, h₃, h₅]
  simp only [List.append_assoc]

/-- An advisory whose kind is no reason for refusal is one of the two. -/
theorem admitted_of_refusal?_eq_none (h : (validateAdvisory advisory).refusal? = none) :
    validateAdvisory advisory = .pageComplete ∧ CompleteNote advisory ∨
      validateAdvisory advisory = .metricsDecision ∧ DecisionNote advisory := by
  unfold validateAdvisory at h ⊢
  simp only at h ⊢
  split_ifs at h ⊢ with hcomplete hincomplete hdecisions hmarkers hlines hbackend
  · exact .inl ⟨rfl, completeNote_of_paginationNote hcomplete⟩
  · cases h
  · cases h
  · refine .inr ⟨rfl, hdecisions, fun marker hmarker hinfix => ?_, hlines.1, hlines.2⟩
    exact hmarkers (List.any_eq_true.mpr ⟨marker, hmarker, decide_eq_true hinfix⟩)
  · cases h
  · cases h
  · cases h

/-- One advisory is admitted, and only a complete note says that all rows are there. -/
theorem nextAdvisory_sound {state state' : AdvisoryKind}
    (h : nextAdvisory floats state advisory = .ok state') :
    (CompleteNote advisory ∨ DecisionNote advisory) ∧
      (state' = .pageComplete → state = .pageComplete ∨ CompleteNote advisory) := by
  unfold nextAdvisory at h
  obtain ⟨_, -, h⟩ := bind_eq_ok.mp h
  simp only at h
  split at h
  · cases h
  · next hrefusal =>
    cases h
    rcases admitted_of_refusal?_eq_none hrefusal with ⟨hkind, hnote⟩ | ⟨hkind, hnote⟩
    · exact ⟨.inl hnote, fun _ => .inr hnote⟩
    · refine ⟨.inr hnote, fun hstate => .inl ?_⟩
      rw [hkind] at hstate
      exact hstate

/-- Every advisory is admitted, and if all rows are there then one of them says so. -/
theorem validateAdvisories_sound {state state' : AdvisoryKind}
    (h : advisories.foldlM (nextAdvisory floats) state = .ok state') :
    (∀ advisory ∈ advisories, CompleteNote advisory ∨ DecisionNote advisory) ∧
      (state' = .pageComplete →
        state = .pageComplete ∨ ∃ advisory ∈ advisories, CompleteNote advisory) := by
  induction advisories generalizing state with
  | nil =>
    cases h
    exact ⟨fun advisory hadvisory => absurd hadvisory List.not_mem_nil, .inl⟩
  | cons advisory advisories ih =>
    rw [List.foldlM_cons] at h
    obtain ⟨state₁, hstep, h⟩ := bind_eq_ok.mp h
    obtain ⟨hadmitted, hsays⟩ := nextAdvisory_sound hstep
    obtain ⟨hall, hsays'⟩ := ih h
    refine ⟨List.forall_mem_cons.mpr ⟨hadmitted, hall⟩, fun hstate => ?_⟩
    rcases hsays' hstate with hstate₁ | ⟨note, hnote, hcomplete⟩
    · rcases hsays hstate₁ with hstate | hcomplete
      · exact .inl hstate
      · exact .inr ⟨advisory, List.mem_cons_self .., hcomplete⟩
    · exact .inr ⟨note, List.mem_cons_of_mem _ hnote, hcomplete⟩

/-! ### Pages -/

/-- The columns of a result set, if it has any. -/
def pageColumns (resultSet : JsonValue) : Option (List String) :=
  (parseColumnAliases (resultSet.get? "columns")).toOption.join

/-- The rows of a result set, of rows or of metrics, each with the columns of its page: what a page
of metrics has is the data of rows. -/
def pageRows (resultSet : JsonValue) : List (JsonValue × Option (List String)) :=
  (((resultSet.get? "rows").bind list?).getD [] ++
    (((resultSet.get? "data").bind list?).getD []).map fun row => dict [("data", row)]).map
      fun row => (row, pageColumns resultSet)

/-- The result sets of a document. -/
def documentPages (document : JsonValue) : List JsonValue :=
  ((((document.get? "data").bind (·.get? "data")).bind (·.get? "results")).bind list?).getD []

/-- The rows of a document, in order. -/
def documentRows (document : JsonValue) : List (JsonValue × Option (List String)) :=
  (documentPages document).flatMap pageRows

/-- Some page of a document has a cursor. -/
def HasCursor (document : JsonValue) : Prop :=
  ∃ page ∈ documentPages document, ∃ cursor, page.get? "nextCursor" = some (.str cursor) ∧ cursor ≠ ""

/-- A row of the payload is made of a row of the document and the columns of its page. -/
def AdaptedFrom (dates : Dates) (defaults : AdaptedRow) (input : JsonValue × Option (List String))
    (output : JsonValue) : Prop :=
  ∃ adapted, adaptQueryBuilderRow dates input.1 input.2 defaults = .ok adapted ∧
    output = .dict adapted

variable {resultSet : JsonValue} {page : QueryBuilderPage} {entries : List (String × JsonValue)}

theorem parsePageRows_eq_ok {rows : Option JsonValue} {items : List JsonValue}
    (h : parsePageRows rows = .ok items) : items = (rows.bind list?).getD [] := by
  unfold parsePageRows at h
  cases rows with
  | none =>
    cases h
    rfl
  | some value =>
    cases value with
    | null | list =>
      cases h
      rfl
    | bool | int | float | str | dict => cases h

theorem parseNextCursor_eq_ok {cursor : Option JsonValue} {name : String} {next : Option String}
    (h : parseNextCursor cursor = .ok next) (hcursor : cursor = some (.str name)) :
    next = some name := by
  rw [hcursor] at h
  cases h
  rfl

theorem pageColumns_eq {columns : Option (List String)}
    (h : parseColumnAliases (resultSet.get? "columns") = .ok columns) :
    pageColumns resultSet = columns := by
  rw [pageColumns, h]
  rfl

/-- A page of rows has the rows of its result set and its cursor. -/
theorem parseRowPage_rows {queryName : String}
    (hkeys : keys entries ⊆ {"queryName", "rows", "columns", "nextCursor"})
    (h : parseRowPage queryName (.dict entries) = .ok page) :
    pageRows (.dict entries) = page.rows.map (fun row => (row, page.columns)) ∧
      ∀ cursor, (dict entries).get? "nextCursor" = some (.str cursor) →
        page.nextCursor = some cursor := by
  unfold parseRowPage at h
  simp only [bind_eq_ok, pure_eq_ok] at h
  obtain ⟨rows, hrows, nextCursor, hcursor, columns, hcolumns, rfl⟩ := h
  have hdata : (dict entries).get? "data" = none :=
    get?_eq_none fun hmem => absurd (hkeys hmem) (by decide)
  refine ⟨?_, fun cursor h => parseNextCursor_eq_ok hcursor h⟩
  rw [pageRows, pageColumns_eq hcolumns, hdata, parsePageRows_eq_ok hrows]
  show ((((dict entries).get? "rows").bind list?).getD [] ++ []).map _ = _
  rw [List.append_nil]

/-- A page of metrics has a row for each part of the data of its result set, and no cursor. -/
theorem parseMetricPage_rows {queryName : String} (hkeys : keys entries = {"queryName", "data", "columns"})
    (h : parseMetricPage queryName (.dict entries) = .ok page) :
    pageRows (.dict entries) = page.rows.map (fun row => (row, page.columns)) ∧
      (dict entries).get? "nextCursor" = none := by
  unfold parseMetricPage at h
  simp only [bind_eq_ok, pure_eq_ok, require_eq_ok] at h
  obtain ⟨data, hdata, columns, hcolumns, _, -, rfl⟩ := h
  have hrows : (dict entries).get? "rows" = none :=
    get?_eq_none fun hmem => absurd (hkeys ▸ hmem) (by decide)
  have hcursor : (dict entries).get? "nextCursor" = none :=
    get?_eq_none fun hmem => absurd (hkeys ▸ hmem) (by decide)
  refine ⟨?_, hcursor⟩
  rw [pageRows, pageColumns_eq hcolumns, hrows, hdata]
  rfl

/-- A page has the rows of its result set, with its columns, and its cursor. -/
theorem parseQueryBuilderPage_rows (h : parseQueryBuilderPage resultSet = .ok page) :
    pageRows resultSet = page.rows.map (fun row => (row, page.columns)) ∧
    ∀ cursor, resultSet.get? "nextCursor" = some (.str cursor) → page.nextCursor = some cursor := by
  unfold parseQueryBuilderPage at h
  simp only [bind_eq_ok, require_eq_ok, dict?_eq_some] at h
  obtain ⟨entries, rfl, queryName, -, h⟩ := h
  split at h
  · next hkeys =>
    obtain ⟨hrows, hcursor⟩ := parseRowPage_rows hkeys h
    exact ⟨hrows, hcursor⟩
  · split at h
    · next hkeys =>
      obtain ⟨hrows, hcursor⟩ := parseMetricPage_rows hkeys h
      exact ⟨hrows, fun cursor h => absurd (hcursor.symm.trans h) (by simp)⟩
    · cases h

/-- One row for each row of a page, in order. -/
theorem collectPage_sound {state state' : Collected}
    (h : collectPage dates defaults state resultSet = .ok state') :
    ∃ rows, state'.normalized = state.normalized ++ rows ∧
      List.Forall₂ (AdaptedFrom dates defaults) (pageRows resultSet) rows ∧
      (state.hasNonemptyCursor = true → state'.hasNonemptyCursor = true) ∧
      ∀ cursor, resultSet.get? "nextCursor" = some (.str cursor) → cursor ≠ "" →
        state'.hasNonemptyCursor = true := by
  unfold collectPage at h
  simp only [bind_eq_ok, pure_eq_ok] at h
  obtain ⟨page, hpage, _, -, rows, hrows, rfl⟩ := h
  obtain ⟨hinputs, hcursor⟩ := parseQueryBuilderPage_rows hpage
  have hadapted := forall₂_of_mapM hrows
  refine ⟨rows.map .dict, rfl, ?_, fun h => by simp [h], fun cursor h hne => ?_⟩
  · rw [hinputs, List.forall₂_map_left_iff, List.forall₂_map_right_iff]
    exact hadapted.imp fun input adapted h => ⟨adapted, h, rfl⟩
  · simp [hcursor cursor h, hne]

/-- One row for each row of all pages, in order. -/
theorem collectPages_sound {sets : List JsonValue} {state state' : Collected}
    (h : sets.foldlM (collectPage dates defaults) state = .ok state') :
    ∃ rows, state'.normalized = state.normalized ++ rows ∧
      List.Forall₂ (AdaptedFrom dates defaults) (sets.flatMap pageRows) rows ∧
      (state.hasNonemptyCursor = true → state'.hasNonemptyCursor = true) ∧
      ∀ set ∈ sets, ∀ cursor, set.get? "nextCursor" = some (.str cursor) → cursor ≠ "" →
        state'.hasNonemptyCursor = true := by
  induction sets generalizing state with
  | nil =>
    cases h
    exact ⟨[], (List.append_nil _).symm, .nil, id, fun set hset => absurd hset List.not_mem_nil⟩
  | cons set sets ih =>
    rw [List.foldlM_cons] at h
    obtain ⟨state₁, hstep, h⟩ := bind_eq_ok.mp h
    obtain ⟨rows, hrows, hadapted, hkeep, hcursor⟩ := collectPage_sound hstep
    obtain ⟨rows', hrows', hadapted', hkeep', hcursor'⟩ := ih h
    refine ⟨rows ++ rows', ?_, List.rel_append hadapted hadapted', hkeep' ∘ hkeep, ?_⟩
    · rw [hrows', hrows, List.append_assoc]
    · intro set' hset' cursor hnext hne
      rcases List.mem_cons.mp hset' with rfl | hset'
      · exact hkeep' (hcursor cursor hnext hne)
      · exact hcursor' set' hset' cursor hnext hne

/-! ### Documents -/

theorem blockTexts_ne_nil {content : ToolContent} {texts : List String}
    (h : blockTexts content = .ok texts) : texts ≠ [] := by
  unfold blockTexts at h
  split at h
  · simp only [bind_eq_ok, ensure_eq_ok] at h
    obtain ⟨_, hne, h⟩ := h
    have hlength := (forall₂_of_mapM h).length_eq
    rintro rfl
    exact hne (List.length_eq_zero_iff.mp hlength)
  · cases h

theorem resultSets_eq_ok {document : JsonValue} {sets : List JsonValue}
    (h : resultSets document = .ok sets) : sets = documentPages document := by
  unfold resultSets at h
  simp only [bind_eq_ok, ensure_eq_ok, require_eq_ok, dict?_eq_some] at h
  obtain ⟨entries, rfl, _, -, _, -, outer, houter, _, -, _, -, _, -, _, -, queryData, hdata, h⟩ := h
  obtain ⟨value, hvalue, hdict⟩ := Option.bind_eq_some_iff.mp houter
  obtain ⟨inner, hinner, hinnerDict⟩ :=
    Option.bind_eq_some_iff.mp (Option.filter_eq_some_iff.mp hdata).1
  rw [dict?_eq_some] at hdict hinnerDict
  subst hdict hinnerDict
  rw [documentPages, hvalue, Option.bind_some, get?_dict, hinner, Option.bind_some, get?_dict]
  split at h
  · next hnone =>
    cases h
    rw [hnone]
    rfl
  · next hnull =>
    cases h
    rw [hnull]
    rfl
  · next hlist =>
    cases h
    rw [hlist]
    rfl
  · cases h

/-- The payload has one row for each row of the document, and no page of it has a cursor unless a
note says that all rows are there. -/
theorem adaptQueryBuilderPayload_sound {document payload : JsonValue} {state : AdvisoryKind}
    (h : adaptQueryBuilderPayload dates document defaults state = .ok payload) :
    (∃ rows, payload = .dict [("results", .list rows)] ∧
      List.Forall₂ (AdaptedFrom dates defaults) (documentRows document) rows) ∧
      (HasCursor document → state = .pageComplete) := by
  unfold adaptQueryBuilderPayload at h
  simp only [bind_eq_ok, pure_eq_ok, ensure_eq_ok] at h
  obtain ⟨sets, hsets, collected, hcollected, _, hstate, rfl⟩ := h
  obtain ⟨rows, hrows, hadapted, -, hcursor⟩ := collectPages_sound hcollected
  rw [resultSets_eq_ok hsets] at hadapted hcursor
  refine ⟨⟨collected.normalized, rfl, ?_⟩, ?_⟩
  · rw [hrows]
    exact hadapted
  · rintro ⟨set, hset, cursor, hnext, hne⟩
    exact hstate (hcursor set hset cursor hnext hne)

/-- An accepted result that is a JSON document and notes about it: every note is a complete note or
a decision note, a page with a cursor needs a complete note, and the payload is the document, if it
has nothing but results, or else has one row for each row of its pages, in order. -/
theorem accepted_result {result : ToolResult} {payload : JsonValue}
    (hdocument : result.structuredContent = none)
    (h : normalizeToolResult floats dates result defaults = .ok payload) :
    ∃ first notes document, blockTexts result.content = .ok (first :: notes) ∧
      JsonText.loads floats first.toList = some document ∧
      (∀ note ∈ notes, CompleteNote note ∨ DecisionNote note) ∧
      (HasCursor document → ∃ note ∈ notes, CompleteNote note) ∧
      ((∃ entries, document = .dict entries ∧ keys entries = {"results"}) ∧ payload = document ∨
        ∃ rows, payload = .dict [("results", .list rows)] ∧
          List.Forall₂ (AdaptedFrom dates defaults) (documentRows document) rows) := by
  unfold normalizeToolResult at h
  rw [hdocument] at h
  simp only [bind_eq_ok, require_eq_ok, dict?_eq_some] at h
  obtain ⟨_, -, texts, htexts, document, hloads, entries, rfl, state, hnotes, h⟩ := h
  obtain ⟨first, notes, rfl⟩ := List.exists_cons_of_ne_nil (blockTexts_ne_nil htexts)
  obtain ⟨hadmitted, hcomplete⟩ := validateAdvisories_sound hnotes
  refine ⟨first, notes, .dict entries, htexts, hloads, hadmitted, ?_⟩
  split at h
  · next hkeys =>
    cases h
    refine ⟨?_, .inl ⟨⟨entries, rfl, hkeys⟩, rfl⟩⟩
    rintro ⟨page, hpage, -⟩
    have hdata : (dict entries).get? "data" = none :=
      get?_eq_none fun hmem => absurd (hkeys ▸ hmem) (by decide)
    rw [documentPages, hdata] at hpage
    cases hpage
  · obtain ⟨hrows, hcursor⟩ := adaptQueryBuilderPayload_sound h
    refine ⟨fun hhas => ?_, .inr hrows⟩
    exact (hcomplete (hcursor hhas)).resolve_left (by decide)

/-- A document with two rows on a page with a cursor, and one of metrics. -/
def sampleDocument : JsonValue :=
  .dict [("status", .str "success"), ("data", .dict [("type", .str "raw"),
    ("data", .dict [("results", .list [
      .dict [("queryName", .str "A"), ("nextCursor", .str "c"),
        ("rows", .list [.dict [("data", .dict [("name", .str "x")])],
          .dict [("data", .dict [("name", .str "y")])]])],
      .dict [("queryName", .str "B"), ("columns", .list [.str "value"]),
        ("data", .list [.list [.int 2]])]])])])]

/-- The document, a note that this is all and one of a decision. -/
def sampleToolResult (floats : JsonText.Floats) : ToolResult where
  content := .blocks [
    { text := some (String.ofList (JsonText.render floats sampleDocument)) },
    { text := some ("note: returned 3 rows (limit 3) so far: " ++
        "all matching results returned (hasMore=false).") },
    { text := some "[Decisions applied]\n  a: b" }]

/-- Floats as texts of nothing: none stands in the sample. -/
def noFloats : JsonText.Floats := ⟨fun _ => [], fun _ => ⟨0⟩⟩

theorem accepted_result_sample :
    ∃ first notes document rows, blockTexts (sampleToolResult noFloats).content =
        .ok (first :: notes) ∧
      normalizeToolResult noFloats (fun _ => none) (sampleToolResult noFloats) [] =
        .ok (.dict [("results", .list rows)]) ∧
      (∀ note ∈ notes, CompleteNote note ∨ DecisionNote note) ∧
      (HasCursor document → ∃ note ∈ notes, CompleteNote note) ∧
      List.Forall₂ (AdaptedFrom (fun _ => none) []) (documentRows document) rows ∧
      rows.length = 3 := by
  have hok : (normalizeToolResult noFloats (fun _ => none) (sampleToolResult noFloats)
      []).toOption.isSome = true := by
    decide +kernel
  have hthree : ((blockTexts (sampleToolResult noFloats).content).toOption.bind fun texts =>
      (JsonText.loads noFloats (texts.headD "").toList).map fun document =>
        (documentRows document).length) = some 3 := by
    decide +kernel
  obtain ⟨payload, hpayload⟩ := Option.isSome_iff_exists.mp hok
  have h := toOption_eq_some.mp hpayload
  obtain ⟨first, notes, document, htexts, hloads, hnotes, hcursor, hrows⟩ := accepted_result rfl h
  rw [htexts] at hthree
  change (JsonText.loads noFloats first.toList).map _ = some 3 at hthree
  rw [hloads, Option.map_some, Option.some.injEq] at hthree
  rcases hrows with ⟨⟨entries, rfl, hkeys⟩, -⟩ | ⟨rows, rfl, hadapted⟩
  · have hdata : (dict entries).get? "data" = none :=
      get?_eq_none fun hmem => absurd (hkeys ▸ hmem) (by decide)
    rw [documentRows, documentPages, hdata] at hthree
    cases hthree
  · exact ⟨first, notes, document, rows, htexts, h, hnotes, hcursor, hadapted,
      hadapted.length_eq.symm.trans hthree⟩

end TraceFence
