import TraceFence.Lib.Merge
import TraceFence.Telemetry.Schema

/-!
# Metric references, in any order

`validate_metric_references` merges what the references to one metric say of it along the list, and
holds every reference against what was merged so far. A reference may leave metadata unknown, and
to be compatible with it is not transitive: two references that contradict each other may both be
compatible with a third. What was merged is compatible with a reference exactly when all references
it was merged from are, so the order does not matter.

## Main definitions

* `ValidReference` — a reference that the catalogue allows
* `CompatibleReferences` — two references that do not contradict each other

## Main results

* `metricUse_eq_ok` — what the checks of one reference say
* `metric_references` — which lists are accepted
-/

namespace TraceFence

open Checked Merge

variable {text : TextMethods} {reference : MetricReference} {metric : MetricDefinition}

/-! ### One reference -/

/-- A text after case folding, where a reference has one. -/
def foldedText (text : TextMethods) (value : JsonValue) : Option String :=
  value.text?.map text.casefold

/-- A truth value, where a reference has one. -/
def truth : JsonValue → Option Bool
  | .bool b => some b
  | _ => none

/-- The catalogue has the metric, its instrument allows the aggregations, and of the metadata each
is missing or one that the instrument may have. -/
structure ValidReference (text : TextMethods) (reference : MetricReference)
    (metric : MetricDefinition) : Prop where
  found : metricsByName reference.name = some metric
  time : ∃ a ∈ metric.timeAggregations, reference.timeAggregation = .str a
  space : ∃ a ∈ metric.spaceAggregations, reference.spaceAggregation = .str a
  type : reference.metricType = .null ∨ ∃ t, reference.metricType = .str t ∧
    text.casefold t ∈ metric.instrumentKind.expectedTypes
  monotonic : reference.isMonotonic = .null ∨ ∃ b, reference.isMonotonic = .bool b ∧
    ∀ expected ∈ metric.instrumentKind.expectedMonotonicity, b = expected
  temporal : reference.temporality = .null ∨ ∃ t, reference.temporality = .str t ∧
    (metric.instrumentKind = .counter → text.casefold t = "cumulative")

theorem validatedAggregation_eq_ok {name dimension a : String} {aggregation : JsonValue}
    {allowed : List String} :
    validatedAggregation text name dimension aggregation allowed = .ok a ↔
      a ∈ allowed ∧ aggregation = .str a := by
  unfold validatedAggregation
  cases aggregation with
  | str b =>
    dsimp only
    by_cases h : b ∈ allowed
    · rw [if_pos h, Except.ok.injEq, JsonValue.str.injEq]
      constructor
      · rintro rfl
        exact ⟨h, rfl⟩
      · exact fun h => h.2
    · rw [if_neg h]
      constructor
      · intro he
        cases he
      · rintro ⟨ha, hb⟩
        cases hb
        exact absurd ha h
  | _ => simp

/-- A value that is kept when it passes a check. -/
theorem checked_eq_ok {α : Type} {p : Prop} [Decidable p] {a known : α} {e : String} :
    (if p then .ok a else .error e : Except String α) = .ok known ↔ known = a ∧ p := by
  by_cases h : p
  · rw [if_pos h, Except.ok.injEq, eq_comm]
    exact (and_iff_left h).symm
  · rw [if_neg h]
    constructor
    · intro he
      cases he
    · exact fun he => absurd he.2 h

theorem validatedType_eq_ok {known : Option String} :
    validatedType text reference metric = .ok known ↔
      known = foldedText text reference.metricType ∧ (reference.metricType = .null ∨
        ∃ t, reference.metricType = .str t ∧
          text.casefold t ∈ metric.instrumentKind.expectedTypes) := by
  unfold validatedType foldedText
  cases reference.metricType with
  | str t =>
    dsimp only
    rw [checked_eq_ok]
    simp [JsonValue.text?]
  | _ => simp [JsonValue.text?, eq_comm]

theorem validatedMonotonicity_eq_ok {known : Option Bool} :
    validatedMonotonicity text reference metric = .ok known ↔
      known = truth reference.isMonotonic ∧ (reference.isMonotonic = .null ∨
        ∃ b, reference.isMonotonic = .bool b ∧
          ∀ expected ∈ metric.instrumentKind.expectedMonotonicity, b = expected) := by
  unfold validatedMonotonicity truth
  cases reference.isMonotonic with
  | bool b =>
    dsimp only
    rw [checked_eq_ok, Option.all_eq_true]
    refine and_congr_right fun _ => ⟨fun h => Or.inr ⟨b, rfl, fun expected he => ?_⟩, ?_⟩
    · exact of_decide_eq_true (h expected he)
    · rintro (hnull | ⟨_, hb, h⟩) expected he
      · cases hnull
      · cases hb
        exact decide_eq_true (h expected he)
  | _ => simp [eq_comm]

theorem validatedTemporality_eq_ok {known : Option String} :
    validatedTemporality text reference metric = .ok known ↔
      known = foldedText text reference.temporality ∧ (reference.temporality = .null ∨
        ∃ t, reference.temporality = .str t ∧
          (metric.instrumentKind = .counter → text.casefold t = "cumulative")) := by
  unfold validatedTemporality foldedText
  cases reference.temporality with
  | str t =>
    dsimp only
    rw [← ite_not, checked_eq_ok, not_and_not_right]
    simp [JsonValue.text?]
  | _ => simp [JsonValue.text?, eq_comm]

/-- The checks of one reference, and what is kept of it. -/
def metricUse (text : TextMethods) (reference : MetricReference) : Except String MetricUse := do
  let metric ← require (metricsByName reference.name)
    ("Unknown TraceFence metric: " ++ text.repr reference.name)
  let timeAggregation ← validatedAggregation text reference.name "time" reference.timeAggregation
    metric.timeAggregations
  let spaceAggregation ← validatedAggregation text reference.name "space"
    reference.spaceAggregation metric.spaceAggregations
  let metadata ← validatedOptionalMetadata text reference metric
  return { timeAggregation, spaceAggregation, metadata }

/-- **One reference**: it passes when the catalogue allows it, and what is kept is what it says. -/
theorem metricUse_eq_ok {use : MetricUse} : metricUse text reference = .ok use ↔
    (∃ metric, ValidReference text reference metric) ∧
      reference.timeAggregation = .str use.timeAggregation ∧
      reference.spaceAggregation = .str use.spaceAggregation ∧
      use.metadata = ⟨foldedText text reference.metricType, truth reference.isMonotonic,
        foldedText text reference.temporality⟩ := by
  simp only [metricUse, validatedOptionalMetadata, bind_eq_ok, require_eq_ok, pure_eq_ok,
    validatedAggregation_eq_ok, validatedType_eq_ok, validatedMonotonicity_eq_ok,
    validatedTemporality_eq_ok]
  constructor
  · rintro ⟨metric, hfound, time, ⟨htime, htimeEq⟩, space, ⟨hspace, hspaceEq⟩, metadata,
      ⟨_, ⟨rfl, htype⟩, _, ⟨rfl, hmonotonic⟩, _, ⟨rfl, htemporal⟩, rfl⟩, rfl⟩
    exact ⟨⟨metric, hfound, ⟨time, htime, htimeEq⟩, ⟨space, hspace, hspaceEq⟩, htype, hmonotonic,
      htemporal⟩, htimeEq, hspaceEq, rfl⟩
  · rintro ⟨⟨metric, h⟩, htime, hspace, hmetadata⟩
    obtain ⟨time, htimeMem, htimeEq⟩ := h.time
    obtain ⟨space, hspaceMem, hspaceEq⟩ := h.space
    obtain ⟨useTime, useSpace, metadata⟩ := use
    rw [htimeEq, JsonValue.str.injEq] at htime
    rw [hspaceEq, JsonValue.str.injEq] at hspace
    dsimp only at htime hspace hmetadata
    subst htime hspace hmetadata
    exact ⟨metric, h.found, time, ⟨htimeMem, htimeEq⟩, space, ⟨hspaceMem, hspaceEq⟩, _,
      ⟨_, ⟨rfl, h.type⟩, _, ⟨rfl, h.monotonic⟩, _, ⟨rfl, h.temporal⟩, rfl⟩, rfl⟩

/-! ### Two references -/

/-- Two references to one metric that do not contradict each other: the same aggregations, and the
same metadata where both have them. -/
structure CompatibleReferences (text : TextMethods) (reference reference' : MetricReference) :
    Prop where
  time : reference.timeAggregation = reference'.timeAggregation
  space : reference.spaceAggregation = reference'.spaceAggregation
  type : ∀ t t', reference.metricType = .str t → reference'.metricType = .str t' →
    text.casefold t = text.casefold t'
  monotonic : ∀ b b', reference.isMonotonic = .bool b → reference'.isMonotonic = .bool b' → b = b'
  temporal : ∀ t t', reference.temporality = .str t → reference'.temporality = .str t' →
    text.casefold t = text.casefold t'

theorem differs_eq_false {α : Type} [DecidableEq α] {old new : Option α} :
    differs old new = false ↔ ∀ x y, old = some x → new = some y → x = y := by
  cases old <;> cases new <;> simp [differs]

theorem contradicts_eq_false {use use' : MetricUse} : use.contradicts use' = false ↔
    (use.timeAggregation = use'.timeAggregation ∧ use.spaceAggregation = use'.spaceAggregation) ∧
      differs use.metadata.metricType use'.metadata.metricType = false ∧
      differs use.metadata.isMonotonic use'.metadata.isMonotonic = false ∧
      differs use.metadata.temporality use'.metadata.temporality = false := by
  simp only [MetricUse.contradicts, Bool.or_eq_false_iff, decide_eq_false_iff_not, not_not,
    Prod.mk.injEq, and_assoc]

/-- What is known of either is compatible with a third when both are. -/
theorem differs_or {α : Type} [DecidableEq α] {a b : Option α} (h : differs a b = false)
    (c : Option α) : differs (a.or b) c = false ↔ differs a c = false ∧ differs b c = false := by
  cases a with
  | none =>
    rw [Option.none_or]
    exact (and_iff_right rfl).symm
  | some x =>
    cases b with
    | none => exact (and_iff_left rfl).symm
    | some y =>
      obtain rfl := differs_eq_false.mp h x y rfl rfl
      simp

/-- What was merged from two uses is compatible with a third when both are. -/
theorem contradicts_merge {a b : MetricUse} (h : a.contradicts b = false) (c : MetricUse) :
    (a.merge b).contradicts c = false ↔ a.contradicts c = false ∧ b.contradicts c = false := by
  obtain ⟨⟨htime, hspace⟩, htype, hmonotonic, htemporal⟩ := contradicts_eq_false.mp h
  simp only [contradicts_eq_false, MetricUse.merge, differs_or htype, differs_or hmonotonic,
    differs_or htemporal, htime, hspace]
  tauto

theorem contradicts_symm {a b : MetricUse} (h : a.contradicts b = false) :
    b.contradicts a = false := by
  simp only [contradicts_eq_false, differs_eq_false] at h ⊢
  obtain ⟨⟨htime, hspace⟩, htype, hmonotonic, htemporal⟩ := h
  exact ⟨⟨htime.symm, hspace.symm⟩, fun x y hx hy => (htype y x hy hx).symm,
    fun x y hx hy => (hmonotonic y x hy hx).symm, fun x y hx hy => (htemporal y x hy hx).symm⟩

theorem contradicts_self (a : MetricUse) : a.contradicts a = false := by
  simp only [contradicts_eq_false, differs_eq_false, true_and]
  exact ⟨fun x y hx hy => Option.some.inj (hx.symm.trans hy),
    fun x y hx hy => Option.some.inj (hx.symm.trans hy),
    fun x y hx hy => Option.some.inj (hx.symm.trans hy)⟩

theorem foldedText_eq_some {value : JsonValue} {folded : String} :
    foldedText text value = some folded ↔ ∃ t, value = .str t ∧ text.casefold t = folded := by
  cases value <;> simp [foldedText, JsonValue.text?]

theorem truth_eq_some {value : JsonValue} {b : Bool} :
    truth value = some b ↔ value = .bool b := by
  cases value <;> simp [truth]

/-- Uses contradict each other when the references do. -/
theorem contradicts_iff {reference' : MetricReference} {use use' : MetricUse}
    (h : metricUse text reference = .ok use) (h' : metricUse text reference' = .ok use') :
    use.contradicts use' = false ↔ CompatibleReferences text reference reference' := by
  obtain ⟨-, htime, hspace, hmetadata⟩ := metricUse_eq_ok.mp h
  obtain ⟨-, htime', hspace', hmetadata'⟩ := metricUse_eq_ok.mp h'
  simp only [contradicts_eq_false, differs_eq_false, hmetadata, hmetadata', foldedText_eq_some,
    truth_eq_some]
  constructor
  · rintro ⟨⟨ht, hs⟩, htype, hmonotonic, htemporal⟩
    exact ⟨by rw [htime, htime', ht], by rw [hspace, hspace', hs],
      fun t t' hr hr' => htype _ _ ⟨t, hr, rfl⟩ ⟨t', hr', rfl⟩, hmonotonic,
      fun t t' hr hr' => htemporal _ _ ⟨t, hr, rfl⟩ ⟨t', hr', rfl⟩⟩
  · rintro ⟨ht, hs, htype, hmonotonic, htemporal⟩
    rw [htime, htime', JsonValue.str.injEq] at ht
    rw [hspace, hspace', JsonValue.str.injEq] at hs
    refine ⟨⟨ht, hs⟩, ?_, hmonotonic, ?_⟩
    · rintro _ _ ⟨t, hr, rfl⟩ ⟨t', hr', rfl⟩
      exact htype t t' hr hr'
    · rintro _ _ ⟨t, hr, rfl⟩ ⟨t', hr', rfl⟩
      exact htemporal t t' hr hr'

/-! ### Lists of references -/

/-- The loop joins what the checks of each reference keep. -/
theorem validateMetricReference_eq (seen : String → Option MetricUse) :
    validateMetricReference text seen reference =
      (metricUse text reference >>= fun use => .ok (reference.name, use)) >>=
        join (fun a b => !a.contradicts b) MetricUse.merge (fun name =>
          "TraceFence metric " ++ text.repr name ++ " has contradictory aggregation definitions")
          seen := by
  simp only [validateMetricReference, metricUse, bind_assoc]
  refine congrArg _ (funext fun metric => congrArg _ (funext fun time => congrArg _
    (funext fun space => congrArg _ (funext fun metadata => ?_))))
  rw [pure_bind, ok_bind, join]
  cases seen reference.name with
  | none => rfl
  | some existing =>
    dsimp only
    cases existing.contradicts _ <;> rfl

/-- A reference can be read when the catalogue allows it. -/
theorem exists_use_iff :
    (∃ use, metricUse text reference = .ok use) ↔ ∃ metric, ValidReference text reference metric := by
  constructor
  · rintro ⟨use, huse⟩
    exact (metricUse_eq_ok.mp huse).1
  · rintro ⟨metric, h⟩
    obtain ⟨time, _, htime⟩ := h.time
    obtain ⟨space, _, hspace⟩ := h.space
    exact ⟨⟨time, space, _⟩, metricUse_eq_ok.mpr ⟨⟨metric, h⟩, htime, hspace, rfl⟩⟩

/-- Which lists are accepted. -/
theorem validateMetricReferences_eq_ok {references : List MetricReference} :
    validateMetricReferences text references = .ok () ↔
      (∀ r ∈ references, ∃ metric, ValidReference text r metric) ∧
        ∀ r ∈ references, ∀ r' ∈ references, r.name = r'.name →
          CompatibleReferences text r r' := by
  have hloop : validateMetricReference text = fun seen r =>
      (metricUse text r >>= fun use => .ok (r.name, use)) >>= join _ _ _ seen :=
    funext fun seen => funext fun _ => validateMetricReference_eq seen
  have hfold : validateMetricReferences text references = .ok () ↔
      ∃ s, references.foldlM (validateMetricReference text) (fun _ => none) = .ok s := by
    simp [validateMetricReferences]
  rw [hfold, hloop, foldlM_join_isOk_iff]
  · have hread (r : MetricReference) : (∃ entry, (metricUse text r >>= fun use =>
        .ok (r.name, use)) = .ok entry) ↔ ∃ metric, ValidReference text r metric := by
      rw [← exists_use_iff]
      simp
    simp only [hread]
    simp only [bind_eq_ok, Except.ok.injEq]
    refine and_congr_right fun hvalid => ⟨fun h r hr r' hr' hname => ?_, ?_⟩
    · obtain ⟨use, huse⟩ := exists_use_iff.mpr (hvalid r hr)
      obtain ⟨use', huse'⟩ := exists_use_iff.mpr (hvalid r' hr')
      have hpair := h r hr r' hr' _ _ ⟨use, huse, rfl⟩ ⟨use', huse', rfl⟩ hname
      exact (contradicts_iff huse huse').mp (Bool.not_eq_true' _ ▸ hpair)
    · rintro h r hr r' hr' _ _ ⟨use, huse, rfl⟩ ⟨use', huse', rfl⟩ hname
      exact Bool.not_eq_true' _ ▸ (contradicts_iff huse huse').mpr (h r hr r' hr' hname)
  · intro a b c h
    simp only [Bool.not_eq_true'] at h ⊢
    exact contradicts_merge h c
  · intro a b h
    simp only [Bool.not_eq_true'] at h ⊢
    exact contradicts_symm h
  · intro a
    simp only [Bool.not_eq_true', contradicts_self]

/-- **Metric references are validated in any order.** A list is accepted when the catalogue allows
each of its references and all references to one metric are compatible, every two of them. So a list
with the same references, in whatever order and however often, is accepted when it is. -/
theorem metric_references (text : TextMethods) :
    (∀ references, validateMetricReferences text references = .ok () ↔
      (∀ r ∈ references, ∃ metric, ValidReference text r metric) ∧
        ∀ r ∈ references, ∀ r' ∈ references, r.name = r'.name → CompatibleReferences text r r') ∧
    (∀ references references', references.Perm references' →
      (validateMetricReferences text references = .ok () ↔
        validateMetricReferences text references' = .ok ())) ∧
    ∀ references references', (∀ r, r ∈ references ↔ r ∈ references') →
      (validateMetricReferences text references = .ok () ↔
        validateMetricReferences text references' = .ok ()) := by
  have hcongr (references references' : List MetricReference)
      (h : ∀ r, r ∈ references ↔ r ∈ references') :
      validateMetricReferences text references = .ok () ↔
        validateMetricReferences text references' = .ok () := by
    simp only [validateMetricReferences_eq_ok, h]
  refine ⟨fun references => validateMetricReferences_eq_ok, ?_, hcongr⟩
  intro references references' hperm
  exact hcongr references references' fun r => hperm.mem_iff

/-- A reference to a histogram that says nothing of its type. -/
def untypedReference : MetricReference where
  name := "tracefence_control_ack_latency_ms"
  timeAggregation := .str "p95"
  spaceAggregation := .str "p95"

/-- The same reference with its type. -/
def typedReference : MetricReference := { untypedReference with metricType := .str "histogram" }

theorem metric_references_sample :
    validateMetricReferences ⟨id, id⟩ [untypedReference, typedReference, untypedReference] = .ok () := by
  have haccepted : validateMetricReferences ⟨id, id⟩ [typedReference, untypedReference] = .ok () := by
    rfl
  refine ((metric_references ⟨id, id⟩).2.2 _ _ fun r => ?_).mp haccepted
  simp only [List.mem_cons, List.not_mem_nil, or_false]
  tauto

end TraceFence
