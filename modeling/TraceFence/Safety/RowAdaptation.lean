import TraceFence.Lib.JsonEquality
import TraceFence.Signoz.QueryBuilder

/-!
# The order of columns

The columns of a row are merged field by field, and a value gives way to a later one that is equal
to it. Whether a row is accepted does not depend on the order of its columns, since equality is
symmetric and transitive; which of two equal values stays does, since equal values may differ.

## Main definitions

* `Rearranged` — the same columns in another order
* `OrderIndependent`, `RejectsDifferent` — what adaptation should do with the order of columns
* `Clashes`, `EqualButDifferent` — two ways in which the values of a field disagree

## Main results

* `adapted_iff` — a row is accepted if its values do not clash
* `row_adaptation` — rows are adapted as they should be unless aliases have equal but different
  values
-/

namespace TraceFence

open Checked JsonValue

variable {dates : Dates} {defaults : AdaptedRow} {row row' : JsonValue}
variable {columns columns' : Option (List String)} {items items' : List (String × JsonValue)}

/-- The same value, but for the order of keys in objects. -/
def SameValue (v w : JsonValue) : Prop := v.sortKeys = w.sortKeys

/-- Two rows with the same columns, in any order, and the same timestamp. -/
def Rearranged (row : JsonValue) (columns : Option (List String)) (row' : JsonValue)
    (columns' : Option (List String)) : Prop :=
  row.get? "timestamp" = row'.get? "timestamp" ∧
    ∃ items items', rowItems row columns = .ok items ∧ rowItems row' columns' = .ok items' ∧
      items.Perm items'

variable (dates defaults row columns)

/-- A row is accepted. -/
def Accepted : Prop := ∃ adapted, adaptQueryBuilderRow dates row columns defaults = .ok adapted

/-- The order of columns changes neither whether a row is accepted nor what it is adapted to. -/
def OrderIndependent : Prop :=
  ∀ row' columns', Rearranged row columns row' columns' →
    (Accepted dates defaults row columns ↔ Accepted dates defaults row' columns') ∧
      ∀ adapted adapted', adaptQueryBuilderRow dates row columns defaults = .ok adapted →
        adaptQueryBuilderRow dates row' columns' defaults = .ok adapted' →
        SameValue (.dict adapted) (.dict adapted')

/-- Two columns are aliases of one field and satisfy `p`. -/
def TwoAliases (p : JsonValue → JsonValue → Prop) : Prop :=
  ∃ items, rowItems row columns = .ok items ∧ ∃ field name name' v w,
    (name, v) ∈ items ∧ (name', w) ∈ items ∧ fieldAliases.lookup name = some field ∧
      fieldAliases.lookup name' = some field ∧ p v w

/-- A row in which aliases of a field carry different values is rejected, in every order. -/
def RejectsDifferent : Prop :=
  TwoAliases row columns (fun v w => ¬ SameValue v w) →
    ∀ row' columns', Rearranged row columns row' columns' → ¬ Accepted dates defaults row' columns'

/-- Two aliases of a field carry values that are equal in the language and yet differ. -/
def EqualButDifferent : Prop :=
  TwoAliases row columns fun v w => v.eq w = true ∧ ¬ SameValue v w

/-- The value that the timestamp of a row gives to its field. -/
def timestampItems : Except ResultFailure AdaptedRow :=
  match row.get? "timestamp" with
  | some timestamp => do
    return [("timestamp_ms", .int (← timestampToMilliseconds dates timestamp))]
  | none => return []

/-- The timestamp is malformed, or two values of a field are not equal: its default, its columns and
the timestamp. -/
def Clashes : Prop :=
  ∃ items, rowItems row columns = .ok items ∧ ∀ timestamp, timestampItems dates row = .ok timestamp →
    ∃ field, ¬ ((defaults.lookup field).toList ++
      Merge.valuesOf (canonicalItems items ++ timestamp) field).Pairwise fun v w => v.eq w = true

variable {dates defaults row columns}

/-! ### Adaptation is a merge -/

theorem adaptQueryBuilderRow_eq_ok {adapted : AdaptedRow} :
    adaptQueryBuilderRow dates row columns defaults = .ok adapted ↔
      ∃ items timestamp, rowItems row columns = .ok items ∧
        timestampItems dates row = .ok timestamp ∧
        putUnambiguous defaults (canonicalItems items ++ timestamp) = .ok adapted := by
  have happend (values values' : AdaptedRow) : putUnambiguous defaults (values ++ values') =
      putUnambiguous defaults values >>= fun t => putUnambiguous t values' :=
    Merge.putAll_append values'
  unfold adaptQueryBuilderRow timestampItems
  cases row.get? "timestamp" with
  | none =>
    simp only [bind_eq_ok, pure_eq_ok]
    constructor
    · rintro ⟨items, hitems, normalized, hput, rfl⟩
      exact ⟨items, [], hitems, rfl, by rw [List.append_nil]; exact hput⟩
    · rintro ⟨items, _, hitems, rfl, hput⟩
      exact ⟨items, hitems, adapted, by rw [← hput, List.append_nil], rfl⟩
  | some timestamp =>
    simp only [bind_eq_ok, pure_eq_ok]
    constructor
    · rintro ⟨items, hitems, normalized, hput, milliseconds, hmilliseconds, hlast⟩
      exact ⟨items, _, hitems, ⟨milliseconds, hmilliseconds, rfl⟩, by rw [happend, hput]; exact hlast⟩
    · rintro ⟨items, _, hitems, ⟨milliseconds, hmilliseconds, rfl⟩, hput⟩
      rw [happend] at hput
      obtain ⟨normalized, hput, hlast⟩ := bind_eq_ok.mp hput
      exact ⟨items, hitems, normalized, hput, milliseconds, hmilliseconds, hlast⟩

/-- The values of the columns of a row are values that a reader makes. -/
theorem keyed_of_rowItems (hrow : row.Keyed) (hitems : rowItems row columns = .ok items) :
    ∀ item ∈ items, item.2.Keyed := by
  unfold rowItems at hitems
  simp only [bind_eq_ok, require_eq_ok, dict?_eq_some] at hitems
  obtain ⟨entries, rfl, _, -, hitems⟩ := hitems
  have hdata {v : JsonValue} (hv : (dict entries).get? "data" = some v) : v.Keyed :=
    hrow.of_entry (mem_of_lookup hv)
  split at hitems
  · next hdict =>
    cases hitems
    exact fun item hitem => (hdata hdict).of_entry hitem
  · next values hlist =>
    simp only [bind_eq_ok, pure_eq_ok] at hitems
    obtain ⟨names, -, rfl⟩ := hitems
    exact fun item hitem => (hdata hlist).of_item (List.of_mem_zip hitem).2
  · cases hitems

theorem keyed_canonicalItems (hitems : ∀ item ∈ items, item.2.Keyed) :
    ∀ item ∈ canonicalItems items, item.2.Keyed := by
  intro item hitem
  obtain ⟨column, hcolumn, hcanonical⟩ := List.mem_filterMap.mp hitem
  obtain ⟨field, -, rfl⟩ := Option.map_eq_some_iff.mp hcanonical
  exact hitems column hcolumn

theorem keyed_timestampItems {timestamp : AdaptedRow}
    (h : timestampItems dates row = .ok timestamp) : ∀ item ∈ timestamp, item.2.Keyed := by
  unfold timestampItems at h
  split at h
  · obtain ⟨milliseconds, -, hpure⟩ := bind_eq_ok.mp h
    cases hpure
    intro item hitem
    rw [List.mem_singleton.mp hitem]
    exact .int _ trivial
  · cases h
    exact fun item hitem => absurd hitem List.not_mem_nil

/-! ### Acceptance -/

theorem agree_symm (v w : JsonValue) (hv : v.Keyed) (hw : w.Keyed) (h : v.eq w = true) :
    w.eq v = true := eq_symm hv hw h

theorem agree_trans (v w u : JsonValue) (_ : v.Keyed) (_ : w.Keyed) (_ : u.Keyed)
    (hvw : v.eq w = true) (hwu : w.eq u = true) : v.eq u = true := eq_trans hvw hwu

/-- The values that go into the table are values that a reader makes. -/
theorem keyed_values {timestamp : AdaptedRow} (hrow : row.Keyed)
    (hitems : rowItems row columns = .ok items)
    (htimestamp : timestampItems dates row = .ok timestamp) :
    ∀ item ∈ canonicalItems items ++ timestamp, item.2.Keyed := by
  intro item hitem
  rcases List.mem_append.mp hitem with hitem | hitem
  · exact keyed_canonicalItems (keyed_of_rowItems hrow hitems) item hitem
  · exact keyed_timestampItems htimestamp item hitem

/-- A row is accepted when its values do not clash. -/
theorem accepted_iff (hdefaults : ∀ e ∈ defaults, e.2.Keyed) (hrow : row.Keyed)
    (hitems : rowItems row columns = .ok items) :
    Accepted dates defaults row columns ↔ ¬ Clashes dates defaults row columns := by
  have hpairwise {timestamp : AdaptedRow} (htimestamp : timestampItems dates row = .ok timestamp) :
      (∃ adapted, putUnambiguous defaults (canonicalItems items ++ timestamp) = .ok adapted) ↔ _ :=
    Merge.putAll_isOk_iff_pairwise agree_trans hdefaults (keyed_values hrow hitems htimestamp)
  constructor
  · rintro ⟨adapted, hadapted⟩ ⟨items', hitems', hclash⟩
    obtain ⟨items'', timestamp, hitems'', htimestamp, hput⟩ :=
      adaptQueryBuilderRow_eq_ok.mp hadapted
    obtain rfl := Except.ok.inj (hitems'.symm.trans hitems'')
    obtain rfl := Except.ok.inj (hitems'.symm.trans hitems)
    obtain ⟨field, hfield⟩ := hclash timestamp htimestamp
    exact hfield ((hpairwise htimestamp).mp ⟨adapted, hput⟩ field)
  · intro hclash
    by_contra haccepted
    refine hclash ⟨items, hitems, fun timestamp htimestamp => ?_⟩
    by_contra hfields
    push Not at hfields
    obtain ⟨adapted, hput⟩ := (hpairwise htimestamp).mpr hfields
    exact haccepted
      ⟨adapted, adaptQueryBuilderRow_eq_ok.mpr ⟨items, timestamp, hitems, htimestamp, hput⟩⟩

theorem canonicalItems_perm (h : items.Perm items') :
    (canonicalItems items).Perm (canonicalItems items') :=
  h.filterMap _

theorem timestampItems_congr (h : row.get? "timestamp" = row'.get? "timestamp") :
    timestampItems dates row = timestampItems dates row' := by
  rw [timestampItems, timestampItems, h]

/-- Whether a row is accepted does not depend on the order of its columns. -/
theorem accepted_rearranged (hdefaults : ∀ e ∈ defaults, e.2.Keyed) (hrow : row.Keyed)
    (h : Rearranged row columns row' columns') :
    Accepted dates defaults row columns ↔ Accepted dates defaults row' columns' := by
  obtain ⟨htimestamp, items, items', hitems, hitems', hperm⟩ := h
  have hput {timestamp : AdaptedRow} (h : timestampItems dates row = .ok timestamp) :
      (∃ adapted, putUnambiguous defaults (canonicalItems items ++ timestamp) = .ok adapted) ↔
        ∃ adapted, putUnambiguous defaults (canonicalItems items' ++ timestamp) = .ok adapted :=
    Merge.putAll_perm agree_symm agree_trans ((canonicalItems_perm hperm).append_right timestamp)
      hdefaults (keyed_values hrow hitems h)
  constructor
  · rintro ⟨adapted, hadapted⟩
    obtain ⟨_, timestamp, heq, htime, h⟩ := adaptQueryBuilderRow_eq_ok.mp hadapted
    obtain rfl := Except.ok.inj (hitems.symm.trans heq)
    obtain ⟨adapted', h'⟩ := (hput htime).mp ⟨adapted, h⟩
    exact ⟨adapted', adaptQueryBuilderRow_eq_ok.mpr
      ⟨items', timestamp, hitems', timestampItems_congr htimestamp ▸ htime, h'⟩⟩
  · rintro ⟨adapted, hadapted⟩
    obtain ⟨_, timestamp, heq, htime, h⟩ := adaptQueryBuilderRow_eq_ok.mp hadapted
    obtain rfl := Except.ok.inj (hitems'.symm.trans heq)
    rw [← timestampItems_congr htimestamp] at htime
    obtain ⟨adapted', h'⟩ := (hput htime).mpr ⟨adapted, h⟩
    exact ⟨adapted', adaptQueryBuilderRow_eq_ok.mpr ⟨items, timestamp, hitems, htime, h'⟩⟩

/-! ### What a row is adapted to -/

/-- An alias of a field has its value among those of the field. -/
theorem mem_valuesOf_canonicalItems {field : String} {v : JsonValue} :
    v ∈ Merge.valuesOf (canonicalItems items) field ↔
      ∃ name, (name, v) ∈ items ∧ fieldAliases.lookup name = some field := by
  rw [Merge.mem_valuesOf, canonicalItems, List.mem_filterMap]
  constructor
  · rintro ⟨⟨name, w⟩, hitem, hcanonical⟩
    obtain ⟨field', hfield, heq⟩ := Option.map_eq_some_iff.mp hcanonical
    obtain ⟨rfl, rfl⟩ := Prod.mk.inj heq
    exact ⟨name, hitem, hfield⟩
  · rintro ⟨name, hitem, hfield⟩
    exact ⟨(name, v), hitem, by rw [hfield]; rfl⟩

/-- Two aliases of a field in a row whose values do not clash have equal values, if they differ. -/
theorem eq_of_not_clashes (hdefaults : ∀ e ∈ defaults, e.2.Keyed) (hrow : row.Keyed)
    (hclash : ¬ Clashes dates defaults row columns) (hitems : rowItems row columns = .ok items)
    {field : String} {v w : JsonValue} (hv : v ∈ Merge.valuesOf (canonicalItems items) field)
    (hw : w ∈ Merge.valuesOf (canonicalItems items) field) (hne : v ≠ w) : v.eq w = true := by
  obtain ⟨adapted, hadapted⟩ := (accepted_iff hdefaults hrow hitems).mpr hclash
  obtain ⟨_, timestamp, heq, htime, hput⟩ := adaptQueryBuilderRow_eq_ok.mp hadapted
  obtain rfl := Except.ok.inj (hitems.symm.trans heq)
  have hkeyed := keyed_canonicalItems (keyed_of_rowItems hrow hitems)
  have hpairwise := (Merge.putAll_isOk_iff_pairwise agree_trans hdefaults
    (keyed_values hrow hitems htime)).mp ⟨adapted, hput⟩ field
  rw [Merge.valuesOf_append, ← List.append_assoc] at hpairwise
  have hcolumns := (List.pairwise_append.mp (List.pairwise_append.mp hpairwise).1).2.1
  exact Merge.agree_of_pairwise agree_symm (fun a ha => hkeyed _ (Merge.mem_valuesOf.mp ha))
    hcolumns hv hw hne

/-- Without aliases that are equal but different, all orders of columns give the same row. -/
theorem sameValue_of_rearranged (hnodup : (defaults.map Prod.fst).Nodup)
    (hdefaults : ∀ e ∈ defaults, e.2.Keyed) (hrow : row.Keyed)
    (hsame : ¬ EqualButDifferent row columns) (hclash : ¬ Clashes dates defaults row columns)
    (h : Rearranged row columns row' columns') {adapted adapted' : AdaptedRow}
    (hadapted : adaptQueryBuilderRow dates row columns defaults = .ok adapted)
    (hadapted' : adaptQueryBuilderRow dates row' columns' defaults = .ok adapted') :
    SameValue (.dict adapted) (.dict adapted') := by
  obtain ⟨htimestamp, items, items', hitems, hitems', hperm⟩ := h
  obtain ⟨_, timestamp, heq, htime, hput⟩ := adaptQueryBuilderRow_eq_ok.mp hadapted
  obtain rfl := Except.ok.inj (hitems.symm.trans heq)
  obtain ⟨_, timestamp', heq', htime', hput'⟩ := adaptQueryBuilderRow_eq_ok.mp hadapted'
  obtain rfl := Except.ok.inj (hitems'.symm.trans heq')
  rw [timestampItems_congr htimestamp] at htime
  obtain rfl := Except.ok.inj (htime.symm.trans htime')
  refine sortKeys_eq_of_lookup (Merge.nodup_putAll hnodup hput) (Merge.nodup_putAll hnodup hput')
    fun field => ?_
  have hvalues := Merge.valuesOf_perm (canonicalItems_perm hperm) field
  have hall : ∀ v ∈ Merge.valuesOf (canonicalItems items) field,
      ∀ w ∈ Merge.valuesOf (canonicalItems items) field, v.sortKeys = w.sortKeys := by
    intro v hv w hw
    by_contra hdiffer
    have heq := eq_of_not_clashes hdefaults hrow hclash hitems hv hw fun h => hdiffer (h ▸ rfl)
    obtain ⟨name, hname, hfield⟩ := mem_valuesOf_canonicalItems.mp hv
    obtain ⟨name', hname', hfield'⟩ := mem_valuesOf_canonicalItems.mp hw
    exact hsame
      ⟨items, hitems, field, name, name', v, w, hname, hname', hfield, hfield', heq, hdiffer⟩
  have hlast : ((Merge.valuesOf (canonicalItems items) field).getLast?).map sortKeys =
      ((Merge.valuesOf (canonicalItems items') field).getLast?).map sortKeys := by
    cases hv : (Merge.valuesOf (canonicalItems items) field).getLast? with
    | none =>
      rw [List.getLast?_eq_none_iff] at hv
      rw [hv, List.nil_perm] at hvalues
      rw [hvalues]
      rfl
    | some v =>
      cases hw : (Merge.valuesOf (canonicalItems items') field).getLast? with
      | none =>
        rw [List.getLast?_eq_none_iff] at hw
        rw [hw, List.perm_nil] at hvalues
        rw [hvalues] at hv
        cases hv
      | some w =>
        exact congrArg some (hall v (List.mem_of_getLast? hv) w
          (hvalues.mem_iff.mpr (List.mem_of_getLast? hw)))
  rw [Merge.lookup_putAll hput, Merge.lookup_putAll hput', Merge.valuesOf_append,
    Merge.valuesOf_append, List.getLast?_append, List.getLast?_append]
  -- the timestamp comes last, then the columns, then the default
  cases (Merge.valuesOf timestamp field).getLast? with
  | some v => rfl
  | none =>
    simp only [Option.none_or, Option.map_or]
    rw [hlast]

/-- A row is adapted as it should be, whatever the order of its columns, just when its values clash
or no two aliases of a field are equal but different. -/
theorem row_adaptation (hnodup : (defaults.map Prod.fst).Nodup)
    (hdefaults : ∀ e ∈ defaults, e.2.Keyed) (hrow : row.Keyed) :
    OrderIndependent dates defaults row columns ∧ RejectsDifferent dates defaults row columns ↔
      Clashes dates defaults row columns ∨ ¬ EqualButDifferent row columns := by
  constructor
  · rintro ⟨-, hrejects⟩
    by_contra hcondition
    push Not at hcondition
    obtain ⟨hclash, items, hitems, field, name, name', v, w, hv, hw, hfield, hfield', heq, hdiffer⟩ :=
      hcondition
    have htimestamp : Rearranged row columns row columns :=
      ⟨rfl, items, items, hitems, hitems, .refl _⟩
    exact hrejects ⟨items, hitems, field, name, name', v, w, hv, hw, hfield, hfield', hdiffer⟩ row
      columns htimestamp ((accepted_iff hdefaults hrow hitems).mpr hclash)
  · intro hcondition
    constructor
    · intro row' columns' hrearranged
      refine ⟨accepted_rearranged hdefaults hrow hrearranged, fun adapted adapted' h h' => ?_⟩
      obtain ⟨items, -, hitems, -⟩ := adaptQueryBuilderRow_eq_ok.mp h
      have hclash := (accepted_iff hdefaults hrow hitems).mp ⟨adapted, h⟩
      exact sameValue_of_rearranged hnodup hdefaults hrow (hcondition.resolve_left hclash) hclash
        hrearranged h h'
    · rintro ⟨items, hitems, field, name, name', v, w, hv, hw, hfield, hfield', hdiffer⟩ row'
        columns' hrearranged haccepted
      have hclash := (accepted_iff hdefaults hrow hitems).mp
        ((accepted_rearranged hdefaults hrow hrearranged).mpr haccepted)
      have hv' := mem_valuesOf_canonicalItems.mpr ⟨name, hv, hfield⟩
      have hw' := mem_valuesOf_canonicalItems.mpr ⟨name', hw, hfield'⟩
      have hne : v ≠ w := by
        rintro rfl
        exact hdiffer rfl
      exact hcondition.resolve_left hclash ⟨items, hitems, field, name, name', v, w, hv, hw, hfield,
        hfield', eq_of_not_clashes hdefaults hrow hclash hitems hv' hw' hne, hdiffer⟩

/-- A version and a truth value under two aliases of one field. -/
def sampleColumns : List (String × JsonValue) :=
  [("schema_version", .int 1), ("tracefence.schema.version", .bool true)]

/-- A row of the columns in an order. -/
def sampleRow (items : List (String × JsonValue)) : JsonValue := .dict [("data", .dict items)]

/-- The value that comes last stays. -/
theorem adapted_sample {v w : JsonValue} {name name' : String} (heq : v.eq w = true)
    (hname : fieldAliases.lookup name = some "schema_version")
    (hname' : fieldAliases.lookup name' = some "schema_version") :
    adaptQueryBuilderRow (fun _ => none) (sampleRow [(name, v), (name', w)]) none [] =
      .ok [("schema_version", w)] := by
  refine adaptQueryBuilderRow_eq_ok.mpr ⟨[(name, v), (name', w)], [], rfl, rfl, ?_⟩
  have hitems : canonicalItems [(name, v), (name', w)] ++ [] =
      [("schema_version", v), ("schema_version", w)] := by
    simp [canonicalItems, hname, hname']
  rw [hitems, putUnambiguous, Merge.putAll_cons]
  simp [Merge.put, Merge.putAll, heq]

/-- Two orders of the columns give different rows, and neither is rejected. -/
theorem row_adaptation_fails :
    ¬ OrderIndependent (fun _ => none) [] (sampleRow sampleColumns) none ∧
      ¬ RejectsDifferent (fun _ => none) [] (sampleRow sampleColumns) none := by
  have hint : (JsonValue.int 1).atom? = some (.number Binary64.unit) :=
    atom?_eq_number.mpr (congrArg some (Int.one_mul _))
  have hbool : (JsonValue.bool true).atom? = some (.number Binary64.unit) :=
    atom?_eq_number.mpr (congrArg some (if_pos rfl))
  have heq := (eq_of_atom hint).mpr hbool
  have heq' := (eq_of_atom hbool).mpr hint
  have hname : fieldAliases.lookup "schema_version" = some "schema_version" := by decide +kernel
  have hname' : fieldAliases.lookup "tracefence.schema.version" = some "schema_version" := by
    decide +kernel
  have hadapted := adapted_sample heq hname hname'
  have hadapted' := adapted_sample heq' hname' hname
  have hrearranged : Rearranged (sampleRow sampleColumns) none (sampleRow sampleColumns.reverse)
      none := ⟨rfl, sampleColumns, sampleColumns.reverse, rfl, rfl, (List.reverse_perm _).symm⟩
  have hdiffer : ¬ SameValue (.int 1) (.bool true) := by
    intro h
    cases h
  constructor
  · intro h
    have hsame := (h _ _ hrearranged).2 _ _ hadapted hadapted'
    cases hsame
  · intro h
    refine h ⟨sampleColumns, rfl, "schema_version", _, _, _, _, List.mem_cons_self ..,
      List.mem_cons_of_mem _ (List.mem_cons_self ..), hname, hname', hdiffer⟩ _ _ hrearranged ?_
    exact ⟨_, hadapted'⟩

/-- The columns of a command's span, which name the command twice. -/
def sampleAliases : List (String × JsonValue) :=
  [("command_id", .str "command-123"), ("tracefence.run.id", .str "run-123"),
    ("name", .str "tracefence.control.command_issue"),
    ("attribute.tracefence.command.id", .str "command-123")]

theorem sampleAliases_keyed : (sampleRow sampleAliases).Keyed := by
  have hnodup : (sampleAliases.map Prod.fst).Nodup := by decide
  refine .dict (List.nodup_singleton _) fun e he => ?_
  rw [List.mem_singleton.mp he]
  refine .dict hnodup fun e he => ?_
  simp only [sampleAliases, List.mem_cons, List.not_mem_nil, or_false] at he
  rcases he with rfl | rfl | rfl | rfl <;> exact .str _ trivial

/-- The two aliases carry one value. -/
theorem sampleAliases_agree : ¬ EqualButDifferent (sampleRow sampleAliases) none := by
  have hvalue : ∀ item ∈ sampleAliases, ∀ field, fieldAliases.lookup item.1 = some field →
      [("command_id", JsonValue.str "command-123"), ("run_id", .str "run-123"),
        ("operation", .str "tracefence.control.command_issue")].lookup field = some item.2 := by
    intro item hitem field hfield
    simp only [sampleAliases, List.mem_cons, List.not_mem_nil, or_false] at hitem
    rcases hitem with rfl | rfl | rfl | rfl <;>
    · obtain rfl := Option.some.inj hfield
      rfl
  rintro ⟨items, hitems, field, name, name', v, w, hv, hw, hfield, hfield', -, hdiffer⟩
  obtain rfl : sampleAliases = items := Except.ok.inj hitems
  have heq := (hvalue _ hv field hfield).symm.trans (hvalue _ hw field hfield')
  exact hdiffer (congrArg JsonValue.sortKeys (Option.some.inj heq))

/-- The columns in the opposite order are adapted to the same row. -/
theorem row_adaptation_sample : ∃ adapted adapted',
    adaptQueryBuilderRow (fun _ => none) (sampleRow sampleAliases) none [] = .ok adapted ∧
      adaptQueryBuilderRow (fun _ => none) (sampleRow sampleAliases.reverse) none [] =
        .ok adapted' ∧
      SameValue (.dict adapted) (.dict adapted') := by
  have hrearranged : Rearranged (sampleRow sampleAliases) none (sampleRow sampleAliases.reverse)
      none := ⟨rfl, sampleAliases, sampleAliases.reverse, rfl, rfl, (List.reverse_perm _).symm⟩
  have hdefaults : (([] : AdaptedRow).map Prod.fst).Nodup := List.nodup_nil
  have hindependent := ((@row_adaptation (fun _ => none) _ _ none hdefaults
    (fun e he => absurd he List.not_mem_nil) sampleAliases_keyed).mpr
      (.inr sampleAliases_agree)).1 _ _ hrearranged
  have hadapted : adaptQueryBuilderRow (fun _ => none) (sampleRow sampleAliases) none [] =
      .ok [("command_id", .str "command-123"), ("run_id", .str "run-123"),
        ("operation", .str "tracefence.control.command_issue")] := rfl
  obtain ⟨adapted', hadapted'⟩ := hindependent.1.mp ⟨_, hadapted⟩
  exact ⟨_, adapted', hadapted, hadapted', hindependent.2 _ _ hadapted hadapted'⟩

end TraceFence
