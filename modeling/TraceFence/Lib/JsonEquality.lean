import Mathlib.Data.List.Forall2
import Mathlib.Data.List.Nodup
import Mathlib.Data.List.Perm.Subperm
import Mathlib.Tactic.SplitIfs
import TraceFence.Lib.Json

/-!
# Equality of JSON values

The equality of the language is symmetric and transitive, but it is coarser than being the same
value: numbers of different types may be equal. It is not reflexive either, for the sake of what is
not a number. What it compares of a value without parts is its atom; lists and objects are compared
part by part.

## Main definitions

* `JsonValue.Atom`, `JsonValue.atom?` — what equality compares of a value without parts
* `JsonValue.Keyed` — every object has each key once

## Main results

* `JsonValue.eq_cases` — what two equal values are
* `JsonValue.eq_symm`, `JsonValue.eq_trans` — equality is symmetric and transitive
* `JsonValue.sortKeys_eq_of_lookup` — objects with the same values of keys are the same
-/

namespace JsonValue

variable {v w u : JsonValue} {m : ℤ} {items items' : List JsonValue}
variable {entries entries' : List (String × JsonValue)}

/-! ### Values without parts -/

/-- What equality compares of a value without parts. -/
inductive Atom
  | null
  | str (s : String)
  | number (n : ℤ)
  | infinite (x : Binary64)

/-- The atom of a value. What is not a number has none. -/
def atom? : JsonValue → Option Atom
  | .null => some .null
  | .str s => some (.str s)
  | .float x =>
    if x.IsFinite then some (.number x.scaled) else if x.isNan then none else some (.infinite x)
  | v => v.number.map .number

theorem atom?_eq_number : v.atom? = some (.number m) ↔ v.number = some m := by
  cases v with
  | null | str | list | dict => simp [atom?, number]
  | bool | int => simp [atom?]
  | float x =>
    rw [atom?, number]
    split_ifs <;> simp

theorem eqAtom_of_number (hv : v.number = some m) : eqAtom v w = true ↔ w.number = some m := by
  cases v with
  | null | str | list | dict => cases hv
  | bool b =>
    rw [eqAtom, hv]
    · cases w.number <;> simp [eq_comm]
    all_goals simp
  | int n =>
    rw [eqAtom, hv]
    · cases w.number <;> simp [eq_comm]
    all_goals simp
  | float x =>
    have hfinite : x.IsFinite := by
      by_contra hx
      rw [number, if_neg hx] at hv
      cases hv
    have hscaled : x.scaled = m := by
      rw [number, if_pos hfinite] at hv
      exact Option.some.inj hv
    cases w with
    | null | str | list | dict | bool | int =>
      rw [eqAtom, hv]
      · generalize number _ = o
        cases o <;> simp [eq_comm]
      all_goals simp
    | float y =>
      show (if x.IsFinite ∧ y.IsFinite then decide (x.scaled = y.scaled)
        else !x.isNan && decide (x = y)) = true ↔
          (if y.IsFinite then some y.scaled else none) = some m
      rw [hscaled]
      by_cases hy : y.IsFinite
      · rw [if_pos ⟨hfinite, hy⟩, if_pos hy]
        exact decide_eq_true_iff.trans (eq_comm.trans Option.some_inj.symm)
      · have hne : x ≠ y := by
          rintro rfl
          exact hy hfinite
        rw [if_neg fun h => hy h.2, if_neg hy, decide_eq_false hne, Bool.and_false]
        exact iff_of_false Bool.false_ne_true (by simp)

theorem eqAtom_null : eqAtom .null w = true ↔ w.atom? = some .null := by
  cases w with
  | null => exact iff_of_true rfl rfl
  | bool | int | float | str | list | dict =>
    refine iff_of_false Bool.false_ne_true ?_
    simp only [atom?]
    try split_ifs
    all_goals simp

theorem eqAtom_str (s : String) : eqAtom (.str s) w = true ↔ w.atom? = some (.str s) := by
  cases w with
  | str t =>
    refine decide_eq_true_iff.trans ?_
    simp [atom?, eq_comm]
  | bool | int | float | null | list | dict =>
    refine iff_of_false Bool.false_ne_true ?_
    simp only [atom?]
    try split_ifs
    all_goals simp

/-- A float that is not finite is equal to itself only, if it is a number at all. -/
theorem eqAtom_infinite {x : Binary64} (hx : ¬ x.IsFinite) :
    eqAtom (.float x) w = true ↔ x.isNan = false ∧ w.atom? = some (.infinite x) := by
  have hnumber : number (.float x) = none := if_neg hx
  have hother (hw : eqAtom (.float x) w = false) (hw' : w.atom? ≠ some (.infinite x)) :
      eqAtom (.float x) w = true ↔ x.isNan = false ∧ w.atom? = some (.infinite x) :=
    iff_of_false (by rw [hw]; exact Bool.false_ne_true) fun h => hw' h.2
  cases w with
  | float y =>
    show (if x.IsFinite ∧ y.IsFinite then decide (x.scaled = y.scaled)
      else !x.isNan && decide (x = y)) = true ↔ x.isNan = false ∧
        (if y.IsFinite then some (Atom.number y.scaled) else if y.isNan then none
          else some (Atom.infinite y)) = some (Atom.infinite x)
    rw [if_neg fun h => hx h.1, Bool.and_eq_true, Bool.not_eq_true', decide_eq_true_iff]
    refine and_congr_right fun hnan => ?_
    split_ifs with hy hnan'
    · refine iff_of_false ?_ (by simp)
      rintro rfl
      exact hx hy
    · refine iff_of_false ?_ (by simp)
      rintro rfl
      rw [hnan'] at hnan
      cases hnan
    · simp [eq_comm]
  | bool | int | null | str | list | dict =>
    refine hother ?_ (by simp [atom?])
    rw [eqAtom, hnumber]
    all_goals simp

/-- Values without parts are equal if there is something to compare and it is the same. -/
theorem eqAtom_iff : eqAtom v w = true ↔ ∃ a, v.atom? = some a ∧ w.atom? = some a := by
  have hknown {a : Atom} (hv : v.atom? = some a) :
      (∃ a, v.atom? = some a ∧ w.atom? = some a) ↔ w.atom? = some a := by
    simp [hv]
  cases v with
  | null => exact eqAtom_null.trans (hknown rfl).symm
  | str s => exact (eqAtom_str s).trans (hknown rfl).symm
  | bool b => exact (eqAtom_of_number rfl).trans (atom?_eq_number.symm.trans (hknown rfl).symm)
  | int n => exact (eqAtom_of_number rfl).trans (atom?_eq_number.symm.trans (hknown rfl).symm)
  | float x =>
    by_cases hx : x.IsFinite
    · have hnumber : number (.float x) = some x.scaled := if_pos hx
      exact (eqAtom_of_number hnumber).trans
        (atom?_eq_number.symm.trans (hknown (atom?_eq_number.mpr hnumber)).symm)
    · rw [eqAtom_infinite hx]
      cases hnan : x.isNan with
      | true => simp [atom?, hx, hnan]
      | false =>
        rw [hknown (a := .infinite x) (by simp [atom?, hx, hnan])]
        simp
  | list | dict =>
    refine iff_of_false ?_ ?_
    · cases w <;> exact Bool.false_ne_true
    · rintro ⟨a, ha, -⟩
      cases ha

/-! ### Values with parts -/

/-- Equality among the parts of values: a reader has only one part that is not a number. -/
def Part (v w : JsonValue) : Prop := (v.isNan && w.isNan || eq v w) = true

theorem eqItems_iff : eqItems items items' = true ↔ List.Forall₂ Part items items' := by
  induction items generalizing items' with
  | nil => cases items' <;> simp [eqItems]
  | cons v items ih =>
    cases items' with
    | nil => simp [eqItems]
    | cons w items' =>
      rw [eqItems, Bool.and_eq_true, ih, List.forall₂_cons]
      rfl

theorem eqEntries_iff : eqEntries entries entries' = true ↔
    ∀ e ∈ entries, ∃ w, entries'.lookup e.1 = some w ∧ Part e.2 w := by
  induction entries with
  | nil => simp [eqEntries]
  | cons e entries ih =>
    obtain ⟨key, v⟩ := e
    rw [eqEntries, Bool.and_eq_true, ih, List.forall_mem_cons, eqEntry]
    refine and_congr_left fun _ => ?_
    cases hlookup : entries'.lookup key with
    | none => simp
    | some w => simp [Part]

/-- A value with something to compare has no parts. -/
theorem eq_of_atom {a : Atom} (hv : v.atom? = some a) : eq v w = true ↔ w.atom? = some a := by
  have heq : eq v w = eqAtom v w := by
    cases v with
    | list | dict => cases hv
    | null | bool | int | float | str => cases w <;> rfl
  rw [heq, eqAtom_iff]
  simp [hv]

theorem eq_list : eq (.list items) (.list items') = true ↔ List.Forall₂ Part items items' := by
  rw [eq, eqItems_iff]

theorem eq_dict : eq (.dict entries) (.dict entries') = true ↔
    entries.length = entries'.length ∧
      ∀ e ∈ entries, ∃ w, entries'.lookup e.1 = some w ∧ Part e.2 w := by
  rw [eq, Bool.and_eq_true, eqEntries_iff, decide_eq_true_iff]

/-- What two equal values are. -/
theorem eq_cases (h : eq v w = true) :
    (∃ a, v.atom? = some a ∧ w.atom? = some a) ∨
    (∃ items items', v = .list items ∧ w = .list items') ∨
    ∃ entries entries', v = .dict entries ∧ w = .dict entries' := by
  have hatom (heq : eq v w = eqAtom v w) : ∃ a, v.atom? = some a ∧ w.atom? = some a :=
    eqAtom_iff.mp (heq ▸ h)
  cases v with
  | null | bool | int | float | str => exact .inl (hatom (by cases w <;> rfl))
  | list items =>
    cases w with
    | list items' => exact .inr (.inl ⟨items, items', rfl, rfl⟩)
    | null | bool | int | float | str | dict => exact .inl (hatom rfl)
  | dict entries =>
    cases w with
    | dict entries' => exact .inr (.inr ⟨entries, entries', rfl, rfl⟩)
    | null | bool | int | float | str | list => exact .inl (hatom rfl)

theorem Part.symm (hsymm : eq v w = true → eq w v = true) (h : Part v w) : Part w v := by
  unfold Part at h ⊢
  rw [Bool.or_eq_true, Bool.and_eq_true] at h ⊢
  exact h.imp And.symm hsymm

theorem isNan_of_atom? {a : Atom} (h : v.atom? = some a) : v.isNan = false := by
  cases v with
  | null | bool | int | str | list | dict => rfl
  | float x =>
    show x.isNan = false
    by_contra hnan
    rw [Bool.not_eq_false] at hnan
    have hfinite : ¬ x.IsFinite := by
      intro hx
      rw [Binary64.isNan, decide_eq_true hx, Bool.not_true, Bool.false_and] at hnan
      cases hnan
    rw [atom?, if_neg hfinite, if_pos hnan] at h
    cases h

/-- Equal values are numbers, if they are floats. -/
theorem isNan_of_eq (h : eq v w = true) : v.isNan = false ∧ w.isNan = false := by
  rcases eq_cases h with ⟨a, hv, hw⟩ | ⟨items, items', rfl, rfl⟩ | ⟨entries, entries', rfl, rfl⟩
  · exact ⟨isNan_of_atom? hv, isNan_of_atom? hw⟩
  · exact ⟨rfl, rfl⟩
  · exact ⟨rfl, rfl⟩

theorem Part.trans (htrans : eq v w = true → eq w u = true → eq v u = true)
    (hvw : Part v w) (hwu : Part w u) : Part v u := by
  unfold Part at hvw hwu ⊢
  rw [Bool.or_eq_true, Bool.and_eq_true] at hvw hwu ⊢
  rcases hvw with hvw | hvw
  · rcases hwu with hwu | hwu
    · exact .inl ⟨hvw.1, hwu.2⟩
    · rw [(isNan_of_eq hwu).1] at hvw
      cases hvw.2
  · rcases hwu with hwu | hwu
    · rw [(isNan_of_eq hvw).2] at hwu
      cases hwu.1
    · exact .inr (htrans hvw hwu)

/-- Objects of the same length have the same keys if the keys of one are keys of the other. -/
theorem mem_keys_of_length (hnodup : (entries.map Prod.fst).Nodup)
    (hlength : entries.length = entries'.length)
    (hkeys : ∀ e ∈ entries, ∃ w, entries'.lookup e.1 = some w) {e' : String × JsonValue}
    (he' : e' ∈ entries') : ∃ e ∈ entries, e.1 = e'.1 := by
  have hsub : entries.map Prod.fst ⊆ entries'.map Prod.fst := by
    intro key hkey
    obtain ⟨e, he, rfl⟩ := List.mem_map.mp hkey
    obtain ⟨w, hw⟩ := hkeys e he
    exact List.mem_map.mpr ⟨_, mem_of_lookup hw, rfl⟩
  have hperm : (entries.map Prod.fst).Perm (entries'.map Prod.fst) :=
    (List.subperm_of_subset hnodup hsub).perm_of_length_le (by simp [hlength])
  exact List.mem_map.mp (hperm.mem_iff.mpr (List.mem_map_of_mem he'))

/-! ### Symmetry and transitivity -/

/-- A value that a reader makes: an object has every key once. -/
def KeyedNode : JsonValue → Prop
  | .dict entries => (entries.map Prod.fst).Nodup
  | _ => True

def Keyed (v : JsonValue) : Prop := v.All KeyedNode

theorem Keyed.nodup (h : (dict entries).Keyed) : (entries.map Prod.fst).Nodup := by
  cases h with
  | dict hnodup _ => exact hnodup

theorem Keyed.of_entry (h : (dict entries).Keyed) {e : String × JsonValue} (he : e ∈ entries) :
    e.2.Keyed := by
  cases h with
  | dict _ parts => exact parts e he

theorem Keyed.of_item (h : (list items).Keyed) (hv : v ∈ items) : v.Keyed := by
  cases h with
  | list _ parts => exact parts v hv

theorem eq_symm (hv : v.Keyed) (hw : w.Keyed) (h : eq v w = true) : eq w v = true := by
  induction v using induct generalizing w with
  | null | bool | int | float | str =>
    rcases eq_cases h with ⟨a, ha, hwa⟩ | ⟨_, _, hv', -⟩ | ⟨_, _, hv', -⟩
    · exact (eq_of_atom hwa).mpr ha
    · cases hv'
    · cases hv'
  | list items ih =>
    rcases eq_cases h with ⟨a, ha, -⟩ | ⟨items, items', hv', rfl⟩ | ⟨_, _, hv', -⟩
    · cases ha
    · cases hv'
      rw [eq_list, List.forall₂_iff_get] at h ⊢
      refine ⟨h.1.symm, fun i hi hi' => (h.2 i hi' hi).symm ?_⟩
      exact ih _ (List.get_mem ..) (hv.of_item (List.get_mem ..)) (hw.of_item (List.get_mem ..))
    · cases hv'
  | dict entries ih =>
    rcases eq_cases h with ⟨a, ha, -⟩ | ⟨_, _, hv', -⟩ | ⟨entries, entries', hv', rfl⟩
    · cases ha
    · cases hv'
    · cases hv'
      rw [eq_dict] at h ⊢
      obtain ⟨hlength, hparts⟩ := h
      refine ⟨hlength.symm, fun e' he' => ?_⟩
      obtain ⟨e, he, hkey⟩ := mem_keys_of_length hv.nodup hlength
        (fun e he => (hparts e he).imp fun _ h => h.1) he'
      obtain ⟨w, hlookup, hpart⟩ := hparts e he
      have hvalue : e'.2 = w := by
        rw [hkey, lookup_of_mem hw.nodup he'] at hlookup
        exact Option.some.inj hlookup
      subst hvalue
      exact ⟨e.2, hkey ▸ lookup_of_mem hv.nodup he,
        hpart.symm (ih e he (hv.of_entry he) (hw.of_entry he'))⟩

theorem eq_trans (hvw : eq v w = true) (hwu : eq w u = true) : eq v u = true := by
  induction v using induct generalizing w u with
  | null | bool | int | float | str =>
    rcases eq_cases hvw with ⟨a, ha, hwa⟩ | ⟨_, _, hv', -⟩ | ⟨_, _, hv', -⟩
    · exact (eq_of_atom ha).mpr ((eq_of_atom hwa).mp hwu)
    · cases hv'
    · cases hv'
  | list items ih =>
    rcases eq_cases hvw with ⟨a, ha, -⟩ | ⟨items, items', hv', rfl⟩ | ⟨_, _, hv', -⟩
    · cases ha
    · cases hv'
      rcases eq_cases hwu with ⟨a, ha, -⟩ | ⟨_, items'', hw', rfl⟩ | ⟨_, _, hw', -⟩
      · cases ha
      · cases hw'
        rw [eq_list, List.forall₂_iff_get] at hvw hwu ⊢
        refine ⟨hvw.1.trans hwu.1, fun i hi hi' => ?_⟩
        have hi'' := hvw.1 ▸ hi
        exact (hvw.2 i hi hi'').trans (ih _ (List.get_mem ..)) (hwu.2 i hi'' hi')
      · cases hw'
    · cases hv'
  | dict entries ih =>
    rcases eq_cases hvw with ⟨a, ha, -⟩ | ⟨_, _, hv', -⟩ | ⟨entries, entries', hv', rfl⟩
    · cases ha
    · cases hv'
    · cases hv'
      rcases eq_cases hwu with ⟨a, ha, -⟩ | ⟨_, _, hw', -⟩ | ⟨_, entries'', hw', rfl⟩
      · cases ha
      · cases hw'
      · cases hw'
        rw [eq_dict] at hvw hwu ⊢
        refine ⟨hvw.1.trans hwu.1, fun e he => ?_⟩
        obtain ⟨w, hlookup, hpart⟩ := hvw.2 e he
        obtain ⟨u, hlookup', hpart'⟩ := hwu.2 _ (mem_of_lookup hlookup)
        exact ⟨u, hlookup', hpart.trans (ih e he) hpart'⟩

/-- Objects with the same values of keys are the same, but for the order of keys. -/
theorem sortKeys_eq_of_lookup (hnodup : (entries.map Prod.fst).Nodup)
    (hnodup' : (entries'.map Prod.fst).Nodup)
    (h : ∀ key, (entries.lookup key).map sortKeys = (entries'.lookup key).map sortKeys) :
    (dict entries).sortKeys = (dict entries').sortKeys := by
  rw [sortKeys_dict, sortKeys_dict]
  have hkeys := (keys_sortParts entries).symm ▸ hnodup
  have hkeys' := (keys_sortParts entries').symm ▸ hnodup'
  refine congrArg dict (sortEntries_eq_of_perm ?_ hkeys)
  refine (List.perm_ext_iff_of_nodup hkeys.of_map hkeys'.of_map).mpr fun e => ?_
  have hmem {es : List (String × JsonValue)} (hes : (es.map Prod.fst).Nodup) :
      e ∈ es ↔ es.lookup e.1 = some e.2 := ⟨lookup_of_mem hes, mem_of_lookup⟩
  rw [hmem hkeys, hmem hkeys', lookup_mapValues, lookup_mapValues, h]

end JsonValue
