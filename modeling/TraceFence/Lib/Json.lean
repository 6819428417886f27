import Mathlib.Data.Finset.Basic
import Mathlib.Data.List.Sort
import Mathlib.Data.String.Basic

/-!
# JSON documents

The values that a reader of JSON makes of a document: the numbers are integers of any size and
binary floating point numbers, and an object is a list of named values.

## Main definitions

* `JsonValue` — a value
* `JsonValue.get?` — the value of a key of an object
* `JsonValue.All`, `JsonValue.Proper` — what holds of a value and of its parts
* `JsonValue.sortKeys` — a value with the keys of every object in order
* `JsonValue.eq` — whether two values are equal

## Main results

* `JsonValue.eq_sortKeys` — the order of keys does not matter
-/

/-- A binary floating point number of 64 bits. -/
structure Binary64 where
  bits : BitVec 64
  deriving DecidableEq

namespace Binary64

/-- Neither infinite nor a NaN: not every bit of the exponent is set. -/
def IsFinite (x : Binary64) : Prop := x.bits.extractLsb' 52 11 ≠ 2047#11

instance (x : Binary64) : Decidable x.IsFinite := inferInstanceAs (Decidable (_ ≠ _))

/-- The bits behind the point. -/
def fraction (x : Binary64) : ℕ := (x.bits.extractLsb' 0 52).toNat

/-- Not a number. -/
def isNan (x : Binary64) : Bool := !decide x.IsFinite && decide (x.fraction ≠ 0)

/-- The least positive number is one part of this. -/
def unit : ℕ := Nat.pow 2 1074

/-- A finite number in parts of the least positive one. -/
def scaled (x : Binary64) : ℤ :=
  let exponent := (x.bits.extractLsb' 52 11).toNat
  let magnitude := if exponent = 0 then x.fraction
    else (Nat.pow 2 52 + x.fraction) * Nat.pow 2 (exponent - 1)
  if x.bits.msb then -magnitude else magnitude

end Binary64

/-- A JSON value. -/
inductive JsonValue
  | null
  | bool (value : Bool)
  | int (value : ℤ)
  | float (value : Binary64)
  | str (text : String)
  | list (items : List JsonValue)
  | dict (entries : List (String × JsonValue))

namespace JsonValue

/-- The value of a key of an object. -/
def get? (value : JsonValue) (key : String) : Option JsonValue :=
  match value with
  | .dict entries => entries.lookup key
  | _ => none

@[simp] theorem get?_dict (entries : List (String × JsonValue)) (key : String) :
    (dict entries).get? key = entries.lookup key := rfl

/-- The entries of a value, if it is an object. -/
def dict? : JsonValue → Option (List (String × JsonValue))
  | .dict entries => some entries
  | _ => none

/-- The items of a value, if it is a list. -/
def list? : JsonValue → Option (List JsonValue)
  | .list items => some items
  | _ => none

/-- The text of a value, if it is one. -/
def text? : JsonValue → Option String
  | .str text => some text
  | _ => none

theorem dict?_eq_some {value : JsonValue} {entries : List (String × JsonValue)} :
    value.dict? = some entries ↔ value = .dict entries := by
  cases value <;> simp [dict?]

theorem text?_eq_some {value : JsonValue} {text : String} :
    value.text? = some text ↔ value = .str text := by
  cases value <;> simp [text?]

/-- The keys of an object. -/
def keys (entries : List (String × JsonValue)) : Finset String := (entries.map Prod.fst).toFinset

/-- An object has values for its keys only. -/
theorem get?_eq_none {entries : List (String × JsonValue)} {key : String} (h : key ∉ keys entries) :
    (dict entries).get? key = none := by
  refine List.lookup_eq_none_iff.mpr fun entry hentry => ?_
  have hne : key ≠ entry.1 := by
    rintro rfl
    exact h (List.mem_toFinset.mpr (List.mem_map_of_mem hentry))
  exact bne_iff_ne.mpr hne

/-! ### Parts of values -/

/-- Induction over a value: a list and an object come after their parts. -/
@[elab_as_elim]
theorem induct {motive : JsonValue → Prop} (null : motive .null) (bool : ∀ b, motive (.bool b))
    (int : ∀ n, motive (.int n)) (float : ∀ x, motive (.float x)) (str : ∀ s, motive (.str s))
    (list : ∀ items, (∀ v ∈ items, motive v) → motive (.list items))
    (dict : ∀ entries, (∀ e ∈ entries, motive e.2) → motive (.dict entries)) :
    ∀ v, motive v := by
  refine @JsonValue.rec motive (fun items => ∀ v ∈ items, motive v)
    (fun entries => ∀ e ∈ entries, motive e.2) (fun e => motive e.2) null bool int float str
    list dict ?_ ?_ ?_ ?_ ?_
  · intro v hv
    cases hv
  · intro head tail hhead htail v hv
    rcases List.mem_cons.mp hv with rfl | hv
    · exact hhead
    · exact htail v hv
  · intro e he
    cases he
  · intro head tail hhead htail e he
    rcases List.mem_cons.mp he with rfl | he
    · exact hhead
    · exact htail e he
  · intro key value hvalue
    exact hvalue

/-- A property of a value and of all its parts. -/
inductive All (p : JsonValue → Prop) : JsonValue → Prop
  | null (h : p .null) : All p .null
  | bool (b : Bool) (h : p (.bool b)) : All p (.bool b)
  | int (n : ℤ) (h : p (.int n)) : All p (.int n)
  | float (x : Binary64) (h : p (.float x)) : All p (.float x)
  | str (s : String) (h : p (.str s)) : All p (.str s)
  | list {items : List JsonValue} (h : p (.list items)) (parts : ∀ v ∈ items, All p v) :
      All p (.list items)
  | dict {entries : List (String × JsonValue)} (h : p (.dict entries))
      (parts : ∀ e ∈ entries, All p e.2) : All p (.dict entries)

/-- A value of the language: floats are finite, and an object has every key once. -/
def ProperNode : JsonValue → Prop
  | .float x => x.IsFinite
  | .dict entries => (entries.map Prod.fst).Nodup
  | _ => True

def Proper (v : JsonValue) : Prop := v.All ProperNode

/-! ### Association lists -/

section Lookup

variable {α β : Type} {entries entries' : List (String × α)} {key : String} {a : α}

theorem mem_of_lookup (h : entries.lookup key = some a) : (key, a) ∈ entries := by
  obtain ⟨before, after, rfl, -⟩ := List.lookup_eq_some_iff.mp h
  exact List.mem_append_right _ (List.mem_cons_self ..)

theorem lookup_of_mem (hnodup : (entries.map Prod.fst).Nodup) (h : (key, a) ∈ entries) :
    entries.lookup key = some a := by
  induction entries with
  | nil => cases h
  | cons e entries ih =>
    obtain ⟨name, b⟩ := e
    rw [List.map_cons, List.nodup_cons] at hnodup
    rcases List.mem_cons.mp h with heq | htail
    · obtain ⟨rfl, rfl⟩ := Prod.mk.inj heq
      exact List.lookup_cons_self
    · have hne : key ≠ name := by
        rintro rfl
        exact hnodup.1 (List.mem_map.mpr ⟨(key, a), htail, rfl⟩)
      rw [List.lookup_cons, beq_false_of_ne hne]
      exact ih hnodup.2 htail

theorem lookup_of_perm (h : entries'.Perm entries) (hnodup : (entries.map Prod.fst).Nodup)
    (key : String) : entries'.lookup key = entries.lookup key := by
  cases hfound : entries.lookup key with
  | some a =>
    exact lookup_of_mem ((h.map Prod.fst).nodup_iff.mpr hnodup)
      (h.mem_iff.mpr (mem_of_lookup hfound))
  | none =>
    rw [List.lookup_eq_none_iff] at hfound ⊢
    exact fun e he => hfound e (h.mem_iff.mp he)

theorem lookup_mapValues (f : α → β) (entries : List (String × α)) (key : String) :
    (entries.map fun e => (e.1, f e.2)).lookup key = (entries.lookup key).map f := by
  induction entries with
  | nil => rfl
  | cons e entries ih =>
    obtain ⟨name, b⟩ := e
    rw [List.map_cons, List.lookup_cons, List.lookup_cons, ih]
    by_cases h : key = name
    · rw [beq_iff_eq.mpr h]
      rfl
    · rw [beq_false_of_ne h]

end Lookup

/-! ### The order of keys -/

/-- The entries of an object in the order of their keys. -/
def sortEntries (entries : List (String × JsonValue)) : List (String × JsonValue) :=
  entries.insertionSort fun e e' => e.1 ≤ e'.1

mutual

/-- A value with the keys of every object in order. -/
def sortKeys : JsonValue → JsonValue
  | .list items => .list (sortItems items)
  | .dict entries => .dict (sortEntries (sortParts entries))
  | v => v

def sortItems : List JsonValue → List JsonValue
  | [] => []
  | v :: items => v.sortKeys :: sortItems items

def sortParts : List (String × JsonValue) → List (String × JsonValue)
  | [] => []
  | e :: entries => sortPart e :: sortParts entries

def sortPart : String × JsonValue → String × JsonValue
  | (key, v) => (key, v.sortKeys)

end

variable {v : JsonValue} {items : List JsonValue} {entries : List (String × JsonValue)}

theorem sortItems_eq (items : List JsonValue) : sortItems items = items.map sortKeys := by
  induction items with
  | nil => rfl
  | cons v items ih => rw [sortItems, ih, List.map_cons]

theorem sortParts_eq (entries : List (String × JsonValue)) :
    sortParts entries = entries.map fun e => (e.1, e.2.sortKeys) := by
  induction entries with
  | nil => rfl
  | cons e entries ih =>
    obtain ⟨key, v⟩ := e
    rw [sortParts, sortPart, ih, List.map_cons]

theorem sortKeys_list : (JsonValue.list items).sortKeys = .list (items.map sortKeys) := by
  rw [sortKeys, sortItems_eq]

theorem sortKeys_dict : (JsonValue.dict entries).sortKeys =
    .dict (sortEntries (entries.map fun e => (e.1, e.2.sortKeys))) := by
  rw [sortKeys, sortParts_eq]

theorem perm_sortEntries (entries : List (String × JsonValue)) :
    (sortEntries entries).Perm entries :=
  List.perm_insertionSort _ _

theorem keys_sortParts (entries : List (String × JsonValue)) :
    (entries.map fun e => (e.1, e.2.sortKeys)).map Prod.fst = entries.map Prod.fst := by
  rw [List.map_map]
  rfl

/-- Sorting keys changes neither the parts of a value nor which keys an object has. -/
theorem Proper.sortKeys (h : v.Proper) : v.sortKeys.Proper := by
  induction v using induct with
  | null | bool | int | float | str => exact h
  | list items ih =>
    cases h with
    | list _ parts =>
      rw [sortKeys_list]
      refine .list trivial fun w hw => ?_
      obtain ⟨v, hv, rfl⟩ := List.mem_map.mp hw
      exact ih v hv (parts v hv)
  | dict entries ih =>
    cases h with
    | dict hnodup parts =>
      rw [sortKeys_dict]
      have hperm := perm_sortEntries (entries.map fun e => (e.1, e.2.sortKeys))
      refine .dict ((hperm.map Prod.fst).nodup_iff.mpr ?_) fun e he => ?_
      · rw [keys_sortParts]
        exact hnodup
      · obtain ⟨e', he', rfl⟩ := List.mem_map.mp (hperm.mem_iff.mp he)
        exact ih e' he' (parts e' he')

/-- The value of a key does not depend on the order of the keys. -/
theorem get?_sortKeys (h : v.Proper) (key : String) :
    v.sortKeys.get? key = (v.get? key).map sortKeys := by
  cases v with
  | null | bool | int | float | str | list => rfl
  | dict entries =>
    cases h with
    | dict hnodup _ =>
      rw [sortKeys_dict, get?_dict, get?_dict, ← lookup_mapValues]
      exact lookup_of_perm (perm_sortEntries _) ((keys_sortParts entries).symm ▸ hnodup) key

/-- Two objects with the same entries have the same order of keys. -/
theorem sortEntries_eq_of_perm {entries' : List (String × JsonValue)} (h : entries.Perm entries')
    (hnodup : (entries.map Prod.fst).Nodup) : sortEntries entries = sortEntries entries' := by
  have htotal : Std.Total fun e e' : String × JsonValue => e.1 ≤ e'.1 :=
    ⟨fun e e' => le_total e.1 e'.1⟩
  have htrans : IsTrans (String × JsonValue) fun e e' => e.1 ≤ e'.1 :=
    ⟨fun _ _ _ h h' => le_trans h h'⟩
  have hperm : (sortEntries entries).Perm (sortEntries entries') :=
    (perm_sortEntries entries).trans (h.trans (perm_sortEntries entries').symm)
  refine List.Perm.eq_of_pairwise (fun e e' he he' hle hle' => ?_)
    (List.pairwise_insertionSort _ _) (List.pairwise_insertionSort _ _) hperm
  -- one key has one value
  have hmem := (perm_sortEntries entries).mem_iff.mp he
  have hmem' := (h.trans (perm_sortEntries entries').symm).mem_iff.mpr he'
  exact List.inj_on_of_nodup_map hnodup hmem hmem' (le_antisymm hle hle')

/-- A value with its keys in order is left alone. -/
theorem sortKeys_sortKeys (h : v.Proper) : v.sortKeys.sortKeys = v.sortKeys := by
  induction v using induct with
  | null | bool | int | float | str => rfl
  | list items ih =>
    cases h with
    | list _ parts =>
      rw [sortKeys_list, sortKeys_list, List.map_map]
      congr 1
      exact List.map_congr_left fun v hv => ih v hv (parts v hv)
  | dict entries ih =>
    cases h with
    | dict hnodup parts =>
      have hsorted : (entries.map fun e => (e.1, e.2.sortKeys)).map
          (fun e => (e.1, e.2.sortKeys)) = entries.map fun e => (e.1, e.2.sortKeys) := by
        rw [List.map_map]
        exact List.map_congr_left fun e he => congrArg (Prod.mk e.1) (ih e he (parts e he))
      have hperm := (perm_sortEntries (entries.map fun e => (e.1, e.2.sortKeys))).map
        fun e => (e.1, e.2.sortKeys)
      rw [hsorted] at hperm
      have hkeys := hperm.map Prod.fst
      rw [keys_sortParts entries] at hkeys
      rw [sortKeys_dict, sortKeys_dict, sortEntries_eq_of_perm hperm (hkeys.nodup_iff.mpr hnodup)]

/-- Parts of a value of the language are values of the language. -/
theorem Proper.of_mem (h : (dict entries).Proper) {e : String × JsonValue} (he : e ∈ entries) :
    e.2.Proper := by
  cases h with
  | dict _ parts => exact parts e he

theorem Proper.of_lookup {key : String} (h : (dict entries).Proper)
    (hlookup : entries.lookup key = some v) : v.Proper :=
  h.of_mem (mem_of_lookup hlookup)

theorem Proper.nodup (h : (dict entries).Proper) : (entries.map Prod.fst).Nodup := by
  cases h with
  | dict hnodup _ => exact hnodup

/-- Leaving entries out of an object, before or after its keys are put in order. -/
theorem sortKeys_filter (h : (dict entries).Proper) (p : String → Bool) :
    (dict ((sortEntries (entries.map fun e => (e.1, e.2.sortKeys))).filter
      fun e => p e.1)).sortKeys = (dict (entries.filter fun e => p e.1)).sortKeys := by
  have hperm : ((sortEntries (entries.map fun e => (e.1, e.2.sortKeys))).filter
      fun e => p e.1).Perm ((entries.filter fun e => p e.1).map fun e => (e.1, e.2.sortKeys)) := by
    refine ((perm_sortEntries _).filter _).trans ?_
    rw [List.filter_map]
    exact List.Perm.refl _
  have hsorted : ((entries.filter fun e => p e.1).map fun e => (e.1, e.2.sortKeys)).map
      (fun e => (e.1, e.2.sortKeys)) =
        (entries.filter fun e => p e.1).map fun e => (e.1, e.2.sortKeys) := by
    rw [List.map_map]
    exact List.map_congr_left fun e he =>
      congrArg (Prod.mk e.1) (sortKeys_sortKeys (h.of_mem (List.mem_of_mem_filter he)))
  have hparts := hperm.map fun e => (e.1, e.2.sortKeys)
  rw [hsorted] at hparts
  have hkeys := hparts.map Prod.fst
  rw [keys_sortParts (entries.filter fun e => p e.1)] at hkeys
  rw [sortKeys_dict, sortKeys_dict, sortEntries_eq_of_perm hparts]
  exact hkeys.nodup_iff.mpr ((List.filter_sublist.map Prod.fst).nodup h.nodup)

/-! ### Equality -/

/-- The number a value is, if it is a finite one, in parts of the least positive float. A truth
value is a number. -/
def number : JsonValue → Option ℤ
  | .bool b => some (if b then Binary64.unit else 0)
  | .int n => some (n * Binary64.unit)
  | .float x => if x.IsFinite then some x.scaled else none
  | _ => none

/-- The values that are not equal to themselves. -/
def isNan : JsonValue → Bool
  | .float x => x.isNan
  | _ => false

/-- Equality of what has no parts. -/
def eqAtom : JsonValue → JsonValue → Bool
  | .null, .null => true
  | .str s, .str t => s = t
  | .float x, .float y =>
    if x.IsFinite ∧ y.IsFinite then x.scaled = y.scaled else !x.isNan && x = y
  | v, w =>
    match v.number, w.number with
    | some m, some n => m = n
    | _, _ => false

mutual

/-- Whether two values are equal: objects in any order of their keys, and numbers whatever their
types. Among the parts of values a reader has only one that is not a number, the same for both. -/
def eq : JsonValue → JsonValue → Bool
  | .list items, .list items' => eqItems items items'
  | .dict entries, .dict entries' => entries.length = entries'.length && eqEntries entries entries'
  | v, w => eqAtom v w
termination_by structural v => v

def eqItems : List JsonValue → List JsonValue → Bool
  | [], [] => true
  | v :: items, w :: items' => (v.isNan && w.isNan || eq v w) && eqItems items items'
  | _, _ => false
termination_by structural items => items

def eqEntries : List (String × JsonValue) → List (String × JsonValue) → Bool
  | [], _ => true
  | e :: entries, entries' => eqEntry e entries' && eqEntries entries entries'
termination_by structural entries => entries

def eqEntry : String × JsonValue → List (String × JsonValue) → Bool
  | (key, v), entries' =>
    match entries'.lookup key with
    | some w => v.isNan && w.isNan || eq v w
    | none => false
termination_by structural e => e

end

theorem eqAtom_self (hv : v.Proper) (hlist : ∀ items, v ≠ .list items)
    (hdict : ∀ entries, v ≠ .dict entries) : eqAtom v v = true := by
  cases hv with
  | null => rfl
  | bool b => exact decide_eq_true rfl
  | int n => exact decide_eq_true rfl
  | float x hx =>
    have hfinite : x.IsFinite := hx
    simp [eqAtom, hfinite]
  | str s => simp [eqAtom]
  | list => exact absurd rfl (hlist _)
  | dict => exact absurd rfl (hdict _)

theorem eqItems_map {f g : JsonValue → JsonValue} (h : ∀ v ∈ items, eq (f v) (g v) = true) :
    eqItems (items.map f) (items.map g) = true := by
  induction items with
  | nil => rfl
  | cons v items ih =>
    rw [List.map_cons, List.map_cons, eqItems, h v (List.mem_cons_self ..), Bool.or_true,
      ih fun w hw => h w (List.mem_cons_of_mem _ hw)]
    rfl

/-- Objects are equal when each value of one is equal to a value of the other. -/
theorem eqEntries_of_forall {entries' : List (String × JsonValue)}
    (hnodup : (entries'.map Prod.fst).Nodup)
    (h : ∀ e ∈ entries, ∃ w, (e.1, w) ∈ entries' ∧ eq e.2 w = true) :
    eqEntries entries entries' = true := by
  induction entries with
  | nil => rfl
  | cons e entries ih =>
    obtain ⟨key, v⟩ := e
    obtain ⟨w, hw, heq⟩ := h (key, v) (List.mem_cons_self ..)
    rw [eqEntries, eqEntry, lookup_of_mem hnodup hw]
    dsimp only
    rw [heq, Bool.or_true, ih fun e he => h e (List.mem_cons_of_mem _ he)]
    rfl

/-- A value of the language is equal to itself. -/
theorem eq_self (h : v.Proper) : eq v v = true := by
  induction v using induct with
  | null | bool | int | float | str => exact eqAtom_self h (by simp) (by simp)
  | list items ih =>
    cases h with
    | list _ parts =>
      have hitems : eqItems (items.map id) (items.map id) = true :=
        eqItems_map fun v hv => ih v hv (parts v hv)
      rwa [List.map_id] at hitems
  | dict entries ih =>
    cases h with
    | dict hnodup parts =>
      rw [eq, eqEntries_of_forall hnodup fun e he => ⟨e.2, he, ih e he (parts e he)⟩,
        decide_eq_true rfl]
      rfl

/-- **The order of keys does not matter.** -/
theorem eq_sortKeys (h : v.Proper) : eq v.sortKeys v = true := by
  induction v using induct with
  | null | bool | int | float | str => exact eqAtom_self h (by simp) (by simp)
  | list items ih =>
    cases h with
    | list _ parts =>
      have hitems : eqItems (items.map sortKeys) (items.map id) = true :=
        eqItems_map fun v hv => ih v hv (parts v hv)
      rw [List.map_id] at hitems
      rw [sortKeys_list, eq, hitems]
  | dict entries ih =>
    cases h with
    | dict hnodup parts =>
      have hperm := perm_sortEntries (entries.map fun e => (e.1, e.2.sortKeys))
      have hentries : eqEntries (sortEntries (entries.map fun e => (e.1, e.2.sortKeys))) entries =
          true := by
        refine eqEntries_of_forall hnodup fun e he => ?_
        obtain ⟨e', he', rfl⟩ := List.mem_map.mp (hperm.mem_iff.mp he)
        exact ⟨e'.2, he', ih e' he' (parts e' he')⟩
      rw [sortKeys_dict, eq, hentries, hperm.length_eq, List.length_map, decide_eq_true rfl]
      rfl

end JsonValue
