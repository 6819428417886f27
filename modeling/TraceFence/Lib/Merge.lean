import Mathlib.Data.List.Basic
import Mathlib.Data.List.Perm.Basic
import Mathlib.Data.List.Nodup
import Mathlib.Data.List.Pairwise
import Mathlib.Logic.Function.Basic
import TraceFence.Lib.Checked

/-!
# Merging named values

Values with names go into a table one by one. A value whose name is in the table has to agree with
the value that is there, and takes its place. Or else it has to be compatible with what is there,
and what it adds to it is kept.

## Main definitions

* `Merge.put`, `Merge.putAll` — a value, and a list of values
* `Merge.valuesOf` — the values of one name
* `Merge.join`, `Merge.joinAll` — values that add to what is known under their name

## Main results

* `Merge.putAll_isOk` — values go in when those of each name agree one after the other
* `Merge.lookup_putAll` — the table has the last value of each name
* `Merge.putAll_perm` — whether they go in does not depend on their order
* `Merge.joinAll_isOk`, `foldlM_join_isOk_iff` — values are joined when those of each name are
  compatible, every two
-/

namespace Merge

open Checked

variable {κ α ε : Type} [DecidableEq κ] {agree : α → α → Bool} {conflict : κ → ε}
variable {table table' : List (κ × α)} {entry : κ × α} {entries : List (κ × α)} {key : κ}

/-- A value with a name. -/
def put (agree : α → α → Bool) (conflict : κ → ε) (table : List (κ × α)) (entry : κ × α) :
    Except ε (List (κ × α)) :=
  match table.lookup entry.1 with
  | some old =>
    if agree old entry.2 then .ok (table.map fun e => if e.1 = entry.1 then entry else e)
    else .error (conflict entry.1)
  | none => .ok (table ++ [entry])

/-- Values with names, in order. -/
def putAll (agree : α → α → Bool) (conflict : κ → ε) (table entries : List (κ × α)) :
    Except ε (List (κ × α)) :=
  entries.foldlM (put agree conflict) table

/-- The values of a name, in order. -/
def valuesOf (entries : List (κ × α)) (key : κ) : List α :=
  (entries.filter fun e => e.1 = key).map Prod.snd

@[simp] theorem valuesOf_nil : valuesOf ([] : List (κ × α)) key = [] := rfl

theorem valuesOf_cons (entry : κ × α) (entries : List (κ × α)) (key : κ) :
    valuesOf (entry :: entries) key =
      if entry.1 = key then entry.2 :: valuesOf entries key else valuesOf entries key := by
  by_cases h : entry.1 = key
  · simp [valuesOf, h]
  · simp [valuesOf, h]

theorem valuesOf_append (entries entries' : List (κ × α)) (key : κ) :
    valuesOf (entries ++ entries') key = valuesOf entries key ++ valuesOf entries' key := by
  rw [valuesOf, List.filter_append, List.map_append]
  rfl

theorem mem_valuesOf {a : α} : a ∈ valuesOf entries key ↔ (key, a) ∈ entries := by
  constructor
  · intro h
    obtain ⟨e, he, rfl⟩ := List.mem_map.mp h
    obtain ⟨hmem, hkey⟩ := List.mem_filter.mp he
    rw [← of_decide_eq_true hkey]
    exact hmem
  · intro h
    exact List.mem_map.mpr ⟨_, List.mem_filter.mpr ⟨h, decide_eq_true rfl⟩, rfl⟩

theorem valuesOf_perm {entries' : List (κ × α)} (h : entries.Perm entries') (key : κ) :
    (valuesOf entries key).Perm (valuesOf entries' key) :=
  (h.filter _).map _

/-! ### One value -/

theorem put_isOk : (∃ t, put agree conflict table entry = .ok t) ↔
    ∀ old, table.lookup entry.1 = some old → agree old entry.2 = true := by
  unfold put
  cases hold : table.lookup entry.1 with
  | none => simp
  | some old =>
    by_cases hagree : agree old entry.2 = true
    · simp [hagree]
    · simp [hagree]

theorem lookup_cons (entry : κ × α) (table : List (κ × α)) (key : κ) :
    (entry :: table).lookup key = if key = entry.1 then some entry.2 else table.lookup key := by
  obtain ⟨name, a⟩ := entry
  rw [List.lookup_cons]
  by_cases h : key = name
  · rw [beq_iff_eq.mpr h, if_pos h]
  · rw [beq_false_of_ne h, if_neg h]

theorem lookup_replace (table : List (κ × α)) (entry : κ × α) (key : κ) :
    (table.map fun e => if e.1 = entry.1 then entry else e).lookup key =
      if key = entry.1 then (table.lookup key).map fun _ => entry.2 else table.lookup key := by
  induction table with
  | nil => simp
  | cons e table ih =>
    rw [List.map_cons, lookup_cons, lookup_cons, ih]
    by_cases hname : e.1 = entry.1
    · rw [if_pos hname, hname]
      by_cases hkey : key = entry.1
      · simp only [if_pos hkey, Option.map_some]
      · simp only [if_neg hkey]
    · rw [if_neg hname]
      by_cases hkey : key = e.1
      · have hne : key ≠ entry.1 := hkey ▸ hname
        simp only [if_pos hkey, if_neg hne]
      · simp only [if_neg hkey]

/-- A value that went in is the one of its name, and no other name has another value. -/
theorem lookup_put (h : put agree conflict table entry = .ok table') (key : κ) :
    table'.lookup key = if key = entry.1 then some entry.2 else table.lookup key := by
  unfold put at h
  split at h
  · next old hold =>
    split at h
    · cases h
      rw [lookup_replace]
      by_cases hkey : key = entry.1
      · rw [if_pos hkey, if_pos hkey, hkey, hold, Option.map_some]
      · rw [if_neg hkey, if_neg hkey]
    · cases h
  · next hnone =>
    cases h
    rw [List.lookup_append, lookup_cons]
    by_cases hkey : key = entry.1
    · rw [if_pos hkey, if_pos hkey, hkey, hnone, Option.none_or]
    · rw [if_neg hkey, if_neg hkey, List.lookup_nil, Option.or_none]

/-- A table with every name once stays one. -/
theorem nodup_put (hnodup : (table.map Prod.fst).Nodup)
    (h : put agree conflict table entry = .ok table') : (table'.map Prod.fst).Nodup := by
  unfold put at h
  split at h
  · split at h
    · cases h
      have hkeys : (table.map fun e => if e.1 = entry.1 then entry else e).map Prod.fst =
          table.map Prod.fst := by
        rw [List.map_map]
        refine List.map_congr_left fun e _ => ?_
        show (if e.1 = entry.1 then entry else e).1 = e.1
        split
        · next heq => exact heq.symm
        · rfl
      rw [hkeys]
      exact hnodup
    · cases h
  · next hnone =>
    cases h
    rw [List.map_append, List.nodup_append]
    refine ⟨hnodup, List.nodup_singleton _, ?_⟩
    rintro name hname name' hname' rfl
    obtain ⟨e, he, rfl⟩ := List.mem_map.mp hname
    rw [List.map_singleton, List.mem_singleton] at hname'
    have hne := List.lookup_eq_none_iff.mp hnone e he
    rw [hname'] at hne
    simp at hne

/-! ### All values -/

theorem putAll_cons : putAll agree conflict table (entry :: entries) =
    put agree conflict table entry >>= fun t => putAll agree conflict t entries := rfl

/-- Values go in when those of each name, from the one in the table on, agree one after the
other. -/
theorem putAll_isOk (table entries : List (κ × α)) :
    (∃ t, putAll agree conflict table entries = .ok t) ↔
      ∀ key, ((table.lookup key).toList ++ valuesOf entries key).IsChain
        fun a b => agree a b = true := by
  induction entries generalizing table with
  | nil =>
    refine ⟨fun _ key => ?_, fun _ => ⟨table, rfl⟩⟩
    cases table.lookup key <;> simp
  | cons entry entries ih =>
    have hstep : (∃ t, putAll agree conflict table (entry :: entries) = .ok t) ↔
        ∃ t, put agree conflict table entry = .ok t ∧
          ∃ t', putAll agree conflict t entries = .ok t' := by
      constructor
      · rintro ⟨t', h⟩
        rw [putAll_cons] at h
        obtain ⟨t, hput, h⟩ := bind_eq_ok.mp h
        exact ⟨t, hput, t', h⟩
      · rintro ⟨t, hput, t', h⟩
        exact ⟨t', by rw [putAll_cons, hput]; exact h⟩
    rw [hstep]
    constructor
    · rintro ⟨t, hput, h⟩ key
      have hchain := (ih t).mp h key
      rw [lookup_put hput] at hchain
      rw [valuesOf_cons]
      by_cases hkey : entry.1 = key
      · subst hkey
        rw [if_pos rfl] at hchain ⊢
        cases hold : table.lookup entry.1 with
        | none => exact hchain
        | some old =>
          exact List.isChain_cons_cons.mpr ⟨put_isOk.mp ⟨t, hput⟩ old hold, hchain⟩
      · rw [if_neg (Ne.symm hkey)] at hchain
        rw [if_neg hkey]
        exact hchain
    · intro h
      have hagree : ∀ old, table.lookup entry.1 = some old → agree old entry.2 = true := by
        intro old hold
        have hchain := h entry.1
        rw [hold, valuesOf_cons, if_pos rfl] at hchain
        exact (List.isChain_cons_cons.mp hchain).1
      obtain ⟨t, hput⟩ := put_isOk.mpr hagree
      refine ⟨t, hput, (ih t).mpr fun key => ?_⟩
      have hchain := h key
      rw [lookup_put hput]
      rw [valuesOf_cons] at hchain
      by_cases hkey : entry.1 = key
      · subst hkey
        rw [if_pos rfl] at hchain ⊢
        cases hold : table.lookup entry.1 with
        | none =>
          rw [hold] at hchain
          exact hchain
        | some old =>
          rw [hold] at hchain
          exact (List.isChain_cons_cons.mp hchain).2
      · rw [if_neg (Ne.symm hkey)]
        rw [if_neg hkey] at hchain
        exact hchain

/-- The table has the last value of each name. -/
theorem lookup_putAll (h : putAll agree conflict table entries = .ok table') (key : κ) :
    table'.lookup key = ((valuesOf entries key).getLast?).or (table.lookup key) := by
  induction entries generalizing table with
  | nil =>
    cases h
    rfl
  | cons entry entries ih =>
    rw [putAll_cons] at h
    obtain ⟨t, hput, h⟩ := bind_eq_ok.mp h
    rw [ih h, lookup_put hput, valuesOf_cons]
    by_cases hkey : entry.1 = key
    · rw [if_pos hkey.symm, if_pos hkey, List.getLast?_cons]
      cases (valuesOf entries key).getLast? <;> rfl
    · rw [if_neg (Ne.symm hkey), if_neg hkey]

theorem nodup_putAll (hnodup : (table.map Prod.fst).Nodup)
    (h : putAll agree conflict table entries = .ok table') : (table'.map Prod.fst).Nodup := by
  induction entries generalizing table with
  | nil =>
    cases h
    exact hnodup
  | cons entry entries ih =>
    rw [putAll_cons] at h
    obtain ⟨t, hput, h⟩ := bind_eq_ok.mp h
    exact ih (nodup_put hnodup hput) h

theorem putAll_append (entries' : List (κ × α)) :
    putAll agree conflict table (entries ++ entries') =
      putAll agree conflict table entries >>= fun t => putAll agree conflict t entries' :=
  List.foldlM_append

/-! ### The order of values

Agreement is symmetric and transitive among the values at hand. -/

section Order

variable {good : α → Prop} (hsymm : ∀ a b, good a → good b → agree a b = true → agree b a = true)
  (htrans : ∀ a b c, good a → good b → good c → agree a b = true → agree b c = true →
    agree a c = true)

include htrans in
/-- Values that agree one after the other all agree. -/
theorem pairwise_of_isChain {values : List α} (hgood : ∀ a ∈ values, good a)
    (h : values.IsChain fun a b => agree a b = true) :
    values.Pairwise fun a b => agree a b = true := by
  let agree' (a b : α) : Prop := good a ∧ good b ∧ agree a b = true
  have htrans' : IsTrans α agree' :=
    ⟨fun a b c hab hbc => ⟨hab.1, hbc.2.1, htrans a b c hab.1 hab.2.1 hbc.2.1 hab.2.2 hbc.2.2⟩⟩
  have hchain : values.IsChain agree' := by
    induction values with
    | nil => exact .nil
    | cons a values ih =>
      cases values with
      | nil => exact .singleton a
      | cons b values =>
        obtain ⟨hab, htail⟩ := List.isChain_cons_cons.mp h
        have hb : good b := hgood b (List.mem_cons_of_mem a (List.mem_cons_self ..))
        exact List.isChain_cons_cons.mpr ⟨⟨hgood a (List.mem_cons_self ..), hb, hab⟩,
          ih (fun c hc => hgood c (List.mem_cons_of_mem a hc)) htail⟩
  exact hchain.pairwise.imp fun hab => hab.2.2

theorem good_values (htable : ∀ e ∈ table, good e.2) (hentries : ∀ e ∈ entries, good e.2) :
    ∀ a ∈ (table.lookup key).toList ++ valuesOf entries key, good a := by
  intro a ha
  rcases List.mem_append.mp ha with ha | ha
  · obtain ⟨before, after, heq, -⟩ := List.lookup_eq_some_iff.mp (Option.mem_toList.mp ha)
    exact htable (key, a) (heq ▸ List.mem_append_right _ (List.mem_cons_self ..))
  · exact hentries _ (mem_valuesOf.mp ha)

include htrans in
/-- Values go in when those of each name agree, every two of them. -/
theorem putAll_isOk_iff_pairwise (htable : ∀ e ∈ table, good e.2) (hentries : ∀ e ∈ entries, good e.2) :
    (∃ t, putAll agree conflict table entries = .ok t) ↔
      ∀ key, ((table.lookup key).toList ++ valuesOf entries key).Pairwise
        fun a b => agree a b = true := by
  rw [putAll_isOk]
  exact forall_congr' fun key =>
    ⟨pairwise_of_isChain htrans (good_values htable hentries), fun h => h.isChain⟩

include hsymm in
/-- Values of a list that all agree do so in either order. -/
theorem agree_of_pairwise {values : List α} (hgood : ∀ a ∈ values, good a)
    (h : values.Pairwise fun a b => agree a b = true) {a b : α} (ha : a ∈ values) (hb : b ∈ values)
    (hne : a ≠ b) : agree a b = true := by
  induction values with
  | nil => cases ha
  | cons c values ih =>
    obtain ⟨hc, hvalues⟩ := List.pairwise_cons.mp h
    have hgood' : ∀ d ∈ values, good d := fun d hd => hgood d (List.mem_cons_of_mem c hd)
    rcases List.mem_cons.mp ha with rfl | ha'
    · exact hc b ((List.mem_cons.mp hb).resolve_left (Ne.symm hne))
    · rcases List.mem_cons.mp hb with rfl | hb'
      · exact hsymm _ _ (hgood _ (List.mem_cons_self ..)) (hgood' a ha') (hc a ha')
      · exact ih hgood' hvalues ha' hb'

include hsymm htrans in
/-- Whether values go in does not depend on their order. -/
theorem putAll_perm {entries' : List (κ × α)} (h : entries.Perm entries')
    (htable : ∀ e ∈ table, good e.2) (hentries : ∀ e ∈ entries, good e.2) :
    (∃ t, putAll agree conflict table entries = .ok t) ↔
      ∃ t, putAll agree conflict table entries' = .ok t := by
  rw [putAll_isOk_iff_pairwise htrans htable hentries, putAll_isOk_iff_pairwise htrans htable
    fun e he => hentries e (h.mem_iff.mpr he)]
  refine forall_congr' fun key => ?_
  have hgood : ∀ a ∈ (table.lookup key).toList ++ valuesOf entries key, good a :=
    good_values htable hentries
  have hperm := (valuesOf_perm h key).append_left (table.lookup key).toList
  -- agreement among good values is a symmetric relation
  have hrel (values : List α) (hvalues : ∀ a ∈ values, good a) :
      values.Pairwise (fun a b => agree a b = true) ↔
        values.Pairwise fun a b => good a ∧ good b ∧ agree a b = true :=
    ⟨fun h => h.imp_of_mem fun ha hb hab => ⟨hvalues _ ha, hvalues _ hb, hab⟩,
      fun h => h.imp fun hab => hab.2.2⟩
  rw [hrel _ hgood, hrel _ fun a ha => hgood a (hperm.mem_iff.mpr ha)]
  exact hperm.pairwise_iff fun hab => ⟨hab.2.1, hab.1, hsymm _ _ hab.1 hab.2.1 hab.2.2⟩

end Order

/-! ### Joining values

What is known under a name is joined from all values that came before. It is compatible with
another value exactly when all of these are. -/

section Join

variable {compatible : α → α → Bool} {merge : α → α → α} {seen seen' : κ → Option α}

/-- A value adds to what is known under its name. -/
def join (compatible : α → α → Bool) (merge : α → α → α) (conflict : κ → ε) (seen : κ → Option α)
    (entry : κ × α) : Except ε (κ → Option α) :=
  match seen entry.1 with
  | none => .ok (Function.update seen entry.1 (some entry.2))
  | some old =>
    if compatible old entry.2 then
      .ok (Function.update seen entry.1 (some (merge old entry.2)))
    else .error (conflict entry.1)

/-- Values add to what is known, in order. -/
def joinAll (compatible : α → α → Bool) (merge : α → α → α) (conflict : κ → ε)
    (seen : κ → Option α) (entries : List (κ × α)) : Except ε (κ → Option α) :=
  entries.foldlM (join compatible merge conflict) seen

theorem join_isOk : (∃ seen', join compatible merge conflict seen entry = .ok seen') ↔
    ∀ old, seen entry.1 = some old → compatible old entry.2 = true := by
  unfold join
  cases hold : seen entry.1 with
  | none => simp
  | some old =>
    by_cases h : compatible old entry.2 = true
    · simp [h]
    · simp [h]

/-- What is known after a value was joined. -/
theorem join_eq_ok (h : join compatible merge conflict seen entry = .ok seen') :
    seen' = Function.update seen entry.1
      (some ((seen entry.1).elim entry.2 fun old => merge old entry.2)) := by
  unfold join at h
  split at h
  · next hnone =>
    cases h
    rw [hnone]
    rfl
  · next old hold =>
    split_ifs at h
    cases h
    rw [hold]
    rfl

/-- **Values are joined** when those of each name, and what was known before, are compatible, every
two of them: it suffices that a merged value is compatible with what both its parts are. -/
theorem joinAll_isOk (hmerge : ∀ a b c, compatible a b = true →
      (compatible (merge a b) c = true ↔ compatible a c = true ∧ compatible b c = true))
    (seen : κ → Option α) (entries : List (κ × α)) :
    (∃ seen', joinAll compatible merge conflict seen entries = .ok seen') ↔
      ∀ key, ((seen key).toList ++ valuesOf entries key).Pairwise
        fun a b => compatible a b = true := by
  induction entries generalizing seen with
  | nil =>
    refine ⟨fun _ key => ?_, fun _ => ⟨seen, rfl⟩⟩
    cases seen key <;> simp
  | cons entry entries ih =>
    have hstep : (∃ s, joinAll compatible merge conflict seen (entry :: entries) = .ok s) ↔
        ∃ s, join compatible merge conflict seen entry = .ok s ∧
          ∃ s', joinAll compatible merge conflict s entries = .ok s' := by
      constructor
      · rintro ⟨s', h⟩
        obtain ⟨s, hjoin, h⟩ := bind_eq_ok.mp h
        exact ⟨s, hjoin, s', h⟩
      · rintro ⟨s, hjoin, s', h⟩
        exact ⟨s', bind_eq_ok.mpr ⟨s, hjoin, h⟩⟩
    -- the merged value stands for the values it was merged from
    have hmerged {old : α} (hold : seen entry.1 = some old) (h : compatible old entry.2 = true)
        (values : List α) : (merge old entry.2 :: values).Pairwise (fun a b => compatible a b = true) ↔
          (old :: entry.2 :: values).Pairwise fun a b => compatible a b = true := by
      simp only [List.pairwise_cons, hmerge _ _ _ h, List.forall_mem_cons, forall_and]
      tauto
    have hother {s : κ → Option α} (hjoin : join compatible merge conflict seen entry = .ok s)
        {key : κ} (hne : entry.1 ≠ key) : s key = seen key := by
      rw [join_eq_ok hjoin, Function.update_of_ne (Ne.symm hne)]
    rw [hstep]
    constructor
    · rintro ⟨s, hjoin, h⟩ key
      have hpairs := (ih s).mp h key
      rw [valuesOf_cons]
      by_cases hkey : entry.1 = key
      · subst hkey
        rw [join_eq_ok hjoin, Function.update_self] at hpairs
        rw [if_pos rfl]
        cases hold : seen entry.1 with
        | none =>
          rw [hold] at hpairs
          exact hpairs
        | some old =>
          rw [hold] at hpairs
          exact (hmerged hold (join_isOk.mp ⟨s, hjoin⟩ old hold) _).mp hpairs
      · rw [if_neg hkey, ← hother hjoin hkey]
        exact hpairs
    · intro h
      have hcompatible : ∀ old, seen entry.1 = some old → compatible old entry.2 = true := by
        intro old hold
        have hpairs := h entry.1
        rw [hold, valuesOf_cons, if_pos rfl] at hpairs
        exact List.rel_of_pairwise_cons hpairs List.mem_cons_self
      obtain ⟨s, hjoin⟩ := join_isOk.mpr hcompatible
      refine ⟨s, hjoin, (ih s).mpr fun key => ?_⟩
      have hpairs := h key
      rw [valuesOf_cons] at hpairs
      by_cases hkey : entry.1 = key
      · subst hkey
        rw [if_pos rfl] at hpairs
        rw [join_eq_ok hjoin, Function.update_self]
        cases hold : seen entry.1 with
        | none =>
          rw [hold] at hpairs
          exact hpairs
        | some old =>
          rw [hold] at hpairs
          exact (hmerged hold (hcompatible old hold) _).mpr hpairs
      · rw [if_neg hkey] at hpairs
        rw [hother hjoin hkey]
        exact hpairs

/-- Values of a list that are compatible with themselves and in either order. -/
theorem pairwise_compatible_iff {values : List α}
    (hsymm : ∀ a b, compatible a b = true → compatible b a = true)
    (hrefl : ∀ a, compatible a a = true) :
    values.Pairwise (fun a b => compatible a b = true) ↔
      ∀ a ∈ values, ∀ b ∈ values, compatible a b = true := by
  refine ⟨fun h a ha b hb => ?_, List.pairwise_of_forall_mem_list⟩
  have : Std.Symm fun a b => compatible a b = true := ⟨hsymm⟩
  exact h.forall_of_forall (fun a _ => hrefl a) ha hb

/-! ### Joining what values are read from -/

section Reading

variable {ρ : Type} {entryOf : ρ → Except ε (κ × α)} {rows : List ρ}

omit [DecidableEq κ] in
theorem exists_of_mem_right {R : ρ → κ × α → Prop} (h : List.Forall₂ R rows entries)
    (hentry : entry ∈ entries) : ∃ row ∈ rows, R row entry := by
  induction h with
  | nil => cases hentry
  | @cons row e rows entries hrow _ ih =>
    rcases List.mem_cons.mp hentry with rfl | hmem
    · exact ⟨row, List.mem_cons_self, hrow⟩
    · obtain ⟨row', hrow', hR⟩ := ih hmem
      exact ⟨row', List.mem_cons_of_mem _ hrow', hR⟩

omit [DecidableEq κ] in
theorem exists_of_mem_left {R : ρ → κ × α → Prop} (h : List.Forall₂ R rows entries) {row : ρ}
    (hrow : row ∈ rows) : ∃ entry ∈ entries, R row entry := by
  induction h with
  | nil => cases hrow
  | @cons _ e rows entries hR _ ih =>
    rcases List.mem_cons.mp hrow with rfl | hmem
    · exact ⟨e, List.mem_cons_self, hR⟩
    · obtain ⟨e', he', hR⟩ := ih hmem
      exact ⟨e', List.mem_cons_of_mem _ he', hR⟩

omit [DecidableEq κ] in
theorem exists_forall₂ {R : ρ → κ × α → Prop} (h : ∀ row ∈ rows, ∃ entry, R row entry) :
    ∃ entries, List.Forall₂ R rows entries := by
  induction rows with
  | nil => exact ⟨[], .nil⟩
  | cons row rows ih =>
    obtain ⟨⟨entry, hentry⟩, hrows⟩ := List.forall_mem_cons.mp h
    obtain ⟨entries, hentries⟩ := ih hrows
    exact ⟨entry :: entries, .cons hentry hentries⟩

/-- Each row is read before its value is joined. -/
theorem foldlM_join_isOk (seen : κ → Option α) (rows : List ρ) :
    (∃ s, rows.foldlM (fun seen row => entryOf row >>= join compatible merge conflict seen) seen =
        .ok s) ↔
      ∃ entries, List.Forall₂ (fun row entry => entryOf row = .ok entry) rows entries ∧
        ∃ s, joinAll compatible merge conflict seen entries = .ok s := by
  induction rows generalizing seen with
  | nil => exact ⟨fun _ => ⟨[], .nil, seen, rfl⟩, fun _ => ⟨seen, rfl⟩⟩
  | cons row rows ih =>
    simp only [List.foldlM_cons, bind_eq_ok]
    constructor
    · rintro ⟨s', s, ⟨entry, hentry, hjoin⟩, h⟩
      obtain ⟨entries, hentries, t, ht⟩ := (ih s).mp ⟨s', h⟩
      exact ⟨entry :: entries, .cons hentry hentries, t, bind_eq_ok.mpr ⟨s, hjoin, ht⟩⟩
    · rintro ⟨_, hentries, t, ht⟩
      cases hentries with
      | @cons _ entry _ entries hentry hentries =>
        obtain ⟨s, hjoin, ht⟩ := bind_eq_ok.mp ht
        obtain ⟨s', h⟩ := (ih s).mpr ⟨entries, hentries, t, ht⟩
        exact ⟨s', s, ⟨entry, hentry, hjoin⟩, h⟩

/-- **Pairwise suffices**: rows are read and joined when each can be read and those of each name are
compatible, every two of them. Neither the order of the rows nor how often one occurs matters. -/
theorem foldlM_join_isOk_iff (hmerge : ∀ a b c, compatible a b = true →
      (compatible (merge a b) c = true ↔ compatible a c = true ∧ compatible b c = true))
    (hsymm : ∀ a b, compatible a b = true → compatible b a = true)
    (hrefl : ∀ a, compatible a a = true) (rows : List ρ) :
    (∃ s, rows.foldlM (fun seen row => entryOf row >>= join compatible merge conflict seen)
        (fun _ => none) = .ok s) ↔
      (∀ row ∈ rows, ∃ entry, entryOf row = .ok entry) ∧
        ∀ row ∈ rows, ∀ row' ∈ rows, ∀ entry entry', entryOf row = .ok entry →
          entryOf row' = .ok entry' → entry.1 = entry'.1 → compatible entry.2 entry'.2 = true := by
  simp only [foldlM_join_isOk, joinAll_isOk hmerge, Option.toList_none, List.nil_append,
    pairwise_compatible_iff hsymm hrefl, mem_valuesOf]
  constructor
  · rintro ⟨entries, hentries, hpairs⟩
    have hread {row : ρ} (hrow : row ∈ rows) : ∃ entry ∈ entries, entryOf row = .ok entry :=
      exists_of_mem_left hentries hrow
    refine ⟨fun row hrow => ?_, ?_⟩
    · obtain ⟨entry, -, hentry⟩ := hread hrow
      exact ⟨entry, hentry⟩
    · rintro row hrow row' hrow' ⟨name, a⟩ ⟨name', b⟩ ha hb rfl
      obtain ⟨entry, hmem, hentry⟩ := hread hrow
      obtain ⟨entry', hmem', hentry'⟩ := hread hrow'
      obtain rfl := Except.ok.inj (hentry.symm.trans ha)
      obtain rfl := Except.ok.inj (hentry'.symm.trans hb)
      exact hpairs name a hmem b hmem'
  · rintro ⟨hread, hpairs⟩
    obtain ⟨entries, hentries⟩ := exists_forall₂ hread
    refine ⟨entries, hentries, fun name a ha b hb => ?_⟩
    obtain ⟨row, hrow, hentry⟩ := exists_of_mem_right hentries ha
    obtain ⟨row', hrow', hentry'⟩ := exists_of_mem_right hentries hb
    exact hpairs row hrow row' hrow' _ _ hentry hentry' rfl

end Reading

end Join

end Merge
