import Mathlib.Data.List.Nodup
import Mathlib.Data.List.Perm.Subperm

/-!
# Keyed tables

A table is the list of its rows in insertion order, and carries the proof that no two rows share
a key, so a value of this type cannot violate its primary key. Rows are read by key, appended,
and rewritten in place by functions that keep the key.

## Main definitions

* `Keyed` — what the key of a row is
* `Table` — rows in insertion order with distinct keys
* `Table.get?`, `Table.insert?`, `Table.insertNew`, `Table.modify`, `Table.mapRows`

## Main results

* `Table.get?_eq_some_iff` — lookup is membership, because keys are distinct
* `Table.get?_modify`, `Table.get?_of_insert?` — read after write
* `Table.map_modify` — a rewrite that leaves a column alone leaves the whole column alone
-/

/-- Rows of type `ρ` are identified by a key of type `κ`. -/
class Keyed (ρ : Type) (κ : outParam Type) where
  /-- The key of a row. -/
  key : ρ → κ

/-- Rows in insertion order, no two of which share a key. -/
structure Table (ρ : Type) {κ : Type} [Keyed ρ κ] where
  /-- The rows, oldest first. -/
  rows : List ρ
  /-- The primary key. -/
  nodup : (rows.map Keyed.key).Nodup

namespace Table

variable {ρ κ : Type} [Keyed ρ κ]

@[ext] theorem ext {t t' : Table ρ} (h : t.rows = t'.rows) : t = t' := by
  cases t
  cases t'
  simpa using h

/-- The table without rows. -/
def empty : Table ρ := ⟨[], List.nodup_nil⟩

@[simp] theorem rows_empty : (empty : Table ρ).rows = [] := rfl

instance : Membership ρ (Table ρ) := ⟨fun t r => r ∈ t.rows⟩

@[simp] theorem mem_rows {t : Table ρ} {r : ρ} : r ∈ t.rows ↔ r ∈ t := Iff.rfl

@[simp] theorem not_mem_empty {r : ρ} : r ∉ (empty : Table ρ) := List.not_mem_nil

theorem eq_of_key_eq {t : Table ρ} {r r' : ρ} (hr : r ∈ t) (hr' : r' ∈ t)
    (h : Keyed.key r = Keyed.key r') : r = r' :=
  List.inj_on_of_nodup_map t.nodup hr hr' h

variable [DecidableEq κ]

/-! ### Lookup -/

/-- The row with key `k`. -/
def get? (t : Table ρ) (k : κ) : Option ρ := t.rows.find? fun r => decide (Keyed.key r = k)

/-- Lookup is membership. -/
theorem get?_eq_some_iff {t : Table ρ} {k : κ} {r : ρ} :
    t.get? k = some r ↔ r ∈ t ∧ Keyed.key r = k := by
  constructor
  · intro h
    exact ⟨List.mem_of_find?_eq_some h, by simpa using List.find?_some h⟩
  · rintro ⟨hr, rfl⟩
    obtain ⟨r', hr'⟩ : ∃ r', t.get? (Keyed.key r) = some r' := by
      refine Option.isSome_iff_exists.mp (List.find?_isSome.mpr ⟨r, hr, by simp⟩)
    have hmem : r' ∈ t := List.mem_of_find?_eq_some hr'
    have hkey : Keyed.key r' = Keyed.key r := by simpa using List.find?_some hr'
    rw [hr', eq_of_key_eq hmem hr hkey]

theorem mem_of_get? {t : Table ρ} {k : κ} {r : ρ} (h : t.get? k = some r) : r ∈ t :=
  (get?_eq_some_iff.mp h).1

theorem key_of_get? {t : Table ρ} {k : κ} {r : ρ} (h : t.get? k = some r) : Keyed.key r = k :=
  (get?_eq_some_iff.mp h).2

theorem get?_of_mem {t : Table ρ} {r : ρ} (h : r ∈ t) : t.get? (Keyed.key r) = some r :=
  get?_eq_some_iff.mpr ⟨h, rfl⟩

theorem get?_eq_none_iff {t : Table ρ} {k : κ} : t.get? k = none ↔ ∀ r ∈ t, Keyed.key r ≠ k := by
  rw [get?, List.find?_eq_none]
  exact forall₂_congr fun r _ => by simp

@[simp] theorem get?_empty {k : κ} : (empty : Table ρ).get? k = none := rfl

/-! ### Insertion -/

/-- Append a row, unless its key is taken: the primary key violation of an `INSERT`. -/
def insert? (t : Table ρ) (r : ρ) : Option (Table ρ) :=
  if h : Keyed.key r ∈ t.rows.map Keyed.key then none
  else some ⟨t.rows ++ [r], by
    rw [List.map_append, List.map_singleton]
    exact List.nodup_append.mpr ⟨t.nodup, List.nodup_singleton _, by
      intro a ha b hb hab
      rw [List.mem_singleton] at hb
      exact h (hb ▸ hab ▸ ha)⟩⟩

/-- Append a row, or leave the table alone when its key is taken. -/
def insertNew (t : Table ρ) (r : ρ) : Table ρ := (t.insert? r).getD t

theorem insert?_eq_some_iff {t t' : Table ρ} {r : ρ} :
    t.insert? r = some t' ↔ t.get? (Keyed.key r) = none ∧ t'.rows = t.rows ++ [r] := by
  have hnone : t.get? (Keyed.key r) = none ↔ Keyed.key r ∉ t.rows.map Keyed.key := by
    rw [get?_eq_none_iff, List.mem_map]
    exact ⟨fun h ⟨r', hr', hk⟩ => h r' hr' hk, fun h r' hr' hk => h ⟨r', hr', hk⟩⟩
  rw [hnone, insert?]
  split
  · next h => simp [h]
  · next h =>
    simp only [h, not_false_eq_true, true_and, Option.some.injEq]
    exact ⟨fun ht => ht ▸ rfl, fun hr => Table.ext hr.symm⟩

theorem mem_of_insert? {t t' : Table ρ} {r r' : ρ} (h : t.insert? r = some t') :
    r' ∈ t' ↔ r' ∈ t ∨ r' = r := by
  rw [← mem_rows, (insert?_eq_some_iff.mp h).2]
  simp

/-- Read after insertion. -/
theorem get?_of_insert? {t t' : Table ρ} {r : ρ} (h : t.insert? r = some t') (k : κ) :
    t'.get? k = if Keyed.key r = k then some r else t.get? k := by
  obtain ⟨hfresh, hrows⟩ := insert?_eq_some_iff.mp h
  split
  · next hk => exact get?_eq_some_iff.mpr ⟨(mem_of_insert? h).mpr (Or.inr rfl), hk⟩
  · next hk =>
    rw [get?, hrows, List.find?_append, List.find?_singleton]
    simp [hk, get?]

theorem get?_insert?_of_get? {t t' : Table ρ} {r r' : ρ} {k : κ} (h : t.insert? r = some t')
    (hk : t.get? k = some r') : t'.get? k = some r' := by
  rw [get?_of_insert? h]
  split
  · next he =>
    subst he
    rw [(insert?_eq_some_iff.mp h).1] at hk
    cases hk
  · exact hk

/-- A row read after insertion was there before, or is the new one. -/
theorem get?_insert?_cases {t t' : Table ρ} {r r' : ρ} {k : κ} (h : t.insert? r = some t')
    (hk : t'.get? k = some r') : (t.get? k = none ∧ k = Keyed.key r ∧ r' = r) ∨ t.get? k = some r' := by
  rw [get?_of_insert? h] at hk
  split at hk
  · next he =>
    exact Or.inl ⟨he ▸ (insert?_eq_some_iff.mp h).1, he.symm, (Option.some.inj hk).symm⟩
  · exact Or.inr hk

theorem insertNew_of_insert? {t t' : Table ρ} {r : ρ} (h : t.insert? r = some t') :
    t.insertNew r = t' := by simp [insertNew, h]

theorem insertNew_of_get? {t : Table ρ} {r r' : ρ} (h : t.get? (Keyed.key r) = some r') :
    t.insertNew r = t := by
  cases ht : t.insert? r with
  | none => simp [insertNew, ht]
  | some t' =>
    rw [(insert?_eq_some_iff.mp ht).1] at h
    cases h

theorem exists_insert? {t : Table ρ} {r : ρ} (h : t.get? (Keyed.key r) = none) :
    t.insert? r = some (t.insertNew r) := by
  cases ht : t.insert? r with
  | none =>
    rw [insert?] at ht
    split at ht
    · next hk =>
      obtain ⟨r', hr', he⟩ := List.mem_map.mp hk
      exact absurd he (get?_eq_none_iff.mp h r' hr')
    · cases ht
  | some t' => rw [insertNew_of_insert? ht]

theorem prefix_of_insert? {t t' : Table ρ} {r : ρ} (h : t.insert? r = some t') :
    t.rows <+: t'.rows := ⟨[r], (insert?_eq_some_iff.mp h).2.symm⟩

theorem prefix_insertNew (t : Table ρ) (r : ρ) : t.rows <+: (t.insertNew r).rows := by
  cases ht : t.get? (Keyed.key r) with
  | none => exact prefix_of_insert? (exists_insert? ht)
  | some r' =>
    have hsame : t.insertNew r = t := insertNew_of_get? ht
    exact hsame.symm ▸ List.prefix_rfl

/-- A row of a table is a row of every extension. -/
theorem get?_of_prefix {t t' : Table ρ} {k : κ} {r : ρ} (h : t.rows <+: t'.rows)
    (hk : t.get? k = some r) : t'.get? k = some r :=
  get?_eq_some_iff.mpr ⟨h.subset (mem_of_get? hk), key_of_get? hk⟩

/-- A row of the extended table is old, or is the new one and its key was free. -/
theorem mem_insertNew_iff {t : Table ρ} {r r' : ρ} :
    r' ∈ t.insertNew r ↔ r' ∈ t ∨ (r' = r ∧ t.get? (Keyed.key r) = none) := by
  cases ht : t.get? (Keyed.key r) with
  | none => simpa using mem_of_insert? (exists_insert? ht)
  | some r'' => simp [insertNew_of_get? ht]

theorem get?_insertNew (t : Table ρ) (r : ρ) (k : κ) :
    (t.insertNew r).get? k = (t.get? k).or (if Keyed.key r = k then some r else none) := by
  cases ht : t.get? (Keyed.key r) with
  | none =>
    rw [get?_of_insert? (exists_insert? ht)]
    split
    · next h => subst h; simp [ht]
    · simp
  | some r'' =>
    rw [insertNew_of_get? ht]
    split
    · next h => subst h; simp [ht]
    · simp

/-! ### Rewriting in place -/

/-- Rewrite the row with key `k` by a function that keeps the key. -/
def modify (t : Table ρ) (k : κ) (f : ρ → ρ)
    (hf : ∀ r, Keyed.key (f r) = Keyed.key r := by exact fun _ => rfl) : Table ρ where
  rows := t.rows.map fun r => if Keyed.key r = k then f r else r
  nodup := by
    have h : (t.rows.map fun r => if Keyed.key r = k then f r else r).map Keyed.key
        = t.rows.map Keyed.key := by
      rw [List.map_map]
      refine List.map_congr_left fun r _ => ?_
      simp only [Function.comp_apply]
      split
      · exact hf r
      · rfl
    rw [h]
    exact t.nodup

variable {t : Table ρ} {k : κ} {f : ρ → ρ} {hf : ∀ r, Keyed.key (f r) = Keyed.key r}

@[simp] theorem rows_modify :
    (t.modify k f hf).rows = t.rows.map fun r => if Keyed.key r = k then f r else r := rfl

theorem mem_modify_iff {r : ρ} :
    r ∈ t.modify k f hf ↔ ∃ r' ∈ t, (if Keyed.key r' = k then f r' else r') = r :=
  List.mem_map

/-- Read after a rewrite. -/
theorem get?_modify (k' : κ) :
    (t.modify k f hf).get? k' = (t.get? k').map fun r => if k' = k then f r else r := by
  cases h : t.get? k' with
  | none =>
    rw [get?_eq_none_iff] at h
    rw [Option.map_none, get?_eq_none_iff]
    intro r hr
    obtain ⟨r', hr', rfl⟩ := mem_modify_iff.mp hr
    split
    · rw [hf]; exact h r' hr'
    · exact h r' hr'
  | some r =>
    obtain ⟨hr, rfl⟩ := get?_eq_some_iff.mp h
    rw [Option.map_some, get?_eq_some_iff]
    refine ⟨mem_modify_iff.mpr ⟨r, hr, rfl⟩, ?_⟩
    split
    · exact hf r
    · rfl

/-- A row read after a rewrite is the rewritten one or an old one. -/
theorem get?_modify_cases (hf : ∀ r, Keyed.key (f r) = Keyed.key r) {k' : κ} {r' : ρ}
    (h : (t.modify k f hf).get? k' = some r') :
    ∃ r, t.get? k' = some r ∧ ((k' = k ∧ r' = f r) ∨ (k' ≠ k ∧ r' = r)) := by
  rw [get?_modify, Option.map_eq_some_iff] at h
  obtain ⟨r, hr, h⟩ := h
  refine ⟨r, hr, ?_⟩
  split at h
  · next hk => exact Or.inl ⟨hk, h.symm⟩
  · next hk => exact Or.inr ⟨hk, h.symm⟩

theorem exists_get?_modify (hf : ∀ r, Keyed.key (f r) = Keyed.key r) {k' : κ} {r : ρ}
    (h : t.get? k' = some r) : ∃ r', (t.modify k f hf).get? k' = some r' :=
  ⟨_, by rw [get?_modify, h, Option.map_some]⟩

theorem get?_modify_self (hf : ∀ r, Keyed.key (f r) = Keyed.key r) {r : ρ} (h : t.get? k = some r) :
    (t.modify k f hf).get? k = some (f r) := by simp [get?_modify, h]

theorem get?_modify_of_ne (hf : ∀ r, Keyed.key (f r) = Keyed.key r) {k' : κ} (h : k' ≠ k) :
    (t.modify k f hf).get? k' = t.get? k' := by
  rw [get?_modify]
  simp [h]

/-- What the rewrite leaves alone reads the same in every row. -/
theorem map_get?_modify {β : Type} {g : ρ → β} (hg : ∀ r, g (f r) = g r) (k' : κ)
    (hf : ∀ r, Keyed.key (f r) = Keyed.key r) :
    ((t.modify k f hf).get? k').map g = (t.get? k').map g := by
  rw [get?_modify, Option.map_map]
  refine congrArg (fun g => Option.map g (t.get? k')) (funext fun r => ?_)
  simp only [Function.comp_apply]
  split
  · exact hg r
  · rfl

/-- A column the rewrite leaves alone is left alone as a whole. -/
theorem map_modify {β : Type} {g : ρ → β} (hg : ∀ r, g (f r) = g r)
    (hf : ∀ r, Keyed.key (f r) = Keyed.key r) : (t.modify k f hf).rows.map g = t.rows.map g := by
  rw [rows_modify, List.map_map]
  refine List.map_congr_left fun r _ => ?_
  simp only [Function.comp_apply]
  split
  · exact hg r
  · rfl

/-- Rewrite every row by a function that keeps the key. -/
def mapRows (t : Table ρ) (f : ρ → ρ)
    (hf : ∀ r, Keyed.key (f r) = Keyed.key r := by exact fun _ => rfl) : Table ρ where
  rows := t.rows.map f
  nodup := by
    have h : (t.rows.map f).map Keyed.key = t.rows.map Keyed.key := by
      rw [List.map_map]
      exact List.map_congr_left fun r _ => hf r
    rw [h]
    exact t.nodup

omit [DecidableEq κ] in
theorem mem_mapRows_iff {r : ρ} : r ∈ t.mapRows f hf ↔ ∃ r' ∈ t, f r' = r := List.mem_map

omit [DecidableEq κ] in
/-- A column the rewrite of every row leaves alone. -/
theorem map_mapRows {β : Type} {g : ρ → β} (hg : ∀ r, g (f r) = g r)
    (hf : ∀ r, Keyed.key (f r) = Keyed.key r) : (t.mapRows f hf).rows.map g = t.rows.map g := by
  rw [mapRows, List.map_map]
  exact List.map_congr_left fun r _ => hg r

/-- Read after a rewrite of every row. -/
theorem get?_mapRows (hf : ∀ r, Keyed.key (f r) = Keyed.key r) (k' : κ) :
    (t.mapRows f hf).get? k' = (t.get? k').map f := by
  cases h : t.get? k' with
  | none =>
    rw [get?_eq_none_iff] at h
    rw [Option.map_none, get?_eq_none_iff]
    intro r hr
    obtain ⟨r', hr', rfl⟩ := mem_mapRows_iff.mp hr
    rw [hf]
    exact h r' hr'
  | some r =>
    obtain ⟨hr, rfl⟩ := get?_eq_some_iff.mp h
    rw [Option.map_some, get?_eq_some_iff]
    exact ⟨mem_mapRows_iff.mpr ⟨r, hr, rfl⟩, hf r⟩

end Table
