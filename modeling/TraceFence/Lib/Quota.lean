import Mathlib.Data.Nat.Notation

/-!
# Quotas

A quota bounds how many rows each owner has. It is kept by checking before every insertion that
the owners of the new row still have room, whatever the path on which the row is inserted.

## Main results

* `Capped.concat` — an insertion that was checked keeps the quota
-/

variable {κ α β : Type} {owns : κ → α → Bool} {limit : ℕ} {rows : List α} {row : α}

/-- No owner has more than `limit` of the rows. -/
def Capped (owns : κ → α → Bool) (limit : ℕ) (rows : List α) : Prop :=
  ∀ k, rows.countP (owns k) ≤ limit

theorem Capped.nil : Capped owns limit [] := by
  intro k
  exact Nat.zero_le limit

/-- **Check, then insert.** -/
theorem Capped.concat (h : Capped owns limit rows)
    (room : ∀ k, owns k row = true → rows.countP (owns k) < limit) :
    Capped owns limit (rows ++ [row]) := by
  intro k
  rw [List.countP_append, List.countP_singleton]
  split
  · next hk => exact room k hk
  · exact h k

/-- A quota only depends on the columns that say who owns a row. -/
theorem capped_map {f : β → α} {rows : List β} :
    Capped owns limit (rows.map f) ↔ Capped (fun k row => owns k (f row)) limit rows := by
  refine forall_congr' fun k => ?_
  rw [List.countP_map]
  rfl
