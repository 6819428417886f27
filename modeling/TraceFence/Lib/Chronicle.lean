import Mathlib.Data.List.Basic
import Mathlib.Data.Set.Basic

/-!
# Chronicles

A chronicle of some facts is a log in which each of them is entered once, and nothing that is not
the case is entered at all. Which facts a log is read for is a parameter, so that the same log may
be a chronicle of some facts although it is none of others. A log that is only appended to remains
a chronicle if what is appended is exactly what has become the case.

## Main results

* `Chronicles.append` — a log that gains an entry for each new fact
* `Chronicles.mem_appended_iff` — what a log gains between two chronicles is what has become the
  case in between
-/

section

variable {μ : Type} [BEq μ] {domain : Set μ} {facts facts' : μ → Bool} {log new : List μ}
  {m : μ}

/-- Of the facts in `domain`, `log` has one entry for each that is the case and none for others. -/
def Chronicles (domain : Set μ) (facts : μ → Bool) (log : List μ) : Prop :=
  ∀ m ∈ domain, log.count m = if facts m = true then 1 else 0

theorem Chronicles.nil (h : ∀ m ∈ domain, facts m = false) : Chronicles domain facts [] := by
  intro m hm
  simp [h m hm]

variable [LawfulBEq μ]

theorem Chronicles.mem_iff (h : Chronicles domain facts log) (hm : m ∈ domain) :
    m ∈ log ↔ facts m = true := by
  rw [← List.count_pos_iff, h m hm]
  split <;> simp_all

/-- **The rule for a log that is appended to**: the entries are distinct, they are about what was
not the case before, and they are all that has become the case. -/
theorem Chronicles.append (h : Chronicles domain facts log) (hnodup : new.Nodup)
    (hfresh : ∀ m ∈ domain, m ∈ new → facts m = false)
    (hfacts : ∀ m ∈ domain, facts' m = true ↔ facts m = true ∨ m ∈ new) :
    Chronicles domain facts' (log ++ new) := by
  intro m hm
  rw [List.count_append, h m hm]
  by_cases hnew : m ∈ new
  · have hfact' : facts' m = true := (hfacts m hm).mpr (Or.inr hnew)
    rw [List.Nodup.count hnodup, if_pos hnew, hfresh m hm hnew, hfact']
    rfl
  · have hiff : facts' m = true ↔ facts m = true := by
      rw [hfacts m hm]
      exact or_iff_left hnew
    rw [List.count_eq_zero_of_not_mem hnew, Nat.add_zero]
    exact if_congr hiff.symm rfl rfl

/-- **What a log gains is what has become the case.** -/
theorem Chronicles.mem_appended_iff (h : Chronicles domain facts log)
    (h' : Chronicles domain facts' (log ++ new)) (hm : m ∈ domain) :
    m ∈ new ↔ facts' m = true ∧ facts m = false := by
  have hcount := h' m hm
  rw [List.count_append, h m hm] at hcount
  rw [← List.count_pos_iff]
  by_cases hfact : facts m = true
  · -- There is no room for a second entry.
    have hnone : new.count m = 0 := by
      rw [if_pos hfact] at hcount
      split at hcount <;> omega
    simp [hnone, hfact]
  · rw [if_neg hfact, Nat.zero_add] at hcount
    rw [hcount]
    by_cases hfact' : facts' m = true <;> simp [hfact, hfact']

end
