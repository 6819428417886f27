import Mathlib.Data.Nat.Notation

/-!
# Loops

The body of a loop takes its state to the next one or returns. A loop that is given up after a
number of rounds returns nothing, so that it returns with some number of rounds says that it
terminates, and with how many it does.

## Main definitions

* `Loop.run` — a number of rounds of a loop

## Main results

* `Loop.run_mono` — a loop that has returned is not changed by more rounds
* `Loop.exists_run` — a loop returns when every round lowers a measure of its state
-/

namespace Loop

variable {σ β : Type} {body : σ → σ ⊕ β}

/-- At most so many rounds of a loop, and what it returned if it has. -/
def run (body : σ → σ ⊕ β) : ℕ → σ → Option β
  | 0, _ => none
  | fuel + 1, s =>
    match body s with
    | .inl s' => run body fuel s'
    | .inr b => some b

theorem run_continue {s s' : σ} (h : body s = .inl s') (fuel : ℕ) :
    run body (fuel + 1) s = run body fuel s' := by
  rw [run, h]

theorem run_return {s : σ} {b : β} (h : body s = .inr b) (fuel : ℕ) :
    run body (fuel + 1) s = some b := by
  rw [run, h]

/-- A loop that has returned is not changed by more rounds. -/
theorem run_mono {n m : ℕ} {s : σ} {b : β} (h : run body n s = some b) (hle : n ≤ m) :
    run body m s = some b := by
  induction n generalizing m s with
  | zero => cases h
  | succ n ih =>
    obtain ⟨m, rfl⟩ : ∃ k, m = k + 1 := ⟨m - 1, by omega⟩
    rw [run] at h ⊢
    split at h
    · exact ih h (by omega)
    · exact h

/-- A loop returns when every round lowers a measure of its state. -/
theorem exists_run (measure : σ → ℕ) (hlower : ∀ s s', body s = .inl s' → measure s' < measure s)
    {fuel : ℕ} {s : σ} (hfuel : measure s < fuel) : ∃ b, run body fuel s = some b := by
  induction fuel generalizing s with
  | zero => omega
  | succ fuel ih =>
    cases h : body s with
    | inl s' =>
      have hlt := hlower s s' h
      rw [run_continue h]
      exact ih (by omega)
    | inr b => exact ⟨b, run_return h fuel⟩

end Loop
