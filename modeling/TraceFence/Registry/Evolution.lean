import TraceFence.Registry.Inversion

/-!
# What every transaction preserves

Some facts survive whatever happens: a registration, the fields of a command that describe the
order, a scope that is no longer active, a run that has ended, an attempt. They are stated once,
as a preorder on databases that every effect respects.

## Main definitions

* `Evolves` — the preorder

## Main results

* `Effect.evolves`, `Writes.evolves`, `run_evolves`
* `Effect.logged`, `Writes.logged`, `run_logged` — the same for the records
-/

namespace TraceFence

variable {cfg : Config} {w : Write} {a b c : Database}

/-- `b` is a later state of `a`. -/
structure Evolves (a b : Database) : Prop where
  registry : a.registry.Le b.registry
  /-- Versions do not go down, and a scope that is not active stays as it is. -/
  scope : ∀ id s, a.scopes.get? id = some s →
    ∃ s', b.scopes.get? id = some s' ∧ s.version ≤ s'.version ∧ (s.status ≠ .active → s' = s)
  /-- A run that has ended stays as it is. -/
  run : ∀ id r, a.runs.get? id = some r →
    ∃ r', b.runs.get? id = some r' ∧ (r.status.isTerminal = true → r' = r)
  command : ∀ id c, a.commands.get? id = some c →
    ∃ c', b.commands.get? id = some c' ∧ c'.issued = c.issued
  attempt : a.attempts.rows <+: b.attempts.rows

theorem Evolves.refl (a : Database) : Evolves a a :=
  ⟨.refl _, fun _ s h => ⟨s, h, le_rfl, fun _ => rfl⟩, fun _ r h => ⟨r, h, fun _ => rfl⟩,
    fun _ c h => ⟨c, h, rfl⟩, List.prefix_refl _⟩

theorem Evolves.trans (h : Evolves a b) (h' : Evolves b c) : Evolves a c where
  registry := h.registry.trans h'.registry
  scope id s hs := by
    obtain ⟨s₁, hs₁, hv₁, hf₁⟩ := h.scope id s hs
    obtain ⟨s₂, hs₂, hv₂, hf₂⟩ := h'.scope id s₁ hs₁
    refine ⟨s₂, hs₂, hv₁.trans hv₂, fun hne => ?_⟩
    obtain rfl := hf₁ hne
    exact hf₂ hne
  run id r hr := by
    obtain ⟨r₁, hr₁, hf₁⟩ := h.run id r hr
    obtain ⟨r₂, hr₂, hf₂⟩ := h'.run id r₁ hr₁
    refine ⟨r₂, hr₂, fun ht => ?_⟩
    obtain rfl := hf₁ ht
    exact hf₂ ht
  command id c hc := by
    obtain ⟨c₁, hc₁, he₁⟩ := h.command id c hc
    obtain ⟨c₂, hc₂, he₂⟩ := h'.command id c₁ hc₁
    exact ⟨c₂, hc₂, he₂.trans he₁⟩
  attempt := h.attempt.trans h'.attempt

/-! ### One effect -/

theorem ScopeStep.evolves {s s' : ControlScope} (h : ScopeStep w s s') :
    s.version ≤ s'.version ∧ (s.status ≠ .active → s' = s) := by
  cases h with
  | same => exact ⟨le_rfl, fun _ => rfl⟩
  | invalidate _ _ _ active => exact ⟨Nat.le_succ _, fun hne => absurd active hne⟩

theorem RunStep.evolves {r r' : Run} (h : RunStep w r r') (hr : r.status.isTerminal = true) :
    r' = r := by
  cases h with
  | same => rfl
  | finish _ _ running => simp [running, RunStatus.isTerminal] at hr

/-- **Every effect evolves the database.** -/
theorem Effect.evolves (h : Effect cfg w a b) : Evolves a b where
  registry := h.registry_le
  scope id s hs := by
    obtain ⟨s', hs', hstep⟩ := h.scope_step hs
    exact ⟨s', hs', hstep.evolves⟩
  run id r hr := by
    obtain ⟨r', hr', hstep⟩ := h.run_step hr
    exact ⟨r', hr', hstep.evolves⟩
  command id c hc := by
    obtain ⟨c', hc', hstep⟩ := h.command_step hc
    exact ⟨c', hc', hstep.issued⟩
  attempt := by
    rcases h.attempts_cases with he | ⟨_, hinsert, _⟩
    · rw [he]
    · exact ⟨_, (insertAttempt_eq_ok hinsert).1.symm⟩

/-! ### Records -/

/-- **Every effect keeps the records**: acknowledgements, matches and events. -/
theorem Effect.logged (h : Effect cfg w a b) : Logged a b := by
  cases h with
  | record _ _ _ _ _ logged => exact ⟨logged.1, logged.2, logged.3⟩
  | registerRun | registerNode | registerReplacement | rotateIntent | rotateToken | renew | converge
  | expireHeartbeat | expireSweep | checkpoint | issue | states | deny | allow =>
    exact ⟨List.prefix_rfl, List.prefix_rfl, List.prefix_rfl⟩
  | @activate _ _ _ _ commandId | @complete _ _ _ _ _ commandId =>
    cases commandId <;> exact ⟨List.prefix_rfl, List.prefix_rfl, List.prefix_rfl⟩
  | expireScanner _ _ failed =>
    rw [failRun_eq failed, expireActivation_eq]
    exact ⟨List.prefix_rfl, List.prefix_rfl, List.prefix_rfl⟩

/-! ### Runs of the system -/

open System

theorem Writes.evolves {P : Write → Prop} (h : Writes cfg P a b) : Evolves a b :=
  h.relate (R := Evolves) Evolves.refl (fun _ _ _ => Evolves.trans) fun _ _ _ _ he => he.evolves

theorem Writes.logged {P : Write → Prop} (h : Writes cfg P a b) : Logged a b :=
  h.relate (R := Logged) Logged.refl (fun _ _ _ => Logged.trans) fun _ _ _ _ he => he.logged

/-- **Along every run records are only added.** -/
theorem run_logged {s s' : Sys} (h : (services cfg).Run s s') : Logged s.db s'.db := by
  induction h with
  | refl => exact .refl _
  | tail _ hs ih =>
    obtain ⟨l, hl⟩ := hs
    exact ih.trans (step_writes hl).logged

theorem step_evolves {s s' : Sys} {l : Label} (h : (services cfg).Step s l s') :
    Evolves s.db s'.db := (step_writes h).evolves

/-- **Along every run the database evolves.** -/
theorem run_evolves {s s' : Sys} (h : (services cfg).Run s s') : Evolves s.db s'.db := by
  induction h with
  | refl => exact .refl _
  | tail _ hs ih =>
    obtain ⟨l, hl⟩ := hs
    exact ih.trans (step_evolves hl)

end TraceFence
