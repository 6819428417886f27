import TraceFence.Registry.Control

/-!
# The stale-action fence

Once a command is committed, nothing below its target acts again. The command's scope is not
active and stays as it is, whoever holds it in a snapshot is not allowed, and an attempt is
allowed only for a node that is. The argument never looks at when a node was registered, so it
covers late children as well as early ones.

## Main results

* `Effect.allowed_outside` — an attempt is allowed only outside the reach of every command
* `stale_action_fence` — the fence, along every run
-/

namespace TraceFence

open System

variable {cfg : Config} {w : Write} {a b : Database}

/-- The allowed attempts that `a` does not have yet are of nodes that `c` does not reach. -/
def Fenced (a : Database) (c : ControlCommand) (b : Database) : Prop :=
  ∀ x ∈ b.attempts, x.decision = .allow → x ∈ a.attempts ∨
    ∃ n, b.nodes.get? x.nodeId = some n ∧ ¬ c.reaches n

/-- **An attempt is allowed only outside the reach of every command.** -/
theorem Effect.allowed_outside {c : ControlCommand} {at' : Standing} {now : Time}
    {x : ActionAttempt} (h : Effect cfg (.allow at' now x) a b) (hc : Governs a c) :
    ∃ n, a.nodes.get? x.nodeId = some n ∧ ¬ c.reaches n := by
  cases h with
  | @allow _ node _ _ _ _ _ _ found live _ _ _ _ row =>
    refine ⟨node, by rw [row]; exact found, fun hreach => ?_⟩
    have hno := hc.not_allowed hreach
    rw [live.scopes] at hno
    cases hno

theorem Effect.fenced {c : ControlCommand} {a₀ : Database} (h : Effect cfg w a b) (hc : Governs a c)
    (ha : Fenced a₀ c a) : Fenced a₀ c b := by
  have hkept : ∀ x ∈ a.attempts, x.decision = .allow → x ∈ a₀.attempts ∨
      ∃ n, b.nodes.get? x.nodeId = some n ∧ ¬ c.reaches n := by
    intro x hx hallow
    rcases ha x hx hallow with hold | ⟨n, hn, hout⟩
    · exact Or.inl hold
    · obtain ⟨n', hn', hstep⟩ := h.node_step hn
      exact Or.inr ⟨n', hn', by rwa [reaches_of_registration hstep.registration]⟩
  intro x hx hallow
  rcases h.attempts_cases with hsame | ⟨y, hinsert, hdecision⟩
  · exact hkept x (hsame ▸ hx) hallow
  · have hrows := (insertAttempt_eq_ok hinsert).1
    rw [← Table.mem_rows, hrows, List.mem_append, List.mem_singleton] at hx
    rcases hx with hx | rfl
    · exact hkept x hx hallow
    rcases hdecision with ⟨_, hdeny⟩ | ⟨at', now, rfl, _⟩
    · rw [hdeny] at hallow
      cases hallow
    · obtain ⟨n, hn, hout⟩ := h.allowed_outside hc
      obtain ⟨n', hn', hstep⟩ := h.node_step hn
      exact Or.inr ⟨n', hn', by rwa [reaches_of_registration hstep.registration]⟩

/-- A step lets no node act that a command has reached before. -/
theorem Governs.fence {s s' : Sys} {l : Label} {c : ControlCommand} (h : Governs s.db c)
    (hstep : (services cfg).Step s l s') : ∀ n ∈ s'.db.nodes, c.reaches n →
      ∀ x ∈ s'.db.attempts, x.nodeId = n.id → x.decision = .allow → x ∈ s.db.attempts := by
  intro n hn hreaches x hx hnode hallow
  have hfenced : Governs s'.db c ∧ Fenced s.db c s'.db :=
    (step_writes hstep).preserve (I := fun b => Governs b c ∧ Fenced s.db c b)
      ⟨h, fun _ hx _ => Or.inl hx⟩ fun _ _ _ ha _ he =>
        ⟨ha.1.evolves he.evolves rfl, he.fenced ha.1 ha.2⟩
  rcases hfenced.2 x hx hallow with hold | ⟨n', hn', hout⟩
  · exact hold
  · rw [hnode, show s'.db.nodes.get? n.id = some n from Table.get?_of_mem hn] at hn'
    cases hn'
    exact absurd hreaches hout

/-- **The stale-action fence.** After a command is committed, whatever happens next: the nodes it
reaches are its target and the descendants of its target, whenever they are registered; no step
commits an allowed attempt of any of them; and no step makes its target scope active again or
lowers its version. -/
theorem stale_action_fence {s s₁ s₂ : Sys} {l : Label} {c : ControlCommand}
    (hs : (services cfg).Reachable s) (hc : c ∈ s.db.commands) (hrun : (services cfg).Run s s₁)
    (hstep : (services cfg).Step s₁ l s₂) :
    (∀ n ∈ s₂.db.nodes, c.reaches n ↔ n.runId = c.runId ∧
      (n.id = c.targetNodeId ∨ isDescendant s₂.db c.runId c.targetNodeId n.id = true)) ∧
    (∀ n ∈ s₂.db.nodes, c.reaches n → ∀ x ∈ s₂.db.attempts, x.nodeId = n.id →
      x.decision = .allow → x ∈ s₁.db.attempts) ∧
    ∃ scope ∈ s₁.db.scopes, ∃ scope' ∈ s₂.db.scopes, scope.id = c.targetScopeId ∧
      scope'.id = c.targetScopeId ∧ scope'.status ≠ .active ∧ scope.version ≤ scope'.version := by
  have hreach₁ : (services cfg).Reachable s₁ := hs.run hrun
  have hreach₂ : (services cfg).Reachable s₂ := hreach₁.step hstep
  have hgoverns : Governs s.db c := (controlled hs).command c.id c (Table.get?_of_mem hc)
  have hgoverns₁ : Governs s₁.db c := hgoverns.evolves (run_evolves hrun) rfl
  have hgoverns₂ : Governs s₂.db c := hgoverns₁.evolves (step_evolves hstep) rfl
  refine ⟨fun n hn => ?_, hgoverns₁.fence hstep, ?_⟩
  · exact hgoverns₂.reaches_iff_isDescendant (registry_wellFormed hreach₂) (Table.get?_of_mem hn)
  · obtain ⟨scope, hscope, _⟩ := hgoverns₁.scope
    obtain ⟨scope', hscope', _, hstatus, _⟩ := hgoverns₂.scope
    obtain ⟨later, hlater, hversion, _⟩ := (step_evolves hstep).scope _ scope hscope
    obtain rfl := Option.some.inj (hlater.symm.trans hscope')
    exact ⟨scope, Table.mem_of_get? hscope, later, Table.mem_of_get? hscope',
      Table.key_of_get? hscope, Table.key_of_get? hscope',
      hstatus ▸ scopeStatus_ne_active _, hversion⟩

/-- When the cancelled worker of the sample run asks to act, nothing of it is allowed. -/
theorem stale_action_fence_sample : ∃ c ∈ (sample sampleCancelled).db.commands,
    c.targetNodeId = 20 ∧ ∀ s₂, (services sampleConfig).Step (sample sampleCancelled)
      (.call (.execute 20 30 { idempotencyKey := "first", toolName := "read_metrics" })
        (sampleEnv 4 50)) s₂ →
      ∀ n ∈ s₂.db.nodes, c.reaches n → ∀ x ∈ s₂.db.attempts, x.nodeId = n.id →
        x.decision = .allow → x ∈ (sample sampleCancelled).db.attempts := by
  obtain ⟨c, hc⟩ := Option.isSome_iff_exists.mp (show
    ((sample sampleCancelled).db.commands.rows.find? fun c => c.targetNodeId = 20).isSome = true by
      decide +kernel)
  have hmem : c ∈ (sample sampleCancelled).db.commands := List.mem_of_find?_eq_some hc
  exact ⟨c, hmem, by simpa using List.find?_some hc, fun s₂ hstep =>
    (stale_action_fence (sample_reachable _) hmem .refl hstep).2.1⟩

end TraceFence
