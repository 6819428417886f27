import TraceFence.Registry.Succession

/-!
# Runs that have ended

Nothing happens any more in a run that has ended. Most operations ask whether the run is running;
`activate` does not, and relies on the scopes. That is enough for a run that was cancelled or has
completed, and not for one that has failed: its pending nodes can still be activated. And a
checkpoint that was decided while the run was running may be written after its end.

## Main definitions

* `Undisturbed` — what an ended run keeps from one state to a later one
* `RunsImmutable` — the law
* `Write.sparesEndedRuns` — the discipline under which the code obeys it

## Main results

* `terminal_runs_immutable` — the law, in disciplined runs
* `terminal_runs_immutable_fails` — a node of a failed run becomes active
-/

namespace TraceFence

open System

variable {cfg : Config} {w : Write} {a b c : Database} {s s' : Sys}

/-- Nothing has happened in a run between two states. -/
structure Undisturbed (a b : Database) (runId : Id) : Prop where
  run : ∀ r, a.runs.get? runId = some r → b.runs.get? runId = some r
  node : ∀ id n', b.nodes.get? id = some n' → n'.runId = runId →
    ∃ n, a.nodes.get? id = some n ∧ (n'.status.isLive = true → n'.status = n.status)
  command : ∀ id c', b.commands.get? id = some c' → c'.runId = runId →
    ∃ c, a.commands.get? id = some c ∧
      (c'.replacementStatus = some .active → c.replacementStatus = some .active)
  scope : ∀ id sc, a.scopes.get? id = some sc → sc.runId = runId → b.scopes.get? id = some sc
  attempt : ∀ x ∈ b.attempts, x.runId = runId → x.decision = .allow → x ∈ a.attempts

/-- **Terminal runs are immutable**: once a run has ended, nothing happens in it. -/
def RunsImmutable (T : System Sys Label) : Prop :=
  ∀ s s', T.Reachable s → T.Run s s' → ∀ runId r, s.db.runs.get? runId = some r →
    r.status.isTerminal = true → Undisturbed s.db s'.db runId

/-- A node is activated while its run is running, and a checkpoint that lets its node live on finds
the run still running, or the node already as it leaves it. -/
def Write.sparesEndedRuns : Write → Prop
  | .activate at' => at'.runRunning = true
  | .checkpoint _ status (some found) =>
    status.isLive = true → found.runRunning = true ∨ found.node.status = status
  | _ => True

theorem Undisturbed.refl (a : Database) (runId : Id) : Undisturbed a a runId :=
  ⟨fun _ h => h, fun _ n hn _ => ⟨n, hn, fun _ => rfl⟩, fun _ c hc _ => ⟨c, hc, id⟩,
    fun _ _ h _ => h, fun _ hx _ _ => hx⟩

theorem Undisturbed.trans {runId : Id} (h : Undisturbed a b runId) (h' : Undisturbed b c runId)
    (he : Evolves b c) : Undisturbed a c runId where
  run r hr := h'.run r (h.run r hr)
  node id n'' hn'' hr := by
    obtain ⟨n', hn', hlive'⟩ := h'.node id n'' hn'' hr
    obtain ⟨n₁, hn₁, hreg⟩ := he.node_registration hn'
    obtain rfl := Option.some.inj (hn''.symm.trans hn₁)
    obtain ⟨n, hn, hlive⟩ := h.node id n' hn' ((congrArg Registration.runId hreg).symm.trans hr)
    refine ⟨n, hn, fun hl => ?_⟩
    have hsame := hlive' hl
    exact hsame.trans (hlive (hsame ▸ hl))
  command id k'' hk'' hr := by
    obtain ⟨k', hk', hactive'⟩ := h'.command id k'' hk'' hr
    obtain ⟨k₁, hk₁, hissued⟩ := he.command id k' hk'
    obtain rfl := Option.some.inj (hk''.symm.trans hk₁)
    have hrun := issued_column (·.runId) (fun _ => rfl) hissued
    obtain ⟨k, hk, hactive⟩ := h.command id k' hk' (hrun.symm.trans hr)
    exact ⟨k, hk, fun ha => hactive (hactive' ha)⟩
  scope id sc hsc hr := h'.scope id sc (h.scope id sc hsc hr) hr
  attempt x hx hr hallow := h.attempt x (h'.attempt x hx hr hallow) hr hallow

/-! ### One effect -/

/-- A run that has ended is not running. -/
theorem not_running {runId : Id} {r : Run} (hr : a.runs.get? runId = some r)
    (ht : r.status.isTerminal = true) : ¬ RunRunning a runId := by
  rintro ⟨r', hr', hrunning⟩
  rw [hr] at hr'
  obtain rfl := Option.some.inj hr'
  rw [hrunning] at ht
  cases ht

/-- Who is brought to life, in an ended run, is as alive as before. -/
theorem NodeStep.not_raised {n n' : Node} (h : NodeStep cfg w n n') (hok : w.sparesEndedRuns)
    (hstanding : ∀ at', w.standing = some at' → at'.node = n → at'.runRunning = false)
    (hlive : n'.status.isLive = true) : n'.status = n.status := by
  cases h with
  | same | token | renew => rfl
  | activate => exact absurd ((hstanding _ rfl rfl).symm.trans hok) Bool.false_ne_true
  | converge _ _ cut => rcases cut with rfl | rfl <;> cases hlive
  | expire | complete => cases hlive
  | checkpoint =>
    rcases hok hlive with hrunning | hsame
    · exact absurd ((hstanding _ rfl rfl).symm.trans hrunning) Bool.false_ne_true
    · exact hsame.symm

theorem Effect.undisturbed (h : Effect cfg w a b) (hS : Succession a) (hok : w.sparesEndedRuns)
    {runId : Id} {r : Run} (hr : a.runs.get? runId = some r) (ht : r.status.isTerminal = true) :
    Undisturbed a b runId := by
  have hstopped := not_running hr ht
  refine ⟨fun r' hr' => ?_, fun id n' hn' hrun => ?_, fun id c' hc' hrun => ?_,
    fun id sc hsc hrun => ?_, fun x hx hrun hallow => ?_⟩
  · rw [hr] at hr'
    obtain rfl := Option.some.inj hr'
    obtain ⟨r', hr', hkept⟩ := h.evolves.run runId r hr
    rwa [hkept ht] at hr'
  · rcases h.node_cases hn' with ⟨_, rfl | rfl⟩ | ⟨n, hn, hstep⟩
    · have hfresh := h.root_birth.runFresh
      rw [hrun, hr] at hfresh
      cases hfresh
    · obtain ⟨parent, hbirth⟩ := h.birth
      obtain ⟨_, hlive⟩ := hbirth.live
      exact absurd (hrun ▸ hbirth.run ▸ hlive.running) hstopped
    · refine ⟨n, hn, hstep.not_raised hok fun at' hat hnode => ?_⟩
      have hsame : n.runId = runId :=
        (congrArg Registration.runId hstep.registration).symm.trans hrun
      rw [(h.found_standing hat).1, hnode]
      by_contra hrunning
      rw [Bool.not_eq_false] at hrunning
      exact hstopped (hsame ▸ runIsRunning_iff.mp hrunning)
  · rcases h.command_cases hc' with ⟨_, rfl⟩ | ⟨c, hc, hstep⟩
    · obtain ⟨r', hr', hrunning, _⟩ := h.issuance.run
      exact absurd ⟨r', hrun ▸ hr', hrunning⟩ hstopped
    · refine ⟨c, hc, fun hactive => ?_⟩
      cases hstep with
      | same | skip => exact hactive
      | register | complete | expire => cases hactive
      | @activate at' _ cause =>
        have hstanding : Write.standing (.activate at') = some at' := rfl
        obtain ⟨hat, hfound⟩ := h.found_standing hstanding
        obtain ⟨c₀, hc₀, _, hnode⟩ := hS.cause _ _ _ hfound cause
        rw [show c.id = id from Table.key_of_get? hc, hc] at hc₀
        obtain rfl := Option.some.inj hc₀
        have hrunning : at'.runRunning = true := hok
        rw [hat] at hrunning
        exact absurd (hrun ▸ hnode ▸ runIsRunning_iff.mp hrunning) hstopped
  · obtain ⟨sc', hsc', hstep⟩ := h.scope_step hsc
    cases hstep with
    | same => exact hsc'
    | invalidate _ _ target =>
      obtain ⟨r', hr', hrunning, _⟩ := h.issuance.run
      obtain ⟨s, hs, hsrun, _⟩ := h.issuance.scope
      rw [target, show sc.id = id from Table.key_of_get? hsc, hsc] at hs
      obtain rfl := Option.some.inj hs
      exact absurd ⟨r', hrun ▸ hsrun ▸ hr', hrunning⟩ hstopped
  · rcases h.attempts_cases with hsame | ⟨y, hinsert, hw⟩
    · exact hsame ▸ hx
    · rw [← Table.mem_rows, (insertAttempt_eq_ok hinsert).1, List.mem_append,
        List.mem_singleton] at hx
      rcases hx with hx | rfl
      · exact hx
      · rcases hw with ⟨_, hdeny⟩ | ⟨at', now, rfl, _⟩
        · rw [hallow] at hdeny
          cases hdeny
        · exact absurd (hrun ▸ h.admission.run ▸ h.admission.live.running) hstopped

/-! ### Every run -/

/-- **Terminal runs are immutable** as long as nodes are activated in running runs only, and a
checkpoint that is to leave its node waiting finds the run still running, or the node waiting. -/
theorem terminal_runs_immutable (cfg : Config) :
    RunsImmutable (disciplined cfg Write.sparesEndedRuns) := by
  intro s s' hs hrun runId r hr ht
  have hreachable := hs.of_restrict
  have hall := disciplined_run_db (I := fun db => db.registry.WellFormed ∧ Succession db ∧
    Undisturbed s.db db runId) hrun
    ⟨registry_wellFormed hreachable, succession hreachable, .refl _ _⟩
    fun w a b ha hok he => ⟨he.registry_wellFormed ha.1, he.succession ha.1 ha.2.1,
      ha.2.2.trans (he.undisturbed ha.2.1 hok (ha.2.2.run r hr) ht) he.evolves⟩
  exact hall.2.2

/-- The sample run, after an operator has cancelled it. -/
def sampleEnded : List Label := sampleStart ++
  [.call (.issueCommand
    { idempotencyKey := "stop", commandType := .cancelRun, targetNodeId := 11,
      reasonCode := "STOP", reasonText := "stop" } ⟨.human, none, none⟩ none) (sampleEnv 3 40)]

/-- A cancelled run stays as it is when a child of its root is to be registered. -/
theorem terminal_runs_immutable_sample :
    ∃ s, (disciplined sampleConfig Write.sparesEndedRuns).Reachable s ∧
      ∃ r, s.db.runs.get? 10 = some r ∧ r.status = .cancelled ∧
        Undisturbed s.db (s.next sampleConfig
          (.call (.createSpawn 11 10 { role := "worker" }) (sampleEnv 3 60))).db 10 := by
  have hok (w : Write) (hw : w.harmless) : w.sparesEndedRuns := by
    cases w <;> first | exact hw | trivial
  have hcheck (s : Sys) (l : Label) (h : tame s l = true) :
      Discipline sampleConfig Write.sparesEndedRuns s l :=
    fun _ _ hw => hok _ (harmless_of_tame h hw)
  have hreachable : (disciplined sampleConfig Write.sparesEndedRuns).Reachable
      (sample sampleEnded) := sample_disciplined hok (by decide +kernel)
  refine ⟨_, hreachable, ?_⟩
  have hcancelled : ((sample sampleEnded).db.runs.get? 10).any (fun r => r.status = .cancelled) =
      true := by decide +kernel
  obtain ⟨r, hr, hstatus⟩ := (Option.any_eq_true _ _).mp hcancelled
  rw [decide_eq_true_eq] at hstatus
  exact ⟨r, hr, hstatus, terminal_runs_immutable sampleConfig _ _ hreachable
    (Run.tail .refl ⟨⟨trivial, hcheck _ _ rfl⟩, rfl⟩) 10 r hr (by rw [hstatus]; rfl)⟩

/-! ### The failing run -/

/-- The root registers a child at 5 s. Its own lease ends at 8 s, and the scanner ends the run. -/
def sampleFailed : List Label :=
  [.begin (.createRun { name := "sample" }) (sampleEnv 1 10), .finish 0 (sampleEnv 1 10),
    .call (.createSpawn 11 10 { role := "worker" }) (sampleEnv 5 20),
    .begin (.expireStaleNodes none) (sampleEnv 9 30), .finish 0 (sampleEnv 9 30)]

/-- The child is activated. -/
def sampleBelated : List Label :=
  [.begin (.activate 20 { activationToken := 20 }) (sampleEnv 10 40), .finish 0 (sampleEnv 10 40)]

/-- A node of a failed run becomes active. -/
theorem terminal_runs_immutable_fails : ¬ RunsImmutable (services sampleConfig) := by
  intro h
  have hfailed : ((sample sampleFailed).db.runs.get? 10).any (fun r => r.status = .failed) = true := by
    decide +kernel
  have hpending : ((sample sampleFailed).db.nodes.get? 20).any (fun n => n.status = .pending) =
      true := by decide +kernel
  have hactive : ((sample (sampleFailed ++ sampleBelated)).db.nodes.get? 20).any
      (fun n => n.runId = 10 ∧ n.status = .active) = true := by decide +kernel
  obtain ⟨r, hr, hstatus⟩ := (Option.any_eq_true _ _).mp hfailed
  obtain ⟨m, hm, hbefore⟩ := (Option.any_eq_true _ _).mp hpending
  obtain ⟨n', hn', hafter⟩ := (Option.any_eq_true _ _).mp hactive
  rw [decide_eq_true_eq] at hstatus hbefore hafter
  have hsealed := h _ _ (sample_reachable sampleFailed) (sample_run sampleFailed sampleBelated) 10 r hr
    (by rw [hstatus]; rfl)
  obtain ⟨n, hn, hkept⟩ := hsealed.node 20 n' hn' hafter.1
  rw [hm] at hn
  obtain rfl := Option.some.inj hn
  have hsame := hkept (by rw [hafter.2]; rfl)
  rw [hafter.2, hbefore] at hsame
  cases hsame

end TraceFence
