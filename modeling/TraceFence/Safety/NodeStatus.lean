import TraceFence.Registry.Inversion

/-!
# Terminal statuses

A node that has ended stays as it has ended, as far as every operation that holds the write lock
is concerned. `checkpoint` is the exception: it asks neither the node nor the run before it lets a
node converge, and it writes what it decided on before it had the lock. `heartbeat` and the
gateway ask both.

## Main definitions

* `Absorbing` — the law
* `Write.sparesEnded` — the discipline under which the code obeys it

## Main results

* `terminal_absorbing` — the law, in disciplined runs
* `terminal_absorbing_fails` — a node that has completed becomes cancelled
-/

namespace TraceFence

open System

variable {cfg : Config} {w : Write} {a b : Database} {s s' : Sys}

/-- **Terminal node statuses are absorbing**: once a node has ended, its status stays. -/
def Absorbing (T : System Sys Label) : Prop :=
  ∀ s s', T.Reachable s → T.Run s s' → ∀ id n, s.db.nodes.get? id = some n →
    n.status.isTerminal = true →
    ∃ n', s'.db.nodes.get? id = some n' ∧ n'.status = n.status

/-- A checkpoint writes to a node that has not ended by then, or that has ended with the status it
writes. -/
def Write.sparesEnded : Write → Prop
  | .checkpoint _ status (some found) =>
    found.node.status.isTerminal = false ∨ found.node.status = status
  | _ => True

theorem isTerminal_of_live {status : NodeStatus} (h : status.isLive = true) :
    status.isTerminal = false := by
  cases status <;> first | rfl | cases h

/-- No write but a checkpoint's changes a status that is terminal. -/
theorem NodeStep.absorbing {n n' : Node} (h : NodeStep cfg w n n') (hok : w.sparesEnded)
    (hn : n.status.isTerminal = true) : n'.status = n.status := by
  have hdead (hlive : n.status.isLive = true) : False := by
    rw [isTerminal_of_live hlive] at hn
    cases hn
  have hpending (hp : n.status = .pending) : False := by
    rw [hp] at hn
    cases hn
  cases h with
  | same | token | renew => rfl
  | activate _ _ _ pending => exact (hpending pending).elim
  | converge _ live | complete _ live => exact (hdead live).elim
  | expire before => exact (before.elim hdead hpending).elim
  | checkpoint =>
    rcases hok with hopen | hsame
    · rw [hopen] at hn
      cases hn
    · exact hsame.symm

/-- **Terminal statuses are absorbing** as long as every checkpoint that gets to its write finds a
node that has not ended since it was read, or that has ended as the checkpoint ends it. -/
theorem terminal_absorbing (cfg : Config) : Absorbing (disciplined cfg Write.sparesEnded) := by
  intro s s' _ hrun id n hn hterminal
  refine disciplined_run_db (I := fun db => ∃ n', db.nodes.get? id = some n' ∧
    n'.status = n.status) hrun ⟨n, hn, rfl⟩ ?_
  rintro w a b ⟨m, hm, hstatus⟩ hok he
  obtain ⟨m', hm', hstep⟩ := he.node_step hm
  exact ⟨m', hm', (hstep.absorbing hok (hstatus ▸ hterminal)).trans hstatus⟩

/-- The worker of the sample run completes. -/
def sampleCompleted : List Label := sampleStart ++ [.call (.complete 20 30) (sampleEnv 3 40)]

/-- The end of its branch does not change the status of a worker that has completed. -/
theorem terminal_absorbing_sample :
    ∃ s, (disciplined sampleConfig Write.sparesEnded).Reachable s ∧
      ∃ n, s.db.nodes.get? 20 = some n ∧ n.status = .completed ∧
        ∃ n', ((s.next sampleConfig (.call (.issueCommand
            { idempotencyKey := "stop", commandType := .cancelSubtree, targetNodeId := 20,
              reasonCode := "STOP", reasonText := "stop" } ⟨.human, none, none⟩ none)
            (sampleEnv 4 50))).db.nodes.get? 20) = some n' ∧ n'.status = n.status := by
  have hcall (s : Sys) (call : Call) (env : Env) : (disciplined sampleConfig Write.sparesEnded).Step
      s (.call call env) (s.next sampleConfig (.call call env)) :=
    ⟨⟨trivial, fun _ w hw => by cases hw <;> trivial⟩, rfl⟩
  have hstart : (disciplined sampleConfig Write.sparesEnded).Reachable (sample sampleStart) :=
    sample_disciplined (fun w hw => by cases w <;> trivial) (by decide +kernel)
  have hreachable := hstart.step (hcall (sample sampleStart) (.complete 20 30) (sampleEnv 3 40))
  have hcompleted : ((sample sampleCompleted).db.nodes.get? 20).any
      (fun n => n.status = .completed) = true := by decide +kernel
  obtain ⟨n, hn, hs⟩ := (Option.any_eq_true _ _).mp hcompleted
  rw [decide_eq_true_eq] at hs
  exact ⟨sample sampleCompleted, hreachable, n, hn, hs,
    terminal_absorbing sampleConfig _ _ hreachable (Run.tail .refl (hcall _ _ _)) 20 n hn
      (by rw [hs]; rfl)⟩

/-! ### The failing run -/

/-- After the worker has completed, an operator cancels its branch, and it makes a checkpoint. -/
def sampleLateCheckpoint : List Label :=
  [.call (.issueCommand
    { idempotencyKey := "stop", commandType := .cancelSubtree, targetNodeId := 20,
      reasonCode := "STOP", reasonText := "stop" } ⟨.human, none, none⟩ none) (sampleEnv 4 50),
    .begin (.checkpoint 20 30) (sampleEnv 5 60), .finish 0 (sampleEnv 5 60)]

/-- A node that has completed becomes cancelled. -/
theorem terminal_absorbing_fails : ¬ Absorbing (services sampleConfig) := by
  intro h
  have hcompleted : ((sample sampleCompleted).db.nodes.get? 20).any
      (fun n => n.status = .completed) = true := by decide +kernel
  have hcancelled : ((sample (sampleCompleted ++ sampleLateCheckpoint)).db.nodes.get? 20).any
      (fun n => n.status = .cancelled) = true := by decide +kernel
  obtain ⟨n, hn, hs⟩ := (Option.any_eq_true _ _).mp hcompleted
  obtain ⟨m, hm, hs'⟩ := (Option.any_eq_true _ _).mp hcancelled
  rw [decide_eq_true_eq] at hs hs'
  obtain ⟨n', hn', hsame⟩ := h _ _ (sample_reachable sampleCompleted)
    (sample_run sampleCompleted sampleLateCheckpoint) 20 n hn (by rw [hs]; rfl)
  rw [hm] at hn'
  obtain rfl := Option.some.inj hn'
  rw [hs, hs'] at hsame
  cases hsame

end TraceFence
