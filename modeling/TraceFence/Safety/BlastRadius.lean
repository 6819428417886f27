import TraceFence.Safety.Snapshots

/-!
# The blast radius of a command

Issuing a command changes one scope. Whoever holds that scope in a snapshot is not allowed from
then on, and the evaluation of everybody else reads the same as before, down to the mismatches.
So a proof never finds an unrelated branch that the command has interrupted: a mismatch at the
target scope belongs to a node the command affects.

## Main results

* `Effect.issue_scope_frame` — a command changes one scope
* `unrelatedInterrupted_eq_zero`
* `blast_radius` — the step that accepts a command, and the count in every reachable state
-/

namespace TraceFence

open System

variable {cfg : Config} {a b db : Database} {s : Sys} {c : ControlCommand} {n : Node}

/-! ### What a command changes -/

/-- A command changes one scope. -/
theorem Effect.issue_scope_frame (h : Effect cfg (.issue c) a b) {id : Id}
    (hid : id ≠ c.targetScopeId) : b.scopes.get? id = a.scopes.get? id := by
  cases h with
  | @issue _ _ _ _ _ _ scope plan _ _ _ _ _ _ _ _ _ scopeFound =>
    refine Table.get?_modify_of_ne (by intro; rfl) fun he => hid ?_
    rw [he]
    exact Table.key_of_get? scopeFound

/-- The evaluation of a node that a command does not reach is what it was. -/
theorem Effect.issue_evaluation (h : Effect cfg (.issue c) a b) (hn : ¬ c.reaches n) :
    evaluateScopes b n = evaluateScopes a n := by
  refine evaluateScopes_congr_on fun item hitem => ?_
  rw [liveScope, liveScope, h.issue_scope_frame]
  rintro he
  exact hn (List.mem_map.mpr ⟨item, hitem, he⟩)

theorem Effect.record_scopes (h : Effect cfg .record a b) : b.scopes = a.scopes := by
  cases h
  rfl

/-! ### The step that accepts a command -/

/-- A call that accepts a command performs the effect that issues it, and keeps records. -/
theorem exists_issue {request : CommandCreate} {principal : Principal} {token : Option Token}
    {env : Env} {s' : Sys} (hstep : (services cfg).Step s (.call (.issueCommand request principal
      token) env) s') (hc : c ∈ s'.db.commands) (hnew : c ∉ s.db.commands) :
    ∃ mid, Effect cfg (.issue c) s.db mid ∧ Effect cfg .record mid s'.db := by
  obtain ⟨_, rfl⟩ := hstep
  cases hrun : (Call.issueCommand request principal token).run cfg s.db env with
  | error e =>
    rw [show (services cfg).next s (.call (.issueCommand request principal token) env) = s by
      simp [services, Sys.next, hrun]] at hc
    exact absurd hc hnew
  | ok commit =>
    have hdb : ((services cfg).next s (.call (.issueCommand request principal token) env)).db =
        commit.db := by simp [services, Sys.next, hrun, Sys.commit]
    rw [hdb] at hc ⊢
    simp only [Call.run, Checked.map_eq_ok] at hrun
    obtain ⟨issued, hissued, rfl⟩ := hrun
    rcases issueCommand_cases hissued with he | ⟨command, hentry, _⟩
    · rw [Commit.db_drop, he] at hc
      exact absurd hc hnew
    · obtain ⟨mid, hissue, hrecord⟩ : ∃ mid, Effect cfg (.issue command) s.db mid ∧
          Effect cfg .record mid issued.db := by
        cases hentry with
        | write _ effect notes => exact ⟨_, effect, notes.record_proposals⟩
      refine ⟨mid, ?_, hrecord⟩
      have hmid : mid.commands.get? c.id = some c := by
        rcases hrecord.command_cases (Table.get?_of_mem hc) with ⟨_, h⟩ | ⟨c₀, hc₀, hsame⟩
        · cases h
        · cases hsame
          exact hc₀
      rcases hissue.command_cases hmid with ⟨_, h⟩ | ⟨c₀, hc₀, hsame⟩
      · cases h
        exact hissue
      · cases hsame
        exact absurd (Table.mem_of_get? hc₀) hnew

/-! ### The count of unrelated branches -/

/-- A mismatch at the target scope of a command belongs to a node that the command reaches. -/
theorem reaches_of_mismatch {m : ScopeMismatch} (hm : m ∈ (evaluateScopes db n).mismatches)
    (hid : m.scopeId = c.targetScopeId) : c.reaches n := by
  obtain ⟨item, hitem, he⟩ := mem_mismatches.mp hm
  exact List.mem_map.mpr ⟨item, hitem, (scopeId_of_entryMismatch he).symm.trans hid⟩

/-- **No unrelated branch is interrupted.** -/
theorem unrelatedInterrupted_eq_zero {past : Time → Prop} (hC : Governs db c)
    (hW : db.registry.WellFormed) (hT : Timed past db) {cid : Id}
    (hc : db.commands.get? cid = some c) : unrelatedInterrupted db c = 0 := by
  rw [unrelatedInterrupted]
  split
  · rfl
  refine List.countP_eq_zero.mpr fun n hn => ?_
  rw [List.mem_filter, decide_eq_true_eq] at hn
  obtain ⟨hmem, hrun⟩ := hn
  have hget : db.nodes.get? n.id = some n := Table.get?_of_mem hmem
  simp only [Bool.and_eq_true, decide_eq_true_eq, List.any_eq_true, not_and]
  rintro hout - ⟨m, hm, hid⟩
  have hreaches := reaches_of_mismatch hm hid
  have haffected : n ∈ affectedNodes db c := (mem_affectedNodes hC hW hT).mpr
    ⟨hget, hrun, hT.reached cid c n.id n hc hget hreaches, hreaches⟩
  exact hout (List.mem_map_of_mem haffected)

/-! ### Reachable states -/

/-- **The blast radius of a command.** When a call of `issue_command` accepts a command, a node is
not allowed afterwards if it is in the subtree of the command's target (for a cancelled run: in
the run), and its evaluation is exactly what it was if it is not. And under a non-decreasing clock
the proof of any command counts no unrelated branch as interrupted, whatever other commands there
are. -/
theorem blast_radius (hs : (services cfg).Reachable s) :
    (∀ request principal token env s' c,
      (services cfg).Step s (.call (.issueCommand request principal token) env) s' →
      c ∈ s'.db.commands → c ∉ s.db.commands →
      (c.commandType ≠ .cancelRun → ∀ n ∈ s'.db.nodes,
        if n.runId = c.runId ∧
            (n.id = c.targetNodeId ∨ isDescendant s'.db c.runId c.targetNodeId n.id = true) then
          (evaluateScopes s'.db n).allowed = false
        else evaluateScopes s'.db n = evaluateScopes s.db n) ∧
      (c.commandType = .cancelRun → ∀ n ∈ s'.db.nodes,
        if n.runId = c.runId then (evaluateScopes s'.db n).allowed = false
        else evaluateScopes s'.db n = evaluateScopes s.db n)) ∧
    ((monotone cfg).Reachable s → ∀ c ∈ s.db.commands, unrelatedInterrupted s.db c = 0) := by
  refine ⟨fun request principal token env s' c hstep hc hnew => ?_, fun hm c hc => ?_⟩
  · have hW := registry_wellFormed (hs.step hstep)
    have hC : Governs s'.db c := (controlled (hs.step hstep)).command c.id c (Table.get?_of_mem hc)
    obtain ⟨mid, hissue, hrecord⟩ := exists_issue hstep hc hnew
    have hscopes : s'.db.scopes = mid.scopes := hrecord.record_scopes
    have hframe (n : Node) (hn : ¬ c.reaches n) :
        evaluateScopes s'.db n = evaluateScopes s.db n :=
      (evaluateScopes_congr hscopes n).trans (hissue.issue_evaluation hn)
    refine ⟨fun _ n hn => ?_, fun htype n hn => ?_⟩
    · have hreaches := hC.reaches_iff_isDescendant hW (Table.get?_of_mem hn)
      split
      · next hin => exact hC.not_allowed (hreaches.mpr hin)
      · next hout => exact hframe n fun hr => hout (hreaches.mp hr)
    · split
      · next hin => exact hC.not_allowed (reaches_of_cancelRun hC hW (Table.get?_of_mem hn) hin htype)
      · next hout =>
        exact hframe n fun hr => hout ((hC.reaches_iff hW (Table.get?_of_mem hn)).mp hr).1
  · have hget : s.db.commands.get? c.id = some c := Table.get?_of_mem hc
    exact unrelatedInterrupted_eq_zero ((controlled hs).command c.id c hget)
      (registry_wellFormed hs) (timed hm) hget

/-- In the sample run, the operator's command interrupts nothing but the worker. -/
theorem blast_radius_sample : (sample sampleCancelled).db.commands.rows.length = 1 ∧
    ∀ c ∈ (sample sampleCancelled).db.commands,
      unrelatedInterrupted (sample sampleCancelled).db c = 0 := by
  have hmonotone : (monotone sampleConfig).Reachable (sample sampleCancelled) :=
    sample_monotone (by simp [sampleCancelled, sampleStart, Label.env, sampleEnv])
      (by decide +kernel)
  exact ⟨by decide +kernel, (blast_radius hmonotone.of_restrict).2 hmonotone⟩

end TraceFence
