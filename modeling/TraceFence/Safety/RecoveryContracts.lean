import TraceFence.Safety.ExactlyOnce
import TraceFence.Safety.RecoveryBudget

/-!
# Recovery contracts are attainable

The postconditions of a correction are computed from the service rows at the time of the command,
its recovery action rewrites the rows later, and the proof reads them later still. A contract can
be met because the row it counts from stays as it was in between: only a side-effecting action
changes a row that is there, and the command has made sure of every row the contract is about.

## Main definitions

* `Keeps` — every service row of a run stays as it is
* `Quiet` — no side-effecting action commits in a run
* `Met` — what a postcondition asks of the service rows

## Main results

* `run_keeps` — a quiet stretch keeps the rows
* `met_executor` — a tool meets the contract its builder has drawn up
* `recovery_attainable`
-/

namespace TraceFence

open System Checked

variable {cfg : Config} {w : Write} {a b : Database} {s s' : Sys}

/-! ### Rows -/

section Rows

variable {t t' : ServiceTable} {runId actionId : Id} {service status : String} {now : Time}
  {row : ServiceState}

theorem withState_of_get? (h : t.get? (runId, service) = some row) :
    withState t runId service status now = t :=
  Table.insertNew_of_get? h

theorem exists_row_withState (t : ServiceTable) (runId : Id) (service status : String)
    (now : Time) : ∃ row, (withState t runId service status now).get? (runId, service) = some row := by
  cases h : t.get? (runId, service) with
  | some row => exact ⟨row, by rw [withState_of_get? h, h]⟩
  | none => exact ⟨freshState runId service status now, by
      rw [withState, Table.get?_insertNew, h, Option.none_or]
      exact if_pos rfl⟩

theorem readState_of_get? (h : t.get? (runId, service) = some row) (field : ServiceState → ℕ) :
    readState t runId service field = field row := by
  rw [readState, h]
  rfl

/-- Every service row of a run is still there, as it was. -/
def Keeps (t t' : ServiceTable) (runId : Id) : Prop :=
  ∀ service row, t.get? (runId, service) = some row → t'.get? (runId, service) = some row

theorem Keeps.refl (t : ServiceTable) (runId : Id) : Keeps t t runId := fun _ _ h => h

theorem Keeps.trans {t'' : ServiceTable} (h : Keeps t t' runId) (h' : Keeps t' t'' runId) :
    Keeps t t'' runId := fun _ _ hrow => h' _ _ (h _ _ hrow)

theorem keeps_withState (t : ServiceTable) (runId runId' : Id) (service status : String)
    (now : Time) : Keeps t (withState t runId service status now) runId' :=
  fun _ _ h => Table.get?_of_prefix (Table.prefix_insertNew t _) h

theorem keeps_freshRows (h : FreshRows t t') (runId : Id) : Keeps t t' runId := by
  induction h with
  | refl => exact .refl t runId
  | tail _ hlast ih =>
    obtain ⟨_, _, _, _, rfl⟩ := hlast
    exact ih.trans (keeps_withState _ _ _ _ _ _)

/-- Rewriting a row of one run keeps the rows of the others. -/
theorem keeps_modify {f : ServiceState → ServiceState} {runId' : Id} (hne : runId' ≠ runId)
    (hf : ∀ r, Keyed.key (f r) = Keyed.key r) :
    Keeps t ((withState t runId service status now).modify (runId, service) f hf) runId' := by
  intro service' row h
  rw [Table.get?_modify_of_ne hf fun hk => hne (congrArg Prod.fst hk)]
  exact keeps_withState _ _ _ _ _ _ _ _ h

/-- **What a tool leaves alone**: the rows of other runs, and all of them if it has no side
effect. -/
theorem keeps_executor {spec : ToolSpec} (hspec : spec ∈ toolRegistry) {runId' : Id}
    (h : runId' ≠ runId ∨ spec.sideEffecting = false) (clock : ℕ → Time) :
    Keeps t (spec.executor t runId actionId clock).1 runId' := by
  simp only [toolRegistry, List.mem_cons, List.not_mem_nil, or_false] at hspec
  obtain rfl | rfl | rfl := hspec
  · exact .refl t runId'
  · exact keeps_modify (h.resolve_right (by decide)) (by intro; rfl)
  · have hne := h.resolve_right (by decide)
    exact (keeps_modify hne (key_pooled actionId clock)).trans (keeps_modify hne (by intro; rfl))

end Rows

/-! ### Quiet stretches -/

/-- Whether a side-effecting action of a run has been committed by an attempt. -/
def ActionAttempt.disturbs (x : ActionAttempt) (runId : Id) : Bool :=
  decide (x.runId = runId) && x.sideEffecting && x.committedAt.isSome

/-- No side-effecting action of a run commits between two databases. -/
def Quiet (a b : Database) (runId : Id) : Prop :=
  ∀ x ∈ b.attempts, x.disturbs runId = true → x ∈ a.attempts

/-- A service row changes only by a side-effecting action that commits. -/
theorem Effect.keeps_or_disturbs (h : Effect cfg w a b) (runId : Id) :
    (∀ x ∈ a.attempts, x ∈ b.attempts) ∧ (Keeps a.serviceStates b.serviceStates runId ∨
      ∃ x ∈ b.attempts, x ∉ a.attempts ∧ x.disturbs runId = true) := by
  have hmem {x y : ActionAttempt} (hinsert : insertAttempt a x = .ok b.attempts) :
      y ∈ b.attempts ↔ y ∈ a.attempts ∨ y = x := by
    rw [← Table.mem_rows, (insertAttempt_eq_ok hinsert).1, List.mem_append, List.mem_singleton,
      Table.mem_rows]
  rcases h.settlement with ⟨hfresh, hsame | ⟨x, -, hinsert⟩⟩ |
    ⟨x, spec, clock, -, hcommitted, heffect, hspec, -, hinsert, hstates⟩
  · exact ⟨fun x hx => hsame ▸ hx, Or.inl (keeps_freshRows hfresh runId)⟩
  · exact ⟨fun y hy => (hmem hinsert).mpr (Or.inl hy), Or.inl (keeps_freshRows hfresh runId)⟩
  · refine ⟨fun y hy => (hmem hinsert).mpr (Or.inl hy), ?_⟩
    by_cases hdisturbs : runId = x.runId ∧ spec.sideEffecting = true
    · obtain ⟨rfl, hside⟩ := hdisturbs
      refine Or.inr ⟨x, (hmem hinsert).mpr (Or.inr rfl), fun hx => ?_, ?_⟩
      · exact (insertAttempt_eq_ok hinsert).2 x hx ⟨rfl, rfl⟩
      · simp [ActionAttempt.disturbs, heffect, hside, hcommitted]
    · rw [not_and_or, Bool.not_eq_true] at hdisturbs
      rw [hstates]
      exact Or.inl (keeps_executor hspec hdisturbs clock)

/-- **A quiet stretch keeps the rows of the run.** -/
theorem run_keeps (hrun : (services cfg).Run s s') {runId : Id}
    (hquiet : Quiet s.db s'.db runId) : Keeps s.db.serviceStates s'.db.serviceStates runId := by
  have hkeeps := run_db (I := fun b => (∀ x ∈ s.db.attempts, x ∈ b.attempts) ∧
      (Keeps s.db.serviceStates b.serviceStates runId ∨
        ∃ x ∈ b.attempts, x ∉ s.db.attempts ∧ x.disturbs runId = true)) hrun
    ⟨fun _ hx => hx, Or.inl (.refl _ _)⟩ ?_
  · obtain ⟨-, hkept | ⟨x, hx, hnew, hdisturbs⟩⟩ := hkeeps
    · exact hkept
    · exact absurd (hquiet x hx hdisturbs) hnew
  · rintro w a b ⟨hmem, hkept⟩ he
    obtain ⟨hmem', hstep⟩ := he.keeps_or_disturbs runId
    refine ⟨fun x hx => hmem' x (hmem x hx), ?_⟩
    rcases hkept with hkept | ⟨x, hx, hnew, hdisturbs⟩
    · rcases hstep with hstep | ⟨x, hx, hnew, hdisturbs⟩
      · exact Or.inl (hkept.trans hstep)
      · exact Or.inr ⟨x, hx, fun hs => hnew (hmem x hs), hdisturbs⟩
    · exact Or.inr ⟨x, hmem' x hx, hnew, hdisturbs⟩

/-! ### What a contract asks for -/

section Contracts

variable {t t' : ServiceTable} {runId actionId : Id} {p : RecoveryPostcondition}
  {contract : RecoveryContract} {stableBefore : ℤ}

/-- The row of a postcondition is there, holds the expected value, and was last written by the
recovery action where it says so. -/
def Met (t : ServiceTable) (runId actionId : Id) (p : RecoveryPostcondition) : Prop :=
  ∃ row, t.get? (runId, p.serviceName) = some row ∧ row.equals p.field p.expected = true ∧
    (p.requireRecoveryAction = true → row.lastActionId = some actionId)

theorem Met.keeps (h : Met t runId actionId p) (hkeeps : Keeps t t' runId) :
    Met t' runId actionId p := by
  obtain ⟨row, hrow, hequals, hcause⟩ := h
  exact ⟨row, hkeeps _ _ hrow, hequals, hcause⟩

/-- The row of a postcondition has not been written for as long as the contract wants. -/
def Settles (t : ServiceTable) (runId : Id) (stableBefore : ℤ) (p : RecoveryPostcondition) : Prop :=
  ∀ row, t.get? (runId, p.serviceName) = some row → (row.updatedAt : ℤ) ≤ stableBefore

/-- What a turn of `verify_postconditions` finds about a postcondition that is met. -/
theorem evaluatePostcondition_of_met (h : Met t runId actionId p) :
    (evaluatePostcondition t runId actionId contract stableBefore p).inconsistent = false ∧
      (evaluatePostcondition t runId actionId contract stableBefore p).incomplete = false ∧
      (Settles t runId stableBefore p →
        evaluatePostcondition t runId actionId contract stableBefore p = {}) := by
  obtain ⟨row, hrow, hequals, hcause⟩ := h
  have hbound : ¬(p.requireRecoveryAction = true ∧ row.lastActionId ≠ some actionId) :=
    fun hnot => hnot.2 (hcause hnot.1)
  simp only [evaluatePostcondition, hrow, hequals, if_neg hbound, Bool.not_true,
    Bool.false_eq_true, if_false]
  by_cases hlate : 0 < contract.stabilityWindowSeconds ∧ stableBefore < (row.updatedAt : ℤ)
  · rw [if_pos hlate]
    exact ⟨rfl, rfl, fun hsettles => absurd (hsettles row hrow) (not_le.mpr hlate.2)⟩
  · rw [if_neg hlate]
    exact ⟨rfl, rfl, fun _ => rfl⟩

/-- What holds of every turn holds of the loop. -/
theorem foldl_add (es : List PostconditionEvaluation) (e : PostconditionEvaluation) :
    ((es.foldl .add e).inconsistent = (e.inconsistent || es.any (·.inconsistent))) ∧
      ((es.foldl .add e).incomplete = (e.incomplete || es.any (·.incomplete))) ∧
      ((∀ e' ∈ es, e' = {}) → es.foldl .add e = e) := by
  induction es generalizing e with
  | nil => simp
  | cons e' es ih =>
    obtain ⟨hinconsistent, hincomplete, hempty⟩ := ih (e.add e')
    refine ⟨?_, ?_, fun hall => ?_⟩
    · rw [List.foldl_cons, hinconsistent, List.any_cons, PostconditionEvaluation.add,
        Bool.or_assoc]
    · rw [List.foldl_cons, hincomplete, List.any_cons, PostconditionEvaluation.add, Bool.or_assoc]
    · rw [List.forall_mem_cons] at hall
      rw [List.foldl_cons, hempty hall.2, hall.1]
      simp [PostconditionEvaluation.add]

/-- **Met postconditions verify.** -/
theorem verifyPostconditions_of_met
    (h : ∀ p ∈ contract.postconditions, Met t runId actionId p) (stableBefore : ℤ) :
    (verifyPostconditions t runId actionId contract stableBefore).inconsistent = false ∧
      (verifyPostconditions t runId actionId contract stableBefore).incomplete = false ∧
      ((∀ p ∈ contract.postconditions, Settles t runId stableBefore p) →
        verifyPostconditions t runId actionId contract stableBefore = {}) := by
  obtain ⟨hinconsistent, hincomplete, hempty⟩ := foldl_add (contract.postconditions.map
    (evaluatePostcondition t runId actionId contract stableBefore)) {}
  rw [verifyPostconditions, hinconsistent, hincomplete, List.any_map, List.any_map]
  refine ⟨?_, ?_, fun hsettles => hempty ?_⟩
  · refine Bool.or_eq_false_iff.mpr ⟨rfl, List.any_eq_false.mpr fun p hp => ?_⟩
    simp [(evaluatePostcondition_of_met (h p hp)).1]
  · refine Bool.or_eq_false_iff.mpr ⟨rfl, List.any_eq_false.mpr fun p hp => ?_⟩
    simp [(evaluatePostcondition_of_met (h p hp)).2.1]
  · intro e he
    obtain ⟨p, hp, rfl⟩ := List.mem_map.mp he
    exact (evaluatePostcondition_of_met (h p hp)).2.2 (hsettles p hp)

/-! ### What a tool does -/

/-- `restart_postgres` meets what `_restart_postgres_contract` has asked for. -/
theorem met_restartPostgres {toolName : String} {digest : Digest} {window : ℕ}
    {clock clock' : ℕ → Time}
    (hkeeps : Keeps (restartPostgresContract t runId toolName digest window clock).1 t' runId) :
    ∀ p ∈ (restartPostgresContract t runId toolName digest window clock).2.postconditions,
      Met (restartPostgres t' runId actionId clock').1 runId actionId p := by
  obtain ⟨row, hrow⟩ := exists_row_withState t runId "postgres" "healthy" (clock 1)
  have hnow := hkeeps _ _ hrow
  have hread := readState_of_get? hrow (·.restartCount)
  have hafter : ∃ row', (restartPostgres t' runId actionId clock').1.get? (runId, "postgres") =
      some row' ∧ row'.status = "healthy" ∧ row'.restartCount = row.restartCount + 1 ∧
        row'.lastActionId = some actionId := by
    refine ⟨{ row with
      restartCount := row.restartCount + 1
      status := "healthy"
      lastActionId := some actionId
      updatedAt := clock' 3 }, ?_, rfl, rfl, rfl⟩
    rw [restartPostgres, withState_of_get? hnow]
    exact Table.get?_modify_self (by intro; rfl) hnow
  obtain ⟨row', hrow', hstatus, hcount, hlast⟩ := hafter
  intro p hp
  simp only [restartPostgresContract, hread, List.mem_cons, List.not_mem_nil, or_false] at hp
  obtain rfl | rfl := hp
  · exact ⟨row', hrow', by simp [ServiceState.equals, hstatus], fun _ => hlast⟩
  · exact ⟨row', hrow', by simp [ServiceState.equals, hcount], fun _ => hlast⟩

/-- The row of `checkout` after the pool it depends on has been reset. -/
def relieved (actionId : Id) (clock : ℕ → Time) (checkout : ServiceState) : ServiceState :=
  { checkout with
    status := "healthy"
    lastActionId := some actionId
    updatedAt := clock 5 }

theorem key_relieved (actionId : Id) (clock : ℕ → Time) (checkout : ServiceState) :
    Keyed.key (relieved actionId clock checkout) = Keyed.key checkout := rfl

theorem resetRedisPool_eq (t : ServiceTable) (runId actionId : Id) (clock : ℕ → Time) :
    (resetRedisPool t runId actionId clock).1 =
      (withState (resetPool t runId actionId clock) runId "checkout" "degraded" (clock 4)).modify
        (runId, "checkout") (relieved actionId clock) (key_relieved actionId clock) := rfl

/-- `reset_redis_pool` meets what `_reset_redis_contract` has asked for. -/
theorem met_resetRedisPool {toolName : String} {digest : Digest} {window : ℕ}
    {clock clock' : ℕ → Time}
    (hkeeps : Keeps (resetRedisContract t runId toolName digest window clock).1 t' runId) :
    ∀ p ∈ (resetRedisContract t runId toolName digest window clock).2.postconditions,
      Met (resetRedisPool t' runId actionId clock').1 runId actionId p := by
  obtain ⟨redis, hredis⟩ :=
    exists_row_withState t runId "redis" "connection_pool_exhausted" (clock 1)
  replace hredis := keeps_withState _ runId runId "checkout" "degraded" (clock 2) _ _ hredis
  obtain ⟨checkout, hcheckout⟩ := exists_row_withState
    (withState t runId "redis" "connection_pool_exhausted" (clock 1)) runId "checkout" "degraded"
    (clock 2)
  replace hredis := keeps_withState _ runId runId "postgres" "healthy" (clock 3) _ _ hredis
  replace hcheckout := keeps_withState _ runId runId "postgres" "healthy" (clock 3) _ _ hcheckout
  obtain ⟨postgres, hpostgres⟩ := exists_row_withState (withState
    (withState t runId "redis" "connection_pool_exhausted" (clock 1)) runId "checkout" "degraded"
    (clock 2)) runId "postgres" "healthy" (clock 3)
  have hresets := readState_of_get? hredis (·.poolResetCount)
  have hrestarts := readState_of_get? hpostgres (·.restartCount)
  -- The three rows between the two halves of the reset, and after it.
  have hpool : resetPool t' runId actionId clock' = t'.modify (runId, "redis")
      (pooled actionId clock') (key_pooled actionId clock') := by
    rw [resetPool, withState_of_get? (hkeeps _ _ hredis)]
  have hhalf : (resetPool t' runId actionId clock').get? (runId, "checkout") = some checkout := by
    rw [hpool, Table.get?_modify_of_ne _ (by simp)]
    exact hkeeps _ _ hcheckout
  have hredis' : (resetRedisPool t' runId actionId clock').1.get? (runId, "redis") =
      some (pooled actionId clock' redis) := by
    rw [resetRedisPool_eq, withState_of_get? hhalf, Table.get?_modify_of_ne _ (by simp), hpool]
    exact Table.get?_modify_self _ (hkeeps _ _ hredis)
  have hcheckout' : (resetRedisPool t' runId actionId clock').1.get? (runId, "checkout") =
      some (relieved actionId clock' checkout) := by
    rw [resetRedisPool_eq, withState_of_get? hhalf]
    exact Table.get?_modify_self _ hhalf
  have hpostgres' : (resetRedisPool t' runId actionId clock').1.get? (runId, "postgres") =
      some postgres := by
    rw [resetRedisPool_eq, withState_of_get? hhalf, Table.get?_modify_of_ne _ (by simp), hpool,
      Table.get?_modify_of_ne _ (by simp)]
    exact hkeeps _ _ hpostgres
  intro p hp
  simp only [resetRedisContract, hresets, hrestarts, List.mem_cons, List.not_mem_nil,
    or_false] at hp
  obtain rfl | rfl | rfl | rfl := hp
  · exact ⟨_, hredis', by simp [ServiceState.equals, pooled], fun _ => rfl⟩
  · exact ⟨_, hredis', by simp [ServiceState.equals, pooled], fun _ => rfl⟩
  · exact ⟨_, hcheckout', by simp [ServiceState.equals, relieved], fun _ => rfl⟩
  · exact ⟨_, hpostgres', by simp [ServiceState.equals], nofun⟩

/-- **A tool meets the contract its builder has drawn up**, if the rows of the run have been kept
since. -/
theorem met_executor {spec : ToolSpec} (hspec : spec ∈ toolRegistry)
    (hbuilder : spec.recoveryContractBuilder.isSome = true) {arguments : Dict} {window : ℕ}
    {clock clock' : ℕ → Time}
    (hkeeps : Keeps (spec.buildRecoveryContract cfg t runId arguments window clock).1 t' runId) :
    ∀ p ∈ (spec.buildRecoveryContract cfg t runId arguments window clock).2.postconditions,
      Met (spec.executor t' runId actionId clock').1 runId actionId p := by
  simp only [toolRegistry, List.mem_cons, List.not_mem_nil, or_false] at hspec
  obtain rfl | rfl | rfl := hspec
  · cases hbuilder
  · have hmet := @met_restartPostgres t t' runId actionId restartPostgresSpec.name
      (cfg.payloadDigest (.json (.obj arguments))) window clock clock' hkeeps
    exact hmet
  · have hmet := @met_resetRedisPool t t' runId actionId resetRedisPoolSpec.name
      (cfg.payloadDigest (.json (.obj arguments))) window clock clock' hkeeps
    exact hmet

end Contracts

/-! ### The command and the action -/

/-- The contract that the manifest of a correction records, and the service rows it was drawn up
from. -/
theorem buildReplacementManifest_contract {run : Run} {target : Node} {request : CommandCreate}
    {env : Env} {built : ServiceTable × ReplacementManifest} {tool : String} {spec : ToolSpec}
    (h : buildReplacementManifest cfg a run target request env = .ok built)
    (htool : request.replacementExpectedTool = some tool) (hspec : getToolSpec tool = .ok spec) :
    (built.1, built.2.recoveryContract) = spec.buildRecoveryContract cfg a.serviceStates run.id
      (request.replacementArguments.getD []) request.recoveryStabilitySeconds env.clock := by
  simp only [buildReplacementManifest, expectedSpec, htool, hspec, bind_eq_ok, ensure_eq_ok,
    require_eq_ok, pure_eq_ok] at h
  obtain ⟨_, ⟨_, hsame, rfl⟩, _, _, _, _, _, _, contract, hcontract, _, _, _, _, m, hm, rfl⟩ := h
  obtain rfl := Except.ok.inj hsame
  have hdump := ReplacementManifest.modelDump_of_modelValidate hm
  simp only [ReplacementManifest.modelDump, ManifestJson.fields.injEq] at hdump
  simp only [buildContract, bind_eq_ok, pure_eq_ok] at hcontract
  obtain ⟨_, _, rfl⟩ := hcontract
  simp only [hdump]

/-- What an action that is allowed does to the service rows. -/
theorem execute_allowed {nodeId : Id} {token : Token} {request : ActionExecute} {env : Env}
    {done : Commit ActionResult} (h : execute cfg a nodeId token request env = .ok done)
    (hnew : done.value.duplicate = false) (hallow : done.value.decision = .allow) :
    ∃ node spec, a.nodes.get? nodeId = some node ∧ getToolSpec request.toolName = .ok spec ∧
      done.db.serviceStates =
        (spec.executor a.serviceStates node.runId done.value.actionId env.clock).1 := by
  simp only [execute, bind_eq_ok, authenticateNode_eq_ok] at h
  obtain ⟨node, ⟨hnode, -⟩, h⟩ := h
  split at h
  · simp only [bind_eq_ok, ensure_eq_ok, pure_eq_ok] at h
    obtain ⟨_, _, rfl⟩ := h
    cases hnew
  simp only [bind_eq_ok, pure_eq_ok] at h
  obtain ⟨d, hd, rfl⟩ := h
  simp only [executeNew, bind_eq_ok, ensure_eq_ok] at hd
  obtain ⟨_, _, spec, hspec, _, _, run, _, denial, _, hd⟩ := hd
  cases denial with
  | some reason =>
    simp only [denyAction, bind_eq_ok, pure_eq_ok] at hd
    obtain ⟨_, _, _, _, rfl⟩ := hd
    cases hallow
  | none =>
    simp only [allowAction, ToolSpec.execute, bind_eq_ok, pure_eq_ok] at hd
    obtain ⟨_, ⟨_, _, rfl⟩, _, _, rfl⟩ := hd
    exact ⟨node, spec, hnode, hspec, rfl⟩

/-- A command that has just been accepted is on record, and records its contract. -/
theorem Acceptance.contract {request : CommandCreate} {principal : Principal}
    {token : Option Token} {env : Env} {c : Commit CommandIssued} {target : Node} {run : Run}
    {issuer : Issuer} {source : Option Id} {plan : CommandPlan} {scope : ControlScope}
    {tool : String} {spec : ToolSpec}
    (hc : Acceptance cfg a request principal token env c target run issuer source plan scope)
    (htype : request.commandType = .correctSubtree)
    (htool : request.replacementExpectedTool = some tool) (hspec : getToolSpec tool = .ok spec) :
    ∃ command m, c.db.commands.get? c.value.commandId = some command ∧
      command.replacementManifest.bind ReplacementManifest.modelValidate = some m ∧
      (c.db.serviceStates, m.recoveryContract) = spec.buildRecoveryContract cfg a.serviceStates
        command.runId (request.replacementArguments.getD []) request.recoveryStabilitySeconds
        env.clock := by
  have hplan := hc.planned
  simp only [planCommand, htype, bind_eq_ok, pure_eq_ok] at hplan
  obtain ⟨built, hbuilt, _, _, hplan⟩ := hplan
  refine ⟨newCommand cfg request principal issuer run target source plan scope.version env,
    built.2, ?_, ?_, ?_⟩
  · have hid : c.value.commandId = env.uuid 0 := by
      rw [hc.commit]
      rfl
    rw [hid, Table.get?_of_insert? (insertCommand?_eq_some hc.inserted)]
    exact if_pos rfl
  · simp [newCommand, ← hplan]
  · rw [hc.commit, ← hplan]
    exact buildReplacementManifest_contract hbuilt htool hspec

/-- **Recovery contracts are attainable.** A correction for a tool that draws up contracts records
one; if until some execution of the tool in the run no side-effecting action commits there, and
none does after it, then in every later state the recorded contract verifies: nothing is
inconsistent, nothing is incomplete, and once the rows have been left alone for long enough nothing
at all is found. -/
theorem recovery_attainable {s₀ s₁ : Sys} {request : CommandCreate} {principal : Principal}
    {token : Option Token} {env : Env} {issued : Commit CommandIssued}
    (hissued : issueCommand cfg s₀.db request principal token env = .ok issued)
    (hnew : issued.value.duplicate = false) (htype : request.commandType = .correctSubtree)
    {spec : ToolSpec} (htool : request.replacementExpectedTool = some spec.name)
    (hbuilder : spec ∈ toolRegistry ∧ spec.recoveryContractBuilder.isSome = true)
    (hissue : (services cfg).Step s₀ (.call (.issueCommand request principal token) env) s₁) :
    ∃ command m, s₁.db.commands.get? issued.value.commandId = some command ∧
      command.replacementManifest.bind ReplacementManifest.modelValidate = some m ∧
      ∀ {s₂ s₃ s₄ : Sys} {nodeId : Id} {node : Node} {nodeToken : Token} {action : ActionExecute}
        {env' : Env} {done : Commit ActionResult},
        (services cfg).Run s₁ s₂ → Quiet s₁.db s₂.db command.runId →
        s₂.db.nodes.get? nodeId = some node → node.runId = command.runId →
        action.toolName = spec.name →
        execute cfg s₂.db nodeId nodeToken action env' = .ok done →
        done.value.duplicate = false → done.value.decision = .allow →
        (services cfg).Step s₂ (.call (.execute nodeId nodeToken action) env') s₃ →
        (services cfg).Run s₃ s₄ → Quiet s₃.db s₄.db command.runId →
        ∀ stableBefore : ℤ, ∀ e, verifyPostconditions s₄.db.serviceStates command.runId
            done.value.actionId m.recoveryContract stableBefore = e →
          e.inconsistent = false ∧ e.incomplete = false ∧
            ((∀ p ∈ m.recoveryContract.postconditions,
              Settles s₄.db.serviceStates command.runId stableBefore p) → e = {}) := by
  rcases issueCommand_eq_ok hissued with ⟨-, hdup⟩ | ⟨_, _, _, _, _, _, hc⟩
  · rw [hnew] at hdup
    cases hdup
  have hspec : getToolSpec spec.name = .ok spec := getToolSpec_eq_ok.mpr ⟨hbuilder.1, rfl⟩
  obtain ⟨command, m, hcommand, hm, hcontract⟩ := hc.contract htype htool hspec
  have hs₁ : s₁.db = issued.db := by
    obtain ⟨-, rfl⟩ := hissue
    simp [services, Sys.next, Call.run, hissued, Sys.commit]
  refine ⟨command, m, hs₁ ▸ hcommand, hm, ?_⟩
  intro s₂ s₃ s₄ nodeId node nodeToken action env' done hrun hquiet hnode hnodeRun haction hexecute
    hfresh hallow hstep hrun' hquiet' stableBefore e he
  have hs₃ : s₃.db = done.db := by
    obtain ⟨-, rfl⟩ := hstep
    simp [services, Sys.next, Call.run, hexecute, Sys.commit]
  obtain ⟨node', spec', hnode', hspec', hstates⟩ := execute_allowed hexecute hfresh hallow
  obtain rfl := Option.some.inj (hnode.symm.trans hnode')
  obtain rfl := Except.ok.inj (hspec.symm.trans (haction ▸ hspec'))
  -- The rows of the contract are kept until the action, and the rows of the action after it.
  have hbefore := run_keeps hrun hquiet
  have hafter := run_keeps hrun' hquiet'
  have hrows : issued.db.serviceStates = _ := congrArg Prod.fst hcontract
  have hrecorded : m.recoveryContract = _ := congrArg Prod.snd hcontract
  rw [hs₁, hrows] at hbefore
  rw [hs₃, hstates, hnodeRun] at hafter
  rw [← he]
  refine verifyPostconditions_of_met (fun p hp => ?_) stableBefore
  rw [hrecorded] at hp
  exact (met_executor hbuilder.1 hbuilder.2 hbefore p hp).keeps hafter

/-- A correction whose replacement restarts postgres and completes. -/
def sampleIssue : Label :=
  .call (.issueCommand
    { idempotencyKey := "repair", commandType := .correctSubtree, targetNodeId := 20,
      reasonCode := "FIX", reasonText := "fix", replacementInstruction := some (.obj []),
      replacementExpectedTool := some "restart_postgres" } ⟨.human, none, none⟩ none)
    (sampleEnv 2 40)

/-- From the command to its replacement's recovery action. -/
def sampleWait : List Label :=
  [.call (.createReplacement 11 10 40
      { role := "postgres_recovery", capabilities := ["tool:restart_postgres"] }) (sampleEnv 2 50),
    .begin (.activate 50 { activationToken := 50 }) (sampleEnv 3 60), .finish 0 (sampleEnv 3 60)]

/-- The recovery action. -/
def sampleRestart : Label :=
  .call (.execute 50 60 { idempotencyKey := "first", toolName := "restart_postgres" })
    (sampleEnv 3 70)

/-- The replacement of a correction restarts postgres, and nothing is found against its contract
when it has completed. -/
theorem recovery_attainable_sample : ∃ (command : ControlCommand) (m : ReplacementManifest),
    (sample (sampleCorrected.take 3 ++ [sampleIssue])).db.commands.get? 40 = some command ∧
      command.replacementManifest.bind ReplacementManifest.modelValidate = some m ∧
      verifyPostconditions
        (sample (sampleCorrected.take 3 ++ [sampleIssue] ++ sampleWait ++ [sampleRestart] ++
          [.call (.complete 50 60) (sampleEnv 4 80)])).db.serviceStates 10 70
        m.recoveryContract (seconds 3) = {} := by
  obtain ⟨issued, hissued, hid⟩ : ∃ issued, issueCommand sampleConfig
      (sample (sampleCorrected.take 3)).db
      { idempotencyKey := "repair", commandType := .correctSubtree, targetNodeId := 20,
        reasonCode := "FIX", reasonText := "fix", replacementInstruction := some (.obj []),
        replacementExpectedTool := some "restart_postgres" } ⟨.human, none, none⟩ none
      (sampleEnv 2 40) = .ok issued ∧ issued.value.commandId = 40 ∧
        issued.value.duplicate = false := ⟨_, rfl, rfl, rfl⟩
  obtain ⟨command, m, hcommand, hm, hattains⟩ := @recovery_attainable sampleConfig _ _ _ _ _ _ _
    hissued hid.2 rfl restartPostgresSpec rfl ⟨by simp [toolRegistry], rfl⟩
    (sample_step (sampleCorrected.take 3) sampleIssue)
  rw [hid.1] at hcommand
  refine ⟨command, m, hcommand, hm, ?_⟩
  have hrunId : command.runId = 10 := by
    have hruns : ((sample (sampleCorrected.take 3 ++ [sampleIssue])).db.commands.get? 40).map
        (·.runId) = some 10 := rfl
    rw [hcommand] at hruns
    exact Option.some.inj hruns
  obtain ⟨node, hnode, hnodeRun⟩ : ∃ node,
      (sample (sampleCorrected.take 3 ++ [sampleIssue] ++ sampleWait)).db.nodes.get? 50 =
        some node ∧ node.runId = 10 := ⟨_, rfl, rfl⟩
  obtain ⟨done, hexecute, haction⟩ : ∃ done, execute sampleConfig
      (sample (sampleCorrected.take 3 ++ [sampleIssue] ++ sampleWait)).db 50 60
      { idempotencyKey := "first", toolName := "restart_postgres" } (sampleEnv 3 70) = .ok done ∧
        done.value.duplicate = false ∧ done.value.decision = .allow ∧ done.value.actionId = 70 :=
    ⟨_, rfl, rfl, rfl, rfl⟩
  have hbefore : Quiet (sample (sampleCorrected.take 3 ++ [sampleIssue])).db
      (sample (sampleCorrected.take 3 ++ [sampleIssue] ++ sampleWait)).db command.runId := by
    have hnone : (sample (sampleCorrected.take 3 ++ [sampleIssue] ++ sampleWait)).db.attempts.rows =
        [] := rfl
    intro x hx
    rw [← Table.mem_rows, hnone] at hx
    cases hx
  have hafter : Quiet
      (sample (sampleCorrected.take 3 ++ [sampleIssue] ++ sampleWait ++ [sampleRestart])).db
      (sample (sampleCorrected.take 3 ++ [sampleIssue] ++ sampleWait ++ [sampleRestart] ++
        [.call (.complete 50 60) (sampleEnv 4 80)])).db command.runId := fun _ hx _ => hx
  have hrows : ((sample (sampleCorrected.take 3 ++ [sampleIssue] ++ sampleWait ++ [sampleRestart] ++
      [.call (.complete 50 60) (sampleEnv 4 80)])).db.serviceStates.rows.all fun row =>
        decide (row.updatedAt ≤ seconds 3)) = true := by decide +kernel
  obtain ⟨-, -, hnothing⟩ := hattains (sample_run _ _) hbefore hnode (hnodeRun.trans hrunId.symm)
    rfl hexecute haction.1 haction.2.1 (sample_step _ sampleRestart) (sample_run _ _) hafter
    (seconds 3) _ rfl
  rw [haction.2.2, hrunId] at hnothing
  refine hnothing fun p _ row hrow => ?_
  have hupdated := List.all_eq_true.mp hrows row (Table.mem_of_get? hrow)
  exact_mod_cast of_decide_eq_true hupdated

end TraceFence
