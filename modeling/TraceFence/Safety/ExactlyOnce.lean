import TraceFence.Registry.Inversion

/-!
# Side effects happen exactly once

The counters of a service are a ledger's balance: whatever calls are retried, denied or abandoned,
the rows of a run's services are what replaying its allowed attempts, oldest first, makes of a run
without rows. A tool runs only in the transaction that appends its attempt, and an attempt is
appended only under a key its node has not used.

## Main definitions

* `ServiceHistory` — the columns of a service that tools write
* `replayHistory` — the same, from the attempts alone

## Main results

* `history_executor` — what a registered tool does to the services of every run
* `Settled` — the invariant: rows and attempts tell the same history
* `exactly_once` — counters, last actions and keys in every reachable state
-/

namespace TraceFence

open System

variable {cfg : Config} {w : Write} {a b : Database} {s : Sys}

/-! ### Histories -/

/-- The columns of a service that tools write. -/
structure ServiceHistory where
  restartCount : ℕ
  poolResetCount : ℕ
  lastActionId : Option Id
  deriving DecidableEq

/-- Before any tool has run. -/
def ServiceHistory.start : ServiceHistory := ⟨0, 0, none⟩

def ServiceState.history (row : ServiceState) : ServiceHistory :=
  ⟨row.restartCount, row.poolResetCount, row.lastActionId⟩

/-- The history of a service of a run; without a row, nothing has happened to it. -/
def history (states : ServiceTable) (runId : Id) (service : String) : ServiceHistory :=
  ((states.get? (runId, service)).map ServiceState.history).getD .start

/-- Whether a tool changes a service. -/
def mutates (tool service : String) : Bool :=
  (tool = "restart_postgres" && service = "postgres") ||
    (tool = "reset_redis_pool" && (service = "redis" || service = "checkout"))

/-- What an action of a tool does to a service. -/
def ServiceHistory.act (h : ServiceHistory) (tool service : String) (actionId : Id) :
    ServiceHistory :=
  if mutates tool service then
    { restartCount := h.restartCount + if service = "postgres" then 1 else 0
      poolResetCount := h.poolResetCount + if service = "redis" then 1 else 0
      lastActionId := some actionId }
  else h

/-! ### Tools -/

section Tools

variable {t : ServiceTable} {runId runId' actionId : Id} {service service' status : String}
  {now : Time} {clock : ℕ → Time}

/-- Making sure of a row changes no history. -/
theorem history_withState : history (withState t runId service status now) runId' service' =
    history t runId' service' := by
  rw [history, history, withState, Table.get?_insertNew]
  cases t.get? (runId', service') with
  | some row => rfl
  | none =>
    by_cases hk : Keyed.key (freshState runId service status now) = (runId', service')
    · rw [Option.none_or, if_pos hk]
      rfl
    · rw [Option.none_or, if_neg hk]

theorem history_freshRows {t' : ServiceTable} (h : FreshRows t t') :
    history t' runId service = history t runId service := by
  induction h with
  | refl => rfl
  | tail _ hl ih =>
    obtain ⟨_, _, _, _, rfl⟩ := hl
    rw [history_withState, ih]

/-- Rewriting a row that has been made sure of changes one history. -/
theorem history_modify {f : ServiceState → ServiceState} (act : ServiceHistory → ServiceHistory)
    (hf : ∀ r, Keyed.key (f r) = Keyed.key r) (hact : ∀ r, (f r).history = act r.history) :
    history ((withState t runId service status now).modify (runId, service) f hf) runId' service' =
      if runId' = runId ∧ service' = service then act (history t runId' service')
      else history t runId' service' := by
  have hkept := @history_withState t runId runId' service service' status now
  rw [← hkept]
  by_cases hk : (runId', service') = (runId, service)
  · have hrow : ((withState t runId service status now).get? (runId', service')).isSome = true := by
      rw [withState, Table.get?_insertNew, hk, show Keyed.key (freshState runId service status now) =
        (runId, service) from rfl, if_pos rfl]
      simp
    obtain ⟨row, hrow⟩ := Option.isSome_iff_exists.mp hrow
    rw [if_pos (Prod.mk.injEq .. ▸ hk), history, history, Table.get?_modify, hrow, hk]
    simp [hact]
  · rw [if_neg (Prod.mk.injEq .. ▸ hk), history, Table.get?_modify_of_ne hf hk, history]

/-- The row of `redis` after its pool has been reset. -/
def pooled (actionId : Id) (clock : ℕ → Time) (redis : ServiceState) : ServiceState :=
  { redis with
    poolResetCount := redis.poolResetCount + 1
    status := "healthy"
    lastActionId := some actionId
    updatedAt := clock 3 }

theorem key_pooled (actionId : Id) (clock : ℕ → Time) (redis : ServiceState) :
    Keyed.key (pooled actionId clock redis) = Keyed.key redis := rfl

/-- The rows between the two halves of `reset_redis_pool`. -/
def resetPool (t : ServiceTable) (runId actionId : Id) (clock : ℕ → Time) : ServiceTable :=
  (withState t runId "redis" "connection_pool_exhausted" (clock 2)).modify (runId, "redis")
    (pooled actionId clock) (key_pooled actionId clock)

/-- **What a registered tool does** to the services of every run. -/
theorem history_executor {spec : ToolSpec} (hspec : spec ∈ toolRegistry) :
    history (spec.executor t runId actionId clock).1 runId' service =
      if runId' = runId then (history t runId' service).act spec.name service actionId
      else history t runId' service := by
  have hrestart : history ((restartPostgres t runId actionId clock).1) runId' service =
      if runId' = runId ∧ service = "postgres" then
        ⟨(history t runId' service).restartCount + 1, (history t runId' service).poolResetCount,
          some actionId⟩
      else history t runId' service :=
    history_modify (fun h => ⟨h.restartCount + 1, h.poolResetCount, some actionId⟩)
      (by intro; rfl) fun _ => rfl
  have hreset : history ((resetRedisPool t runId actionId clock).1) runId' service =
      if runId' = runId ∧ service = "checkout" then
        ⟨(history t runId' service).restartCount, (history t runId' service).poolResetCount,
          some actionId⟩
      else if runId' = runId ∧ service = "redis" then
        ⟨(history t runId' service).restartCount, (history t runId' service).poolResetCount + 1,
          some actionId⟩
      else history t runId' service := by
    have hcheckout : history ((resetRedisPool t runId actionId clock).1) runId' service =
        if runId' = runId ∧ service = "checkout" then
          ⟨(history (resetPool t runId actionId clock) runId' service).restartCount,
            (history (resetPool t runId actionId clock) runId' service).poolResetCount,
            some actionId⟩
        else history (resetPool t runId actionId clock) runId' service :=
      history_modify (fun h => ⟨h.restartCount, h.poolResetCount, some actionId⟩)
        (by intro; rfl) fun _ => rfl
    have hredis : history (resetPool t runId actionId clock) runId' service =
        if runId' = runId ∧ service = "redis" then
          ⟨(history t runId' service).restartCount, (history t runId' service).poolResetCount + 1,
            some actionId⟩
        else history t runId' service :=
      history_modify (fun h => ⟨h.restartCount, h.poolResetCount + 1, some actionId⟩)
        (by intro; rfl) fun _ => rfl
    rw [hcheckout, hredis]
    by_cases hc : service = "checkout"
    · simp [hc]
    · simp [hc]
  simp only [toolRegistry, List.mem_cons, List.not_mem_nil, or_false] at hspec
  obtain rfl | rfl | rfl := hspec
  · -- Reading metrics changes nothing.
    have hno : mutates readMetricsSpec.name service = false := by simp [mutates, readMetricsSpec]
    rw [ServiceHistory.act, hno]
    simp [readMetricsSpec, readMetrics]
  · rw [show restartPostgresSpec.executor = restartPostgres from rfl, hrestart]
    by_cases hrun : runId' = runId
    · by_cases hservice : service = "postgres"
      · simp [hrun, hservice, ServiceHistory.act, mutates, restartPostgresSpec]
      · simp [hrun, hservice, ServiceHistory.act, mutates, restartPostgresSpec]
    · simp [hrun]
  · rw [show resetRedisPoolSpec.executor = resetRedisPool from rfl, hreset]
    by_cases hrun : runId' = runId
    · by_cases hcheckout : service = "checkout"
      · simp [hrun, hcheckout, ServiceHistory.act, mutates, resetRedisPoolSpec]
      · by_cases hredis : service = "redis"
        · simp [hrun, hredis, ServiceHistory.act, mutates, resetRedisPoolSpec]
        · simp [hrun, hcheckout, hredis, ServiceHistory.act, mutates, resetRedisPoolSpec]
    · simp [hrun]

end Tools

/-! ### The ledger -/

/-- The attempts that a run's services have seen. -/
def ActionAttempt.acts (x : ActionAttempt) (runId : Id) : Bool :=
  x.runId = runId && x.decision = .allow

/-- The history of a service of a run, replayed from the attempts. -/
def replayHistory (attempts : List ActionAttempt) (runId : Id) (service : String) :
    ServiceHistory :=
  attempts.foldl (fun h x => if x.acts runId then h.act x.toolName service x.id else h) .start

/-- **Rows and attempts tell the same history**, keys are used once, and what was allowed was
committed. -/
structure Settled (db : Database) : Prop where
  replayed : ∀ runId service,
    history db.serviceStates runId service = replayHistory db.attempts.rows runId service
  once : ∀ x ∈ db.attempts, ∀ y ∈ db.attempts,
    x.nodeId = y.nodeId → x.idempotencyKey = y.idempotencyKey → x = y
  committed : ∀ x ∈ db.attempts, x.decision = .allow → x.committedAt.isSome = true

/-- How an effect moves services and attempts: rows are made sure of and at most a denied attempt
is appended, or a registered tool runs and its attempt is appended. -/
theorem Effect.settlement (h : Effect cfg w a b) :
    (FreshRows a.serviceStates b.serviceStates ∧ (b.attempts = a.attempts ∨
      ∃ x, x.decision = .deny ∧ insertAttempt a x = .ok b.attempts)) ∨
    ∃ x spec clock, x.decision = .allow ∧ x.committedAt.isSome = true ∧
      x.sideEffecting = spec.sideEffecting ∧ spec ∈ toolRegistry ∧
      x.toolName = spec.name ∧ insertAttempt a x = .ok b.attempts ∧
      b.serviceStates = (spec.executor a.serviceStates x.runId x.id clock).1 := by
  have hsame (he : b.serviceStates = a.serviceStates) (hattempts : b.attempts = a.attempts) :
      FreshRows a.serviceStates b.serviceStates ∧ (b.attempts = a.attempts ∨
        ∃ x, x.decision = .deny ∧ insertAttempt a x = .ok b.attempts) := by
    rw [he]
    exact ⟨Relation.ReflTransGen.refl, Or.inl hattempts⟩
  cases h with
  | record | rotateIntent | rotateToken | renew | converge | expireHeartbeat | expireSweep
  | checkpoint | registerRun | registerNode | registerReplacement => exact Or.inl (hsame rfl rfl)
  | @activate _ _ _ _ commandId | @complete _ _ _ _ _ commandId =>
    cases commandId <;> exact Or.inl (hsame rfl rfl)
  | expireScanner _ _ failed =>
    obtain ⟨hfail, _⟩ := failRun_frame failed
    obtain ⟨hexpire, _⟩ := @expireActivation_frame _ _
    exact Or.inl (hsame (hfail.serviceStates.trans hexpire.serviceStates)
      (hfail.attempts.trans hexpire.attempts))
  | states fresh => exact Or.inl ⟨fresh, Or.inl rfl⟩
  | issue _ _ _ _ planned => exact Or.inl ⟨planCommand_serviceStates planned, Or.inl rfl⟩
  | deny decision inserted =>
    exact Or.inl ⟨Relation.ReflTransGen.refl, Or.inr ⟨_, decision, inserted⟩⟩
  | @allow _ node request spec env executed _ _ _ _ tool _ _ ran row inserted =>
    obtain ⟨hspec, hname⟩ := getToolSpec_eq_ok.mp tool
    simp only [ToolSpec.execute, Checked.bind_eq_ok, Checked.pure_eq_ok] at ran
    obtain ⟨_, _, hran⟩ := ran
    refine Or.inr ⟨_, spec, env.clock, ?_, ?_, ?_, hspec, ?_, inserted, ?_⟩
    · rw [row]
      rfl
    · rw [row]
      rfl
    · rw [row]
      rfl
    · rw [row]
      exact hname.symm
    · rw [row]
      exact congrArg Prod.fst hran.symm

/-- An appended attempt that is denied is invisible to every service. -/
theorem replayHistory_append {attempts : List ActionAttempt} {x : ActionAttempt} {runId : Id}
    {service : String} : replayHistory (attempts ++ [x]) runId service =
      if x.acts runId then (replayHistory attempts runId service).act x.toolName service x.id
      else replayHistory attempts runId service := by
  rw [replayHistory, List.foldl_append]
  rfl

/-- An insertion keeps keys unique. -/
theorem once_of_insertAttempt {x : ActionAttempt}
    (ha : ∀ y ∈ a.attempts, ∀ z ∈ a.attempts,
      y.nodeId = z.nodeId → y.idempotencyKey = z.idempotencyKey → y = z)
    (h : insertAttempt a x = .ok b.attempts) :
    ∀ y ∈ b.attempts, ∀ z ∈ b.attempts,
      y.nodeId = z.nodeId → y.idempotencyKey = z.idempotencyKey → y = z := by
  obtain ⟨hrows, hfresh⟩ := insertAttempt_eq_ok h
  have hmem {y : ActionAttempt} (hy : y ∈ b.attempts) : y ∈ a.attempts ∨ y = x := by
    rw [← Table.mem_rows, hrows] at hy
    simpa using hy
  intro y hy z hz hnode hkey
  rcases hmem hy with hy | rfl
  · rcases hmem hz with hz | rfl
    · exact ha y hy z hz hnode hkey
    · exact absurd ⟨hnode, hkey⟩ (hfresh y hy)
  · rcases hmem hz with hz | rfl
    · exact absurd ⟨hnode.symm, hkey.symm⟩ (hfresh z hz)
    · rfl

theorem Effect.settled (h : Effect cfg w a b) (ha : Settled a) : Settled b := by
  rcases h.settlement with ⟨hfresh, hsame | ⟨x, hdeny, hinsert⟩⟩ |
    ⟨x, spec, clock, hallow, hcommitted, -, hspec, hname, hinsert, hstates⟩
  · refine ⟨fun runId service => ?_, hsame ▸ ha.once, hsame ▸ ha.committed⟩
    rw [history_freshRows hfresh, hsame]
    exact ha.replayed runId service
  · have hrows := (insertAttempt_eq_ok hinsert).1
    refine ⟨fun runId service => ?_, once_of_insertAttempt ha.once hinsert, fun y hy hallow => ?_⟩
    · have hno : x.acts runId = false := by simp [ActionAttempt.acts, hdeny]
      rw [history_freshRows hfresh, hrows, replayHistory_append, hno]
      exact ha.replayed runId service
    · rw [← Table.mem_rows, hrows, List.mem_append, List.mem_singleton] at hy
      rcases hy with hy | rfl
      · exact ha.committed y hy hallow
      · rw [hdeny] at hallow
        cases hallow
  · have hrows := (insertAttempt_eq_ok hinsert).1
    refine ⟨fun runId service => ?_, once_of_insertAttempt ha.once hinsert, fun y hy hallow => ?_⟩
    · have hacts : x.acts runId = decide (runId = x.runId) := by
        simp [ActionAttempt.acts, hallow, eq_comm]
      rw [hstates, history_executor hspec, hrows, replayHistory_append, hacts,
        ← ha.replayed runId service, hname]
      by_cases hrun : runId = x.runId
      · simp [hrun]
      · simp [hrun]
    · rw [← Table.mem_rows, hrows, List.mem_append, List.mem_singleton] at hy
      rcases hy with hy | rfl
      · exact ha.committed y hy hallow
      · exact hcommitted

theorem settled (h : (services cfg).Reachable s) : Settled s.db := by
  refine reachable_db h ⟨fun _ _ => rfl, ?_, ?_⟩ fun _ _ _ ha he => he.settled ha
  · intro x hx
    exact absurd hx Table.not_mem_empty
  · intro x hx
    exact absurd hx Table.not_mem_empty

/-! ### Reading the balance -/

section Balance

variable (attempts : List ActionAttempt) (runId : Id)

theorem restartCount_replayHistory : (replayHistory attempts runId "postgres").restartCount =
    attempts.countP fun x => x.acts runId && x.toolName = "restart_postgres" := by
  induction attempts using List.reverseRecOn with
  | nil => rfl
  | append_singleton rest x ih =>
    rw [replayHistory_append, List.countP_append, List.countP_singleton, ← ih]
    by_cases hx : x.acts runId = true
    · by_cases ht : x.toolName = "restart_postgres"
      · simp [hx, ht, ServiceHistory.act, mutates]
      · simp [hx, ht, ServiceHistory.act, mutates]
    · simp [hx]

theorem poolResetCount_replayHistory : (replayHistory attempts runId "redis").poolResetCount =
    attempts.countP fun x => x.acts runId && x.toolName = "reset_redis_pool" := by
  induction attempts using List.reverseRecOn with
  | nil => rfl
  | append_singleton rest x ih =>
    rw [replayHistory_append, List.countP_append, List.countP_singleton, ← ih]
    by_cases hx : x.acts runId = true
    · by_cases ht : x.toolName = "reset_redis_pool"
      · simp [hx, ht, ServiceHistory.act, mutates]
      · simp [hx, ht, ServiceHistory.act, mutates]
    · simp [hx]

theorem lastActionId_replayHistory (service : String) :
    (replayHistory attempts runId service).lastActionId =
      ((attempts.filter fun x => x.acts runId && mutates x.toolName service).getLast?).map
        (·.id) := by
  induction attempts using List.reverseRecOn with
  | nil => rfl
  | append_singleton rest x ih =>
    rw [replayHistory_append, List.filter_append]
    by_cases hx : x.acts runId = true
    · by_cases hm : mutates x.toolName service = true
      · simp [hx, hm, ServiceHistory.act]
      · simp [hx, hm, ServiceHistory.act, ih]
    · simp [hx, ih]

end Balance

/-! ### Reachable states -/

/-- **Exactly-once side effects.** In every reachable state and every run, the counters of the
services are the numbers of allowed attempts of the tools that move them, without a row as well as
with one; every row names the latest allowed attempt that changed it, if there is one; no node has
two attempts under one key; and every allowed attempt is committed. -/
theorem exactly_once (hs : (services cfg).Reachable s) :
    (∀ runId,
      ((s.db.serviceStates.get? (runId, "postgres")).map (·.restartCount)).getD 0 =
          (s.db.attempts.rows.countP fun x => x.acts runId && x.toolName = "restart_postgres") ∧
      ((s.db.serviceStates.get? (runId, "redis")).map (·.poolResetCount)).getD 0 =
          (s.db.attempts.rows.countP fun x => x.acts runId && x.toolName = "reset_redis_pool")) ∧
    (∀ row ∈ s.db.serviceStates, row.lastActionId =
      ((s.db.attempts.rows.filter fun x =>
        x.acts row.runId && mutates x.toolName row.serviceName).getLast?).map (·.id)) ∧
    (∀ x ∈ s.db.attempts, ∀ y ∈ s.db.attempts,
      x.nodeId = y.nodeId → x.idempotencyKey = y.idempotencyKey → x = y) ∧
    ∀ x ∈ s.db.attempts, x.decision = .allow → x.committedAt.isSome = true := by
  have hsettled := settled hs
  refine ⟨fun runId => ⟨?_, ?_⟩, fun row hrow => ?_, hsettled.once, hsettled.committed⟩
  · rw [← restartCount_replayHistory, ← hsettled.replayed runId "postgres", history]
    cases s.db.serviceStates.get? (runId, "postgres") <;> rfl
  · rw [← poolResetCount_replayHistory, ← hsettled.replayed runId "redis", history]
    cases s.db.serviceStates.get? (runId, "redis") <;> rfl
  · have hget : s.db.serviceStates.get? (row.runId, row.serviceName) = some row :=
      Table.get?_of_mem hrow
    rw [← lastActionId_replayHistory, ← hsettled.replayed row.runId row.serviceName, history, hget]
    rfl

/-- The worker of the sample run restarts postgres, asks again under the same key, and is denied a
reset it is not capable of. -/
def sampleActions : List Label :=
  [.begin (.createRun { name := "sample", rootCapabilities := ["tool:restart_postgres"] })
      (sampleEnv 1 10), .finish 0 (sampleEnv 1 10),
    .call (.execute 11 10 { idempotencyKey := "first", toolName := "restart_postgres" })
      (sampleEnv 2 20),
    .call (.execute 11 10 { idempotencyKey := "first", toolName := "restart_postgres" })
      (sampleEnv 3 30),
    .call (.execute 11 10 { idempotencyKey := "second", toolName := "reset_redis_pool" })
      (sampleEnv 4 40)]

/-- Postgres has been restarted once. -/
theorem exactly_once_sample :
    (((sample sampleActions).db.serviceStates.get? (10, "postgres")).map (·.restartCount)).getD 0 = 1 ∧
      ((sample sampleActions).db.serviceStates.get? (10, "redis")).isNone = true := by
  have hcount := ((exactly_once (sample_reachable sampleActions)).1 10).1
  refine ⟨hcount.trans ?_, ?_⟩ <;> decide +kernel

end TraceFence
