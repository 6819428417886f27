import TraceFence.Effect.Operations

/-!
# A step is a sequence of effects

The operations put together: whatever a label does to the database is a sequence of the writes it
performs. A condition on a run is a predicate on these writes, so it can speak of the row a write
finds and of nothing that comes later.

## Main definitions

* `Performs` — the writes a step performs, each with the call it comes from
* `Commits` — whether a step commits a transaction at all
* `Discipline`, `disciplined` — the steps all of whose writes satisfy a predicate, and the runs of
  such steps

## Main results

* `step_writes` — a step of the system is a sequence of the writes it performs
* `next_disciplined` — a disciplined step is a sequence of writes that satisfy the predicate
* `reachable_db`, `run_db`, `reachable_inflight`, `disciplined_db`, `disciplined_run_db` — invariants of effects are
  invariants of runs
* `sample_disciplined` — sample runs whose discipline is a matter of computation
-/

namespace TraceFence

open Checked System

variable (cfg : Config)

/-- The writes of a step, with the call each comes from. -/
inductive Performs (s : Sys) : Label → Write → Prop
  | record {l : Label} : Performs s l .record
  | rotate {l : Label} : Performs s l .rotate
  | states {l : Label} : Performs s l .states
  | deny {nodeId : Id} {token : Token} {request : ActionExecute} {env : Env}
      {attempt : ActionAttempt} : Performs s (.call (.execute nodeId token request) env) (.deny attempt)
  | registerRun {index : ℕ} {env : Env} {request : RunCreate} {now : Time}
      (call : s.inflight[index]? = some (.createRun request now))
      (read : now ≤ (s.next cfg (.finish index env)).now) :
      Performs s (.finish index env) (.registerRun (newRoot cfg request env now))
  | registerNode {call : Call} {env : Env} {child : Node} {k : ℕ}
      (registered : child.registeredAt = env.clock 2) (later : 2 ≤ k)
      (read : env.clock k ≤ (s.next cfg (.call call env)).now) :
      Performs s (.call call env) (.registerNode child)
  | activate {index : ℕ} {env : Env} {nodeId : Id} {request : NodeActivate} {now : Time} {node : Node}
      (call : s.inflight[index]? = some (.activate nodeId request now))
      (found : s.db.nodes.get? nodeId = some node) (pending : node.status = .pending)
      (tokenless : node.tokenHash = none) :
      Performs s (.finish index env) (.activate (standing s.db node))
  | renew {index : ℕ} {env : Env} {nodeId : Id} {token : Token} {now : Time} {node : Node}
      (call : s.inflight[index]? = some (.heartbeat nodeId token now))
      (found : s.db.nodes.get? nodeId = some node) (live : Live s.db node now) :
      Performs s (.finish index env) (.renew (standing s.db node))
  | convergeHeartbeat {index : ℕ} {env : Env} {nodeId : Id} {token : Token} {now : Time} {node : Node}
      (call : s.inflight[index]? = some (.heartbeat nodeId token now))
      (found : s.db.nodes.get? nodeId = some node) (running : RunRunning s.db node.runId)
      (live : node.status.isLive = true) (cut : (evaluateScopes s.db node).allowed = false) :
      Performs s (.finish index env) (.converge .heartbeat (standing s.db node))
  | convergeGateway {nodeId : Id} {token : Token} {request : ActionExecute} {env : Env} {node : Node}
      (found : s.db.nodes.get? nodeId = some node) (running : RunRunning s.db node.runId)
      (live : node.status.isLive = true) (cut : (evaluateScopes s.db node).allowed = false) :
      Performs s (.call (.execute nodeId token request) env) (.converge .gateway (standing s.db node))
  | expireHeartbeat {index : ℕ} {env : Env} {nodeId : Id} {token : Token} {now : Time} {node : Node}
      (call : s.inflight[index]? = some (.heartbeat nodeId token now))
      (found : s.db.nodes.get? nodeId = some node) (running : RunRunning s.db node.runId)
      (live : node.status.isLive = true) (lease : node.leaseExpired now = true) :
      Performs s (.finish index env) (.expire .heartbeat (standing s.db node))
  | expireSweep {nodeId : Id} {token : Token} {env : Env} {other : Node}
      (found : s.db.nodes.get? other.id = some other)
      (expired : sweepExpired s.db other (env.clock 1) = true) :
      Performs s (.call (.complete nodeId token) env) (.expire .sweep (standing s.db other))
  | expireScanner {index : ℕ} {env : Env} {runId : Option Id} {now : Time} {at' : Standing}
      (call : s.inflight[index]? = some (.expireStaleNodes runId now))
      (stale : at'.node ∈ staleNodes s.db runId now) (root : at'.root = isRoot s.db at'.node)
      (replacement : at'.replacement = isReplacement s.db at'.node) :
      Performs s (.finish index env) (.expire .scanner at')
  | checkpoint {index : ℕ} {env : Env} {write : CheckpointWrite} {read : Node} {status : NodeStatus}
      (call : s.inflight[index]? = some (.checkpoint write))
      (target : write.target = some (read, status)) (changed : read.status ≠ status) :
      Performs s (.finish index env)
        (.checkpoint read status ((s.db.nodes.get? read.id).map (standing s.db)))
  | complete {nodeId : Id} {token : Token} {env : Env} {node : Node}
      (found : s.db.nodes.get? nodeId = some node) :
      Performs s (.call (.complete nodeId token) env) (.complete (standing s.db node))
  | issue {request : CommandCreate} {principal : Principal} {token : Option Token} {env : Env}
      {command : ControlCommand} (created : command.createdAt = env.clock 8)
      (read : command.createdAt ≤ (s.next cfg (.call (.issueCommand request principal token) env)).now) :
      Performs s (.call (.issueCommand request principal token) env) (.issue command)
  | allow {nodeId : Id} {token : Token} {request : ActionExecute} {env : Env} {node : Node}
      {attempt : ActionAttempt} (found : s.db.nodes.get? nodeId = some node) :
      Performs s (.call (.execute nodeId token request) env)
        (.allow (standing s.db node) (env.clock 0) attempt)

/-- The transaction of a step, if it commits one. -/
def Sys.transaction (s : Sys) : Label → Option (Commit Unit)
  | .call call env => (call.run cfg s.db env).toOption
  | .begin _ _ => none
  | .finish index env => (s.inflight[index]?).bind fun f => (f.commit cfg s.db env).toOption

/-- Whether a step commits. -/
def Commits (s : Sys) (l : Label) : Prop := (s.transaction cfg l).isSome = true

/-- The steps whose writes, if they commit, all satisfy `ok`. -/
def Discipline (ok : Write → Prop) (s : Sys) (l : Label) : Prop :=
  Commits cfg s l → ∀ w, Performs cfg s l w → ok w

variable {cfg} {s s' : Sys} {l : Label}

/-! ### The state after a step -/

theorem next_of_transaction {c : Commit Unit} (h : s.transaction cfg l = some c) :
    (s.next cfg l).db = c.db ∧ (s.next cfg l).now = s.clockAfter c.read ∧
      (s.next cfg l).lapsed = (c.read.map (lapsedAt s.db)).getD [] ++ s.lapsed := by
  cases l with
  | call call env =>
    cases hc : call.run cfg s.db env with
    | error e => simp [Sys.transaction, hc, Except.toOption] at h
    | ok c' =>
      obtain rfl : c' = c := by simpa [Sys.transaction, hc, Except.toOption] using h
      simp [Sys.next, hc, Sys.commit]
  | begin call env => cases h
  | finish index env =>
    cases hf : s.inflight[index]? with
    | none => simp [Sys.transaction, hf] at h
    | some f =>
      cases hc : f.commit cfg s.db env with
      | error e => simp [Sys.transaction, hf, hc, Except.toOption] at h
      | ok c' =>
        obtain rfl : c' = c := by simpa [Sys.transaction, hf, hc, Except.toOption] using h
        simp [Sys.next, hf, hc, Sys.commit, Sys.clockAfter]

theorem next_of_no_transaction (h : s.transaction cfg l = none) :
    (s.next cfg l).db = s.db ∧ (s.next cfg l).lapsed = s.lapsed := by
  cases l with
  | call call env =>
    cases hc : call.run cfg s.db env with
    | error e => simp [Sys.next, hc]
    | ok c => simp [Sys.transaction, hc, Except.toOption] at h
  | begin call env => cases hc : call.start cfg s.db env <;> simp [Sys.next, hc]
  | finish index env =>
    cases hf : s.inflight[index]? with
    | none => simp [Sys.next, hf]
    | some f =>
      cases hc : f.commit cfg s.db env with
      | error e => simp [Sys.next, hf, hc]
      | ok c => simp [Sys.transaction, hf, hc, Except.toOption] at h

/-- Clock readings only accumulate. -/
theorem now_le_next (s : Sys) (l : Label) : s.now ≤ (s.next cfg l).now := by
  cases l with
  | call call env =>
    cases hc : call.run cfg s.db env <;> simp [Sys.next, hc, Sys.commit, Sys.clockAfter]
  | begin call env => cases hc : call.start cfg s.db env <;> simp [Sys.next, hc, Sys.clockAfter]
  | finish index env =>
    cases hf : s.inflight[index]? with
    | none => simp [Sys.next, hf]
    | some f =>
      cases hc : f.commit cfg s.db env <;> simp [Sys.next, hf, hc, Sys.commit, Sys.clockAfter]

theorem read_le_next {c : Commit Unit} {t : Time} (h : s.transaction cfg l = some c)
    (ht : c.read = some t) : t ≤ (s.next cfg l).now := by
  rw [(next_of_transaction h).2.1, ht]
  exact le_max_right _ _

/-! ### The writes of a step -/

/-- Whether a call may write a proposal. -/
def Call.proposes : Call → Bool
  | .issueCommand .. | .createProposal .. | .reviewProposal .. => true
  | _ => false

theorem call_entries {call : Call} {env : Env} {c : Commit Unit}
    (h : call.run cfg s.db env = .ok c) (hcall : call.proposes = false) :
    Entries cfg (Performs cfg s (.call call env)) s.db c.db := by
  have htransaction : s.transaction cfg (.call call env) = some c := by
    simp [Sys.transaction, h, Except.toOption]
  have hread {t : Time} (ht : c.read = some t) : t ≤ (s.next cfg (.call call env)).now :=
    read_le_next htransaction ht
  cases call with
  | createSpawn parentId token request =>
    simp only [Call.run, map_eq_ok] at h
    obtain ⟨c', h, rfl⟩ := h
    exact createSpawn_entries h .rotate fun child k hat hk hr => .registerNode hat hk (hread hr)
  | createReplacement parentId token commandId request =>
    simp only [Call.run, map_eq_ok] at h
    obtain ⟨c', h, rfl⟩ := h
    exact createReplacement_entries h .rotate fun child k hat hk hr =>
      .registerNode hat hk (hread hr)
  | complete nodeId token =>
    exact complete_entries h (fun other ho hx => .expireSweep ho hx) fun node hn => .complete hn
  | execute nodeId token request =>
    simp only [Call.run, map_eq_ok] at h
    obtain ⟨c', h, rfl⟩ := h
    exact execute_entries h (fun _ => .deny)
      (fun node hn hr hl hc => .convergeGateway hn hr hl hc) fun node _ hn => .allow hn
  | issueCommand | createProposal | reviewProposal => cases hcall

theorem call_booked {call : Call} {env : Env} {c : Commit Unit}
    (h : call.run cfg s.db env = .ok c) :
    Booked cfg (Performs cfg s (.call call env)) s.db c.db := by
  cases call with
  | createSpawn | createReplacement | complete | execute => exact (call_entries h rfl).booked
  | issueCommand request principal token =>
    have htransaction : s.transaction cfg (.call (.issueCommand request principal token) env) =
        some c := by
      simp [Sys.transaction, h, Except.toOption]
    simp only [Call.run, map_eq_ok] at h
    obtain ⟨c', h, rfl⟩ := h
    exact issueCommand_booked h fun command hat hr =>
      .issue hat (hat ▸ read_le_next htransaction hr)
  | createProposal reporterId token request =>
    simp only [Call.run, map_eq_ok] at h
    obtain ⟨c', h, rfl⟩ := h
    exact createProposal_booked h
  | reviewProposal proposalId request reviewer => exact reviewProposal_booked h

theorem finish_entries {index : ℕ} {env : Env} {f : InFlight} {c : Commit Unit}
    (hf : s.inflight[index]? = some f) (h : f.commit cfg s.db env = .ok c) :
    Entries cfg (Performs cfg s (.finish index env)) s.db c.db := by
  have htransaction : s.transaction cfg (.finish index env) = some c := by
    simp [Sys.transaction, hf, h, Except.toOption]
  cases f with
  | createRun request now =>
    simp only [InFlight.commit, map_eq_ok] at h
    obtain ⟨c', h, rfl⟩ := h
    refine createRun_entries h (.registerRun hf (read_le_next htransaction ?_))
    simp only [createRun, bind_eq_ok, pure_eq_ok] at h
    obtain ⟨_, _, _, _, _, _, _, _, _, _, _, _, rfl⟩ := h
    rfl
  | activate nodeId request now =>
    simp only [InFlight.commit, map_eq_ok] at h
    obtain ⟨c', h, rfl⟩ := h
    exact activate_entries h .rotate fun node hn hp ht => .activate hf hn hp ht
  | heartbeat nodeId token now =>
    simp only [InFlight.commit, map_eq_ok] at h
    obtain ⟨c', h, rfl⟩ := h
    exact heartbeat_entries h (fun node hn hl => .renew hf hn hl)
      (fun node hn hr hl hc => .convergeHeartbeat hf hn hr hl hc)
      fun node hn hr hl hx => .expireHeartbeat hf hn hr hl hx
  | checkpoint write =>
    exact checkpointWrite_entries h .record fun read status ht hne => .checkpoint hf ht hne
  | expireStaleNodes runId now =>
    simp only [InFlight.commit, map_eq_ok] at h
    obtain ⟨c', h, rfl⟩ := h
    exact expireStaleNodes_entries h fun n hn at' h₁ h₂ h₃ =>
      .expireScanner hf (by rwa [h₁]) (by rwa [h₁]) (by rwa [h₁])
  | seedScenario runId now => exact seedWrite_entries h .states

/-- **A committed transaction is a sequence of entries for the writes its step performs.** -/
theorem transaction_booked {c : Commit Unit} (h : s.transaction cfg l = some c) :
    Booked cfg (Performs cfg s l) s.db c.db := by
  cases l with
  | call call env =>
    cases hc : call.run cfg s.db env with
    | error e => simp [Sys.transaction, hc, Except.toOption] at h
    | ok c' =>
      obtain rfl : c' = c := by simpa [Sys.transaction, hc, Except.toOption] using h
      exact call_booked hc
  | begin call env => cases h
  | finish index env =>
    cases hf : s.inflight[index]? with
    | none => simp [Sys.transaction, hf] at h
    | some f =>
      cases hc : f.commit cfg s.db env with
      | error e => simp [Sys.transaction, hf, hc, Except.toOption] at h
      | ok c' =>
        obtain rfl : c' = c := by simpa [Sys.transaction, hf, hc, Except.toOption] using h
        exact (finish_entries hf hc).booked

/-- **A disciplined step is a sequence of entries whose writes satisfy the discipline.** -/
theorem next_booked {ok : Write → Prop} (s : Sys) (l : Label) (h : Discipline cfg ok s l) :
    Booked cfg (fun w => Performs cfg s l w ∧ ok w) s.db (s.next cfg l).db := by
  cases hc : s.transaction cfg l with
  | none =>
    rw [(next_of_no_transaction hc).1]
    exact Entries.refl.booked
  | some c =>
    rw [(next_of_transaction hc).1]
    have hcommits : Commits cfg s l := by simp [Commits, hc]
    exact (transaction_booked hc).mono fun w hw => ⟨hw, h hcommits w hw⟩

/-- **A disciplined step is a sequence of writes that satisfy the discipline.** -/
theorem next_disciplined {ok : Write → Prop} (s : Sys) (l : Label) (h : Discipline cfg ok s l) :
    Writes cfg (fun w => Performs cfg s l w ∧ ok w) s.db (s.next cfg l).db := by
  cases hc : s.transaction cfg l with
  | none =>
    rw [(next_of_no_transaction hc).1]
    exact Writes.refl
  | some c =>
    rw [(next_of_transaction hc).1]
    have hcommits : Commits cfg s l := by simp [Commits, hc]
    have hw := (transaction_booked hc).writes .record
    exact hw.mono fun w hw => ⟨hw, h hcommits w hw⟩

/-- **A step of the system is a sequence of the writes it performs.** -/
theorem step_writes (h : (services cfg).Step s l s') : Writes cfg (Performs cfg s l) s.db s'.db := by
  obtain ⟨_, rfl⟩ := h
  exact (next_disciplined s l (fun _ _ _ => trivial)).mono fun _ hw => hw.1

/-! ### Rules for runs -/

/-- **The invariant rule.** What the empty database satisfies and every effect preserves holds of
the database of every reachable state. -/
theorem reachable_db {I : Database → Prop} (h : (services cfg).Reachable s) (init : I .empty)
    (effect : ∀ w a b, I a → Effect cfg w a b → I b) : I s.db :=
  h.invariant (I := fun s => I s.db) init fun _ _ _ _ hs hstep =>
    (step_writes hstep).preserve hs fun w a b ha _ he => effect w a b ha he

/-- **The stability rule.** What every effect preserves stays true along every run. -/
theorem run_db {I : Database → Prop} (h : (services cfg).Run s s') (hs : I s.db)
    (effect : ∀ w a b, I a → Effect cfg w a b → I b) : I s'.db := by
  induction h with
  | refl => exact hs
  | tail _ hstep ih =>
    obtain ⟨l, hl⟩ := hstep
    exact (step_writes hl).preserve ih fun w a b ha _ he => effect w a b ha he

/-- A call is in flight because it was, or because it has just begun. -/
theorem mem_inflight_next {f : InFlight} (h : f ∈ (s.next cfg l).inflight) :
    f ∈ s.inflight ∨ ∃ call env, l = .begin call env ∧ call.start cfg s.db env = .ok f := by
  cases l with
  | call call env =>
    cases hc : call.run cfg s.db env <;> simp only [Sys.next, hc, Sys.commit] at h <;> exact Or.inl h
  | begin call env =>
    cases hc : call.start cfg s.db env with
    | error e =>
      simp only [Sys.next, hc] at h
      exact Or.inl h
    | ok f' =>
      simp only [Sys.next, hc, List.mem_append, List.mem_singleton] at h
      rcases h with h | rfl
      · exact Or.inl h
      · exact Or.inr ⟨call, env, rfl, hc⟩
  | finish index env =>
    cases hf : s.inflight[index]? with
    | none =>
      simp only [Sys.next, hf] at h
      exact Or.inl h
    | some f' =>
      cases hc : f'.commit cfg s.db env <;> simp only [Sys.next, hf, hc, Sys.commit] at h <;>
        exact Or.inl (List.mem_of_mem_eraseIdx h)

/-- The database does not change while a call begins. -/
theorem db_next_begin {call : SplitCall} {env : Env} :
    (s.next cfg (.begin call env)).db = s.db := (next_of_no_transaction rfl).1

/-- **The invariant rule with calls in flight.** `J` is what is known about a call in flight: it
holds when the call begins, and every effect preserves it. -/
theorem reachable_inflight {I : Database → Prop} {J : Database → InFlight → Prop}
    (h : (services cfg).Reachable s) (init : I .empty)
    (start : ∀ db env call f, I db → SplitCall.start cfg db env call = .ok f → J db f)
    (effect : ∀ s l w a b, I a → (∀ f ∈ s.inflight, J a f) → Performs cfg s l w →
      Effect cfg w a b → I b ∧ ∀ f, J a f → J b f) :
    I s.db ∧ ∀ f ∈ s.inflight, J s.db f := by
  refine h.invariant (I := fun s => I s.db ∧ ∀ f ∈ s.inflight, J s.db f) ⟨init, ?_⟩ ?_
  · intro f hf
    cases hf
  · intro s l s' _ hs hstep
    have hdb := (step_writes hstep).preserve (I := fun b => I b ∧ ∀ f ∈ s.inflight, J b f) hs
      fun w a b ha hw he => by
        obtain ⟨hb, hJ⟩ := effect s l w a b ha.1 ha.2 hw he
        exact ⟨hb, fun f hf => hJ f (ha.2 f hf)⟩
    obtain ⟨_, rfl⟩ := hstep
    refine ⟨hdb.1, fun f hf => ?_⟩
    rcases mem_inflight_next hf with hf | ⟨call, env, rfl, hstart⟩
    · exact hdb.2 f hf
    · have hsame : ((services cfg).next s (.begin call env)).db = s.db := db_next_begin
      rw [hsame]
      exact start s.db env call f hs.1 hstart

/-- The services, as long as the writes of every step satisfy `ok`. -/
def disciplined (cfg : Config) (ok : Write → Prop) : System Sys Label :=
  (services cfg).restrict (Discipline cfg ok)

/-- The stability rule for disciplined runs. -/
theorem disciplined_run_db {ok : Write → Prop} {I : Database → Prop}
    (h : (disciplined cfg ok).Run s s') (hs : I s.db)
    (effect : ∀ w a b, I a → ok w → Effect cfg w a b → I b) : I s'.db := by
  induction h with
  | refl => exact hs
  | tail _ hstep ih =>
    obtain ⟨l, ⟨_, hok⟩, rfl⟩ := hstep
    exact (next_disciplined _ l hok).preserve ih fun w a b ha hw he => effect w a b ha hw.2 he

/-! ### Tame runs -/

/-- The writes that no discipline here is about: activations in a running run, and what neither
ends a node nor extends its lease. -/
def Write.harmless : Write → Prop
  | .record | .rotate | .states | .deny _ | .registerRun _ | .registerNode _ | .issue _
  | .allow .. => True
  | .activate at' => at'.runRunning = true
  | _ => False

/-- Whether all that a label can write is harmless. -/
def tame (s : Sys) : Label → Bool
  | .call (.complete ..) _ | .call (.execute ..) _ => false
  | .call .. | .begin .. => true
  | .finish index _ =>
    match s.inflight[index]? with
    | none | some (.createRun ..) | some (.seedScenario ..) => true
    | some (.activate nodeId _ _) => (s.db.nodes.get? nodeId).any (runIsRunning s.db)
    | some (.heartbeat ..) | some (.checkpoint _) | some (.expireStaleNodes ..) => false

theorem harmless_of_tame (h : tame s l = true) {w : Write} (hw : Performs cfg s l w) :
    w.harmless := by
  cases hw with
  | record | rotate | states | deny | registerRun | registerNode | issue | allow => trivial
  | activate call found =>
    simp only [tame, call, found, Option.any_some] at h
    exact h
  | renew call | convergeHeartbeat call | expireHeartbeat call | expireScanner call
  | checkpoint call => simp [tame, call] at h
  | convergeGateway | expireSweep | complete => simp [tame] at h

/-- A sample run of tame labels is disciplined. -/
theorem sample_disciplined {ok : Write → Prop} (hok : ∀ w, w.harmless → ok w) {ls : List Label}
    (h : checked tame Sys.init ls = true) : (disciplined sampleConfig ok).Reachable (sample ls) :=
  sample_checked (fun _ _ _ ht _ _ hw => hok _ (harmless_of_tame ht hw)) h

end TraceFence
