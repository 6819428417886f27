import TraceFence.Runtime.Refusals
import TraceFence.Safety.Convergence
import TraceFence.Safety.Journal
import TraceFence.Safety.LeaseExpiry
import TraceFence.Safety.Replay

/-!
# What the exit code of a worker says

A worker is one more caller of the services, and everybody else goes on meanwhile. Its exit code is
read by whoever started it. If it reports success, then the journal backs it, whatever was lost on
the way and whoever else used the services: the node has been activated, then passed a checkpoint,
and then been completed, or an action was recorded under the worker's key. So a node that a command
has cut off before its completion has no worker that reports success.

## Main definitions

* `Attested` — events of a node, in their order
* `Warrants`, `Vouches` — what a stage and an exchange of the main task imply
* `Supported` — the invariant of a deployment

## Main results

* `worker_success` — what the success of a worker says about the registry
* `worker_fenced` — a worker of a node that was cut off never reports success
-/

namespace TraceFence

open Checked System

variable {cfg : Config} {args : WorkerArgs} {a b db : Database} {s s' : Sys} {id : Id}

/-! ### The events of a node -/

/-- The types of the events of a node, in the order of their sequence numbers. -/
def Database.eventsOf (db : Database) (nodeId : Id) : List EventType :=
  (db.events.filter fun e => e.nodeId = some nodeId).map (·.eventType)

/-- The journal has events of these types about the node, in this order. -/
def Attested (db : Database) (nodeId : Id) (types : List EventType) : Prop :=
  types.Sublist (db.eventsOf nodeId)

variable {types : List EventType}

/-- The journal is not rewritten. -/
theorem Attested.logged (h : Attested a id types) (hl : Logged a b) : Attested b id types := by
  obtain ⟨new, hnew⟩ := hl.events
  refine List.Sublist.trans h ?_
  rw [Database.eventsOf, Database.eventsOf, ← hnew, List.filter_append, List.map_append]
  exact List.sublist_append_left _ _

/-- An event that is appended comes after those before it. -/
theorem Attested.append (h : Attested a id types) {new : List RuntimeEvent}
    (hb : b.events = a.events ++ new) {e : RuntimeEvent} (he : e ∈ new) (hid : e.nodeId = some id) :
    Attested b id (types ++ [e.eventType]) := by
  rw [Attested, Database.eventsOf, hb, List.filter_append, List.map_append]
  refine List.Sublist.append h (List.singleton_sublist.mpr (List.mem_map_of_mem ?_))
  exact List.mem_filter.mpr ⟨he, decide_eq_true hid⟩

/-- An event about a node is marked by it. -/
theorem subject_of_aboutNode {e : RuntimeEvent} (h : e.eventType.aboutNode = true) :
    e.subject = e.nodeId := by
  rw [RuntimeEvent.subject]
  revert h
  generalize e.eventType = t
  cases t <;> first | exact fun _ => rfl | exact fun h => absurd h (by decide)

/-- An event that is in the journal. -/
theorem attested_of_mark {t : EventType} (ht : t.aboutNode = true) (h : (t, id) ∈ a.journal) :
    Attested a id [t] := by
  obtain ⟨e, he, hmark⟩ := List.mem_filterMap.mp h
  obtain ⟨subject, hsubject, hpair⟩ := Option.map_eq_some_iff.mp hmark
  obtain ⟨rfl, rfl⟩ := Prod.mk.inj hpair
  refine List.singleton_sublist.mpr (List.mem_map_of_mem (List.mem_filter.mpr ⟨he, ?_⟩))
  rw [decide_eq_true_eq, ← hsubject, subject_of_aboutNode ht]

theorem Attested.mark (h : Attested a id types) {t : EventType} (ht : t ∈ types)
    (hnode : t.aboutNode = true) : (t, id) ∈ a.journal := by
  obtain ⟨e, he, rfl⟩ := List.mem_map.mp (h.subset ht)
  obtain ⟨hmem, hid⟩ := List.mem_filter.mp he
  refine List.mem_filterMap.mpr ⟨e, hmem, Option.map_eq_some_iff.mpr ⟨id, ?_, rfl⟩⟩
  rw [subject_of_aboutNode hnode, of_decide_eq_true hid]

/-! ### The operations a worker calls -/

/-- A checkpoint allows only a node that has been activated. -/
theorem checkpointRead_allowed (hs : (services cfg).Reachable s) {token : Token} {env : Env}
    {read : CheckpointWrite × CheckpointResponse}
    (h : checkpointRead cfg s.db id token env = .ok read) (hallowed : read.2.allowed = true) :
    ∃ node now, read.1 = .wait node now ∧ node.id = id ∧ Attested s.db id [.nodeActivated] := by
  simp only [checkpointRead, bind_eq_ok, authenticateNode_eq_ok] at h
  obtain ⟨node, ⟨hnode, _⟩, _, _, state, hstate, h⟩ := h
  have hid : node.id = id := Table.key_of_get? hnode
  split at h
  · next hlive =>
    obtain rfl := pure_eq_ok.mp h
    refine ⟨node, env.clock 1, rfl, hid, ?_⟩
    have hstatus : node.status.isLive = true := ((allowed_iff_live hstate).mp hlive).status
    have hactivated : node.activatedAt ≠ none := ((reachable_wakes hs).1 id node hnode).live hstatus
    refine attested_of_mark rfl (List.count_pos_iff.mp ?_)
    have hfact : s.db.facts (.nodeActivated, id) = true := by
      simp [Database.facts, EventType.happened, hnode, Option.isSome_iff_ne_none, hactivated]
    rw [journal_chronicles hs (.nodeActivated, id) rfl, if_pos hfact]
    exact Nat.one_pos
  · split_ifs at h
    all_goals
      obtain rfl := pure_eq_ok.mp h
      cases hallowed

/-- The delayed write of a checkpoint that allows the node says that it waits. -/
theorem attested_wait {node : Node} {now : Time} {env : Env} {index : ℕ}
    (hf : s.inflight[index]? = some (.checkpoint (.wait node now)))
    (h : Attested s.db node.id [.nodeActivated]) :
    Attested (s.next cfg (.finish index env)).db node.id [.nodeActivated, .nodeWaiting] := by
  have hnext : (s.next cfg (.finish index env)).db.events =
      s.db.events ++ [causedEvent .nodeWaiting node now] := by
    simp only [Sys.next, hf, InFlight.commit, checkpointWrite, Sys.commit, recordRuntimeEvent]
    rw [assignStatus]
    split_ifs <;> rfl
  exact h.append hnext (List.mem_singleton_self _) rfl

/-- A completion says so. -/
theorem attested_complete {token : Token} {env : Env} {c : Commit Unit}
    (hc : complete cfg db id token env = .ok c) (h : Attested db id types) :
    Attested c.db id (types ++ [.nodeCompleted]) := by
  simp only [complete, bind_eq_ok, authenticateNode_eq_ok, pure_eq_ok] at hc
  obtain ⟨node, ⟨hnode, _⟩, _, _, _, _, run, _, swept, hswept, commandId, _, rfl⟩ := hc
  have hid : node.id = id := Table.key_of_get? hnode
  have hevents : swept.events = db.events := by
    rw [finishRun] at hswept
    split_ifs at hswept
    · simp only [completeRun, bind_eq_ok, pure_eq_ok] at hswept
      obtain ⟨_, _, runs, _, rfl⟩ := hswept
      exact events_sweep node _
    · obtain rfl := Except.ok.inj hswept
      rfl
  have hadvanced (db' : Database) :
      (advanceReplacement db' commandId .completed).events = db'.events := by
    cases commandId <;> rfl
  obtain ⟨new, hnew, hmem⟩ : ∃ new,
      (completeNode swept node commandId (env.clock 3)).events = db.events ++ new ∧
        causedEvent .nodeCompleted node (env.clock 3) ∈ new := by
    rw [completeNode]
    dsimp only
    rw [hadvanced]
    dsimp only
    rw [hevents]
    split_ifs
    · exact ⟨_, rfl, List.mem_cons_self⟩
    · exact ⟨_, rfl, List.mem_cons_self⟩
  exact h.append hnew hmem (congrArg some hid)

/-! ### The services of a deployment -/

variable {d d' : Deployment}

/-- What the services do about a request is a run of theirs. -/
theorem serve_run (token : Token) (index : ℕ) (env : Env) (exchange : Exchange) :
    (services cfg).Run s (exchange.serve cfg args s token index env).1 := by
  have hstep (l : Label) : (services cfg).Run s (s.next cfg l) := .single ⟨l, trivial, rfl⟩
  cases exchange with
  | posted request =>
    rw [Exchange.serve]
    split
    · exact hstep (.call _ env)
    · split
      · exact hstep (.begin _ env)
      · exact hstep (.begin _ env)
  | begun => exact hstep (.finish index env)
  | idle | answered => exact .refl

/-- A step of a deployment is a run of its services. -/
theorem deployment_run {l : Deployment.Label} (h : (deployment cfg args).Step d l d') :
    (services cfg).Run d.sys d'.sys := by
  obtain ⟨_, rfl⟩ := h
  obtain ⟨sys, worker, main, beating⟩ := d
  cases l with
  | step l => exact .single ⟨l, trivial, rfl⟩
  | serveMain | serveHeartbeat => exact serve_run _ _ _ _
  | start | release | elapse | beat | notice =>
    change (services cfg).Run sys (if _ then _ else _ : Deployment).sys
    split_ifs <;> exact .refl
  | answerMain | failMain => cases main <;> exact .refl
  | answerHeartbeat | failHeartbeat => cases beating <;> exact .refl
  | terminate | exit =>
    obtain ⟨stage, token, loop, failures, lost⟩ := worker
    cases stage <;> exact .refl

/-! ### The invariant -/

/-- The action of the worker is recorded. -/
def Acted (cfg : Config) (args : WorkerArgs) (db : Database) : Prop :=
  ∃ x, findAttempt db args.nodeId args.idempotencyKey = some x ∧
    x.requestPayloadDigest = cfg.payloadDigest (.action
      { idempotencyKey := args.idempotencyKey, toolName := args.tool, arguments := [] })

/-- What the success of a worker of a mode implies. -/
def Succeeded (cfg : Config) (args : WorkerArgs) (db : Database) : Prop :=
  match args.mode with
  | .cooperative => Attested db args.nodeId [.nodeActivated, .nodeWaiting, .nodeCompleted]
  | .nonCompliantAction =>
    Attested db args.nodeId [.nodeActivated, .nodeWaiting] ∧ Acted cfg args db

/-- **What a stage of the main task implies.** -/
def Warrants (cfg : Config) (args : WorkerArgs) (db : Database) : WorkerStage → Prop
  | .preflight => args.mode = .nonCompliantAction
  | .waiting => args.mode = .nonCompliantAction →
      Attested db args.nodeId [.nodeActivated, .nodeWaiting]
  | .acting => args.mode = .nonCompliantAction ∧
      Attested db args.nodeId [.nodeActivated, .nodeWaiting]
  | .checking => args.mode = .cooperative
  | .completing => args.mode = .cooperative ∧
      Attested db args.nodeId [.nodeActivated, .nodeWaiting]
  | .returned .success | .exited .success => Succeeded cfg args db
  | _ => True

/-- **What an exchange of the main task implies.** -/
def Vouches (cfg : Config) (args : WorkerArgs) (db : Database) : Exchange → Prop
  | .begun .checkpoint f allowed => allowed = some true → ∃ node now,
      f = .checkpoint (.wait node now) ∧ node.id = args.nodeId ∧
        Attested db args.nodeId [.nodeActivated]
  | .begun .execute _ _ | .begun .complete _ _ => False
  | .answered .checkpoint answer => answer.status = 200 → answer.allowed = some true →
      Attested db args.nodeId [.nodeActivated, .nodeWaiting]
  | .answered .execute answer => answer.status = 200 → Acted cfg args db
  | .answered .complete answer => answer.status = 204 →
      Attested db args.nodeId [.nodeActivated, .nodeWaiting, .nodeCompleted]
  | _ => True

/-- The request that the main task waits for. -/
def WorkerStage.request : WorkerStage → Option WorkerRequest
  | .activating => some .activate
  | .preflight | .checking => some .checkpoint
  | .acting => some .execute
  | .completing => some .complete
  | .ready | .waiting | .returned _ | .exited _ => none

def Exchange.request : Exchange → Option WorkerRequest
  | .idle => none
  | .posted request | .begun request _ _ | .answered request _ => some request

/-- **The invariant of a deployment.** -/
structure Supported (cfg : Config) (args : WorkerArgs) (d : Deployment) : Prop where
  reachable : (services cfg).Reachable d.sys
  kind : ∀ request, d.main.request = some request → d.worker.stage.request = some request
  stage : Warrants cfg args d.sys.db d.worker.stage
  main : Vouches cfg args d.sys.db d.main

theorem Acted.logged (h : Acted cfg args a) (hrows : a.attempts.rows <+: b.attempts.rows) :
    Acted cfg args b := by
  obtain ⟨x, hx, hdigest⟩ := h
  exact ⟨x, findAttempt_of_prefix hrows hx, hdigest⟩

theorem Succeeded.run (h : Succeeded cfg args s.db) (hrun : (services cfg).Run s s') :
    Succeeded cfg args s'.db := by
  rw [Succeeded] at h ⊢
  split at h
  · exact h.logged (run_logged hrun)
  · exact ⟨h.1.logged (run_logged hrun), h.2.logged (run_evolves hrun).attempt⟩

theorem warrants_returned {code : ExitCode} :
    Warrants cfg args db (.returned code) ↔ (code = .success → Succeeded cfg args db) := by
  cases code <;> simp [Warrants]

theorem warrants_exited {code : ExitCode} :
    Warrants cfg args db (.exited code) ↔ (code = .success → Succeeded cfg args db) := by
  cases code <;> simp [Warrants]

theorem Warrants.run {stage : WorkerStage} (h : Warrants cfg args s.db stage)
    (hrun : (services cfg).Run s s') : Warrants cfg args s'.db stage := by
  cases stage with
  | waiting => exact fun hmode => (h hmode).logged (run_logged hrun)
  | acting | completing => exact ⟨h.1, h.2.logged (run_logged hrun)⟩
  | ready | activating | preflight | checking => exact h
  | returned => exact warrants_returned.mpr fun hcode => (warrants_returned.mp h hcode).run hrun
  | exited => exact warrants_exited.mpr fun hcode => (warrants_exited.mp h hcode).run hrun

theorem Vouches.run {exchange : Exchange} (h : Vouches cfg args s.db exchange)
    (hrun : (services cfg).Run s s') : Vouches cfg args s'.db exchange := by
  cases exchange with
  | idle | posted => trivial
  | begun request f allowed =>
    cases request with
    | checkpoint =>
      intro hallowed
      obtain ⟨node, now, hf, hid, hattested⟩ := h hallowed
      exact ⟨node, now, hf, hid, hattested.logged (run_logged hrun)⟩
    | execute | complete => exact h
    | activate | heartbeat => trivial
  | answered request answer =>
    cases request with
    | checkpoint => exact fun hstatus hallowed => (h hstatus hallowed).logged (run_logged hrun)
    | execute => exact fun hstatus => (h hstatus).logged (run_evolves hrun).attempt
    | complete => exact fun hstatus => (h hstatus).logged (run_logged hrun)
    | activate | heartbeat => trivial

/-- What goes on elsewhere keeps the invariant. -/
theorem Supported.elsewhere (h : Supported cfg args d) (hrun : (services cfg).Run d.sys d'.sys)
    (hmain : d'.main = d.main) (hstage : d'.worker.stage = d.worker.stage) :
    Supported cfg args d' where
  reachable := h.reachable.run hrun
  kind := by rw [hmain, hstage]; exact h.kind
  stage := by rw [hstage]; exact h.stage.run hrun
  main := by rw [hmain]; exact h.main.run hrun

/-- **What a move of the main task must bring along.** -/
structure Justified (cfg : Config) (args : WorkerArgs) (db : Database)
    (next : Worker × Option WorkerRequest) : Prop where
  kind : ∀ request, next.2 = some request → next.1.stage.request = some request
  stage : Warrants cfg args db next.1.stage

/-- The main task moves. -/
theorem Supported.move (h : Supported cfg args d) {next : Worker × Option WorkerRequest}
    (hnext : Justified cfg args d.sys.db next) : Supported cfg args (d.move next) where
  reachable := h.reachable
  kind request hrequest := by
    refine hnext.kind request ?_
    change ((next.2.map Exchange.posted).getD .idle).request = some request at hrequest
    generalize next.2 = posted at hrequest
    cases posted with
    | none => cases hrequest
    | some _ => exact hrequest
  stage := hnext.stage
  main := by
    change Vouches cfg args d.sys.db ((next.2.map Exchange.posted).getD .idle)
    cases next.2 with
    | none => trivial
    | some _ => trivial

/-! ### The main task -/

variable {w : Worker}

/-- Only success has to be justified. -/
theorem justified_finish {code : ExitCode} (h : code ≠ .success) :
    Justified cfg args db (w.finish code) where
  kind _ hposted := by cases hposted
  stage := warrants_returned.mpr fun hcode => absurd hcode h

/-- A move that posts nothing. -/
theorem justified_quiet (h : Warrants cfg args db w.stage) : Justified cfg args db (w, none) where
  kind _ hposted := by cases hposted
  stage := h

theorem justified_success (h : Succeeded cfg args db) :
    Justified cfg args db (w.finish .success) where
  kind _ hposted := by cases hposted
  stage := h

theorem justified_readCheckpoint {answer : Answer} {allowed : Worker × Option WorkerRequest}
    (h : answer.status = 200 → answer.allowed = some true → Justified cfg args db allowed) :
    Justified cfg args db (w.readCheckpoint answer allowed) := by
  rw [Worker.readCheckpoint]
  split_ifs with hstatus
  · exact justified_finish (by decide)
  split
  · exact justified_finish (by decide)
  · exact justified_finish (by decide)
  · next hallowed => exact h (not_not.mp hstatus) hallowed

theorem justified_start : Justified cfg args db (w.start cfg args) := by
  rw [Worker.start]
  split_ifs
  · exact justified_finish (by decide)
  · exact ⟨fun _ hposted => hposted, trivial⟩

/-- The work is released to a node that has passed what its mode asks for. -/
theorem justified_released (hstage : w.stage = .waiting) (h : Warrants cfg args db w.stage) :
    Justified cfg args db (w.released args) := by
  rw [hstage] at h
  rw [Worker.released]
  split_ifs
  · exact justified_finish (by decide)
  split
  · next hmode => exact ⟨fun _ hposted => hposted, hmode, h hmode⟩
  · next hmode => exact ⟨fun _ hposted => hposted, hmode⟩

/-- The main task goes on with an answer that is what it says. -/
theorem justified_read {request : WorkerRequest} {answer : Answer}
    (hrequest : w.stage.request = some request) (hstage : Warrants cfg args db w.stage)
    (hanswer : Vouches cfg args db (.answered request answer)) :
    Justified cfg args db (w.read args answer) := by
  rw [Worker.read]
  generalize w.stage = stage at hrequest hstage
  cases stage with
  | activating =>
    dsimp only
    split_ifs
    · exact justified_finish (by decide)
    split
    · exact justified_finish (by decide)
    split
    · next hmode => exact ⟨fun _ hposted => hposted, hmode⟩
    · next hmode =>
      refine justified_quiet fun hother => ?_
      rw [hmode] at hother
      cases hother
  | preflight =>
    cases hrequest
    exact justified_readCheckpoint fun hstatus hallowed =>
      justified_quiet fun _ => hanswer hstatus hallowed
  | acting =>
    cases hrequest
    dsimp only
    split_ifs with hstatus
    · refine justified_success ?_
      rw [Succeeded, hstage.1]
      exact ⟨hstage.2, hanswer hstatus⟩
    · exact justified_finish (by decide)
  | checking =>
    cases hrequest
    refine justified_readCheckpoint fun hstatus hallowed => ?_
    exact ⟨fun _ hposted => hposted, hstage, hanswer hstatus hallowed⟩
  | completing =>
    cases hrequest
    dsimp only
    split_ifs with hstatus
    · exact justified_finish (by decide)
    · refine justified_success ?_
      rw [Succeeded, hstage.1]
      exact hanswer (not_not.mp hstatus)
  | ready | waiting | returned | exited => cases hrequest

/-! ### The services -/

/-- A call that is answered as a success has been carried out. -/
theorem answered_call {call : Call} {env : Env} {status : ℕ}
    (hrejects : OnlyFails Failure.Rejects (call.run cfg s.db env)) (hstatus : status < 400)
    (h : (answerOf ((fun _ => { status := status }) <$> call.run cfg s.db env)).status = status) :
    ∃ c, call.run cfg s.db env = .ok c ∧ (s.next cfg (.call call env)).db = c.db := by
  rw [Sys.next]
  revert hrejects h
  generalize call.run cfg s.db env = result
  intro hrejects h
  cases result with
  | ok c => exact ⟨c, rfl, rfl⟩
  | error e =>
    have he : 400 ≤ e.status := hrejects e rfl
    change e.status = status at h
    omega

/-- What is said to be allowed was allowed at the read. -/
theorem allowed_of_answer {f : InFlight} {env : Env} {allowed : Option Bool}
    (h : (answerOf (f.answer cfg db env allowed)).allowed = some true) : allowed = some true := by
  have hmapped {α : Type} {x : Except Failure α} {g : α → Answer}
      (hx : (answerOf (g <$> x)).allowed = some true) : ∃ a, (g a).allowed = some true := by
    cases x with
    | ok a => exact ⟨a, hx⟩
    | error e => cases hx
  cases f with
  | activate | heartbeat =>
    obtain ⟨_, ha⟩ := hmapped h
    cases ha
  | createRun | checkpoint | expireStaleNodes | seedScenario =>
    obtain ⟨_, ha⟩ := hmapped h
    exact ha

/-- What the services make of the request of the main task. -/
theorem serve_vouches (hs : (services cfg).Reachable s) {exchange : Exchange} {token : Token}
    {index : ℕ} {env : Env} {stage : WorkerStage}
    (hkind : ∀ request, exchange.request = some request → stage.request = some request)
    (hstage : Warrants cfg args s.db stage) (hmain : Vouches cfg args s.db exchange)
    (hindex : Deployment.Finishes s index exchange) :
    Vouches cfg args (exchange.serve cfg args s token index env).1.db
      (exchange.serve cfg args s token index env).2 := by
  have hrun := @serve_run cfg args s token index env exchange
  cases exchange with
  | idle => trivial
  | posted request =>
    cases request with
    | activate | heartbeat => trivial
    | checkpoint =>
      refine Vouches.run ?_ hrun
      rw [Exchange.serve]
      dsimp only [WorkerRequest.operation]
      split
      · next f hf =>
        obtain ⟨read, hread, rfl⟩ := map_eq_ok.mp hf
        intro hallowed
        rw [SplitCall.decided, hread] at hallowed
        obtain ⟨node, now, hwrite, hid, hattested⟩ :=
          checkpointRead_allowed hs hread (Option.some.inj hallowed)
        exact ⟨node, now, congrArg _ hwrite, hid, hattested⟩
      · intro _ hallowed
        cases hallowed
    | execute =>
      intro hstatus
      obtain ⟨c, hc, hdb⟩ := answered_call (onlyFails_map.mpr rejects_execute) (by decide) hstatus
      obtain ⟨done, hdone, rfl⟩ := map_eq_ok.mp hc
      obtain ⟨x, _, hx, hdigest, _⟩ := execute_recorded hdone
      change Acted cfg args (s.next cfg _).db
      rw [hdb]
      exact ⟨x, hx, hdigest⟩
    | complete =>
      intro hstatus
      obtain ⟨c, hc, hdb⟩ := @answered_call cfg s (.complete _ _) env 204 rejects_complete (by decide)
        hstatus
      obtain rfl : stage = .completing := by
        have := hkind _ rfl
        cases stage <;> cases this
        rfl
      change Attested (s.next cfg _).db _ _
      rw [hdb]
      exact attested_complete hc hstage.2
  | begun request f allowed =>
    cases request with
    | activate | heartbeat => trivial
    | execute | complete => exact hmain.elim
    | checkpoint =>
      intro hstatus hallowed
      obtain ⟨node, now, rfl, hid, hattested⟩ := hmain (allowed_of_answer hallowed)
      change Attested (s.next cfg (.finish index env)).db _ _
      rw [← hid] at hattested ⊢
      exact attested_wait (hindex _ _ _ rfl) hattested
  | answered request answer => exact hmain

/-- The services serve the request that was posted. -/
theorem serve_request {exchange : Exchange} {token : Token} {index : ℕ} {env : Env}
    {request : WorkerRequest}
    (h : (exchange.serve cfg args s token index env).2.request = some request) :
    exchange.request = some request := by
  cases exchange with
  | posted posted =>
    rw [Exchange.serve] at h
    revert h
    split
    · exact id
    · split <;> exact id
  | idle | begun | answered => exact h

/-- The heartbeat loop is not the main task. -/
theorem readHeartbeat_stage (answer : Answer) : (w.readHeartbeat answer).stage = w.stage := by
  rw [Worker.readHeartbeat]
  split_ifs <;> rfl

theorem failHeartbeat_stage : (w.failHeartbeat args).stage = w.stage := by
  rw [Worker.failHeartbeat]
  dsimp only
  split_ifs <;> rfl

/-- **A step of a deployment keeps what the main task relies on.** -/
theorem supported_step {l : Deployment.Label} (h : Supported cfg args d)
    (hstep : (deployment cfg args).Step d l d') : Supported cfg args d' := by
  have hrun := deployment_run hstep
  obtain ⟨hpossible, rfl⟩ := hstep
  obtain ⟨sys, worker, main, beating⟩ := d
  cases l with
  | step l => exact h.elsewhere hrun rfl rfl
  | start =>
    change Supported cfg args (if _ then _ else _)
    split_ifs
    · exact h.move justified_start
    · exact h
  | serveMain index env =>
    exact ⟨h.reachable.run hrun, fun request hrequest => h.kind request (serve_request hrequest),
      h.stage.run hrun, serve_vouches h.reachable h.kind h.stage h.main hpossible⟩
  | serveHeartbeat index env => exact h.elsewhere hrun rfl rfl
  | answerMain =>
    cases main with
    | answered request answer => exact h.move (justified_read (h.kind request rfl) h.stage h.main)
    | idle | posted | begun => exact h
  | answerHeartbeat =>
    cases beating with
    | answered request answer => exact h.elsewhere .refl rfl (readHeartbeat_stage answer)
    | idle | posted | begun => exact h
  | failMain =>
    cases main with
    | idle => exact h
    | posted | begun | answered => exact h.move (justified_finish (by decide))
  | failHeartbeat =>
    cases beating with
    | idle => exact h
    | posted | begun | answered => exact h.elsewhere .refl rfl failHeartbeat_stage
  | release line =>
    change Supported cfg args (if _ then _ else _)
    split_ifs with hwaiting
    · refine h.move ?_
      rw [Worker.readRelease]
      split_ifs
      · exact justified_finish (by decide)
      · exact justified_released hwaiting.1 h.stage
    · exact h
  | elapse =>
    change Supported cfg args (if _ then _ else _)
    split_ifs with hwaiting
    · exact h.move (justified_released hwaiting.1 h.stage)
    · exact h
  | beat =>
    change Supported cfg args (if _ then _ else _)
    split_ifs
    · exact h.elsewhere .refl rfl rfl
    · exact h
  | notice =>
    change Supported cfg args (if _ then _ else _)
    split_ifs
    · exact h.move (justified_finish (by decide))
    · exact h
  | terminate =>
    obtain ⟨stage, token, loop, failures, lost⟩ := worker
    cases stage with
    | exited code => exact h
    | ready | activating | preflight | waiting | acting | checking | completing | returned =>
      exact h.move (justified_quiet trivial)
  | exit =>
    obtain ⟨stage, token, loop, failures, lost⟩ := worker
    cases stage with
    | returned =>
      exact h.move (justified_quiet (warrants_exited.mpr (warrants_returned.mp h.stage)))
    | ready | activating | preflight | waiting | acting | checking | completing | exited => exact h

/-- Every reachable deployment. -/
theorem supported (h : (deployment cfg args).Reachable d) : Supported cfg args d :=
  h.invariant ⟨.refl, fun _ hrequest => (by cases hrequest), trivial, trivial⟩
    fun _ _ _ _ hd hstep => supported_step hd hstep

theorem Supported.succeeded (h : Supported cfg args d)
    (hdone : d.worker.stage = .returned .success ∨ d.worker.stage = .exited .success) :
    Succeeded cfg args d.sys.db := by
  have hstage := h.stage
  rcases hdone with hdone | hdone
  · rw [hdone] at hstage
    exact warrants_returned.mp hstage rfl
  · rw [hdone] at hstage
    exact warrants_exited.mp hstage rfl

/-- **The exit code of a worker.** -/
theorem worker_success (h : (deployment cfg args).Reachable d)
    (hdone : d.worker.stage = .returned .success ∨ d.worker.stage = .exited .success) :
    Succeeded cfg args d.sys.db :=
  (supported h).succeeded hdone

/-- A cooperative worker, and one that acts on its own. -/
theorem worker_success_sample :
    Succeeded sampleConfig sampleWorker
        (sampleDeployment sampleWorker (sampleStarted ++ sampleFinish)).sys.db ∧
      Succeeded sampleConfig sampleStubborn
        (sampleDeployment sampleStubborn (sampleStarted ++ sampleAct)).sys.db :=
  ⟨worker_success (sample_moves _ (by decide +kernel)) (Or.inr (by decide +kernel)),
    worker_success (sample_moves _ (by decide +kernel)) (Or.inr (by decide +kernel))⟩

/-! ### Nodes that were cut off -/

variable {c : ControlCommand} {n : Node}

/-- A node is out of reach of its worker: a command reaches it, and it has not been completed. -/
structure Barred (c : ControlCommand) (n : Node) (db : Database) : Prop where
  governs : Governs db c
  row : ∃ n', db.nodes.get? n.id = some n' ∧ n'.registration = n.registration
  uncompleted : (EventType.nodeCompleted, n.id) ∉ db.journal

theorem exists_complete {w : Write} (h : (EventType.nodeCompleted, id) ∈ w.marks) :
    ∃ at', w = .complete at' ∧ at'.node.id = id := by
  have hmarks := Write.mem_marks.mp h
  generalize hpair : (EventType.nodeCompleted, id) = mark at hmarks
  cases hmarks with
  | complete at' => exact ⟨at', rfl, (congrArg Prod.snd hpair).symm⟩
  | run | child | replacement | expire | recovery | issue | supersede | cancel => cases hpair
  | root _ type | activate _ type | deny _ type | allow _ _ _ type =>
    obtain ⟨rfl, _⟩ := Prod.mk.inj hpair
    simp at type

/-- Only a node that is allowed is completed. -/
theorem Entry.barred {w : Write} {es : List RuntimeEvent} (h : Entry cfg w es a b)
    (hreaches : c.reaches n) (ha : Barred c n a) : Barred c n b := by
  have hevolves : Evolves a b := ((Entries.single (P := fun _ => True) trivial h).writes trivial).evolves
  obtain ⟨m, hm, hreg⟩ := ha.row
  obtain ⟨m', hm', hreg'⟩ := hevolves.node_registration hm
  refine ⟨ha.governs.evolves hevolves rfl, ⟨m', hm', hreg'.trans hreg⟩, ?_⟩
  obtain ⟨hnoted, _, hevents⟩ := h.events
  rw [Database.journal, hevents, List.filterMap_append, hnoted.marks, List.mem_append]
  rintro (hmark | hmark)
  · exact ha.uncompleted hmark
  · obtain ⟨mid, heffect, _⟩ := h.core
    obtain ⟨at', rfl, hid⟩ := exists_complete hmark
    have hfound := (heffect.found_standing rfl).2
    rw [hid, hm] at hfound
    obtain rfl := Option.some.inj hfound
    have hcut := ha.governs.not_allowed ((reaches_of_registration hreg).mpr hreaches)
    rw [heffect.allowed_of_gain (Or.inr (Or.inr rfl))] at hcut
    cases hcut

theorem Barred.run (h : Barred c n s.db) (hreaches : c.reaches n) (hrun : (services cfg).Run s s') :
    Barred c n s'.db := by
  induction hrun with
  | refl => exact h
  | @tail s₁ _ _ hstep ih =>
    obtain ⟨l, _, rfl⟩ := hstep
    obtain ⟨mid, hentries, hdb⟩ := @next_booked cfg _ s₁ l fun _ _ _ => trivial
    have hmid : Barred c n mid :=
      hentries.preserve ih fun _ _ _ _ hb _ he => he.barred hreaches hb
    change Barred c n (s₁.next cfg l).db
    rw [hdb]
    exact ⟨⟨hmid.governs.1, hmid.governs.2, hmid.governs.3, hmid.governs.4, hmid.governs.5⟩, hmid.row, hmid.uncompleted⟩

/-- **A worker of a node that was cut off** before its completion never reports success, whoever else
uses the services. -/
theorem worker_fenced (h : (deployment cfg args).Reachable d) (hmode : args.mode = .cooperative)
    (hc : c ∈ d.sys.db.commands.rows) (hn : d.sys.db.nodes.get? args.nodeId = some n)
    (hreaches : c.reaches n)
    (huncompleted : (EventType.nodeCompleted, args.nodeId) ∉ d.sys.db.journal)
    (hrun : (deployment cfg args).Run d d') :
    d'.worker.stage ≠ .returned .success ∧ d'.worker.stage ≠ .exited .success := by
  have hid : n.id = args.nodeId := Table.key_of_get? hn
  have hbarred : Barred c n d.sys.db :=
    ⟨(controlled (supported h).reachable).command c.id c (Table.get?_of_mem hc),
      ⟨n, by rw [hid]; exact hn, rfl⟩, by rw [hid]; exact huncompleted⟩
  have hservices : (services cfg).Run d.sys d'.sys := by
    induction hrun with
    | refl => exact .refl
    | tail _ hstep ih => exact ih.trans (deployment_run hstep.choose_spec)
  have hafter := (hbarred.run hreaches hservices).uncompleted
  rw [hid] at hafter
  rw [← not_or]
  intro hdone
  have hsucceeded := (supported (h.run hrun)).succeeded hdone
  rw [Succeeded, hmode] at hsucceeded
  exact hafter (hsucceeded.mark (by simp) rfl)

/-- An operator cancels the worker of the sample run, which then goes on. -/
theorem worker_fenced_sample :
    ((sampleFinish.take 3).foldl (sampleMove sampleWorker) sampleCutOff).worker.stage ≠
        .returned .success ∧
      ((sampleFinish.take 3).foldl (sampleMove sampleWorker) sampleCutOff).worker.stage ≠
        .exited .success := by
  obtain ⟨n, hn⟩ := Option.isSome_iff_exists.mp (show
    (sampleCutOff.sys.db.nodes.get? 20).isSome = true by decide +kernel)
  obtain ⟨c, hc⟩ := Option.isSome_iff_exists.mp (show
    (sampleCutOff.sys.db.commands.rows.find? fun c =>
      (sampleCutOff.sys.db.nodes.get? 20).any fun n =>
        decide (c.reaches n)).isSome = true by decide +kernel)
  have hreaches := List.find?_some hc
  rw [hn, Option.any_some, decide_eq_true_eq] at hreaches
  exact worker_fenced (sample_moves _ (by decide +kernel)) rfl (List.mem_of_find?_eq_some hc) hn
    hreaches (by decide +kernel) (sample_moves _ (by decide +kernel))

end TraceFence
