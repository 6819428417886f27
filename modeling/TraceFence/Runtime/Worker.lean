import TraceFence.System
import TraceFence.Signoz.QueryBuilder

/-!
# A worker process and the services

`runtime/worker.py` runs one node from outside: it activates it, keeps its lease alive with
heartbeats, asks at a checkpoint whether it may go on, and then completes the node or, as a test of
the gateway, executes a tool. Two tasks of one event loop send requests, the main task and the
heartbeat loop, and each waits for the answer to its own. A request may get lost, or its answer may,
at any time, and the services serve others in between. What an abandoned request may still do is
what any other caller may do.

Of an answer the model has what the worker reads of it. How long the tasks sleep is left out.

## Main definitions

* `Worker`, `Worker.read` — a worker, and what its main task does with an answer
* `Exchange`, `Exchange.serve` — a request on its way through the services
* `deployment` — the services and one worker
-/

namespace TraceFence

/-! ### The process -/

/-- `--mode`. -/
inductive WorkerMode
  | cooperative | nonCompliantAction
  deriving DecidableEq, Repr

/-- The arguments and the startup payload. -/
structure WorkerArgs where
  nodeId : Id
  mode : WorkerMode
  waitForRelease : Bool := false
  heartbeatInterval : Time := seconds 1
  maxHeartbeatFailures : ℕ := 3
  heartbeatRetryMax : Time := seconds 2
  httpTimeout : Time := seconds 2
  tool : String := "restart_postgres"
  idempotencyKey : String := "worker-action-001"
  activationToken : Token
  processId : ℕ
  /-- `_positive_int`. -/
  maxHeartbeatFailures_pos : 0 < maxHeartbeatFailures := by decide

inductive ExitCode
  | success | operationRejected | leaseLost | internalOrTransportFailure | checkpointDenied
  | completionRejected | activationRejected | terminated
  /-- An exception that nothing catches. -/
  | uncaught
  deriving DecidableEq, Repr

def ExitCode.code : ExitCode → ℕ
  | .success => 0
  | .operationRejected => 2
  | .leaseLost => 3
  | .internalOrTransportFailure => 4
  | .checkpointDenied => 5
  | .completionRejected => 6
  | .activationRejected => 7
  | .terminated => 143
  | .uncaught => 1

/-- Where the main task is. -/
inductive WorkerStage
  | ready
  | activating
  /-- The checkpoint of a non-compliant worker, `before_protected_action`. -/
  | preflight
  /-- `wait_for_work_release`. -/
  | waiting
  | acting
  /-- The checkpoint of a cooperative worker, `worker_loop`. -/
  | checking
  | completing
  /-- `run_worker` has returned. -/
  | returned (code : ExitCode)
  /-- The process has ended. -/
  | exited (code : ExitCode)
  deriving DecidableEq, Repr

/-- Where `heartbeat_loop` is: not running, asleep, or waiting for an answer. -/
inductive HeartbeatLoop
  | stopped | asleep | posting
  deriving DecidableEq, Repr

structure Worker where
  stage : WorkerStage
  /-- `node_token`, once the activation is answered. -/
  nodeToken : Token
  heartbeatLoop : HeartbeatLoop
  failures : ℕ
  leaseLost : Bool
  deriving DecidableEq, Repr

inductive WorkerRequest
  | activate | heartbeat | checkpoint | execute | complete
  deriving DecidableEq, Repr

/-- What the worker reads of an answer. -/
structure Answer where
  status : ℕ
  /-- `node_token` of the body. -/
  nodeToken : Option Token := none
  /-- Whether the body is an object whose `allowed` is `true`; `none` if it is not JSON. -/
  allowed : Option Bool := none
  deriving DecidableEq, Repr

/-! ### The main task -/

variable (cfg : Config) (args : WorkerArgs)

/-- Leaving `run_worker`: its `finally` stops the heartbeats. -/
def Worker.finish (w : Worker) (code : ExitCode) : Worker × Option WorkerRequest :=
  ({ w with stage := .returned code, leaseLost := true, heartbeatLoop := .stopped }, none)

/-- The deadline check, and the request to activate. -/
def Worker.start (w : Worker) : Worker × Option WorkerRequest :=
  let retryMargin := args.heartbeatRetryMax + args.heartbeatInterval
  if seconds cfg.leaseTtlSeconds ≤ args.httpTimeout + retryMargin then
    w.finish .internalOrTransportFailure
  else ({ w with stage := .activating }, some .activate)

/-- The answer to a checkpoint. -/
def Worker.readCheckpoint (w : Worker) (answer : Answer) (allowed : Worker × Option WorkerRequest) :
    Worker × Option WorkerRequest :=
  if answer.status ≠ 200 then w.finish .checkpointDenied
  else
    match answer.allowed with
    | none => w.finish .internalOrTransportFailure
    | some false => w.finish .checkpointDenied
    | some true => allowed

/-- The main task goes on with the answer to its request, and may post the next one. -/
def Worker.read (w : Worker) (answer : Answer) : Worker × Option WorkerRequest :=
  match w.stage with
  | .activating =>
    if 400 ≤ answer.status then w.finish .activationRejected
    else
      match answer.nodeToken with
      | none => w.finish .uncaught
      | some token =>
        let activated := { w with nodeToken := token, heartbeatLoop := .asleep }
        match args.mode with
        | .nonCompliantAction => ({ activated with stage := .preflight }, some .checkpoint)
        | .cooperative => ({ activated with stage := .waiting }, none)
  | .preflight => w.readCheckpoint answer ({ w with stage := .waiting }, none)
  | .acting => w.finish (if answer.status = 200 then .success else .operationRejected)
  | .checking => w.readCheckpoint answer ({ w with stage := .completing }, some .complete)
  | .completing =>
    if answer.status ≠ 204 then w.finish .completionRejected else w.finish .success
  | .ready | .waiting | .returned _ | .exited _ => (w, none)

/-- The work is released, by a line or by the end of the delay. -/
def Worker.released (w : Worker) : Worker × Option WorkerRequest :=
  if w.leaseLost then w.finish .leaseLost
  else
    match args.mode with
    | .nonCompliantAction => ({ w with stage := .acting }, some .execute)
    | .cooperative => ({ w with stage := .checking }, some .checkpoint)

/-- `_read_release_signal` returns a line. -/
def Worker.readRelease (w : Worker) (line : String) : Worker × Option WorkerRequest :=
  if strip line.toList ≠ "GO".toList then w.finish .internalOrTransportFailure
  else w.released args

/-- Whether the main task waits for the loss of the lease, too. -/
def WorkerStage.noticesLeaseLoss : WorkerStage → Bool
  | .preflight | .waiting | .acting | .checking | .completing => true
  | .ready | .activating | .returned _ | .exited _ => false

/-! ### The heartbeat loop -/

/-- The loop goes on while the lease is not lost. -/
def Worker.loop (w : Worker) : Worker :=
  { w with heartbeatLoop := if w.leaseLost then .stopped else .asleep }

def Worker.loseLease (w : Worker) : Worker :=
  { w with leaseLost := true, heartbeatLoop := .stopped }

/-- The answer to a heartbeat. -/
def Worker.readHeartbeat (w : Worker) (answer : Answer) : Worker :=
  if 400 ≤ answer.status then w.loseLease else { w with failures := 0 }.loop

/-- A heartbeat that fails in transport. -/
def Worker.failHeartbeat (w : Worker) : Worker :=
  let failed := { w with failures := w.failures + 1 }
  if args.maxHeartbeatFailures ≤ failed.failures then failed.loseLease else failed.loop

/-! ### Requests -/

/-- The operation a request is for. -/
def WorkerRequest.operation (token : Token) : WorkerRequest → Call ⊕ SplitCall
  | .activate => .inr (.activate args.nodeId
      { operationKey := some s!"worker-activate-{args.nodeId}"
        activationToken := args.activationToken
        processId := some args.processId })
  | .heartbeat => .inr (.heartbeat args.nodeId token)
  | .checkpoint => .inr (.checkpoint args.nodeId token)
  | .execute => .inl (.execute args.nodeId token
      { idempotencyKey := args.idempotencyKey, toolName := args.tool, arguments := [] })
  | .complete => .inl (.complete args.nodeId token)

/-- The status of a response to a call that raised. -/
def Failure.status : Failure → ℕ
  | .error e => e.statusCode
  | .integrityError _ | .validationError _ | .valueError _ => 500

def Failure.answer (e : Failure) : Answer := { status := e.status }

/-- The status of the route of a request that is one step. -/
def WorkerRequest.successStatus : WorkerRequest → ℕ
  | .complete | .heartbeat => 204
  | .activate | .checkpoint | .execute => 200

/-- What the read half of an operation fixes of the answer. -/
def SplitCall.decided (db : Database) (env : Env) : SplitCall → Option Bool
  | .checkpoint nodeId token =>
    (checkpointRead cfg db nodeId token env).toOption.map fun read => read.2.allowed
  | _ => none

/-- The answer of an operation that takes two steps, when the second succeeds. -/
def InFlight.answer (db : Database) (env : Env) (allowed : Option Bool) :
    InFlight → Except Failure Answer
  | .activate nodeId request now =>
    (fun c => { status := 200, nodeToken := some c.value.nodeToken }) <$>
      TraceFence.activate cfg db nodeId request env now
  | .heartbeat nodeId token now =>
    (fun c => { status := if c.value.isSome then 409 else 204 }) <$>
      TraceFence.heartbeat cfg db nodeId token env now
  | f => (fun _ => { status := 200, allowed := allowed }) <$> f.commit cfg db env

/-- A request on its way: posted, begun by the services, answered. -/
inductive Exchange
  | idle
  | posted (request : WorkerRequest)
  | begun (request : WorkerRequest) (call : InFlight) (allowed : Option Bool)
  | answered (request : WorkerRequest) (answer : Answer)

/-- The answer to a call that has returned or raised. -/
def answerOf (result : Except Failure Answer) : Answer :=
  match result with
  | .ok answer => answer
  | .error e => e.answer

/-- The services take the next step on a request: what they do, and how the exchange stands then.
A call that was begun is the one in flight at `index`. -/
def Exchange.serve (s : Sys) (token : Token) (index : ℕ) (env : Env) : Exchange → Sys × Exchange
  | .posted request =>
    match request.operation args token with
    | .inl call =>
      (s.next cfg (.call call env), .answered request (answerOf
        ((fun _ => { status := request.successStatus }) <$> call.run cfg s.db env)))
    | .inr call =>
      match call.start cfg s.db env with
      | .ok f => (s.next cfg (.begin call env), .begun request f (call.decided cfg s.db env))
      | .error e => (s.next cfg (.begin call env), .answered request e.answer)
  | .begun request f allowed =>
    (s.next cfg (.finish index env), .answered request (answerOf (f.answer cfg s.db env allowed)))
  | exchange => (s, exchange)

/-! ### The deployment -/

/-- The services, a worker, and the requests of its two tasks. -/
structure Deployment where
  sys : Sys
  worker : Worker
  main : Exchange
  heartbeat : Exchange

namespace Deployment

/-- What happens next in a deployment. -/
inductive Label
  /-- The services serve anybody else. -/
  | step (l : TraceFence.Label)
  | start
  /-- The services serve the request of the main task, or the heartbeat. -/
  | serveMain (index : ℕ) (env : Env)
  | serveHeartbeat (index : ℕ) (env : Env)
  /-- The answer arrives. -/
  | answerMain
  | answerHeartbeat
  /-- The request fails in transport, wherever it is. -/
  | failMain
  | failHeartbeat
  | release (line : String)
  /-- The delay is over. -/
  | elapse
  /-- The heartbeat loop wakes up. -/
  | beat
  /-- The main task notices that the lease is lost. -/
  | notice
  /-- `SIGTERM`. -/
  | terminate
  | exit

variable (d : Deployment)

/-- The main task has moved, and its request with it. -/
def move (next : Worker × Option WorkerRequest) : Deployment :=
  { d with
    worker := next.1
    main := (next.2.map Exchange.posted).getD .idle
    heartbeat := if next.1.heartbeatLoop = .stopped then .idle else d.heartbeat }

/-- What a label does. -/
def next : Label → Deployment
  | .step l => { d with sys := d.sys.next cfg l }
  | .start => if d.worker.stage = .ready then d.move (d.worker.start cfg args) else d
  | .serveMain index env =>
    let served := d.main.serve cfg args d.sys d.worker.nodeToken index env
    { d with sys := served.1, main := served.2 }
  | .serveHeartbeat index env =>
    let served := d.heartbeat.serve cfg args d.sys d.worker.nodeToken index env
    { d with sys := served.1, heartbeat := served.2 }
  | .answerMain =>
    match d.main with
    | .answered _ answer => d.move (d.worker.read args answer)
    | _ => d
  | .answerHeartbeat =>
    match d.heartbeat with
    | .answered _ answer => { d with worker := d.worker.readHeartbeat answer, heartbeat := .idle }
    | _ => d
  | .failMain =>
    match d.main with
    | .idle => d
    | _ => d.move (d.worker.finish .internalOrTransportFailure)
  | .failHeartbeat =>
    match d.heartbeat with
    | .idle => d
    | _ => { d with worker := d.worker.failHeartbeat args, heartbeat := .idle }
  | .release line =>
    if d.worker.stage = .waiting ∧ args.waitForRelease = true then
      d.move (d.worker.readRelease args line)
    else d
  | .elapse =>
    if d.worker.stage = .waiting ∧ args.waitForRelease = false then
      d.move (d.worker.released args)
    else d
  | .beat =>
    if d.worker.heartbeatLoop = .asleep then
      { d with worker := { d.worker with heartbeatLoop := .posting }, heartbeat := .posted .heartbeat }
    else d
  | .notice =>
    if d.worker.leaseLost = true ∧ d.worker.stage.noticesLeaseLoss = true then
      d.move (d.worker.finish .leaseLost)
    else d
  | .terminate =>
    match d.worker.stage with
    | .exited _ => d
    | _ => d.move ({ d.worker with
        stage := .exited .terminated, leaseLost := true, heartbeatLoop := .stopped }, none)
  | .exit =>
    match d.worker.stage with
    | .returned code => d.move ({ d.worker with stage := .exited code }, none)
    | _ => d

/-- The exchange has the call that the services finish. -/
def Finishes (s : Sys) (index : ℕ) (exchange : Exchange) : Prop :=
  ∀ request f allowed, exchange = .begun request f allowed → s.inflight[index]? = some f

/-- When a label can come next: the services finish the call they have begun for a request. -/
def Possible (d : Deployment) : Label → Prop
  | .serveMain index _ => Finishes d.sys index d.main
  | .serveHeartbeat index _ => Finishes d.sys index d.heartbeat
  | _ => True

end Deployment

/-- A worker before its first step. -/
def Worker.init : Worker := ⟨.ready, 0, .stopped, 0, false⟩

/-- **The services and a worker.** -/
def deployment : System Deployment Deployment.Label where
  init := ⟨Sys.init, Worker.init, .idle, .idle⟩
  next := Deployment.next cfg args
  enabled := Deployment.Possible

/-! ### A sample worker -/

/-- The worker of the sample run. -/
def sampleWorker : WorkerArgs where
  nodeId := 20
  mode := .cooperative
  activationToken := 20
  processId := 7

/-- It acts without asking, to read metrics. -/
def sampleStubborn : WorkerArgs :=
  { sampleWorker with mode := .nonCompliantAction, tool := "read_metrics" }

/-- A move: a request is served at once, in one step or two, and everything else is as it is. -/
def sampleMove (d : Deployment) : Deployment.Label → Deployment
  | .serveMain _ env =>
    (d.next sampleConfig args (.serveMain 0 env)).next sampleConfig args (.serveMain 0 env)
  | l => d.next sampleConfig args l

/-- Whether a request is served while nothing is in flight. -/
def sampleMovable (d : Deployment) : Deployment.Label → Bool
  | .serveMain _ _ =>
    (match d.main with
      | .posted _ => true
      | _ => false) && d.sys.inflight.isEmpty
  | .serveHeartbeat _ _ => false
  | _ => true

def sampleMoves : Deployment → List Deployment.Label → Bool
  | _, [] => true
  | d, l :: ls => sampleMovable d l && sampleMoves (sampleMove args d l) ls

/-- What the services begin while nothing is in flight, they can finish. -/
theorem finishes_posted {s : Sys} {token : Token} {request : WorkerRequest} {env : Env}
    (h : s.inflight = []) :
    Deployment.Finishes (Exchange.serve cfg args s token 0 env (.posted request)).1 0
      (Exchange.serve cfg args s token 0 env (.posted request)).2 := by
  intro request' f allowed hbegun
  rw [Exchange.serve] at hbegun ⊢
  generalize request.operation args token = operation at hbegun ⊢
  cases operation with
  | inl call => cases hbegun
  | inr call =>
    dsimp only at hbegun ⊢
    rw [Sys.next]
    revert hbegun
    generalize call.start cfg s.db env = started
    cases started with
    | error e =>
      intro hbegun
      cases hbegun
    | ok f' =>
      intro hbegun
      obtain ⟨_, rfl, _⟩ := Exchange.begun.inj hbegun
      show (s.inflight ++ [f'])[0]? = some f'
      rw [h]
      rfl

/-- Moves are steps. -/
theorem sample_moves {ls : List Deployment.Label} {d : Deployment}
    (h : sampleMoves args d ls = true) :
    (deployment sampleConfig args).Run d (ls.foldl (sampleMove args) d) := by
  induction ls generalizing d with
  | nil => exact .refl
  | cons l ls ih =>
    rw [sampleMoves, Bool.and_eq_true] at h
    refine System.Run.trans ?_ (ih h.2)
    have hstep (hpossible : d.Possible l) : (deployment sampleConfig args).Run d
        (d.next sampleConfig args l) := .single ⟨l, hpossible, rfl⟩
    cases l with
    | serveMain index env =>
      have hmovable := h.1
      rw [sampleMovable, Bool.and_eq_true, List.isEmpty_iff] at hmovable
      obtain ⟨hposted, hidle⟩ := hmovable
      obtain ⟨s, w, main, heartbeat⟩ := d
      cases main with
      | posted request =>
        refine System.Run.trans (.single ⟨.serveMain 0 env, ?_, rfl⟩)
          (.single ⟨.serveMain 0 env, finishes_posted _ _ hidle, rfl⟩)
        intro _ _ _ hbegun
        cases hbegun
      | idle | begun | answered => cases hposted
    | serveHeartbeat index env => cases h.1
    | step | start | answerMain | answerHeartbeat | failMain | failHeartbeat | release | elapse | beat
    | notice | terminate | exit => exact hstep trivial

/-- The deployment some moves lead to. -/
def sampleDeployment (ls : List Deployment.Label) : Deployment :=
  ls.foldl (sampleMove args) (deployment sampleConfig args).init

/-- The worker has been activated. -/
def sampleStarted : List Deployment.Label :=
  (sampleStart.take 3).map .step ++ [.start, .serveMain 0 (sampleEnv 2 30), .answerMain]

/-- Then an operator cancels it. -/
def sampleCut : List Deployment.Label := sampleStarted ++ (sampleCancelled.drop 5).map .step

def sampleCutOff : Deployment := sampleDeployment sampleWorker sampleCut

/-- The worker passes its checkpoint and completes. -/
def sampleFinish : List Deployment.Label :=
  [.elapse, .serveMain 0 (sampleEnv 4 60), .answerMain, .serveMain 0 (sampleEnv 5 70), .answerMain,
    .exit]

/-- The stubborn worker passes the checkpoint before it waits, and acts when it is released. -/
def sampleAct : List Deployment.Label :=
  [.serveMain 0 (sampleEnv 3 50), .answerMain, .elapse, .serveMain 0 (sampleEnv 4 60), .answerMain,
    .exit]

end TraceFence
