import TraceFence.Lib.Transition
import TraceFence.Services.ActionGateway
import TraceFence.Services.LeaseService
import TraceFence.Services.ProposalService
import TraceFence.Services.StateService

/-!
# The services as one system

Any number of callers share the database. An operation that issues `BEGIN IMMEDIATE` and reads
the clock only inside its transaction is one step. An operation that does something before it
holds the write lock takes two: `begin`, which reads the clock or, for `checkpoint` and
`seed_scenario`, the database, and `finish`, which commits. Other steps may come in between, and
an operation that was begun need not finish.

A call that raises changes nothing: its transaction is rolled back.

## Main definitions

* `Sys` — the database, the calls in flight, and what is known about clock readings
* `Call`, `SplitCall`, `Label`
* `services` — the transition system
* `ClockOk`, `monotone` — the same system under a clock that never goes back
* `Atomic`, `atomic` — one operation at a time
-/

namespace TraceFence

/-! ### State -/

/-- A call between its two steps, with what its first step has read. -/
inductive InFlight
  | createRun (request : RunCreate) (now : Time)
  | activate (nodeId : Id) (request : NodeActivate) (now : Time)
  | heartbeat (nodeId : Id) (nodeToken : Token) (now : Time)
  | checkpoint (write : CheckpointWrite)
  | expireStaleNodes (runId : Option Id) (now : Time)
  | seedScenario (runId : Id) (now : Time)

/-- The state the callers share. The last two fields only observe: nothing the services do
depends on them. -/
structure Sys where
  db : Database
  inflight : List InFlight
  /-- The latest clock value any call has read so far. -/
  now : Time
  /-- The nodes that a committed step has found live while it read the clock at or after the
  expiry of their leases. -/
  lapsed : List Id

/-- Before the first call. -/
def Sys.init : Sys := ⟨.empty, [], 0, []⟩

/-! ### Labels -/

/-- The operations that are one step. -/
inductive Call
  | createSpawn (parentNodeId : Id) (parentToken : Token) (request : SpawnCreate)
  | createReplacement (parentNodeId : Id) (parentToken : Token) (correctionCommandId : Id)
      (request : SpawnCreate)
  | complete (nodeId : Id) (nodeToken : Token)
  | issueCommand (request : CommandCreate) (principal : Principal) (nodeToken : Option Token)
  | execute (nodeId : Id) (nodeToken : Token) (request : ActionExecute)
  | createProposal (reporterNodeId : Id) (reporterToken : Token) (request : ProposalCreate)
  | reviewProposal (proposalId : Id) (request : ProposalReview) (reviewerPrincipal : String)

/-- The operations that take two. -/
inductive SplitCall
  | createRun (request : RunCreate)
  | activate (nodeId : Id) (request : NodeActivate)
  | heartbeat (nodeId : Id) (nodeToken : Token)
  | checkpoint (nodeId : Id) (nodeToken : Token)
  | expireStaleNodes (runId : Option Id)
  | seedScenario (runId : Id)

/-- What happens next, and the surroundings it happens in. -/
inductive Label
  | call (call : Call) (env : Env)
  | begin (call : SplitCall) (env : Env)
  | finish (index : ℕ) (env : Env)

/-- The surroundings of a step. -/
def Label.env : Label → Env
  | .call _ env | .begin _ env | .finish _ env => env

/-! ### Steps -/

/-- A commit whose response is dropped. -/
def Commit.drop {α : Type} (c : Commit α) : Commit Unit := ⟨c.db, c.read, ()⟩

@[simp] theorem Commit.db_drop {α : Type} (c : Commit α) : c.drop.db = c.db := rfl

@[simp] theorem Commit.read_drop {α : Type} (c : Commit α) : c.drop.read = c.read := rfl

variable (cfg : Config)

/-- The transaction of an operation that is one step. -/
def Call.run (db : Database) (env : Env) : Call → Except Failure (Commit Unit)
  | .createSpawn parentId token request =>
    Commit.drop <$> TraceFence.createSpawn cfg db parentId token request env
  | .createReplacement parentId token commandId request => Commit.drop <$>
    TraceFence.createReplacement cfg db parentId token commandId request env
  | .complete nodeId token => TraceFence.complete cfg db nodeId token env
  | .issueCommand request principal token =>
    Commit.drop <$> TraceFence.issueCommand cfg db request principal token env
  | .execute nodeId token request => Commit.drop <$> TraceFence.execute cfg db nodeId token request env
  | .createProposal reporterId token request =>
    Commit.drop <$> TraceFence.createProposal cfg db reporterId token request env
  | .reviewProposal proposalId request reviewer =>
    TraceFence.reviewProposal cfg db proposalId request reviewer env

/-- The first step of an operation that takes two. -/
def SplitCall.start (db : Database) (env : Env) : SplitCall → Except Failure InFlight
  | .createRun request => .ok (.createRun request (env.clock 0))
  | .activate nodeId request => .ok (.activate nodeId request (env.clock 0))
  | .heartbeat nodeId token => .ok (.heartbeat nodeId token (env.clock 0))
  | .checkpoint nodeId token => do
    let read ← checkpointRead cfg db nodeId token env
    return .checkpoint read.1
  | .expireStaleNodes runId => .ok (.expireStaleNodes runId (env.clock 0))
  | .seedScenario runId => do
    seedRead db runId
    return .seedScenario runId (env.clock 0)

/-- The latest clock value a call in flight has read. -/
def InFlight.read : InFlight → Option Time
  | .createRun _ now | .activate _ _ now | .heartbeat _ _ now | .expireStaleNodes _ now
  | .seedScenario _ now => some now
  | .checkpoint (.wait _ now) | .checkpoint (.expire _ now) | .checkpoint (.converge _ _ _ now) =>
    some now
  | .checkpoint (.refuse read) => read

/-- The second step. -/
def InFlight.commit (db : Database) (env : Env) : InFlight → Except Failure (Commit Unit)
  | .createRun request now => Commit.drop <$> TraceFence.createRun cfg db request env now
  | .activate nodeId request now => Commit.drop <$> TraceFence.activate cfg db nodeId request env now
  | .heartbeat nodeId token now => Commit.drop <$> TraceFence.heartbeat cfg db nodeId token env now
  | .checkpoint write => checkpointWrite db write
  | .expireStaleNodes runId now => Commit.drop <$> TraceFence.expireStaleNodes db runId now
  | .seedScenario runId now => seedWrite db runId now

/-- The live nodes whose lease has run out by `now`. -/
def lapsedAt (db : Database) (now : Time) : List Id :=
  (db.nodes.rows.filter fun node => node.status.isLive && node.leaseExpired now).map (·.id)

/-- The latest clock value after a call that may have read one. -/
def Sys.clockAfter (s : Sys) (read : Option Time) : Time := max s.now (read.getD 0)

/-- The state after a commit. -/
def Sys.commit (s : Sys) (c : Commit Unit) : Sys where
  db := c.db
  inflight := s.inflight
  now := s.clockAfter c.read
  lapsed := (c.read.map (lapsedAt s.db)).getD [] ++ s.lapsed

/-- What a label does. -/
def Sys.next (s : Sys) : Label → Sys
  | .call call env =>
    match call.run cfg s.db env with
    | .ok c => s.commit c
    | .error _ => s
  | .begin call env =>
    match call.start cfg s.db env with
    | .ok f => { s with inflight := s.inflight ++ [f], now := s.clockAfter f.read }
    | .error _ => s
  | .finish index env =>
    match s.inflight[index]? with
    | none => s
    | some f =>
      let s := { s with inflight := s.inflight.eraseIdx index }
      match f.commit cfg s.db env with
      | .ok c => s.commit c
      | .error _ => s

/-- **The services**, under any clock. -/
def services : System Sys Label where
  init := Sys.init
  next := Sys.next cfg
  enabled := fun _ _ => True

/-- The clock of a step does not run backwards, and starts no earlier than any reading before. -/
def ClockOk (s : Sys) (l : Label) : Prop := s.now ≤ l.env.clock 0 ∧ Monotone l.env.clock

/-- The services under a non-decreasing clock. -/
def monotone : System Sys Label := (services cfg).restrict ClockOk

/-- No operation starts while another is under way. -/
def Atomic (s : Sys) : Label → Prop
  | .call _ _ | .begin _ _ => s.inflight = []
  | .finish _ _ => True

/-- The services under a non-decreasing clock, one operation at a time. -/
def atomic : System Sys Label := (monotone cfg).restrict Atomic

/-! ### An installation to run them on -/

/-- Small settings, and digests that tell kinds of payload apart: enough to run the services on
requests in which equal digests are digests of equal payloads. -/
def sampleConfig : Config where
  environment := "test"
  leaseTtlSeconds := 7
  spawnIntentTtlSeconds := 7
  credentialRecoveryTtlSeconds := 7
  maxActiveRuns := 10
  maxNodesPerRun := 100
  maxGraphDepth := 8
  maxChildrenPerNode := 10
  maxCommandsPerRun := 100
  maxActionsPerRun := 100
  maxProposalsPerRun := 100
  hashToken := id
  payloadDigest
    | .json _ => 1
    | .manifest _ => 2
    | .command _ => 3
    | .action _ => 4
    | .authorization _ => 5
    | .proposal _ => 6
  recoveryRequestDigest
    | .spawn _ _ => 7
    | .activate _ => 8

/-- Surroundings in which the clock shows one value, in seconds, and what is drawn is counted up
from `fresh`. -/
def sampleEnv (now fresh : ℕ) : Env where
  uuid i := fresh + i
  token i := fresh + i
  clock _ := seconds now

/-- A run whose root is `11`, with token `10`, and whose one worker is `20`, with token `30`. -/
def sampleStart : List Label :=
  [.begin (.createRun { name := "sample" }) (sampleEnv 1 10), .finish 0 (sampleEnv 1 10),
    .call (.createSpawn 11 10 { role := "worker", capabilities := ["tool:read_metrics"] })
      (sampleEnv 1 20),
    .begin (.activate 20 { activationToken := 20 }) (sampleEnv 2 30), .finish 0 (sampleEnv 2 30)]

/-- The same run, after an operator has cancelled the worker. -/
def sampleCancelled : List Label := sampleStart ++
  [.call (.issueCommand
    { idempotencyKey := "stop", commandType := .cancelSubtree, targetNodeId := 20,
      reasonCode := "STOP", reasonText := "stop" } ⟨.human, none, none⟩ none) (sampleEnv 3 40)]

/-- The state some labels lead to. -/
def sample (ls : List Label) : Sys := (services sampleConfig).replay Sys.init ls

theorem services_enabled (ls : List Label) (s : Sys) : (services cfg).Enabled s ls := by
  induction ls generalizing s with
  | nil => exact trivial
  | cons l ls ih => exact ⟨trivial, ih _⟩

theorem services_run (ls ls' : List Label) :
    (services cfg).Run ((services cfg).replay Sys.init ls)
      ((services cfg).replay Sys.init (ls ++ ls')) := by
  rw [System.replay, System.replay, List.foldl_append]
  exact System.run_replay (services_enabled cfg ls' _)

theorem services_step (ls : List Label) (l : Label) :
    (services cfg).Step ((services cfg).replay Sys.init ls) l
      ((services cfg).replay Sys.init (ls ++ [l])) := by
  refine ⟨trivial, ?_⟩
  rw [System.replay, System.replay, List.foldl_append]
  rfl

theorem sample_run (ls ls' : List Label) :
    (services sampleConfig).Run (sample ls) (sample (ls ++ ls')) :=
  services_run sampleConfig ls ls'

theorem sample_step (ls : List Label) (l : Label) :
    (services sampleConfig).Step (sample ls) l (sample (ls ++ [l])) :=
  services_step sampleConfig ls l

theorem sample_reachable (ls : List Label) : (services sampleConfig).Reachable (sample ls) :=
  sample_run [] ls

/-- Whether every label passes a check when its turn comes. -/
def checked (p : Sys → Label → Bool) : Sys → List Label → Bool
  | _, [] => true
  | s, l :: ls => p s l && checked p (s.next sampleConfig l) ls

theorem enabled_of_checked {P : Sys → Label → Prop} {p : Sys → Label → Bool} {ls : List Label}
    {s : Sys} (hp : ∀ s, ∀ l ∈ ls, p s l = true → P s l) (h : checked p s ls = true) :
    ((services sampleConfig).restrict P).Enabled s ls := by
  induction ls generalizing s with
  | nil => exact trivial
  | cons l ls ih =>
    rw [checked, Bool.and_eq_true] at h
    exact ⟨⟨trivial, hp s l (.head _) h.1⟩, ih (fun s l hl => hp s l (.tail _ hl)) h.2⟩

/-- A sample run under a discipline whose labels can be checked. -/
theorem sample_checked {P : Sys → Label → Prop} {p : Sys → Label → Bool} {ls : List Label}
    (hp : ∀ s, ∀ l ∈ ls, p s l = true → P s l) (h : checked p Sys.init ls = true) :
    ((services sampleConfig).restrict P).Reachable (sample ls) :=
  System.reachable_replay (enabled_of_checked hp h)

theorem sample_checked_run {P : Sys → Label → Prop} {p : Sys → Label → Bool} {ls ls' : List Label}
    (hp : ∀ s, ∀ l ∈ ls', p s l = true → P s l) (h : checked p (sample ls) ls' = true) :
    ((services sampleConfig).restrict P).Run (sample ls) (sample (ls ++ ls')) := by
  rw [sample, sample, System.replay, System.replay, List.foldl_append]
  exact System.run_replay (enabled_of_checked hp h)

/-- Whether a label starts no earlier than the latest reading before it. -/
def steady (s : Sys) (l : Label) : Bool := decide (s.now ≤ l.env.clock 0)

theorem clockOk_of_steady {s : Sys} {l : Label} (hconst : ∀ k, l.env.clock k = l.env.clock 0)
    (h : steady s l = true) : ClockOk s l := by
  refine ⟨by simpa [steady] using h, fun i j _ => ?_⟩
  rw [hconst i, hconst j]

theorem sample_monotone {ls : List Label} (hconst : ∀ l ∈ ls, ∀ k, l.env.clock k = l.env.clock 0)
    (hsteady : checked steady Sys.init ls = true) : (monotone sampleConfig).Reachable (sample ls) :=
  sample_checked (fun _ l hl h => clockOk_of_steady (hconst l hl) h) hsteady

/-- Whether a label finds nothing under way that it has to wait for. -/
def unhindered (s : Sys) : Label → Bool
  | .call _ _ | .begin _ _ => s.inflight.isEmpty
  | .finish _ _ => true

/-- Whether a label starts in time, with nothing under way. -/
def orderly (s : Sys) (l : Label) : Bool := steady s l && unhindered s l

theorem atomic_of_orderly {s : Sys} {l : Label} (hconst : ∀ k, l.env.clock k = l.env.clock 0)
    (h : orderly s l = true) : ClockOk s l ∧ Atomic s l := by
  rw [orderly, Bool.and_eq_true] at h
  refine ⟨clockOk_of_steady hconst h.1, ?_⟩
  cases l with
  | call | begin => exact List.isEmpty_iff.mp h.2
  | finish => trivial

theorem sample_atomic {ls : List Label} (hconst : ∀ l ∈ ls, ∀ k, l.env.clock k = l.env.clock 0)
    (h : checked orderly Sys.init ls = true) : (atomic sampleConfig).Reachable (sample ls) := by
  rw [atomic, monotone, System.restrict_restrict]
  exact sample_checked (fun _ l hl h => atomic_of_orderly (hconst l hl) h) h

theorem sample_atomic_run {ls ls' : List Label}
    (hconst : ∀ l ∈ ls', ∀ k, l.env.clock k = l.env.clock 0)
    (h : checked orderly (sample ls) ls' = true) :
    (atomic sampleConfig).Run (sample ls) (sample (ls ++ ls')) := by
  rw [atomic, monotone, System.restrict_restrict]
  exact sample_checked_run (fun _ l hl h => atomic_of_orderly (hconst l hl) h) h

end TraceFence
