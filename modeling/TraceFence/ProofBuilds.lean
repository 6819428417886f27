import TraceFence.Lib.Timeline
import TraceFence.Lib.Transition
import TraceFence.Services.ProofService
import TraceFence.System

/-!
# Concurrent builds of a proof

Any number of calls of `ProofService.build` for one command, next to commits of anything. The calls
share a cache and the future of the build under way, which they touch under a lock; everything else
they do comes in steps of its own, so commits fall between any two reads. A statement reads what
has been committed by then, since a session that has not written holds no snapshot.

The revision is a column that triggers keep: it does not go down, and a commit that leaves it as it
is has changed nothing that a proof about the command depends on. What a pass computes out of
statements that have read at different revisions is left open.

## Main definitions

* `ProofEvidence`, `gatherEvidence`, `ProofEvidence.conclude` — the two halves of a pass
* `ProofWorld`, `revised` — the database and what its revision keeps track of
* `BuildStage`, `BuildCall`, `ProofService` — where a call stands, and what calls share
* `proofs` — the system

## Main results

* `buildUncached_eq` — a pass over one state of the database is `_build_uncached`
* `buildStep_of_step` — what a step can do
-/

namespace TraceFence

open Checked

/-! ### A pass in two halves -/

/-- What a pass has read. -/
structure ProofEvidence where
  command : ControlCommand
  affected : ℕ
  classifications : List Classification
  unclassified : List Id
  staleAttempts : ℕ
  staleCommitted : ℕ
  unrelatedInterrupted : ℕ
  replacement : ReplacementVerdicts
  /-- Of the pass, before those of telemetry are added. -/
  discrepancies : List String
  nearestLeaseExpiry : Option Time

/-- `nearest_lease_expiry`. -/
def nearestLeaseExpiry (db : Database) (runId : Id) (now : Time) : Option Time :=
  (((db.nodes.rows.filter (·.runId = runId)).filterMap (·.leaseExpiresAt)).filter (now < ·)).min?

/-- What a pass has read when it has come to the end of `_replacement_verdicts`. -/
def readEvidence (db : Database) (command : ControlCommand) (clock : ℕ → Time)
    (replacement : ReplacementVerdicts) (discrepancies : List String) : ProofEvidence where
  command := command
  affected := (affectedNodes db command).length
  classifications := (affectedNodes db command).filterMap (classify db command (clock 0))
  unclassified := (unclassified db command (clock 0)).map (·.id)
  staleAttempts := staleAttempts db command
  staleCommitted := (staleCommittedActions db command).length
  unrelatedInterrupted := unrelatedInterrupted db command
  replacement := replacement
  discrepancies := scopeValidDiscrepancies db command (clock 0) ++ discrepancies
  nearestLeaseExpiry := nearestLeaseExpiry db command.runId (clock 0)

/-- The statements of `_build_uncached` after the command has been read. -/
def gatherEvidence (cfg : Config) (db : Database) (command : ControlCommand) (clock : ℕ → Time) :
    Except Failure ProofEvidence := do
  let _ ← getRun db command.runId
  let target ← require (db.nodes.get? command.targetNodeId)
    (notFoundError "Command target node was not found")
  let (replacement, discrepancies) ← replacementVerdicts cfg db command target (clock 1)
  return readEvidence db command clock replacement discrepancies

/-- `control_verdict`. -/
def ProofEvidence.controlVerdict (e : ProofEvidence) : ProofVerdict :=
  if 0 < e.staleCommitted then .inconsistent
  else if !e.unclassified.isEmpty ∨ 0 < e.unrelatedInterrupted then .incomplete
  else .verified

/-- `recovery_verdict`. -/
def ProofEvidence.recoveryVerdict (e : ProofEvidence) : ProofVerdict :=
  combineProofVerdicts [e.replacement.action, e.replacement.postcondition, e.replacement.stability]

/-- `runtime_verdict`. -/
def ProofEvidence.runtimeVerdict (e : ProofEvidence) : ProofVerdict :=
  combineProofVerdicts [e.controlVerdict, e.replacement.lineage, e.recoveryVerdict]

/-- The last discrepancy, which names the nodes without a class. -/
def ProofEvidence.unclassifiedDiscrepancy (e : ProofEvidence) : List String :=
  if e.unclassified.isEmpty then []
  else
    let ids := String.intercalate ", " (e.unclassified.map toString)
    [s!"Unclassified live affected nodes: {ids}"]

/-- The response `_build_uncached` returns once telemetry has been verified. -/
def ProofEvidence.conclude (e : ProofEvidence) (telemetry : TelemetryProof) : ProofResponse where
  commandId := e.command.id
  commandType := e.command.commandType
  affectedRegisteredNodes := e.affected
  classifications := e.classifications
  staleActionAttempts := e.staleAttempts
  staleActionsCommitted := e.staleCommitted
  unrelatedBranchesInterrupted := e.unrelatedInterrupted
  controlConvergenceVerdict := e.controlVerdict
  replacementLineageVerdict := e.replacement.lineage
  recoveryActionVerdict := e.replacement.action
  recoveryPostconditionVerdict := e.replacement.postcondition
  recoveryStabilityVerdict := e.replacement.stability
  recoveryOutcomeVerdict := e.recoveryVerdict
  runtimeVerdict := e.runtimeVerdict
  telemetryVerdict := telemetry.verdict
  overallVerdict := combineProofVerdicts [e.runtimeVerdict, telemetry.verdict]
  traceIds := telemetry.traceIds
  discrepancies := e.discrepancies ++ telemetry.discrepancies ++ e.unclassifiedDiscrepancy

theorem unclassifiedDiscrepancy_readEvidence (db : Database) (command : ControlCommand)
    (clock : ℕ → Time) (replacement : ReplacementVerdicts) (discrepancies : List String) :
    (readEvidence db command clock replacement discrepancies).unclassifiedDiscrepancy =
      unclassifiedDiscrepancy db command (clock 0) := by
  simp [ProofEvidence.unclassifiedDiscrepancy, readEvidence, unclassifiedDiscrepancy,
    Function.comp_def]

theorem controlVerdict_readEvidence (db : Database) (command : ControlCommand) (clock : ℕ → Time)
    (replacement : ReplacementVerdicts) (discrepancies : List String) :
    (readEvidence db command clock replacement discrepancies).controlVerdict =
      controlVerdict db command (clock 0) := by
  simp only [ProofEvidence.controlVerdict, readEvidence, controlVerdict, List.isEmpty_map]

/-- **A pass over one state of the database** is `_build_uncached`. -/
theorem buildUncached_eq (cfg : Config) (db : Database) (commandId : Id) (clock : ℕ → Time)
    (telemetry : TelemetryProof) :
    buildUncached cfg db commandId clock telemetry = (do
      let command ← require (db.commands.get? commandId)
        (notFoundError s!"Command {commandId} was not found")
      let evidence ← gatherEvidence cfg db command clock
      return evidence.conclude telemetry) := by
  rw [buildUncached]
  refine bind_congr fun command => ?_
  simp only [gatherEvidence, bind_assoc, pure_bind]
  refine bind_congr fun _ => bind_congr fun target => bind_congr fun found => ?_
  rw [ProofEvidence.conclude, unclassifiedDiscrepancy_readEvidence]
  simp only [ProofEvidence.recoveryVerdict, ProofEvidence.runtimeVerdict, controlVerdict_readEvidence]
  rfl

/-! ### The world -/

/-- The database, and the revision of the command's run. -/
structure ProofWorld where
  db : Database
  revision : ℕ

/-- `w` and `w'` agree on what a proof about the command depends on. -/
structure SameInputs (cfg : Config) (commandId : Id) (w w' : ProofWorld) : Prop where
  row : w'.db.commands.get? commandId = w.db.commands.get? commandId
  proofs : ∀ clock telemetry, buildUncached cfg w'.db commandId clock telemetry =
    buildUncached cfg w.db commandId clock telemetry

/-- What the triggers guarantee. -/
def revised (cfg : Config) (commandId : Id) : Revised ProofWorld where
  revision := ProofWorld.revision
  same :=
    { r := SameInputs cfg commandId
      iseqv :=
        { refl := fun _ => ⟨rfl, fun _ _ => rfl⟩
          symm := fun h => ⟨h.row.symm, fun clock telemetry => (h.proofs clock telemetry).symm⟩
          trans := fun h h' => ⟨h'.row.trans h.row, fun clock telemetry =>
            (h'.proofs clock telemetry).trans (h.proofs clock telemetry)⟩ } }

/-! ### Calls -/

/-- `_CacheKey`, without the command. -/
structure CacheKey where
  revision : ℕ
  exportWatermark : String
  nearestLeaseExpiry : Option Time
  deriving DecidableEq

structure CacheEntry where
  key : CacheKey
  expiresAt : Time
  response : ProofResponse

/-- What `_build_uncached` returns, and what it has been computed from. -/
structure ProofPass where
  evidence : ProofEvidence
  telemetry : TelemetryProof
  revision : ℕ
  exportWatermark : Option String

def ProofPass.response (pass : ProofPass) : ProofResponse := pass.evidence.conclude pass.telemetry

/-- `unstable`. -/
def ProofPass.unstable (pass : ProofPass) : ProofResponse :=
  { pass.response with
    runtimeVerdict := .stateChangedDuringProof
    overallVerdict := .stateChangedDuringProof
    discrepancies := pass.response.discrepancies ++ ["STATE_CHANGED_DURING_PROOF"] }

/-- Where a call of `build` stands. -/
inductive BuildStage
  /-- `_current_context` has read the run. -/
  | started (runId : Id)
  /-- The key is known. -/
  | ready
  | joined (owner : ℕ)
  | attempt (failed : ℕ)
  | commandRead (failed : ℕ) (command : ControlCommand)
  | runRead (failed : ℕ) (command : ControlCommand) (revision : ℕ)
  | passed (failed : ℕ) (pass : ProofPass)
  | stable (pass : ProofPass)
  | unstable (pass : ProofPass)
  | returned (response : ProofResponse) (moment : ℕ)
  | raised

/-- The call is to complete the future it has put up. -/
def BuildStage.owning : BuildStage → Bool
  | .attempt _ | .commandRead _ _ | .runRead _ _ _ | .passed _ _ | .stable _ | .unstable _ => true
  | _ => false

/-- A call of `build`. Moments are counted in commits. -/
structure BuildCall where
  stage : BuildStage
  /-- The revision of `initial_context`. -/
  revision : ℕ
  /-- `initial_key`. -/
  key : Option CacheKey
  /-- When it read `initial_context`. -/
  start : ℕ

/-- The service and the database it reads. The first and the last field only observe. -/
structure ProofService where
  past : List ProofWorld
  world : ProofWorld
  cache : List CacheEntry
  /-- The call whose future is in `_inflight`. -/
  inflight : Option ℕ
  calls : List BuildCall
  /-- The passes that builds have ended with although the revision had moved. -/
  unsettled : List ProofPass

/-- The responses calls have got. -/
def ProofService.responses (s : ProofService) : List ProofResponse :=
  s.calls.filterMap fun call =>
    match call.stage with
    | .returned response _ => some response
    | _ => none

/-- All states of the database up to the present one. -/
def ProofService.worlds (s : ProofService) : List ProofWorld := s.past ++ [s.world]

/-! ### Labels -/

/-- `_MAX_PROOF_STABILITY_ATTEMPTS`. -/
def maxProofStabilityAttempts : ℕ := 3

/-- `collect` comes with what the pass computes if it has read at different revisions, and with what
telemetry has to say. -/
inductive BuildLabel
  | commit (world : ProofWorld)
  | start
  | context (call : ℕ) (watermark : Option String) (now : Time)
  | enter (call : ℕ) (now : Time)
  | readCommand (call : ℕ)
  | readRun (call : ℕ)
  | collect (call : ℕ) (clock : ℕ → Time) (torn : Except Failure ProofEvidence)
      (telemetry : TelemetryProof) (watermark : Option String)
  | check (call : ℕ)
  | publish (call : ℕ) (now expiresAt : Time)
  | receive (call : ℕ)
  | raise (call : ℕ)

/-! ### Steps -/

namespace ProofService

variable (s : ProofService) (index : ℕ) (call : BuildCall)

/-- A call goes on to another stage. -/
def move (stage : BuildStage) : ProofService :=
  { s with calls := s.calls.set index { call with stage := stage } }

/-- A call raises, and passes the exception on to whoever awaits its future. -/
def fail : ProofService :=
  { s.move index call .raised with inflight := if call.stage.owning then none else s.inflight }

/-- A call returns. -/
def answer (response : ProofResponse) : ProofService :=
  s.move index call (.returned response s.past.length)

/-- `_current_context` up to the run. -/
def start (commandId : Id) : ProofService :=
  let found := (s.world.db.commands.get? commandId).filter fun command =>
    (s.world.db.runs.get? command.runId).isSome
  let stage := found.elim .raised fun command => .started command.runId
  { s with calls := s.calls ++ [⟨stage, s.world.revision, none, s.past.length⟩] }

/-- The rest of `_current_context`, and the key. -/
def context (watermark : Option String) (now : Time) : ProofService :=
  match call.stage with
  | .started runId =>
    let key := watermark.map fun watermark =>
      ⟨call.revision, watermark, nearestLeaseExpiry s.world.db runId now⟩
    { s with calls := s.calls.set index { call with stage := .ready, key := key } }
  | _ => s

/-- The cache after a call has pruned it, which leaves nothing but its own entry. -/
def kept (now : Time) : List CacheEntry :=
  s.cache.filter fun entry => decide (now < entry.expiresAt) && decide (some entry.key = call.key)

/-- The section of `build` under the lock. -/
def enter (now : Time) : ProofService :=
  match call.stage with
  | .ready =>
    let pruned := { s with cache := s.kept call now }
    match s.kept call now with
    | entry :: _ => pruned.answer index call entry.response
    | [] =>
      match s.inflight with
      | some owner => pruned.move index call (.joined owner)
      | none => { pruned.move index call (.attempt 0) with inflight := some index }
  | _ => s

def readCommand (commandId : Id) : ProofService :=
  match call.stage with
  | .attempt failed =>
    (s.world.db.commands.get? commandId).elim (s.fail index call) fun command =>
      s.move index call (.commandRead failed command)
  | _ => s

def readRun : ProofService :=
  match call.stage with
  | .commandRead failed command => s.move index call (.runRead failed command s.world.revision)
  | _ => s

/-- The other statements of a pass, and its telemetry. -/
def collect (cfg : Config) (clock : ℕ → Time) (torn : Except Failure ProofEvidence)
    (telemetry : TelemetryProof) (watermark : Option String) : ProofService :=
  match call.stage with
  | .runRead failed command revision =>
    -- At the revision it started with, the database still is what every statement has read.
    let gathered := if s.world.revision = revision then gatherEvidence cfg s.world.db command clock
      else torn
    match gathered with
    | .error _ => s.fail index call
    | .ok evidence => s.move index call (.passed failed ⟨evidence, telemetry, revision, watermark⟩)
  | _ => s

/-- The revision check of an attempt. -/
def check : ProofService :=
  match call.stage with
  | .passed failed pass =>
    if s.world.revision = pass.revision then s.move index call (.stable pass)
    else if failed + 1 < maxProofStabilityAttempts then s.move index call (.attempt (failed + 1))
    else s.move index call (.unstable pass)
  | _ => s

/-- The cache after a stable pass. -/
def store (pass : ProofPass) (now expiresAt : Time) : List CacheEntry :=
  match pass.exportWatermark with
  | none => s.cache
  | some watermark =>
    let key := ⟨pass.revision, watermark, pass.evidence.nearestLeaseExpiry⟩
    if now < expiresAt then
      s.cache.filter (fun entry => decide (entry.key ≠ key)) ++ [⟨key, expiresAt, pass.response⟩]
    else s.cache

/-- The sections of `build` under the lock that complete the future. -/
def publish (now expiresAt : Time) : ProofService :=
  match call.stage with
  | .stable pass =>
    { s.answer index call pass.response with
      cache := s.store pass now expiresAt
      inflight := none }
  | .unstable pass =>
    { s.answer index call pass.unstable with
      inflight := none
      unsettled := s.unsettled ++ [pass] }
  | _ => s

/-- A call that awaits a future gets what has been made of it. -/
def receive : ProofService :=
  match call.stage with
  | .joined owner =>
    match (s.calls[owner]?).map (·.stage) with
    | some (BuildStage.returned response _) => s.answer index call response
    | some BuildStage.raised => s.fail index call
    | _ => s
  | _ => s

def raise : ProofService :=
  match call.stage with
  | .returned _ _ | .raised => s
  | _ => s.fail index call

/-- What a label does. -/
def next (cfg : Config) (commandId : Id) (s : ProofService) : BuildLabel → ProofService
  | .commit world => { s with past := s.past ++ [s.world], world := world }
  | .start => s.start commandId
  | .context index watermark now => (s.calls[index]?).elim s fun call =>
    s.context index call watermark now
  | .enter index now => (s.calls[index]?).elim s fun call => s.enter index call now
  | .readCommand index => (s.calls[index]?).elim s fun call => s.readCommand index call commandId
  | .readRun index => (s.calls[index]?).elim s fun call => s.readRun index call
  | .collect index clock torn telemetry watermark => (s.calls[index]?).elim s fun call =>
    s.collect index call cfg clock torn telemetry watermark
  | .check index => (s.calls[index]?).elim s fun call => s.check index call
  | .publish index now expiresAt => (s.calls[index]?).elim s fun call =>
    s.publish index call now expiresAt
  | .receive index => (s.calls[index]?).elim s fun call => s.receive index call
  | .raise index => (s.calls[index]?).elim s fun call => s.raise index call

end ProofService

/-- The builds of a proof about one command, from a state of the database on. -/
def proofs (cfg : Config) (commandId : Id) (world : ProofWorld) : System ProofService BuildLabel where
  init := ⟨[], world, [], none, [], []⟩
  next := ProofService.next cfg commandId
  enabled s
    | .commit world' => (revised cfg commandId).Follows s.world world'
    | _ => True

/-! ### What a step can do -/

/-- **The steps of the builds.** -/
inductive BuildStep (cfg : Config) (commandId : Id) (s : ProofService) :
    BuildLabel → ProofService → Prop
  | idle {l : BuildLabel} : BuildStep cfg commandId s l s
  | commit {world : ProofWorld} (follows : (revised cfg commandId).Follows s.world world) :
      BuildStep cfg commandId s (.commit world)
        { s with past := s.past ++ [s.world], world := world }
  | start {stage : BuildStage} (first : stage = .raised ∨ ∃ runId, stage = .started runId) :
      BuildStep cfg commandId s .start
        { s with calls := s.calls ++ [⟨stage, s.world.revision, none, s.past.length⟩] }
  | context {index : ℕ} {call : BuildCall} {runId : Id} {watermark : Option String} {now : Time}
      {key : Option CacheKey} (called : s.calls[index]? = some call)
      (stage : call.stage = .started runId) (keyed : ∀ k ∈ key, k.revision = call.revision) :
      BuildStep cfg commandId s (.context index watermark now)
        { s with calls := s.calls.set index { call with stage := .ready, key := key } }
  | hit {index : ℕ} {call : BuildCall} {now : Time} {entry : CacheEntry} {rest : List CacheEntry}
      (called : s.calls[index]? = some call) (stage : call.stage = .ready)
      (found : s.kept call now = entry :: rest) :
      BuildStep cfg commandId s (.enter index now)
        { s.answer index call entry.response with cache := entry :: rest }
  | join {index : ℕ} {call : BuildCall} {now : Time} {owner : ℕ}
      (called : s.calls[index]? = some call) (stage : call.stage = .ready)
      (missed : s.kept call now = []) (busy : s.inflight = some owner) :
      BuildStep cfg commandId s (.enter index now)
        { s.move index call (.joined owner) with cache := [] }
  | own {index : ℕ} {call : BuildCall} {now : Time}
      (called : s.calls[index]? = some call) (stage : call.stage = .ready)
      (missed : s.kept call now = []) (free : s.inflight = none) :
      BuildStep cfg commandId s (.enter index now)
        { s.move index call (.attempt 0) with cache := [], inflight := some index }
  | readCommand {index : ℕ} {call : BuildCall} {failed : ℕ} {command : ControlCommand}
      (called : s.calls[index]? = some call) (stage : call.stage = .attempt failed)
      (found : s.world.db.commands.get? commandId = some command) :
      BuildStep cfg commandId s (.readCommand index) (s.move index call (.commandRead failed command))
  | readRun {index : ℕ} {call : BuildCall} {failed : ℕ} {command : ControlCommand}
      (called : s.calls[index]? = some call) (stage : call.stage = .commandRead failed command) :
      BuildStep cfg commandId s (.readRun index)
        (s.move index call (.runRead failed command s.world.revision))
  | collect {index : ℕ} {call : BuildCall} {failed revision : ℕ} {command : ControlCommand}
      {clock : ℕ → Time} {torn : Except Failure ProofEvidence} {telemetry : TelemetryProof}
      {watermark : Option String} {evidence : ProofEvidence}
      (called : s.calls[index]? = some call) (stage : call.stage = .runRead failed command revision)
      (still : s.world.revision = revision →
        gatherEvidence cfg s.world.db command clock = .ok evidence) :
      BuildStep cfg commandId s (.collect index clock torn telemetry watermark)
        (s.move index call (.passed failed ⟨evidence, telemetry, revision, watermark⟩))
  | settle {index : ℕ} {call : BuildCall} {failed : ℕ} {pass : ProofPass}
      (called : s.calls[index]? = some call) (stage : call.stage = .passed failed pass)
      (still : s.world.revision = pass.revision) :
      BuildStep cfg commandId s (.check index) (s.move index call (.stable pass))
  | retry {index : ℕ} {call : BuildCall} {failed : ℕ} {pass : ProofPass}
      (called : s.calls[index]? = some call) (stage : call.stage = .passed failed pass) :
      BuildStep cfg commandId s (.check index) (s.move index call (.attempt (failed + 1)))
  | giveUp {index : ℕ} {call : BuildCall} {failed : ℕ} {pass : ProofPass}
      (called : s.calls[index]? = some call) (stage : call.stage = .passed failed pass) :
      BuildStep cfg commandId s (.check index) (s.move index call (.unstable pass))
  | publishStable {index : ℕ} {call : BuildCall} {pass : ProofPass} {now expiresAt : Time}
      (called : s.calls[index]? = some call) (stage : call.stage = .stable pass) :
      BuildStep cfg commandId s (.publish index now expiresAt)
        { s.answer index call pass.response with
          cache := s.store pass now expiresAt
          inflight := none }
  | publishUnstable {index : ℕ} {call : BuildCall} {pass : ProofPass} {now expiresAt : Time}
      (called : s.calls[index]? = some call) (stage : call.stage = .unstable pass) :
      BuildStep cfg commandId s (.publish index now expiresAt)
        { s.answer index call pass.unstable with
          inflight := none
          unsettled := s.unsettled ++ [pass] }
  | receive {index owner moment : ℕ} {call call' : BuildCall} {response : ProofResponse}
      (called : s.calls[index]? = some call) (stage : call.stage = .joined owner)
      (awaited : s.calls[owner]? = some call') (done : call'.stage = .returned response moment) :
      BuildStep cfg commandId s (.receive index) (s.answer index call response)
  | fail {l : BuildLabel} {index : ℕ} {call : BuildCall} (called : s.calls[index]? = some call)
      (running : ∀ response moment, call.stage ≠ .returned response moment) :
      BuildStep cfg commandId s l (s.fail index call)

variable {cfg : Config} {commandId : Id} {w₀ : ProofWorld} {s s' : ProofService} {l : BuildLabel}

/-- **What a step can do.** -/
theorem buildStep_of_step (h : (proofs cfg commandId w₀).Step s l s') :
    BuildStep cfg commandId s l s' := by
  obtain ⟨henabled, rfl⟩ := h
  have hcall {index : ℕ} {f : BuildCall → ProofService}
      (hf : ∀ call, s.calls[index]? = some call → BuildStep cfg commandId s l (f call)) :
      BuildStep cfg commandId s l ((s.calls[index]?).elim s f) := by
    cases hc : s.calls[index]? with
    | none => exact .idle
    | some call => exact hf call hc
  cases l with
  | commit world => exact .commit henabled
  | start =>
    refine .start ?_
    cases (s.world.db.commands.get? commandId).filter fun command =>
        (s.world.db.runs.get? command.runId).isSome with
    | none => exact Or.inl rfl
    | some command => exact Or.inr ⟨command.runId, rfl⟩
  | context index watermark now =>
    refine hcall fun call hc => ?_
    rw [ProofService.context]
    split
    · next hstage =>
      refine .context hc hstage fun k hk => ?_
      obtain ⟨_, _, rfl⟩ := Option.mem_map.mp hk
      rfl
    · exact .idle
  | enter index now =>
    refine hcall fun call hc => ?_
    rw [ProofService.enter]
    split
    · next hstage =>
      split
      · next hfound =>
        rw [hfound]
        exact .hit hc hstage hfound
      · next hmissed =>
        rw [hmissed]
        split
        · next hbusy => exact .join hc hstage hmissed hbusy
        · next hfree => exact .own hc hstage hmissed hfree
    · exact .idle
  | readCommand index =>
    refine hcall fun call hc => ?_
    rw [ProofService.readCommand]
    split
    · next hstage =>
      cases hfound : s.world.db.commands.get? commandId with
      | none => exact .fail hc (by simp [hstage])
      | some command => exact .readCommand hc hstage hfound
    · exact .idle
  | readRun index =>
    refine hcall fun call hc => ?_
    rw [ProofService.readRun]
    split
    · next hstage => exact .readRun hc hstage
    · exact .idle
  | collect index clock torn telemetry watermark =>
    refine hcall fun call hc => ?_
    rw [ProofService.collect]
    split
    · next failed command revision hstage =>
      cases hgathered : (if s.world.revision = revision then
          gatherEvidence cfg s.world.db command clock else torn) with
      | error e => exact .fail hc (by simp [hstage])
      | ok evidence =>
        refine .collect hc hstage fun hstill => ?_
        rw [if_pos hstill] at hgathered
        exact hgathered
    · exact .idle
  | check index =>
    refine hcall fun call hc => ?_
    rw [ProofService.check]
    split
    · next hstage =>
      split
      · next hstill => exact .settle hc hstage hstill
      · split
        · exact .retry hc hstage
        · exact .giveUp hc hstage
    · exact .idle
  | publish index now expiresAt =>
    refine hcall fun call hc => ?_
    rw [ProofService.publish]
    split
    · next hstage => exact .publishStable hc hstage
    · next hstage => exact .publishUnstable hc hstage
    · exact .idle
  | receive index =>
    refine hcall fun call hc => ?_
    rw [ProofService.receive]
    split
    · next owner hstage =>
      cases howner : s.calls[owner]? with
      | none => exact .idle
      | some call' =>
        rw [Option.map_some]
        split
        · next hdone => exact .receive hc hstage howner (Option.some.inj hdone)
        · exact .fail hc (by simp [hstage])
        · exact .idle
    · exact .idle
  | raise index =>
    refine hcall fun call hc => ?_
    rw [ProofService.raise]
    split
    · exact .idle
    · exact .idle
    · next hrunning _ => exact .fail hc hrunning

theorem mem_responses {response : ProofResponse} : response ∈ s.responses ↔
    ∃ call ∈ s.calls, ∃ moment, call.stage = .returned response moment := by
  rw [ProofService.responses, List.mem_filterMap]
  refine exists_congr fun call => and_congr_right fun _ => ?_
  split
  · next response' moment hstage =>
    rw [hstage, Option.some.injEq]
    constructor
    · rintro rfl
      exact ⟨moment, rfl⟩
    · rintro ⟨_, h⟩
      cases h
      rfl
  · next hother =>
    refine iff_of_false (by simp) ?_
    rintro ⟨moment, h⟩
    exact hother _ _ h

/-! ### Samples -/

/-- Whether every commit raises the revision. -/
def rising : ℕ → List BuildLabel → Bool
  | _, [] => true
  | revision, .commit world :: ls => decide (revision < world.revision) && rising world.revision ls
  | revision, _ :: ls => rising revision ls

theorem world_of_step (h : BuildStep cfg commandId s l s') (hl : ∀ world, l ≠ .commit world) :
    s'.world = s.world := by
  cases h with
  | commit => exact absurd rfl (hl _)
  | _ => rfl

/-- Runs whose commits raise the revision are runs. -/
theorem enabled_of_rising {ls : List BuildLabel} (h : rising s.world.revision ls = true) :
    (proofs cfg commandId w₀).Enabled s ls := by
  induction ls generalizing s with
  | nil => exact trivial
  | cons l ls ih =>
    by_cases hl : ∃ world, l = .commit world
    · obtain ⟨world, rfl⟩ := hl
      rw [rising, Bool.and_eq_true, decide_eq_true_eq] at h
      exact ⟨⟨h.1.le, fun heq => absurd heq h.1.ne⟩, ih h.2⟩
    · have henabled : (proofs cfg commandId w₀).enabled s l := by
        cases l with
        | commit world => exact absurd ⟨world, rfl⟩ hl
        | _ => exact trivial
      refine ⟨henabled, ih ?_⟩
      rw [world_of_step (buildStep_of_step ⟨henabled, rfl⟩) fun world hw => hl ⟨world, hw⟩]
      cases l with
      | commit world => exact absurd ⟨world, rfl⟩ hl
      | _ => exact h

/-- The database of the sample run, at some revision. -/
def sampleWorld (revision : ℕ) : ProofWorld := ⟨(sample sampleCancelled).db, revision⟩

/-- Where some labels lead the builds about the sample command. -/
def sampleBuilds (ls : List BuildLabel) : ProofService :=
  (proofs sampleConfig 40 (sampleWorld 1)).replay (proofs sampleConfig 40 (sampleWorld 1)).init ls

theorem sampleBuilds_reachable {ls : List BuildLabel} (h : rising 1 ls = true) :
    (proofs sampleConfig 40 (sampleWorld 1)).Reachable (sampleBuilds ls) :=
  System.reachable_replay (enabled_of_rising h)

end TraceFence
