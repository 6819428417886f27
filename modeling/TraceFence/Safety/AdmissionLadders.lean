import TraceFence.Effect.Operations
import TraceFence.Registry.Refinement
import TraceFence.System

/-!
# The admission ladders agree

The run status, the node status, the lease and the scopes of a caller are checked in three places:
by the gateway before it looks at capabilities, by `validate_node_runtime_state` for whoever spawns
or issues a command, and by the heartbeat. The checks are written out anew in each of them. Here
one ladder is read off the gateway, and the other two are shown to climb it rung by rung, so that
they refuse the same callers for the same reason also where several checks fail at once.

## Main definitions

* `standingDenial` — the rungs of the gateway up to its capability and recovery checks
* `contractAdmission` — the rungs after them
* `RuntimeState.denial` — the reason `validate_node_runtime_state` gives
* `LaddersAgree`

## Main results

* `admission_ladders_agree`
-/

namespace TraceFence

open System Checked

variable {cfg : Config} {db : Database} {s : Sys}

/-! ### The ladder of the gateway, cut in two -/

/-- The rungs of `admission` that ask whether the node may act at all. -/
def standingDenial (db : Database) (run : Run) (node : Node) (now : Time) : Option ReasonCode :=
  if run.status ≠ .running then some .runNotActive
  else if !node.status.isLive then some .nodeNotActive
  else if node.leaseExpired now then some .leaseExpired
  else if !(evaluateScopes db node).allowed then
    some ((evaluateScopes db node).primaryReason.getD .scopeInvalid)
  else none

/-- The rungs of `admission` that ask what the node may do. -/
def contractAdmission (cfg : Config) (db : Database) (node : Node) (request : ActionExecute)
    (spec : ToolSpec) : Except Failure (Option ReasonCode) :=
  match recoveryContractDenial cfg db node request spec with
  | some reason => return some reason
  | none =>
    if spec.capability ∉ node.capabilities then return some .toolNotAllowed
    else do
      spec.validateArguments request.arguments
      return none

theorem admission_of_denied {run : Run} {node : Node} {now : Time} {reason : ReasonCode}
    (h : standingDenial db run node now = some reason) (request : ActionExecute) (spec : ToolSpec) :
    admission cfg db run node request spec now = .ok (some reason) := by
  rw [standingDenial] at h
  simp only [admission]
  split_ifs at h ⊢ <;> exact congrArg Except.ok h

theorem admission_of_clear {run : Run} {node : Node} {now : Time}
    (h : standingDenial db run node now = none) (request : ActionExecute) (spec : ToolSpec) :
    admission cfg db run node request spec now = contractAdmission cfg db node request spec := by
  rw [standingDenial] at h
  simp only [admission, contractAdmission]
  split_ifs at h with hstopped hstatus hlease hscopes
  rw [if_neg hstopped, if_neg hstatus, if_neg hlease]
  exact if_neg hscopes

/-! ### The other two -/

/-- The reason a call to `validate_node_runtime_state` refuses with. -/
def RuntimeState.denial (state : RuntimeState) : Option ReasonCode :=
  if state.allowed then none else some (state.reason.getD .scopeInvalid)

theorem RuntimeState.denial_eq_none {state : RuntimeState} : state.denial = none ↔ state.allowed = true := by
  rw [RuntimeState.denial]
  split_ifs with h <;> simp [h]

theorem exists_validate {run : Run} {node : Node} (hrun : db.runs.get? node.runId = some run)
    (now : Time) : ∃ state, validateNodeRuntimeState db node now = .ok state ∧
      state.denial = standingDenial db run node now := by
  rw [validateNodeRuntimeState, getRun_eq_ok.mpr hrun, standingDenial, ok_bind]
  dsimp only
  split_ifs
  all_goals exact ⟨_, rfl, by simp [RuntimeState.denial]⟩

theorem heartbeat_value {run : Run} {node : Node} {nodeId : Id} {token : Token}
    (hnode : authenticateNode cfg db nodeId token = .ok node)
    (hrun : db.runs.get? node.runId = some run) (env : Env) (now : Time) :
    (fun c => c.value) <$> heartbeat cfg db nodeId token env now =
      (fun _ => standingDenial db run node now) <$> env.checkRate "heartbeat" := by
  rw [heartbeat, hnode, standingDenial, ok_bind, Env.checkRate]
  by_cases hrate : env.rateLimited = true
  · rw [if_pos hrate, error_bind]
    rfl
  · rw [if_neg hrate, ok_bind, getRun_eq_ok.mpr hrun, ok_bind]
    dsimp only
    split_ifs <;> rfl

/-! ### Agreement -/

/-- What the three ladders have in common about a caller at one reading of the clock. -/
structure LaddersAgree (cfg : Config) (db : Database) (nodeId : Id) (token : Token) (run : Run)
    (node : Node) (now : Time) : Prop where
  /-- The gateway denies for the reason, whatever is asked of it. -/
  gateway_denies : ∀ reason, standingDenial db run node now = some reason →
    ∀ request spec, admission cfg db run node request spec now = .ok (some reason)
  /-- Without one, it goes on to the capability and recovery checks. -/
  gateway_admits : standingDenial db run node now = none →
    ∀ request spec, admission cfg db run node request spec now =
      contractAdmission cfg db node request spec
  /-- `validate_node_runtime_state` gives the same reason. -/
  runtime : ∃ state, validateNodeRuntimeState db node now = .ok state ∧
    state.denial = standingDenial db run node now
  /-- A spawn gets past it exactly without a reason. -/
  spawn : ∀ prose fallback, requireLive db node now prose fallback = .ok () ↔
    standingDenial db run node now = none
  /-- So does a command. -/
  command : ∀ fingerprint, requireIssuerLive db ⟨some node, fingerprint⟩ now = .ok () ↔
    standingDenial db run node now = none
  /-- So does the choice of a replacement's parent. -/
  replacement : isLive db node now = .ok (standingDenial db run node now).isNone
  /-- A heartbeat that the rate limiter lets through gives the same reason. -/
  heartbeat : ∀ env, (fun c => c.value) <$> heartbeat cfg db nodeId token env now =
    (fun _ => standingDenial db run node now) <$> env.checkRate "heartbeat"

theorem laddersAgree {run : Run} {node : Node} {nodeId : Id} {token : Token}
    (hnode : authenticateNode cfg db nodeId token = .ok node)
    (hrun : db.runs.get? node.runId = some run) (now : Time) :
    LaddersAgree cfg db nodeId token run node now := by
  obtain ⟨state, hstate, hdenial⟩ := exists_validate hrun now
  have hallowed : state.allowed = true ↔ standingDenial db run node now = none := by
    rw [← hdenial, RuntimeState.denial_eq_none]
  refine ⟨fun _ h => admission_of_denied h, admission_of_clear, ⟨state, hstate, hdenial⟩, ?_, ?_,
    ?_, fun env => heartbeat_value hnode hrun env now⟩
  · intro prose fallback
    simp only [requireLive, hstate]
    exact ensure_eq_ok.trans hallowed
  · intro fingerprint
    simp only [requireIssuerLive, hstate]
    exact ensure_eq_ok.trans hallowed
  · simp only [isLive, hstate]
    refine congrArg Except.ok (Bool.eq_iff_iff.mpr ?_)
    rw [hallowed, Option.isNone_iff_eq_none]

/-- The run of a node that can authenticate is there. -/
theorem exists_run_of_authenticate (h : (services cfg).Reachable s) {nodeId : Id} {token : Token}
    {node : Node} (hnode : authenticateNode cfg s.db nodeId token = .ok node) :
    ∃ run, s.db.runs.get? node.runId = some run := by
  obtain ⟨hfound, -⟩ := authenticateNode_eq_ok.mp hnode
  obtain ⟨_, hf⟩ := (registry_wellFormed h).exists_run (registry_node_of_get? hfound)
  obtain ⟨run, hrun, -⟩ := Option.map_eq_some_iff.mp hf
  exact ⟨run, hrun⟩

/-- **The admission ladders agree**: in every reachable state, for every caller that authenticates
and every reading of the clock, one reason, or none, is given by all three. -/
theorem admission_ladders_agree (h : (services cfg).Reachable s) {nodeId : Id} {token : Token}
    {node : Node} (hnode : authenticateNode cfg s.db nodeId token = .ok node) (now : Time) :
    ∃ run, getRun s.db node.runId = .ok run ∧
      LaddersAgree cfg s.db nodeId token run node now := by
  obtain ⟨run, hrun⟩ := exists_run_of_authenticate h hnode
  exact ⟨run, getRun_eq_ok.mpr hrun, laddersAgree hnode hrun now⟩

/-- At the instant its lease runs out, the sample worker is refused by all three for that. -/
theorem admission_ladders_agree_sample :
    ∃ node run, authenticateNode sampleConfig (sample sampleStart).db 20 30 = .ok node ∧
      LaddersAgree sampleConfig (sample sampleStart).db 20 30 run node (seconds 9) ∧
      standingDenial (sample sampleStart).db run node (seconds 9) = some .leaseExpired := by
  obtain ⟨node, hnode⟩ : ∃ node,
      authenticateNode sampleConfig (sample sampleStart).db 20 30 = .ok node := ⟨_, rfl⟩
  obtain ⟨run, hrun, hagree⟩ :=
    admission_ladders_agree (sample_reachable sampleStart) hnode (seconds 9)
  refine ⟨node, run, hnode, hagree, ?_⟩
  obtain rfl := Except.ok.inj hnode
  obtain rfl := Except.ok.inj hrun
  decide

end TraceFence
