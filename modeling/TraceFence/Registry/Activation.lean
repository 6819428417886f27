import TraceFence.Registry.Control

/-!
# Who has been activated

A node's activation time is written once and never erased, and nothing that is live, holds a
token or is being written by a checkpoint is without one. A checkpoint writes late, to a row that
may have changed since it was read, but the node it writes to had a token when it was read.

## Main definitions

* `Awake` — the invariant of the rows, with `WakesTo` for the checkpoints in flight

## Main results

* `checkpointRead_target` — what the read half of a checkpoint leaves for the write half
* `awake` — the invariant in every reachable state, and `reachable_awake`, a rule that assumes it
-/

namespace TraceFence

open System Checked

variable {cfg : Config} {w : Write} {a b db : Database} {s : Sys}

/-! ### The read half of a checkpoint -/

theorem evaluation_of_validate {node : Node} {now : Time} {state : RuntimeState}
    (h : validateNodeRuntimeState db node now = .ok state) :
    state.evaluation = evaluateScopes db node := by
  simp only [validateNodeRuntimeState, bind_eq_ok] at h
  obtain ⟨run, _, h⟩ := h
  repeat' split at h
  all_goals
    cases h
    rfl

/-- A mismatch is never about a lease. -/
theorem reasonCode_of_entryMismatch {runId : Id} {item : ScopeRef} {m : ScopeMismatch}
    (h : entryMismatch db runId item = some m) : m.reasonCode ≠ .leaseExpired := by
  rw [entryMismatch] at h
  repeat' split at h
  all_goals
    cases h
    try simp

theorem primaryReason_ne_leaseExpired (node : Node) :
    (evaluateScopes db node).primaryReason ≠ some .leaseExpired := by
  rw [ScopeEvaluation.primaryReason]
  intro h
  obtain ⟨m, hm, hr⟩ := Option.map_eq_some_iff.mp h
  obtain ⟨_, _, hitem⟩ := mem_mismatches.mp (List.mem_of_mem_head? hm)
  exact reasonCode_of_entryMismatch hitem hr

theorem leaseExpired_of_reason {node : Node} {now : Time} {state : RuntimeState}
    (h : validateNodeRuntimeState db node now = .ok state) (hr : state.reason = some .leaseExpired) :
    RunRunning db node.runId ∧ node.status.isLive = true ∧ node.leaseExpired now = true := by
  simp only [validateNodeRuntimeState, bind_eq_ok, getRun_eq_ok] at h
  obtain ⟨run, hrun, h⟩ := h
  split at h
  · cases h
    cases hr
  next hrunning =>
  split at h
  · cases h
    cases hr
  next hlive =>
  split at h
  · next hlease =>
    exact ⟨⟨run, hrun, by simpa using hrunning⟩, by simpa using hlive, hlease⟩
  split at h
  · cases h
    exact absurd hr (primaryReason_ne_leaseExpired node)
  · cases h
    cases hr

theorem commandsForScopeMismatches_nil {runId : Id} : commandsForScopeMismatches db [] runId = [] := by
  simp [commandsForScopeMismatches, mismatchFor]

theorem mismatches_of_allowed {node : Node} (h : (evaluateScopes db node).allowed = true) :
    (evaluateScopes db node).mismatches = [] := by
  rw [mismatches_eq, List.filterMap_eq_nil_iff]
  exact (allowed_iff.mp h).2

/-- What a checkpoint is about to write, as of the moment it was read. -/
inductive Decided (db : Database) (read : Node) (now : Time) : NodeStatus → Prop
  | wait (live : Live db read now) : Decided db read now .waiting
  | expire (running : RunRunning db read.runId) (live : read.status.isLive = true)
      (lease : read.leaseExpired now = true) : Decided db read now .leaseExpired
  /-- The run and the node are not asked for: commands that apply are enough. -/
  | converge (cut : (evaluateScopes db read).allowed = false) :
      Decided db read now (evaluateScopes db read).effectiveStatus

/-- **What the read half of a checkpoint leaves for the write half.** -/
theorem checkpointRead_target {nodeId : Id} {token : Token} {env : Env}
    {r : CheckpointWrite × CheckpointResponse} {read : Node} {status : NodeStatus}
    (h : checkpointRead cfg db nodeId token env = .ok r) (ht : r.1.target = some (read, status)) :
    db.nodes.get? read.id = some read ∧ read.tokenHash ≠ none ∧
      Decided db read (env.clock 0) status := by
  simp only [checkpointRead, bind_eq_ok, authenticateNode_eq_ok] at h
  obtain ⟨node, ⟨hnode, htoken⟩, _, _, state, hstate, h⟩ := h
  have hfound : db.nodes.get? node.id = some node := found_of_get? hnode
  have hsome : node.tokenHash ≠ none := by
    rw [Config.tokenMatches, decide_eq_true_eq] at htoken
    rw [htoken]
    exact Option.some_ne_none _
  split at h
  · next hallowed =>
    obtain rfl := Except.ok.inj h
    cases ht
    exact ⟨hfound, hsome, .wait ((allowed_iff_live hstate).mp hallowed)⟩
  split at h
  · next hreason =>
    obtain rfl := Except.ok.inj h
    cases ht
    obtain ⟨hrunning, hlive, hlease⟩ := leaseExpired_of_reason hstate hreason
    exact ⟨hfound, hsome, .expire hrunning hlive hlease⟩
  split at h
  · obtain rfl := Except.ok.inj h
    cases ht
  · next hcommands =>
    obtain rfl := Except.ok.inj h
    cases ht
    rw [evaluation_of_validate hstate] at hcommands ⊢
    refine ⟨hfound, hsome, .converge ?_⟩
    by_contra hallowed
    rw [Bool.not_eq_false] at hallowed
    rw [mismatches_of_allowed hallowed, commandsForScopeMismatches_nil] at hcommands
    exact hcommands rfl

/-! ### The invariant -/

/-- A row that is live or holds a token has been activated, and what has been activated holds a
token. -/
structure Node.Awake (n : Node) : Prop where
  live : n.status.isLive = true → n.activatedAt ≠ none
  token : n.tokenHash ≠ none ↔ n.activatedAt ≠ none

/-- **What has no activation time** is neither live nor holds a token. -/
def Awake (db : Database) : Prop := ∀ id n, db.nodes.get? id = some n → n.Awake

/-- The node a checkpoint in flight writes to has been activated. -/
def WakesTo (db : Database) (f : InFlight) : Prop :=
  ∀ write read status, f = .checkpoint write → write.target = some (read, status) →
    ∃ n, db.nodes.get? read.id = some n ∧ n.activatedAt ≠ none

theorem NodeStep.activatedAt {n n' : Node} (h : NodeStep cfg w n n') (hn : n.activatedAt ≠ none) :
    n'.activatedAt ≠ none := by
  cases h with
  | activate => exact Option.some_ne_none _
  | same | token | renew | converge | expire | checkpoint | complete => exact hn

/-- An activation time appears only by activation. -/
theorem NodeStep.dormant {n n' : Node} (h : NodeStep cfg w n n') (hn : n.activatedAt = none)
    (hn' : n'.activatedAt ≠ none) : ∃ at', w = .activate at' ∧ at'.node = n := by
  cases h with
  | @activate at' => exact ⟨at', rfl, rfl⟩
  | same | token | renew | converge | expire | checkpoint | complete => exact absurd hn hn'

theorem WakesTo.effect {f : InFlight} (hf : WakesTo a f) (h : Effect cfg w a b) : WakesTo b f := by
  intro write read status hwrite ht
  obtain ⟨n, hn, hactivated⟩ := hf write read status hwrite ht
  obtain ⟨n', hn', hstep⟩ := h.node_step hn
  exact ⟨n', hn', hstep.activatedAt hactivated⟩

/-- One step of a row keeps it awake, provided a checkpoint writes to a row that has been
activated. -/
theorem NodeStep.awake {n n' : Node} (h : NodeStep cfg w n n') (hn : n.Awake)
    (target : ∀ read status found, w = .checkpoint read status found → n.id = read.id →
      n.activatedAt ≠ none) : n'.Awake := by
  cases h with
  | same => exact hn
  | token tokenHash live =>
    exact ⟨hn.live, iff_of_true (Option.some_ne_none tokenHash) (hn.live live)⟩
  | activate =>
    exact ⟨fun _ => Option.some_ne_none _, iff_of_true (Option.some_ne_none _) (Option.some_ne_none _)⟩
  | renew => exact ⟨hn.live, hn.token⟩
  | converge _ live => exact ⟨fun _ => hn.live live, hn.token⟩
  | expire | complete => exact ⟨nofun, hn.token⟩
  | checkpoint row => exact ⟨fun _ => target _ _ _ rfl row, hn.token⟩

theorem Effect.awake {l : Label} (h : Effect cfg w a b) (ha : Awake a)
    (hinflight : ∀ f ∈ s.inflight, WakesTo a f) (hw : Performs cfg s l w) : Awake b := by
  have htarget (read : Node) (status : NodeStatus) (found : Option Standing)
      (hcheckpoint : w = .checkpoint read status found) :
      ∃ n, a.nodes.get? read.id = some n ∧ n.activatedAt ≠ none := by
    subst hcheckpoint
    cases hw with
    | checkpoint call target => exact hinflight _ (List.mem_of_getElem? call) _ _ _ rfl target
  intro id n' hn'
  rcases h.node_cases hn' with ⟨_, rfl | rfl⟩ | ⟨n, hn, hstep⟩
  · have hroot := h.root_birth
    exact ⟨fun _ => hroot.activated, iff_of_true hroot.token hroot.activated⟩
  · obtain ⟨_, hbirth⟩ := h.birth
    refine ⟨fun hlive => ?_, iff_of_false (not_not.mpr hbirth.tokenless) (not_not.mpr hbirth.dormant)⟩
    simp [hbirth.pending, NodeStatus.isLive] at hlive
  · refine hstep.awake (ha id n hn) fun read status found hw hid => ?_
    obtain ⟨m, hm, hactivated⟩ := htarget read status found hw
    rw [← hid, show n.id = id from Table.key_of_get? hn, hn] at hm
    cases hm
    exact hactivated

theorem WakesTo.start {env : Env} {call : SplitCall} {f : InFlight} (hdb : Awake db)
    (h : call.start cfg db env = .ok f) : WakesTo db f := by
  intro write read status hf ht
  subst hf
  cases call with
  | checkpoint nodeId token =>
    simp only [SplitCall.start, bind_eq_ok, pure_eq_ok, InFlight.checkpoint.injEq] at h
    obtain ⟨r, hread, rfl⟩ := h
    obtain ⟨hfound, htoken, _⟩ := checkpointRead_target hread ht
    exact ⟨read, hfound, (hdb _ _ hfound).token.mp htoken⟩
  | createRun | activate | heartbeat | expireStaleNodes => cases h
  | seedScenario =>
    simp only [SplitCall.start, bind_eq_ok, pure_eq_ok] at h
    obtain ⟨_, _, hf⟩ := h
    cases hf

/-- **Nothing dormant acts.** An effect need only preserve an invariant of reachable states where
the rows are awake. -/
theorem reachable_awake {I : Database → Prop} (h : (services cfg).Reachable s) (init : I .empty)
    (effect : ∀ w a b, Awake a → I a → Effect cfg w a b → I b) : Awake s.db ∧ I s.db := by
  have hboth := reachable_inflight (I := fun db => Awake db ∧ I db) (J := WakesTo) h
    ⟨fun _ _ h => (nomatch h), init⟩
    (fun _ _ _ _ ha hstart => WakesTo.start ha.1 hstart)
    fun s l w a b ha hf hw he =>
      ⟨⟨he.awake ha.1 hf hw, effect w a b ha.1 ha.2 he⟩, fun f hJ => hJ.effect he⟩
  exact hboth.1

/-- The same, and what a checkpoint in flight writes to has been activated. -/
theorem reachable_wakes (h : (services cfg).Reachable s) :
    Awake s.db ∧ ∀ f ∈ s.inflight, WakesTo s.db f :=
  reachable_inflight h (fun _ _ h => by cases h) (fun _ _ _ _ ha hstart => WakesTo.start ha hstart)
    fun _ _ _ _ _ ha hf hw he => ⟨he.awake ha hf hw, fun _ hJ => hJ.effect he⟩

theorem awake (h : (services cfg).Reachable s) : Awake s.db :=
  (reachable_awake h trivial fun _ _ _ _ _ _ => trivial).1

/-- What has been activated stays activated. -/
theorem run_activated {s' : Sys} (h : (services cfg).Run s s') {id : Id} {n : Node}
    (hn : s.db.nodes.get? id = some n) (hactivated : n.activatedAt ≠ none) :
    ∃ n', s'.db.nodes.get? id = some n' ∧ n'.registration = n.registration ∧
      n'.activatedAt ≠ none := by
  refine run_db (I := fun db => ∃ n', db.nodes.get? id = some n' ∧
    n'.registration = n.registration ∧ n'.activatedAt ≠ none) h ⟨n, hn, rfl, hactivated⟩ ?_
  rintro w a b ⟨m, hm, hreg, hkept⟩ he
  obtain ⟨m', hm', hstep⟩ := he.node_step hm
  exact ⟨m', hm', hstep.registration.trans hreg, hstep.activatedAt hkept⟩

end TraceFence
