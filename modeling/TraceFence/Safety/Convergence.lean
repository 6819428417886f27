import TraceFence.Registry.Activation
import TraceFence.Safety.BlastRadius
import TraceFence.Safety.Fence
import TraceFence.Safety.NodeStatus
import TraceFence.Safety.ProofVerdicts
import TraceFence.Safety.ScopeLedger

/-!
# Convergence is stable

What a proof finds out about a command is about nodes that no scope check lets through any more.
Nothing renews their leases, nothing completes them, and what they have acknowledged stays. Only
their status can still change after they have ended: `checkpoint` asks neither the node nor the
run. But when it ends a node for a command, it acknowledges all commands that apply.

## Main definitions

* `Retained` — what a step keeps of a node below the target of a command
* `Converged` — what a verified control verdict says, in terms of snapshots

## Main results

* `Effect.retains` — the columns of such a node
* `checkpoint_acknowledges` — a checkpoint that ends a node once more
* `control_convergence_stable` — a verified control verdict stays verified
-/

namespace TraceFence

open System Checked

variable {cfg : Config} {w : Write} {a b db : Database} {s s' : Sys} {l : Label}
  {c c' : ControlCommand} {n n' : Node} {now now' : Time}

/-! ### One operation at a time -/

/-- At most one operation is under way, and what it has read is what there is. -/
theorem atomic_inflight (h : (atomic cfg).Reachable s) : s.inflight.length ≤ 1 ∧
    ∀ f ∈ s.inflight, ∃ call env, SplitCall.start cfg s.db env call = .ok f := by
  refine h.invariant (I := fun s => s.inflight.length ≤ 1 ∧ ∀ f ∈ s.inflight, ∃ call env,
    SplitCall.start cfg s.db env call = .ok f) ⟨Nat.zero_le 1, ?_⟩ fun s l s' _ hs hstep => ?_
  · intro f hf
    cases hf
  obtain ⟨hmono, hatomic⟩ := restrict_step_iff.mp hstep
  obtain ⟨⟨_, rfl⟩, _⟩ := restrict_step_iff.mp hmono
  change (s.next cfg l).inflight.length ≤ 1 ∧ ∀ f ∈ (s.next cfg l).inflight, ∃ call env,
    SplitCall.start cfg (s.next cfg l).db env call = .ok f
  cases l with
  | call call env =>
    have hidle : s.inflight = [] := hatomic
    cases hc : call.run cfg s.db env <;> simp [Sys.next, hc, Sys.commit, hidle]
  | begin call env =>
    have hidle : s.inflight = [] := hatomic
    cases hc : call.start cfg s.db env with
    | error e => simp [Sys.next, hc, hidle]
    | ok f =>
      simp only [Sys.next, hc, hidle, List.nil_append, List.length_singleton, le_refl,
        List.mem_singleton, forall_eq, true_and]
      exact ⟨call, env, hc⟩
  | finish index env =>
    cases hf : s.inflight[index]? with
    | none => simpa [Sys.next, hf] using hs
    | some f =>
      have hempty : s.inflight.eraseIdx index = [] := by
        have hlength := List.length_eraseIdx_of_lt (List.getElem?_eq_some_iff.mp hf).1
        exact List.eq_nil_of_length_eq_zero (by omega)
      cases hc : f.commit cfg s.db env <;> simp [Sys.next, hf, hc, Sys.commit, hempty]

/-! ### Columns -/

/-- What a step keeps of a node below the target of a command. -/
structure Retained (cfg : Config) (s : Sys) (l : Label) (n n' : Node) : Prop where
  registration : n'.registration = n.registration
  completedAt : n'.completedAt = n.completedAt
  leaseExpiresAt : n'.leaseExpiresAt = n.leaseExpiresAt
  /-- A node that has ended keeps its status unless a checkpoint ends it once more. -/
  status : n.status.isTerminal = true → n'.status = n.status ∨
    ∃ read found, Performs cfg s l (.checkpoint read n'.status found) ∧ read.id = n.id

/-- Only a node that no command reaches gains a lease or completes. -/
theorem Effect.allowed_of_gain {at' : Standing} (h : Effect cfg w a b)
    (hw : w = .activate at' ∨ w = .renew at' ∨ w = .complete at') :
    (evaluateScopes a at'.node).allowed = true := by
  rcases hw with rfl | rfl | rfl
  · cases h with
    | activate _ _ _ _ _ _ _ _ scopes => exact scopes
  · cases h with
    | renew _ live => exact live.scopes
  · cases h with
    | complete _ _ live => exact live.scopes

/-- **What an effect keeps of a node below the target of a command.** -/
theorem Effect.retains (h : Effect cfg w a b) (hC : Governs a c) (hreaches : c.reaches n)
    (hstep : NodeStep cfg w n n') : n'.completedAt = n.completedAt ∧
      n'.leaseExpiresAt = n.leaseExpiresAt ∧ (n.status.isTerminal = true → n'.status = n.status ∨
        ∃ read found, w = .checkpoint read n'.status found ∧ read.id = n.id) := by
  have hcut := hC.not_allowed hreaches
  have hlive {P : Prop} (hlive : n.status.isLive = true) (hn : n.status.isTerminal = true) : P := by
    rw [isTerminal_of_live hlive] at hn
    cases hn
  cases hstep with
  | same | token => exact ⟨rfl, rfl, fun _ => Or.inl rfl⟩
  | activate =>
    rw [h.allowed_of_gain (Or.inl rfl)] at hcut
    cases hcut
  | renew =>
    rw [h.allowed_of_gain (Or.inr (Or.inl rfl))] at hcut
    cases hcut
  | complete =>
    rw [h.allowed_of_gain (Or.inr (Or.inr rfl))] at hcut
    cases hcut
  | converge _ live => exact ⟨rfl, rfl, hlive live⟩
  | expire before =>
    refine ⟨rfl, rfl, before.elim hlive fun hpending hn => ?_⟩
    rw [hpending] at hn
    cases hn
  | checkpoint row => exact ⟨rfl, rfl, fun _ => Or.inr ⟨_, _, rfl, row.symm⟩⟩

/-! ### Checkpoints -/

/-- A node has acknowledged a command, be it cooperatively or not. -/
def Acked (db : Database) (c : ControlCommand) (n : Node) : Prop :=
  ∃ ack ∈ db.acknowledgements, ack.commandId = c.id ∧ ack.nodeId = n.id

theorem Acked.logged (h : Acked a c n) (hlogged : Logged a b) : Acked b c n := by
  obtain ⟨ack, hack, hids⟩ := h
  exact ⟨ack, hlogged.acknowledgements.subset hack, hids⟩

theorem acked_of_get? {ackType : AckType}
    (h : (db.acknowledgements.get? (c.id, n.id, ackType)).isSome = true) : Acked db c n := by
  obtain ⟨ack, hack⟩ := Option.isSome_iff_exists.mp h
  have hkey : (ack.commandId, ack.nodeId, ack.ackType) = (c.id, n.id, ackType) :=
    Table.key_of_get? hack
  simp only [Prod.mk.injEq] at hkey
  exact ⟨ack, Table.mem_of_get? hack, hkey.1, hkey.2.1⟩

theorem acked_recordAcks {commands : List ControlCommand} {ackType : AckType}
    (hc : c ∈ commands) : Acked (recordAcks a n commands ackType now) c n := by
  induction commands generalizing a with
  | nil => cases hc
  | cons command rest ih =>
    rcases List.mem_cons.mp hc with rfl | hc
    · refine Acked.logged (a := recordAck a n c ackType now) ?_ (logged_recordAcks _ _ _ _ _)
      have hkey : ((recordAck a n c ackType now).acknowledgements.get?
          (c.id, n.id, ackType)).isSome = true := by
        rw [recordAck, Table.get?_insertNew, Option.isSome_or]
        simp [newAck, Keyed.key]
      exact acked_of_get? hkey
    · exact ih hc

theorem acked_recordUnacknowledged {commands : List ControlCommand}
    (h : recordUnacknowledged a n commands now = .ok b) (hc : c ∈ commands) : Acked b c n := by
  cases commands with
  | nil => cases hc
  | cons command rest =>
    simp only [recordUnacknowledged, bind_eq_ok, require_eq_ok, pure_eq_ok] at h
    obtain ⟨acknowledgements, hinsert, rfl⟩ := h
    rcases List.mem_cons.mp hc with rfl | hc
    · refine Acked.logged (a := { a with acknowledgements := acknowledgements }) ?_
        (logged_recordAcks _ _ _ _ _)
      exact ⟨_, (Table.mem_of_insert? hinsert).mpr (Or.inr rfl), rfl, rfl⟩
    · exact acked_recordAcks hc

/-- A checkpoint that writes to a node which has ended does so for the commands that apply. -/
theorem checkpointRead_ended {nodeId : Id} {token : Token} {env : Env} {status : NodeStatus}
    {r : CheckpointWrite × CheckpointResponse}
    (h : checkpointRead cfg db nodeId token env = .ok r) (ht : r.1.target = some (n, status))
    (hcut : (evaluateScopes db n).allowed = false) (hn : n.status.isTerminal = true) :
    status.isTerminal = true ∧ ∃ now, r.1 =
      .converge n ((applicableCommands db n).dropWhile (cooperativeAcked db n)) status now := by
  simp only [checkpointRead, bind_eq_ok, authenticateNode_eq_ok] at h
  obtain ⟨node, _, _, _, state, hstate, h⟩ := h
  have hlive (hlive : n.status.isLive = true) : False := by
    rw [isTerminal_of_live hlive] at hn
    cases hn
  split at h
  · next hallowed =>
    obtain rfl := Except.ok.inj h
    cases ht
    exact (hlive ((allowed_iff_live hstate).mp hallowed).status).elim
  split at h
  · next hreason =>
    obtain rfl := Except.ok.inj h
    cases ht
    exact (hlive (leaseExpired_of_reason hstate hreason).2.1).elim
  split at h
  · obtain rfl := Except.ok.inj h
    cases ht
  · obtain rfl := Except.ok.inj h
    cases ht
    rw [evaluation_of_validate hstate]
    refine ⟨?_, env.clock 1, rfl⟩
    rcases effectiveStatus_of_not_allowed hcut with he | he <;> rw [he] <;> rfl

/-- **A checkpoint that ends a node once more acknowledges every command that applies.** -/
theorem checkpoint_acknowledges {nodeId : Id} {token : Token} {env : Env} {status : NodeStatus}
    {r : CheckpointWrite × CheckpointResponse} {commit : Commit Unit}
    (hread : checkpointRead cfg db nodeId token env = .ok r)
    (hwrite : checkpointWrite db r.1 = .ok commit) (ht : r.1.target = some (n, status))
    (hC : Controlled db) (hc : c ∈ db.commands) (hrun : c.runId = n.runId) (hreaches : c.reaches n)
    (hn : n.status.isTerminal = true) : status.isTerminal = true ∧ Acked commit.db c n := by
  have hcut := (hC.command c.id c (Table.get?_of_mem hc)).not_allowed hreaches
  obtain ⟨hstatus, now, hshape⟩ := checkpointRead_ended hread ht hcut hn
  refine ⟨hstatus, ?_⟩
  rw [hshape] at hwrite
  simp only [checkpointWrite, bind_eq_ok, pure_eq_ok] at hwrite
  obtain ⟨acked, hacked, rfl⟩ := hwrite
  suffices h : Acked acked c n by
    rw [assignStatus]
    split <;> exact h
  have happlies := (mem_applicableCommands hC).mpr ⟨hc, hrun, hreaches⟩
  rw [← List.takeWhile_append_dropWhile (p := cooperativeAcked db n) (l := applicableCommands db n),
    List.mem_append] at happlies
  rcases happlies with hbefore | hafter
  · -- The commands before the first without an acknowledgement have one each.
    have hack : cooperativeAcked db n c = true := List.all_eq_true.mp List.all_takeWhile c hbefore
    exact (acked_of_get? hack).logged
      ⟨(recordUnacknowledged_eq hacked).2, by rw [(recordUnacknowledged_eq hacked).1],
        by rw [(recordUnacknowledged_eq hacked).1]⟩
  · exact acked_recordUnacknowledged hacked hafter

/-! ### One step -/

/-- What is left of a node below the target of a command after a sequence of effects. -/
structure Traced (cfg : Config) (s : Sys) (l : Label) (c : ControlCommand) (b : Database) : Prop where
  governs : Governs b c
  nodes : ∀ id n', b.nodes.get? id = some n' → c.reaches n' →
    ∃ n, s.db.nodes.get? id = some n ∧ Retained cfg s l n n'

/-- Where a checkpoint under way comes from. -/
theorem exists_checkpointRead (hs : (atomic cfg).Reachable s) {write : CheckpointWrite}
    (h : InFlight.checkpoint write ∈ s.inflight) : ∃ nodeId token env r,
      checkpointRead cfg s.db nodeId token env = .ok r ∧ r.1 = write := by
  obtain ⟨call, env, hstart⟩ := (atomic_inflight hs).2 _ h
  cases call with
  | checkpoint nodeId token =>
    simp only [SplitCall.start, bind_eq_ok, pure_eq_ok, InFlight.checkpoint.injEq] at hstart
    obtain ⟨r, hread, hwrite⟩ := hstart
    exact ⟨nodeId, token, env, r, hread, hwrite⟩
  | createRun | activate | heartbeat | expireStaleNodes => cases hstart
  | seedScenario =>
    simp only [SplitCall.start, bind_eq_ok, pure_eq_ok] at hstart
    obtain ⟨_, _, hstart⟩ := hstart
    cases hstart

/-- The checkpoint of a node that has ended ends it with a terminal status, and if it commits, with
an acknowledgement of every command that reaches the node. -/
theorem performs_checkpoint (hs : (atomic cfg).Reachable s) {read : Node} {status : NodeStatus}
    {found : Option Standing} (hperf : Performs cfg s l (.checkpoint read status found))
    (hc : s.db.commands.get? c.id = some c) (hn : s.db.nodes.get? read.id = some n)
    (hreaches : c.reaches n) (hterminal : n.status.isTerminal = true) :
    status.isTerminal = true ∧
      ∀ commit, s.transaction cfg l = some commit → Acked commit.db c n := by
  have hC := controlled hs.of_restrict.of_restrict
  have hrun := (((hC.command c.id c hc).reaches_iff (registry_wellFormed
    hs.of_restrict.of_restrict) (found_of_get? hn)).mp hreaches).1
  cases hperf with
  | @checkpoint _ env _ _ _ call target =>
    obtain ⟨_, _, _, r, hread, rfl⟩ := exists_checkpointRead hs (List.mem_of_getElem? call)
    obtain rfl : read = n := Option.some.inj ((checkpointRead_target hread target).1.symm.trans hn)
    have hcut := (hC.command c.id c hc).not_allowed hreaches
    refine ⟨(checkpointRead_ended hread target hcut hterminal).1, fun commit hcommit => ?_⟩
    rw [Sys.transaction, call, Option.bind_some, toOption_eq_some] at hcommit
    exact (checkpoint_acknowledges hread hcommit target hC (Table.mem_of_get? hc) hrun.symm hreaches
      hterminal).2

theorem Effect.traced (hs : (atomic cfg).Reachable s) (hc : s.db.commands.get? c.id = some c)
    (hperf : Performs cfg s l w) (h : Effect cfg w a b) (ha : Traced cfg s l c a) :
    Traced cfg s l c b := by
  refine ⟨ha.governs.evolves h.evolves rfl, fun id n'' hn'' hreaches => ?_⟩
  rcases h.node_cases hn'' with ⟨_, hw⟩ | ⟨n', hn', hstep⟩
  · exact absurd hreaches (h.not_reached hw ha.governs)
  have hreaches' : c.reaches n' := (reaches_of_registration hstep.registration).mp hreaches
  obtain ⟨n, hn, hkept⟩ := ha.nodes id n' hn' hreaches'
  obtain ⟨hcompleted, hlease, hstatus⟩ := h.retains ha.governs hreaches' hstep
  have hid : n'.id = n.id := congrArg Registration.id hkept.registration
  refine ⟨n, hn, hstep.registration.trans hkept.registration, hcompleted.trans hkept.completedAt,
    hlease.trans hkept.leaseExpiresAt, fun hterminal => ?_⟩
  -- Whatever has been written to the node in this step, it is still a terminal status.
  have hterminal' : n'.status.isTerminal = true := by
    rcases hkept.status hterminal with he | ⟨read, found, hcheckpoint, hread⟩
    · rw [he, hterminal]
    · have hkey : n.id = id := Table.key_of_get? hn
      exact (performs_checkpoint hs hcheckpoint hc (hread.trans hkey ▸ hn)
        ((reaches_of_registration hkept.registration).mp hreaches') hterminal).1
  rcases hstatus hterminal' with he | ⟨read, found, rfl, hread⟩
  · rw [he]
    exact hkept.status hterminal
  · exact Or.inr ⟨read, found, hperf, hread.trans hid⟩

/-- **What a step keeps** of the nodes below the target of a command: they were there before, and
they are accounted for if they were. -/
theorem step_accounted (hs : (atomic cfg).Reachable s) (hstep : (atomic cfg).Step s l s')
    (hc : s.db.commands.get? c.id = some c) (hn' : s'.db.nodes.get? n'.id = some n')
    (hreaches : c.reaches n') :
    ∃ n, s.db.nodes.get? n.id = some n ∧ n'.registration = n.registration ∧
      ∀ now, Accounted s.db c now n → Accounted s'.db c now n' := by
  have hservices := (restrict_step_iff.mp (restrict_step_iff.mp hstep).1).1
  have htraced : Traced cfg s l c s'.db := by
    refine (step_writes hservices).preserve (I := Traced cfg s l c) ⟨?_, fun id n hn _ => ?_⟩
      fun w a b ha hw he => he.traced hs hc hw ha
    · exact (controlled hs.of_restrict.of_restrict).command c.id c hc
    · exact ⟨n, hn, rfl, rfl, rfl, fun _ => Or.inl rfl⟩
  obtain ⟨n, hn, hkept⟩ := htraced.nodes _ n' hn' hreaches
  have hid : n.id = n'.id := Table.key_of_get? hn
  have hreaches' : c.reaches n := (reaches_of_registration hkept.registration).mp hreaches
  have hlogged := (step_writes hservices).logged
  refine ⟨n, hid ▸ hn, hkept.registration, fun now h => ?_⟩
  cases h with
  | completed at' before => exact .completed (hkept.completedAt ▸ at') before
  | converged stored run node before other status =>
    refine .converged (hlogged.acknowledgements.subset stored) run (node.trans hid) before other ?_
    rcases hkept.status status with he | ⟨read, found, hperf, hread⟩
    · rw [he, status]
    · exact (performs_checkpoint hs hperf hc (hread ▸ hid ▸ hn) hreaches' status).1
  | acknowledged stored command node =>
    exact .acknowledged (hlogged.acknowledgements.subset stored) command (node.trans hid)
  | blocked attempt node since denied stale stored run command action =>
    exact .blocked ((step_evolves hservices).attempt.subset attempt) (node.trans hid) since denied
      stale (hlogged.commandMatches.subset stored) run command action
  | lapsed lease before => exact .lapsed (hkept.leaseExpiresAt ▸ lease) before
  | expired status =>
    have hterminal : n.status.isTerminal = true := by rw [status]; rfl
    rcases hkept.status hterminal with he | ⟨read, found, hperf, hread⟩
    · exact .expired (he.trans status)
    · -- A checkpoint has ended the node once more.
      have hnext : s'.db = (s.next cfg l).db := by rw [← hservices.2]; rfl
      cases hcommit : s.transaction cfg l with
      | none =>
        rw [hnext, (next_of_no_transaction hcommit).1] at hn'
        obtain rfl := Option.some.inj (hn'.symm.trans hn)
        exact .expired status
      | some commit =>
        obtain ⟨ack, hack, hcommand, hnode⟩ :=
          (performs_checkpoint hs hperf hc (hread ▸ hid ▸ hn) hreaches' hterminal).2 commit hcommit
        rw [hnext, (next_of_transaction hcommit).1]
        exact .acknowledged hack hcommand (hnode.trans hid)

/-! ### Runs -/

/-- **What a verified control verdict says**, in terms of snapshots. -/
structure Converged (db : Database) (c : ControlCommand) (now : Time) : Prop where
  accounted : ∀ n, db.nodes.get? n.id = some n → c.reaches n → Accounted db c now n
  unstale : ∀ n, db.nodes.get? n.id = some n → c.reaches n → ∀ x ∈ db.attempts, x.nodeId = n.id →
    x.sideEffecting = true → x.decision = .allow → x.committedAt.isSome = true →
      x.attemptedAt < c.createdAt

theorem controlVerdict_verified_iff_converged (hs : (monotone cfg).Reachable s)
    (hc : s.db.commands.get? c.id = some c) :
    controlVerdict s.db c now = .verified ↔ Converged s.db c now := by
  have hC := (controlled hs.of_restrict).command c.id c hc
  have hW := registry_wellFormed hs.of_restrict
  have hT := timed hs
  have haffected (n : Node) : n ∈ affectedNodes s.db c ↔
      s.db.nodes.get? n.id = some n ∧ c.reaches n := by
    rw [mem_affectedNodes hC hW hT]
    refine ⟨fun h => ⟨h.1, h.2.2.2⟩, fun ⟨hn, hreaches⟩ => ⟨hn, ?_, ?_, hreaches⟩⟩
    · exact ((hC.reaches_iff hW hn).mp hreaches).1
    · exact hT.reached _ c _ n hc hn hreaches
  rw [controlVerdict_eq_verified_iff, staleCommittedActions_eq_nil_iff]
  constructor
  · rintro ⟨hstale, haccounted, _⟩
    exact ⟨fun n hn hreaches => haccounted n ((haffected n).mpr ⟨hn, hreaches⟩),
      fun n hn hreaches => hstale n ((haffected n).mpr ⟨hn, hreaches⟩)⟩
  · rintro ⟨haccounted, hstale⟩
    refine ⟨fun n hn => ?_, fun n hn => ?_, unrelatedInterrupted_eq_zero hC hW hT hc⟩
    · exact hstale n ((haffected n).mp hn).1 ((haffected n).mp hn).2
    · exact haccounted n ((haffected n).mp hn).1 ((haffected n).mp hn).2

/-- The classes depend on the order a command gives only. -/
theorem Accounted.issued (h : Accounted db c now n) (he : c'.issued = c.issued) :
    Accounted db c' now n := by
  have hid : c'.id = c.id := issued_column (·.id) (fun _ => rfl) he
  have hrun : c'.runId = c.runId := issued_column (·.runId) (fun _ => rfl) he
  have hcreated : c'.createdAt = c.createdAt := issued_column (·.createdAt) (fun _ => rfl) he
  cases h with
  | completed at' before => exact .completed at' (hcreated ▸ before)
  | converged stored run node before other status =>
    exact .converged stored (hrun ▸ run) node (hcreated ▸ before) (hid ▸ other) status
  | acknowledged stored command node => exact .acknowledged stored (hid ▸ command) node
  | blocked attempt node since denied stale stored run command action =>
    exact .blocked attempt node (hcreated ▸ since) denied stale stored (hrun ▸ run)
      (hid ▸ command) action
  | expired status => exact .expired status
  | lapsed lease before => exact .lapsed lease before

/-- Leases that have run out stay so. -/
theorem Accounted.later (h : Accounted db c now n) (hle : now ≤ now') : Accounted db c now' n := by
  cases h with
  | completed at' before => exact .completed at' before
  | converged stored run node before other status =>
    exact .converged stored run node before other status
  | acknowledged stored command node => exact .acknowledged stored command node
  | blocked attempt node since denied stale stored run command action =>
    exact .blocked attempt node since denied stale stored run command action
  | expired status => exact .expired status
  | lapsed lease before => exact .lapsed lease (before.trans hle)

/-- **Convergence survives a step.** -/
theorem Converged.step (h : Converged s.db c now) (hs : (atomic cfg).Reachable s)
    (hstep : (atomic cfg).Step s l s') (hc : s.db.commands.get? c.id = some c) :
    ∃ c', s'.db.commands.get? c.id = some c' ∧ Converged s'.db c' now := by
  have hservices := (restrict_step_iff.mp (restrict_step_iff.mp hstep).1).1
  obtain ⟨c', hc', hissued⟩ := (step_evolves hservices).command _ c hc
  have hscope : c'.targetScopeId = c.targetScopeId :=
    issued_column (·.targetScopeId) (fun _ => rfl) hissued
  have hreaches {m : Node} : c'.reaches m ↔ c.reaches m := by
    rw [ControlCommand.reaches, ControlCommand.reaches, hscope]
  refine ⟨c', hc', fun n' hn' hreach => ?_, fun n' hn' hreach x hx hnode hside hallow hcommitted => ?_⟩
  · obtain ⟨n, hn, hreg, hkept⟩ := step_accounted hs hstep hc hn' (hreaches.mp hreach)
    have hold : c.reaches n := (reaches_of_registration hreg).mp (hreaches.mp hreach)
    exact (hkept now (h.accounted n hn hold)).issued hissued
  · obtain ⟨n, hn, hreg, _⟩ := step_accounted hs hstep hc hn' (hreaches.mp hreach)
    have hold : c.reaches n := (reaches_of_registration hreg).mp (hreaches.mp hreach)
    -- The gateway has let nothing through since the command.
    have hgoverns := (controlled hs.of_restrict.of_restrict).command c.id c hc
    have hattempt := hgoverns.fence hservices n' (Table.mem_of_get? hn') (hreaches.mp hreach) x hx
      hnode hallow
    have hid : n'.id = n.id := congrArg Registration.id hreg
    rw [show c'.createdAt = c.createdAt from issued_column (·.createdAt) (fun _ => rfl) hissued]
    exact h.unstale n hn hold x hattempt (hnode.trans hid) hside hallow hcommitted

/-- **Convergence is stable.** Take a run of atomic operations under a non-decreasing clock. Once the
control verdict about a command is verified, it is verified in every later state and at every later
reading of the clock. -/
theorem control_convergence_stable (hs : (atomic cfg).Reachable s)
    (hc : s.db.commands.get? c.id = some c) (hverified : controlVerdict s.db c now = .verified)
    (hrun : (atomic cfg).Run s s') (hle : now ≤ now') :
    ∃ c', s'.db.commands.get? c.id = some c' ∧ controlVerdict s'.db c' now' = .verified := by
  have hkept : ∃ c', s'.db.commands.get? c.id = some c' ∧ Converged s'.db c' now := by
    refine hrun.stable (Q := fun s => ∃ c', s.db.commands.get? c.id = some c' ∧
      Converged s.db c' now) hs ⟨c, hc, ?_⟩ fun s l s' hr hq hstep => ?_
    · exact (controlVerdict_verified_iff_converged hs.of_restrict hc).mp hverified
    · obtain ⟨c₁, hc₁, hconverged⟩ := hq
      have hid : c₁.id = c.id := Table.key_of_get? hc₁
      obtain ⟨c₂, hc₂, hconverged'⟩ := hconverged.step hr hstep (hid.symm ▸ hc₁)
      exact ⟨c₂, hid ▸ hc₂, hconverged'⟩
  obtain ⟨c', hc', hconverged⟩ := hkept
  have hid : c'.id = c.id := Table.key_of_get? hc'
  refine ⟨c', hc', (controlVerdict_verified_iff_converged (hs.run hrun).of_restrict
    (hid.symm ▸ hc')).mpr ⟨fun n hn hreaches => ?_, hconverged.unstale⟩⟩
  exact (hconverged.accounted n hn hreaches).later hle

/-- The cancelled worker acknowledges the command with its heartbeat. -/
def sampleConverged : List Label := sampleCancelled ++
  [.begin (.heartbeat 20 30) (sampleEnv 4 50), .finish 0 (sampleEnv 4 50)]

/-- Then it makes a checkpoint, and the root spawns another worker. -/
def sampleAfterwards : List Label :=
  [.begin (.checkpoint 20 30) (sampleEnv 5 60), .finish 0 (sampleEnv 5 60),
    .call (.createSpawn 11 10 { role := "worker", capabilities := ["tool:read_metrics"] })
      (sampleEnv 6 70)]

theorem control_convergence_stable_sample : ∃ c c', c.id = 40 ∧ c'.id = 40 ∧
    controlVerdict (sample sampleConverged).db c (seconds 4) = .verified ∧
    controlVerdict (sample (sampleConverged ++ sampleAfterwards)).db c' (seconds 9) = .verified := by
  have hreachable : (atomic sampleConfig).Reachable (sample sampleConverged) :=
    sample_atomic (by simp [sampleConverged, sampleCancelled, sampleStart, Label.env, sampleEnv])
      (by decide +kernel)
  have hrun : (atomic sampleConfig).Run (sample sampleConverged)
      (sample (sampleConverged ++ sampleAfterwards)) :=
    sample_atomic_run (by simp [sampleAfterwards, Label.env, sampleEnv]) (by decide +kernel)
  have hsome : ((sample sampleConverged).db.commands.get? 40).any (fun c =>
      controlVerdict (sample sampleConverged).db c (seconds 4) = .verified) = true := by
    decide +kernel
  obtain ⟨c, hc, hverified⟩ := (Option.any_eq_true _ _).mp hsome
  rw [decide_eq_true_eq] at hverified
  have hid : c.id = 40 := Table.key_of_get? hc
  obtain ⟨c', hc', hlater⟩ := control_convergence_stable hreachable (hid ▸ hc) hverified hrun
    (show seconds 4 ≤ seconds 9 by decide)
  have hid' : c'.id = c.id := Table.key_of_get? hc'
  exact ⟨c, c', hid, hid'.trans hid, hverified, hlater⟩

end TraceFence
