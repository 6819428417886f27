import TraceFence.Registry.Succession

/-!
# The budget of a recovery

A correction authorizes one tool, its arguments and a number of invocations. The gateway counts
the invocations of the node it is asked by. That is enough, over all replacements a correction is
given: only an activated node acts, and a correction has at most one.

## Main definitions

* `spentOn` — whether an attempt was allowed to a replacement of a correction
* `Spent` — the invariant: what has been spent is within the manifest

## Main results

* `recovery_budget` — budget, tool, arguments and succession in every run
-/

namespace TraceFence

open System

variable {cfg : Config} {w : Write} {a b db : Database} {s s' : Sys}

/-- Whether an attempt was allowed to a node that a command caused. -/
def spentOn (db : Database) (commandId : Id) (x : ActionAttempt) : Bool :=
  decide (x.decision = .allow) &&
    (db.nodes.get? x.nodeId).any fun node => node.causedByCommandId = some commandId

theorem spentOn_eq_true {commandId : Id} {x : ActionAttempt} :
    spentOn db commandId x = true ↔ x.decision = .allow ∧
      ∃ n, db.nodes.get? x.nodeId = some n ∧ n.causedByCommandId = some commandId := by
  simp [spentOn, Option.any_eq_true]

/-! ### The invariant -/

/-- What is known of an attempt that was allowed. -/
structure Licensed (db : Database) (x : ActionAttempt) (n : Node) : Prop where
  found : db.nodes.get? x.nodeId = some n
  run : n.runId = x.runId
  activated : n.activatedAt ≠ none
  committed : x.committedAt.isSome = true
  contract : ∀ cid c (m : ReplacementManifest), n.causedByCommandId = some cid → db.commands.get? cid = some c →
    c.replacementManifest = some m.modelDump →
    some x.toolName = m.recoveryContract.expectedTool ∧
      x.argumentsDigest = m.recoveryContract.expectedArgumentsDigest

/-- **What has been spent is within the manifest.** -/
structure Spent (db : Database) : Prop where
  licensed : ∀ x ∈ db.attempts, x.decision = .allow → ∃ n, Licensed db x n
  budget : ∀ cid c (m : ReplacementManifest), db.commands.get? cid = some c →
    c.replacementManifest = some m.modelDump →
    db.attempts.rows.countP (spentOn db cid) ≤ m.recoveryContract.maxCommittedInvocations

theorem modelDump_injective {m m' : ReplacementManifest} (h : m.modelDump = m'.modelDump) :
    m = m' := by
  have hm := ReplacementManifest.modelValidate_modelDump m
  rw [h, ReplacementManifest.modelValidate_modelDump] at hm
  exact (Option.some.inj hm).symm

/-- A license outlives every effect. -/
theorem Licensed.effect {x : ActionAttempt} {n : Node} (hx : Licensed a x n)
    (h : Effect cfg w a b) (hS : Succession a) : ∃ n', Licensed b x n' := by
  obtain ⟨n', hn', hstep⟩ := h.node_step hx.found
  have hreg := hstep.registration
  refine ⟨n', hn', (congrArg Registration.runId hreg).trans hx.run, hstep.activatedAt hx.activated,
    hx.committed, fun cid c' m hcause hc' hm => ?_⟩
  have hcause' := (congrArg Registration.causedByCommandId hreg).symm.trans hcause
  rcases h.command_cases hc' with ⟨hnone, _⟩ | ⟨c, hc, hcommand⟩
  · obtain ⟨_, hc, _⟩ := hS.cause _ n cid hx.found hcause'
    rw [hnone] at hc
    cases hc
  · have hsame := issued_column (·.replacementManifest) (fun _ => rfl) hcommand.issued
    exact hx.contract cid c m hcause' hc (hsame.symm.trans hm)

/-- A new attempt has its license from its admission. -/
theorem Admission.licensed {node : Node} {now : Time} {x : ActionAttempt}
    (hx : Admission a node now x) (ha : Awake a) : Licensed a x node := by
  refine ⟨hx.actor ▸ hx.found, hx.run.symm, (ha _ _ hx.found).live hx.live.status, hx.committed, ?_⟩
  intro cid c m hcause hc hm
  obtain ⟨c', m', hid, hgrant⟩ := hx.grant cid hcause
  obtain rfl := Option.some.inj (hc.symm.trans (hid ▸ hgrant.found))
  obtain rfl := modelDump_injective (Option.some.inj (hm.symm.trans hgrant.manifest))
  exact ⟨hgrant.tool, hgrant.arguments⟩

/-- An effect leaves every attempt with the command it was spent on. -/
theorem Effect.spentOn_eq (h : Effect cfg w a b) (ha : Spent a) {x : ActionAttempt}
    (hx : x ∈ a.attempts) (cid : Id) : spentOn b cid x = spentOn a cid x := by
  by_cases hallow : x.decision = .allow
  · obtain ⟨n, hlicensed⟩ := ha.licensed x hx hallow
    obtain ⟨n', hn', hstep⟩ := h.node_step hlicensed.found
    have hcause : n'.causedByCommandId = n.causedByCommandId :=
      congrArg Registration.causedByCommandId hstep.registration
    simp [spentOn, hlicensed.found, hn', hcause]
  · simp [spentOn, hallow]

/-- **Only one node spends.** What has been spent on the command of an activated replacement was
committed by it. -/
theorem Spent.countP_le (ha : Spent a) (hS : Succession a) {node : Node} {cid : Id}
    (found : a.nodes.get? node.id = some node) (activated : node.activatedAt ≠ none)
    (cause : node.causedByCommandId = some cid) :
    a.attempts.rows.countP (spentOn a cid) ≤ a.attempts.rows.countP (·.committedBy node) := by
  refine List.countP_mono_left fun x hx hspent => ?_
  obtain ⟨hallow, n, hn, hcause⟩ := spentOn_eq_true.mp hspent
  obtain ⟨n', hlicensed⟩ := ha.licensed x hx hallow
  obtain rfl := Option.some.inj (hn.symm.trans hlicensed.found)
  have hsame : x.nodeId = node.id := hS.unique hn found hcause cause hlicensed.activated activated
  rw [hsame, found] at hn
  obtain rfl := Option.some.inj hn
  simp [ActionAttempt.committedBy, hlicensed.run, hsame, hallow, hlicensed.committed]

/-- Nothing is spent on a command that does not exist. -/
theorem Succession.countP_eq_zero (hS : Succession a) {cid : Id}
    (hnone : a.commands.get? cid = none) : a.attempts.rows.countP (spentOn a cid) = 0 := by
  rw [List.countP_eq_zero]
  intro x _ hspent
  obtain ⟨_, n, hn, hcause⟩ := spentOn_eq_true.mp hspent
  obtain ⟨_, hc, _⟩ := hS.cause _ n cid hn hcause
  rw [hnone] at hc
  cases hc

/-- An attempt that is admitted is within the manifest of the command it is spent on. -/
theorem Spent.admitted (ha : Spent a) (hA : Awake a) (hS : Succession a) {node : Node} {now : Time}
    {x : ActionAttempt} (hx : Admission a node now x) {cid : Id} {c : ControlCommand}
    {m : ReplacementManifest} (cause : node.causedByCommandId = some cid)
    (hc : a.commands.get? cid = some c) (hm : c.replacementManifest = some m.modelDump) :
    a.attempts.rows.countP (spentOn a cid) < m.recoveryContract.maxCommittedInvocations := by
  obtain ⟨c', m', hid, hgrant⟩ := hx.grant cid cause
  obtain rfl := Option.some.inj (hc.symm.trans (hid ▸ hgrant.found))
  obtain rfl := modelDump_injective (Option.some.inj (hm.symm.trans hgrant.manifest))
  have hactivated := (hA _ _ hx.found).live hx.live.status
  exact (ha.countP_le hS hx.found hactivated cause).trans_lt hgrant.budget

theorem Effect.spent (h : Effect cfg w a b) (hA : Awake a) (hS : Succession a) (ha : Spent a) :
    Spent b := by
  constructor
  · intro y hy hallow
    have hkept {n : Node} (hy : Licensed a y n) : ∃ n', Licensed b y n' := hy.effect h hS
    rcases h.attempts_cases with hsame | ⟨x, hinsert, hw⟩
    · rw [hsame] at hy
      obtain ⟨_, hlicensed⟩ := ha.licensed y hy hallow
      exact hkept hlicensed
    · rw [← Table.mem_rows, (insertAttempt_eq_ok hinsert).1, List.mem_append,
        List.mem_singleton] at hy
      rcases hy with hy | rfl
      · obtain ⟨_, hlicensed⟩ := ha.licensed y hy hallow
        exact hkept hlicensed
      · rcases hw with ⟨_, hdeny⟩ | ⟨at', now, rfl, _⟩
        · rw [hallow] at hdeny
          cases hdeny
        · exact hkept (h.admission.licensed hA)
  · intro cid c' m hc' hm
    have hcount : a.attempts.rows.countP (spentOn b cid) = a.attempts.rows.countP (spentOn a cid) :=
      List.countP_congr fun x hx => by rw [h.spentOn_eq ha hx]
    have hold : (a.commands.get? cid = none ∧ a.attempts.rows.countP (spentOn a cid) = 0) ∨
        ∃ c, a.commands.get? cid = some c ∧ c.replacementManifest = some m.modelDump := by
      rcases h.command_cases hc' with ⟨hnone, _⟩ | ⟨c, hc, hstep⟩
      · exact Or.inl ⟨hnone, hS.countP_eq_zero hnone⟩
      · exact Or.inr ⟨c, hc,
          (issued_column (·.replacementManifest) (fun _ => rfl) hstep.issued).symm.trans hm⟩
    have hbudget : a.attempts.rows.countP (spentOn a cid) ≤
        m.recoveryContract.maxCommittedInvocations := by
      rcases hold with ⟨_, hzero⟩ | ⟨c, hc, hm⟩
      · omega
      · exact ha.budget cid c m hc hm
    rcases h.attempts_cases with hsame | ⟨x, hinsert, hw⟩
    · rw [hsame, hcount]
      exact hbudget
    · rw [(insertAttempt_eq_ok hinsert).1, List.countP_append, List.countP_singleton, hcount]
      by_cases hspent : spentOn b cid x = true
      · -- The attempt is being admitted, and the gateway has counted all there is to count.
        obtain ⟨hallow, n', hn', hcause⟩ := spentOn_eq_true.mp hspent
        rcases hw with ⟨_, hdeny⟩ | ⟨at', now, rfl, _⟩
        · rw [hallow] at hdeny
          cases hdeny
        · have hadmission := h.admission
          obtain ⟨n₁, hn₁, hstep⟩ := h.node_step hadmission.found
          rw [hadmission.actor, hn₁] at hn'
          obtain rfl := Option.some.inj hn'
          have hcause' : at'.node.causedByCommandId = some cid :=
            (congrArg Registration.causedByCommandId hstep.registration).symm.trans hcause
          rcases hold with ⟨hnone, _⟩ | ⟨c, hc, hm⟩
          · obtain ⟨_, hc, _⟩ := hS.cause _ _ cid hadmission.found hcause'
            rw [hnone] at hc
            cases hc
          · have hroom := ha.admitted hA hS hadmission hcause' hc hm
            rw [if_pos hspent]
            omega
      · rw [if_neg hspent]
        omega

/-! ### Every run -/

theorem spent (h : (services cfg).Reachable s) : Spent s.db := by
  have hall := reachable_awake
    (I := fun db => db.registry.WellFormed ∧ Succession db ∧ Spent db) h
    ⟨registry_wellFormed (@Reachable.init _ _ (services cfg)),
      succession (@Reachable.init _ _ (services cfg)),
      fun _ hx => absurd hx Table.not_mem_empty, fun _ _ _ hc => (nomatch hc)⟩
    fun _ _ _ hA ha he => ⟨he.registry_wellFormed ha.1, he.succession ha.1 ha.2.1,
      he.spent hA ha.2.1 ha.2.2⟩
  exact hall.2.2.2

/-- **The budget of a recovery.** Take a correction and any run. What has been allowed to all the
nodes it ever caused is within the invocations its manifest allows, and nothing when the manifest
names no tool; each of these attempts has the tool and the arguments of the manifest; no two of
these nodes are active, be it at different times; and none of them has a child. -/
theorem recovery_budget (hs : (services cfg).Reachable s) (hrun : (services cfg).Run s s')
    {c : ControlCommand} (hc : s'.db.commands.get? c.id = some c)
    (htype : c.commandType = .correctSubtree) :
    ∃ m : ReplacementManifest, c.replacementManifest = some m.modelDump ∧
      s'.db.attempts.rows.countP (spentOn s'.db c.id) ≤
        m.recoveryContract.maxCommittedInvocations ∧
      (m.recoveryContract.expectedTool = none →
        s'.db.attempts.rows.countP (spentOn s'.db c.id) = 0) ∧
      (∀ x ∈ s'.db.attempts, spentOn s'.db c.id x = true →
        some x.toolName = m.recoveryContract.expectedTool ∧
          x.argumentsDigest = m.recoveryContract.expectedArgumentsDigest) ∧
      (∀ n ∈ s.db.nodes, ∀ n' ∈ s'.db.nodes, n.causedByCommandId = some c.id →
        n'.causedByCommandId = some c.id → n.status = .active → n'.status = .active →
        n.id = n'.id) ∧
      ∀ n ∈ s'.db.nodes, n.causedByCommandId = some c.id →
        ∀ child ∈ s'.db.nodes, child.parentId ≠ some n.id := by
  have hs' := hs.run hrun
  have hsuccession := succession hs'
  have hspent := spent hs'
  obtain ⟨j, hj⟩ := Option.ne_none_iff_exists'.mp ((hsuccession.manifest c.id c hc).2 htype)
  obtain ⟨m, rfl, _⟩ := (hsuccession.manifest c.id c hc).1 j hj
  have hbudget := hspent.budget c.id c m hc hj
  refine ⟨m, hj, hbudget, fun hnone => ?_, fun x hx hxspent => ?_, ?_, ?_⟩
  · have hzero : m.recoveryContract.maxCommittedInvocations = 0 := by
      obtain ⟨_, _, _, _, _, _, _, _, hvalid, _⟩ := m.valid
      obtain ⟨_, _, _, _, _, _, _, _, _, _, _, hshape⟩ := hvalid
      rw [if_pos (by simp [hnone])] at hshape
      exact hshape.1
    omega
  · obtain ⟨hallow, n, hn, hcause⟩ := spentOn_eq_true.mp hxspent
    obtain ⟨n', hlicensed⟩ := hspent.licensed x hx hallow
    obtain rfl := Option.some.inj (hn.symm.trans hlicensed.found)
    exact hlicensed.contract c.id c m hcause hc hj
  · intro n hn n' hn' hcause hcause' hactive hactive'
    have hlive {k : Node} (h : k.status = .active) : k.status.isLive = true := by rw [h]; rfl
    have hactivated := (awake hs _ n (Table.get?_of_mem hn)).live (hlive hactive)
    have hactivated' := (awake hs' _ n' (Table.get?_of_mem hn')).live (hlive hactive')
    obtain ⟨later, hlater, hreg, hkept⟩ := run_activated hrun (Table.get?_of_mem hn) hactivated
    exact hsuccession.unique hlater (Table.get?_of_mem hn')
      ((congrArg Registration.causedByCommandId hreg).trans hcause) hcause' hkept hactivated'
  · intro n hn hcause child hchild hparent
    have hnone := hsuccession.barren _ child n.id n (Table.get?_of_mem hchild) hparent
      (Table.get?_of_mem hn)
    rw [hcause] at hnone
    cases hnone

/-- A worker is corrected, and its first replacement is not activated in time. -/
def sampleCorrected : List Label :=
  [.begin (.createRun
      { name := "sample", rootCapabilities := ["tool:read_metrics", "tool:restart_postgres"] })
      (sampleEnv 1 10), .finish 0 (sampleEnv 1 10),
    .call (.createSpawn 11 10 { role := "worker", capabilities := ["tool:read_metrics"] })
      (sampleEnv 1 20),
    .call (.issueCommand
      { idempotencyKey := "repair", commandType := .correctSubtree, targetNodeId := 20,
        reasonCode := "FIX", reasonText := "fix", replacementInstruction := some (.obj []),
        replacementExpectedTool := some "restart_postgres" } ⟨.human, none, none⟩ none)
      (sampleEnv 2 40),
    .call (.createReplacement 11 10 40
      { role := "postgres_recovery", capabilities := ["tool:restart_postgres"] }) (sampleEnv 2 50),
    .begin (.heartbeat 11 10) (sampleEnv 7 55), .finish 0 (sampleEnv 7 55),
    .begin (.expireStaleNodes none) (sampleEnv 10 55), .finish 0 (sampleEnv 10 55)]

/-- Its second replacement restarts postgres, and asks to restart it again. -/
def sampleRecovery : List Label :=
  [.call (.createReplacement 11 10 40
      { role := "postgres_recovery", capabilities := ["tool:restart_postgres"] }) (sampleEnv 10 60),
    .begin (.activate 60 { activationToken := 60 }) (sampleEnv 11 70), .finish 0 (sampleEnv 11 70),
    .call (.execute 60 70 { idempotencyKey := "first", toolName := "restart_postgres" })
      (sampleEnv 11 80),
    .call (.execute 60 70 { idempotencyKey := "second", toolName := "restart_postgres" })
      (sampleEnv 12 90)]

/-- Of two replacements one has acted, once. -/
theorem recovery_budget_sample :
    (sample (sampleCorrected ++ sampleRecovery)).db.nodes.rows.countP
        (·.causedByCommandId = some 40) = 2 ∧
      (sample (sampleCorrected ++ sampleRecovery)).db.attempts.rows.countP
        (spentOn (sample (sampleCorrected ++ sampleRecovery)).db 40) = 1 ∧
      ∃ (c : ControlCommand) (m : ReplacementManifest), c.id = 40 ∧
        c.replacementManifest = some m.modelDump ∧
        1 ≤ m.recoveryContract.maxCommittedInvocations := by
  have hsome : (((sample (sampleCorrected ++ sampleRecovery)).db.commands.get? 40).any
      fun c => c.commandType = .correctSubtree) = true := by
    decide +kernel
  have hone : (sample (sampleCorrected ++ sampleRecovery)).db.attempts.rows.countP
      (spentOn (sample (sampleCorrected ++ sampleRecovery)).db 40) = 1 := by
    decide +kernel
  obtain ⟨c, hc, htype⟩ := (Option.any_eq_true _ _).mp hsome
  have hid : c.id = 40 := Table.key_of_get? hc
  obtain ⟨m, hm, hbudget, _⟩ := recovery_budget (sample_reachable sampleCorrected)
    (sample_run sampleCorrected sampleRecovery) (hid ▸ hc) (by simpa using htype)
  rw [hid, hone] at hbudget
  exact ⟨by decide +kernel, hone, c, m, hid, hm, hbudget⟩

end TraceFence
