import TraceFence.Safety.BlastRadius
import TraceFence.Safety.ExactlyOnce

/-!
# The ledger of scopes and commands

A scope is changed by one command at most, and the command says how. So the commands an evaluation
is attributed to can be read off the snapshot of the node, and a denial for an invalid scope always
has a command to be matched with: it is recorded with every column that the constraints ask for.

## Main definitions

* `LedgerEntry` — what the ledger says about a scope
* `DenialRecorded` — what is kept of a denial

## Main results

* `applicableCommands_eq` — complete attribution
* `execute_denied` — where a denied attempt comes from
* `scope_ledger` — the ledger in every reachable state, and the denials in every later one
-/

namespace TraceFence

open System Checked

variable {cfg : Config} {w : Write} {a b db : Database} {s : Sys} {c : ControlCommand} {n : Node}

/-! ### One command for each scope -/

/-- No two commands share a target scope. -/
def SoleTargets (db : Database) : Prop :=
  ∀ id id' c c', db.commands.get? id = some c → db.commands.get? id' = some c' →
    c.targetScopeId = c'.targetScopeId → id = id'

/-- A command is issued for a scope that no command has changed. -/
theorem Effect.untargeted (h : Effect cfg (.issue c) a b) (hC : Controlled a) {id : Id}
    {c' : ControlCommand} (hc' : a.commands.get? id = some c') :
    c'.targetScopeId ≠ c.targetScopeId := by
  intro he
  obtain ⟨sc, hsc, _, hactive, _⟩ := h.issuance.scope
  obtain ⟨sc', hsc', _, hstatus, _⟩ := (hC.command id c' hc').scope
  rw [he, hsc] at hsc'
  obtain rfl := Option.some.inj hsc'
  exact scopeStatus_ne_active _ (hstatus.symm.trans hactive)

theorem Effect.soleTargets (h : Effect cfg w a b) (hC : Controlled a) (ha : SoleTargets a) :
    SoleTargets b := by
  have htarget {k k' : ControlCommand} (hstep : CommandStep a w k k') :
      k'.targetScopeId = k.targetScopeId :=
    issued_column (·.targetScopeId) (fun _ => rfl) hstep.issued
  intro id id' c c' hc hc' he
  rcases h.command_cases hc with ⟨_, rfl⟩ | ⟨k, hk, hstep⟩
  · rcases h.command_cases hc' with ⟨_, hissue⟩ | ⟨k', hk', hstep'⟩
    · obtain rfl := Write.issue.inj hissue
      have hid : c.id = id := Table.key_of_get? hc
      exact hid.symm.trans (Table.key_of_get? hc')
    · exact absurd ((htarget hstep').symm.trans he.symm) (h.untargeted hC hk')
  · rcases h.command_cases hc' with ⟨_, rfl⟩ | ⟨k', hk', hstep'⟩
    · exact absurd ((htarget hstep).symm.trans he) (h.untargeted hC hk)
    · exact ha id id' k k' hk hk' ((htarget hstep).symm.trans (he.trans (htarget hstep')))

theorem soleTargets (h : (services cfg).Reachable s) : SoleTargets s.db := by
  have hboth : Controlled s.db ∧ SoleTargets s.db := by
    refine reachable_db (I := fun db => Controlled db ∧ SoleTargets db) h
      ⟨controlled (@Reachable.init _ _ (services cfg)), ?_⟩
      fun w a b ha he => ⟨he.controlled ha.1, he.soleTargets ha.1 ha.2⟩
    intro _ _ _ _ hc
    cases hc
  exact hboth.2

/-- **What the ledger says about a scope**: it has never been changed, or one command has changed
it. -/
inductive LedgerEntry (db : Database) (sc : ControlScope) : Prop
  | open' (active : sc.status = .active) (version : sc.version = 1)
      (untouched : ∀ c ∈ db.commands, c.targetScopeId ≠ sc.id)
  | closed (c : ControlCommand) (command : c ∈ db.commands) (target : c.targetScopeId = sc.id)
      (only : ∀ c' ∈ db.commands, c'.targetScopeId = sc.id → c' = c)
      (inactive : sc.status = .cancelled ∨ sc.status = .superseded)
      (matching : sc.status = c.commandType.scopeStatus) (version : sc.version = 2)
      (fromVersion : c.fromVersion = 1) (toVersion : c.toVersion = 2)

theorem ledgerEntry (hC : Controlled db) (hT : SoleTargets db) {sc : ControlScope}
    (hsc : sc ∈ db.scopes) : LedgerEntry db sc := by
  have hget : db.scopes.get? sc.id = some sc := Table.get?_of_mem hsc
  have hgoverned {c : ControlCommand} (hc : c ∈ db.commands) (he : c.targetScopeId = sc.id) :
      sc.status = c.commandType.scopeStatus ∧ sc.version = 2 := by
    obtain ⟨sc', hsc', _, hstatus, hversion⟩ := (hC.command c.id c (Table.get?_of_mem hc)).scope
    rw [he, hget] at hsc'
    obtain rfl := Option.some.inj hsc'
    exact ⟨hstatus, hversion⟩
  by_cases hactive : sc.status = .active
  · refine .open' hactive (hC.active _ sc hget hactive) fun c hc he => ?_
    exact scopeStatus_ne_active _ ((hgoverned hc he).1.symm.trans hactive)
  · obtain ⟨cid, c, hc, htarget⟩ := hC.inactive _ sc hget hactive
    have hmem := Table.mem_of_get? hc
    have hgoverns := hC.command cid c hc
    refine .closed c hmem htarget (fun c' hc' he => ?_) ?_ (hgoverned hmem htarget).1
      (hgoverned hmem htarget).2 hgoverns.fromVersion hgoverns.toVersion
    · have hid := hT c'.id cid c' c (Table.get?_of_mem hc') hc (he.trans htarget.symm)
      have hget' : db.commands.get? c'.id = some c' := Table.get?_of_mem hc'
      rw [hid, hc] at hget'
      exact (Option.some.inj hget').symm
    · rw [(hgoverned hmem htarget).1]
      cases c.commandType with
      | cancelRun | cancelSubtree => exact Or.inl rfl
      | correctSubtree => exact Or.inr rfl

/-! ### Attribution -/

/-- A mismatch at the target scope of a command shows what the command has done. -/
theorem Governs.mismatch (h : Governs db c) (hrun : n.runId = c.runId) {m : ScopeMismatch}
    (hm : m ∈ (evaluateScopes db n).mismatches) (hid : m.scopeId = c.targetScopeId) :
    m.liveVersion = some c.toVersion ∧ m.liveStatus = some c.commandType.scopeStatus ∧
      m.reasonCode.isStale = true := by
  obtain ⟨item, _, he⟩ := mem_mismatches.mp hm
  obtain ⟨sc, hsc, hscrun, hstatus, hversion⟩ := h.scope
  have hlive : liveScope db n.runId item.scopeId = some sc := by
    rw [liveScope_eq_some, ← scopeId_of_entryMismatch he, hid]
    exact ⟨hsc, hscrun.trans hrun.symm⟩
  rw [entryMismatch, hlive] at he
  simp only at he
  split at he
  · obtain rfl := Option.some.inj he
    exact ⟨congrArg some (hversion.trans h.toVersion.symm), congrArg some hstatus, rfl⟩
  split at he
  · obtain rfl := Option.some.inj he
    exact ⟨congrArg some (hversion.trans h.toVersion.symm), congrArg some hstatus, rfl⟩
  next hcancelled hsuperseded =>
  rw [hstatus] at hcancelled hsuperseded
  cases htype : c.commandType with
  | cancelRun | cancelSubtree => exact absurd (by rw [htype]; rfl) hcancelled
  | correctSubtree => exact absurd (by rw [htype]; rfl) hsuperseded

/-- A node that a command reaches has a mismatch at its target scope. -/
theorem Governs.exists_mismatch (h : Governs db c) (hn : c.reaches n) :
    ∃ m ∈ (evaluateScopes db n).mismatches, m.scopeId = c.targetScopeId := by
  obtain ⟨item, hitem, hid⟩ := List.mem_map.mp hn
  have hsome : entryMismatch db n.runId item ≠ none := by
    intro hnone
    obtain ⟨sc, hsc, hactive, _⟩ := entryMismatch_eq_none.mp hnone
    obtain ⟨sc', hsc', _, hstatus, _⟩ := h.scope
    rw [liveScope_eq_some, hid] at hsc
    obtain rfl := Option.some.inj (hsc.1.symm.trans hsc')
    exact scopeStatus_ne_active _ (hstatus.symm.trans hactive)
  obtain ⟨m, hm⟩ := Option.ne_none_iff_exists'.mp hsome
  exact ⟨m, mem_mismatches.mpr ⟨item, hitem, hm⟩, (scopeId_of_entryMismatch hm).trans hid⟩

/-- Every mismatch of a registered node is at the target scope of a command. -/
theorem Controlled.exists_command (h : Controlled db) (hW : db.registry.WellFormed)
    (hn : db.nodes.get? n.id = some n) {m : ScopeMismatch}
    (hm : m ∈ (evaluateScopes db n).mismatches) :
    ∃ c, db.commands.get? c.id = some c ∧ c.runId = n.runId ∧ c.targetScopeId = m.scopeId := by
  have hreg := registry_node_of_get? hn
  obtain ⟨item, hitem, he⟩ := mem_mismatches.mp hm
  obtain ⟨f, hf, hrun⟩ := hW.scope_of_snapshot hreg item hitem
  obtain ⟨sc, hsc, rfl⟩ := Option.map_eq_some_iff.mp hf
  have hactive : sc.status ≠ .active := by
    intro hactive
    have hnone : entryMismatch db n.runId item = none := by
      refine entryMismatch_eq_none.mpr ⟨sc, liveScope_eq_some.mpr ⟨hsc, hrun⟩, hactive, ?_⟩
      rw [h.active _ sc hsc hactive, hW.version_one hreg item hitem]
    rw [hnone] at he
    cases he
  obtain ⟨cid, c, hc, htarget⟩ := h.inactive _ sc hsc hactive
  have hkey : c.id = cid := Table.key_of_get? hc
  have hc : db.commands.get? c.id = some c := hkey ▸ hc
  obtain ⟨sc', hsc', hscrun, _⟩ := (h.command _ c hc).scope
  rw [htarget, hsc] at hsc'
  obtain rfl := Option.some.inj hsc'
  exact ⟨c, hc, hscrun.symm.trans hrun, htarget.trans (scopeId_of_entryMismatch he).symm⟩

/-- A command is attributed where it reaches. -/
theorem Governs.attributed_iff (h : Governs db c) (hrun : n.runId = c.runId) :
    (mismatchFor (evaluateScopes db n).mismatches c.targetScopeId).any
      (fun m => m.liveVersion = some c.toVersion) = true ↔ c.reaches n := by
  rw [Option.any_eq_true]
  constructor
  · rintro ⟨m, hm, _⟩
    have hfound := List.find?_some hm
    rw [decide_eq_true_eq] at hfound
    exact reaches_of_mismatch (List.mem_reverse.mp (List.mem_of_find?_eq_some hm)) hfound.1
  · intro hn
    obtain ⟨m, hm, hid⟩ := h.exists_mismatch hn
    have hsome : (mismatchFor (evaluateScopes db n).mismatches c.targetScopeId).isSome = true := by
      rw [mismatchFor, List.find?_isSome]
      refine ⟨m, List.mem_reverse.mpr hm, ?_⟩
      simp [hid, (h.mismatch hrun hm hid).1]
    obtain ⟨m', hm'⟩ := Option.isSome_iff_exists.mp hsome
    have hfound := List.find?_some hm'
    rw [decide_eq_true_eq] at hfound
    have hmem := List.mem_reverse.mp (List.mem_of_find?_eq_some hm')
    exact ⟨m', hm', by simpa using (h.mismatch hrun hmem hfound.1).1⟩

/-- **Complete attribution**: the commands an evaluation is attributed to are those of the run
whose target scope occurs in the snapshot. -/
theorem applicableCommands_eq (hC : Controlled db) (n : Node) : applicableCommands db n =
    (db.commands.rows.filter fun c => c.runId = n.runId ∧ c.reaches n).insertionSort
      commandOrder := by
  rw [applicableCommands, commandsForScopeMismatches]
  congr 1
  refine List.filter_congr fun c hc => ?_
  rw [Bool.eq_iff_iff, Bool.and_eq_true, decide_eq_true_eq, decide_eq_true_eq]
  refine and_congr_right fun hrun => ?_
  exact (hC.command c.id c (Table.get?_of_mem hc)).attributed_iff hrun.symm

theorem mem_applicableCommands (hC : Controlled db) : c ∈ applicableCommands db n ↔
    c ∈ db.commands ∧ c.runId = n.runId ∧ c.reaches n := by
  rw [applicableCommands_eq hC, List.mem_insertionSort, List.mem_filter, decide_eq_true_eq]
  exact Iff.rfl

/-! ### What is kept of an attempt -/

/-- `ck_action_result_shape`: a denied attempt has a reason and nothing else, an allowed one has
everything else. -/
def ActionAttempt.resultShape (x : ActionAttempt) : Bool :=
  (decide (x.decision = .deny) && x.denialReason.isSome && x.committedAt.isNone &&
      x.result.isNone && x.resultDigest.isNone) ||
    (decide (x.decision = .allow) && x.denialReason.isNone && x.committedAt.isSome &&
      x.result.isSome && x.resultDigest.isSome)

/-- The constraints of the table of attempts that a row satisfies. -/
structure RowConstraints (db : Database) (x : ActionAttempt) : Prop where
  node : ∃ n, db.nodes.get? x.nodeId = some n ∧ n.runId = x.runId
  scope : ∀ id, x.matchedScopeId = some id → ∃ sc, db.scopes.get? id = some sc ∧ sc.runId = x.runId
  /-- `fk_action_exact_command_scope_version`. -/
  command : ∀ cid, x.matchedCommandId = some cid → ∃ c, db.commands.get? cid = some c ∧
    c.runId = x.runId ∧ x.matchedScopeId = some c.targetScopeId ∧
    x.matchedLiveVersion = some c.toVersion
  matchShape : x.matchShape = true
  resultShape : x.resultShape = true
  unique : ∀ y ∈ db.attempts, y.nodeId = x.nodeId → y.idempotencyKey = x.idempotencyKey → y = x

/-- **What is kept of a denial** by a scope, `a` being the database it was decided on. -/
structure DenialRecorded (a b : Database) (x : ActionAttempt) : Prop where
  attempt : x ∈ b.attempts
  stale : x.denialReason.any ReasonCode.isStale = true
  constraints : RowConstraints b x
  command : x.matchedCommandId.isSome = true
  scope : x.matchedScopeId.isSome = true ∧ x.matchedSnapshotVersion.isSome = true ∧
    x.matchedLiveVersion.isSome = true ∧ x.matchedLiveStatus.isSome = true
  /-- One match and at least one acknowledgement for each of the commands. -/
  matched : ∀ n, a.nodes.get? x.nodeId = some n → ∀ c ∈ a.commands, c.runId = n.runId → c.reaches n →
    (∃! m, m ∈ b.commandMatches ∧ m.actionId = x.id ∧ m.commandId = c.id) ∧
      ∃ k ∈ b.acknowledgements, k.commandId = c.id ∧ k.nodeId = x.nodeId ∧ k.ackType = .gatewayBlock

/-! ### What a denial writes -/

theorem mem_of_insertMatches {matched : List ActionCommandMatch} {t : Table ActionCommandMatch}
    (h : insertMatches db matched = .ok t) : ∀ m ∈ matched, m ∈ t := by
  rw [insertMatches] at h
  generalize db.commandMatches = t₀ at h
  induction matched generalizing t₀ with
  | nil =>
    intro m hm
    cases hm
  | cons m rest ih =>
    simp only [List.foldlM_cons, bind_eq_ok, require_eq_ok] at h
    obtain ⟨t₁, hinsert, hrest⟩ := h
    intro m' hm'
    rcases List.mem_cons.mp hm' with rfl | hm'
    · exact (prefix_foldlM_insert? hrest).subset ((Table.mem_of_insert? hinsert).mpr (Or.inr rfl))
    · exact ih t₁ hrest m' hm'

theorem get?_gatewayAckStep {clock : ℕ → Time} (acc : Database × ℕ) (c : ControlCommand) :
    ((gatewayAckStep n clock acc c).1.acknowledgements.get? (c.id, n.id, .gatewayBlock)).isSome =
      true := by
  rw [gatewayAckStep]
  split
  · next h => rw [h, Option.isSome_some]
  · next h =>
    change ((acc.1.acknowledgements.insertNew (newAck n c .gatewayBlock (clock acc.2))).get?
      (c.id, n.id, .gatewayBlock)).isSome = true
    rw [Table.get?_insertNew, h, Option.none_or]
    exact congrArg Option.isSome (if_pos rfl)

/-- Every command a denial is attributed to is acknowledged. -/
theorem get?_recordGatewayAcks {commands : List ControlCommand} {clock : ℕ → Time}
    (hc : c ∈ commands) : ((recordGatewayAcks a n commands clock).1.acknowledgements.get?
      (c.id, n.id, .gatewayBlock)).isSome = true := by
  have hfold (acc : Database × ℕ) : ((commands.foldl (gatewayAckStep n clock)
      acc).1.acknowledgements.get? (c.id, n.id, .gatewayBlock)).isSome = true := by
    induction commands generalizing acc with
    | nil => cases hc
    | cons command rest ih =>
      rw [List.foldl_cons]
      rcases List.mem_cons.mp hc with rfl | hc
      · obtain ⟨k, hk⟩ := Option.isSome_iff_exists.mp (@get?_gatewayAckStep n clock acc c)
        have hkept := prefix_gatewayAcks n rest clock (gatewayAckStep n clock acc c)
        rw [Table.get?_of_prefix hkept hk, Option.isSome_some]
      · exact ih hc _
  exact hfold (a, 2)

/-- **Where a denied attempt comes from.** -/
theorem execute_denied {nodeId : Id} {token : Token} {request : ActionExecute} {env : Env}
    {done : Commit ActionResult} {x : ActionAttempt} {r : ReasonCode}
    (h : execute cfg db nodeId token request env = .ok done) (hx : x ∈ done.db.attempts)
    (hnew : x ∉ db.attempts) (hr : x.denialReason = some r) :
    ∃ node run spec d, db.nodes.get? nodeId = some node ∧
      admission cfg db run node request spec (env.clock 0) = .ok (some r) ∧
      x = newAttempt cfg db node request spec (some r) env ∧
      denyAction db node x r env = .ok d ∧ done.db = d.db := by
  simp only [execute, bind_eq_ok, authenticateNode_eq_ok] at h
  obtain ⟨node, ⟨hnode, _⟩, h⟩ := h
  split at h
  · simp only [bind_eq_ok, ensure_eq_ok, pure_eq_ok] at h
    obtain ⟨_, _, rfl⟩ := h
    exact absurd hx hnew
  simp only [bind_eq_ok, pure_eq_ok] at h
  obtain ⟨d, hd, rfl⟩ := h
  simp only [executeNew, bind_eq_ok, getRun_eq_ok, ensure_eq_ok] at hd
  obtain ⟨_, _, spec, _, _, _, run, _, denial, hadmission, hd⟩ := hd
  -- The only new attempt is the one that is inserted.
  have hinserted {attempt : ActionAttempt} {attempts : Table ActionAttempt}
      (hinsert : insertAttempt db attempt = .ok attempts) (hx : x ∈ attempts) : x = attempt := by
    rw [← Table.mem_rows, (insertAttempt_eq_ok hinsert).1, List.mem_append, List.mem_singleton] at hx
    exact hx.resolve_left hnew
  cases denial with
  | some reason =>
    have hdeny : denyAction db node (newAttempt cfg db node request spec (some reason) env) reason
        env = .ok d := hd
    simp only [denyAction, bind_eq_ok, pure_eq_ok] at hd
    obtain ⟨attempts, hattempts, _, _, hdb⟩ := hd
    have hattempt : x = newAttempt cfg db node request spec (some reason) env := by
      refine hinserted hattempts ?_
      rw [← hdb, recordGatewayAcks_eq] at hx
      split at hx <;> exact hx
    obtain rfl : reason = r := by
      rw [hattempt] at hr
      exact Option.some.inj hr
    exact ⟨node, run, spec, d, hnode, hadmission, hattempt, hattempt ▸ hdeny, rfl⟩
  | none =>
    simp only [allowAction, bind_eq_ok, pure_eq_ok] at hd
    obtain ⟨_, _, attempts, hattempts, rfl⟩ := hd
    rw [hinserted hattempts hx] at hr
    cases hr

/-- The mismatch a denial by a scope is matched with. -/
theorem exists_matchedMismatch (hC : Controlled db) (hW : db.registry.WellFormed)
    (hn : db.nodes.get? n.id = some n) (hcut : (evaluateScopes db n).allowed = false)
    {r : ReasonCode} (hr : r = (evaluateScopes db n).primaryReason.getD .scopeInvalid) :
    r.isStale = true ∧ ∃ c m, c ∈ applicableCommands db n ∧
      (attributedCommands db n (some r)).getLast? = some c ∧
      matchedMismatch db n (some r) = some m ∧ m.scopeId = c.targetScopeId ∧
      m.liveVersion = some c.toVersion ∧ m.liveStatus = some c.commandType.scopeStatus := by
  obtain ⟨c₀, hc₀, hreaches₀⟩ := hC.exists_reaches hW hn hcut
  have hrun₀ := ((hC.command _ c₀ hc₀).reaches_iff hW hn).mp hreaches₀
  have happlies : c₀ ∈ applicableCommands db n :=
    (mem_applicableCommands hC).mpr ⟨Table.mem_of_get? hc₀, hrun₀.1.symm, hreaches₀⟩
  obtain ⟨m₀, hm₀, _⟩ := (hC.command _ c₀ hc₀).exists_mismatch hreaches₀
  -- The reason is that of the first mismatch.
  have hstale : r.isStale = true := by
    obtain ⟨first, hfirst⟩ : ∃ first, (evaluateScopes db n).mismatches.head? = some first :=
      Option.isSome_iff_exists.mp (List.isSome_head?.mpr (List.ne_nil_of_mem hm₀))
    obtain ⟨c, hc, hrun, htarget⟩ := hC.exists_command hW hn (List.mem_of_head? hfirst)
    rw [hr, ScopeEvaluation.primaryReason, hfirst]
    exact ((hC.command _ c hc).mismatch hrun.symm (List.mem_of_head? hfirst) htarget.symm).2.2
  have hattributed : attributedCommands db n (some r) = applicableCommands db n := by
    simp [attributedCommands, hstale]
  obtain ⟨c, hlast⟩ : ∃ c, (applicableCommands db n).getLast? = some c :=
    Option.isSome_iff_exists.mp (List.getLast?_isSome.mpr (List.ne_nil_of_mem happlies))
  have hc : c ∈ applicableCommands db n := List.mem_of_getLast? hlast
  obtain ⟨hmem, hrun, hreaches⟩ := (mem_applicableCommands hC).mp hc
  have hgoverns := hC.command _ c (Table.get?_of_mem hmem)
  obtain ⟨m', hm', hid'⟩ := hgoverns.exists_mismatch hreaches
  obtain ⟨m, hfind⟩ : ∃ m, (evaluateScopes db n).mismatches.find?
      (fun m => m.scopeId = c.targetScopeId) = some m := by
    refine Option.isSome_iff_exists.mp (List.find?_isSome.mpr ⟨m', hm', ?_⟩)
    simpa using hid'
  have hid : m.scopeId = c.targetScopeId := by simpa using List.find?_some hfind
  obtain ⟨hversion, hstatus, _⟩ :=
    hgoverns.mismatch hrun.symm (List.mem_of_find?_eq_some hfind) hid
  refine ⟨hstale, c, m, hc, hattributed ▸ hlast, ?_, hid, hversion, hstatus⟩
  simp [matchedMismatch, hattributed, hstale, hlast, hfind]

/-- The columns of a stale denial. -/
theorem newAttempt_columns (request : ActionExecute) (spec : ToolSpec) (env : Env) {r : ReasonCode}
    {m : ScopeMismatch} (hlast : (attributedCommands db n (some r)).getLast? = some c)
    (hmatched : matchedMismatch db n (some r) = some m) (hid : m.scopeId = c.targetScopeId)
    (hversion : m.liveVersion = some c.toVersion)
    (hstatus : m.liveStatus = some c.commandType.scopeStatus) :
    (newAttempt cfg db n request spec (some r) env).matchedCommandId = some c.id ∧
      (newAttempt cfg db n request spec (some r) env).matchedScopeId = some c.targetScopeId ∧
      (newAttempt cfg db n request spec (some r) env).matchedSnapshotVersion =
        some m.snapshotVersion ∧
      (newAttempt cfg db n request spec (some r) env).matchedLiveVersion = some c.toVersion ∧
      (newAttempt cfg db n request spec (some r) env).matchedLiveStatus =
        some c.commandType.scopeStatus := by
  refine ⟨congrArg (Option.map ControlCommand.id) hlast, ?_,
    congrArg (Option.map ScopeMismatch.snapshotVersion) hmatched, ?_, ?_⟩
  · rw [← hid]
    exact congrArg (Option.map ScopeMismatch.scopeId) hmatched
  · rw [← hversion]
    exact congrArg (Option.bind · ScopeMismatch.liveVersion) hmatched
  · rw [← hstatus]
    exact congrArg (Option.bind · ScopeMismatch.liveStatus) hmatched

/-- What a denial writes: the attempt, a match for each command that has a mismatch, and an
acknowledgement to each command. -/
theorem denyAction_records {x : ActionAttempt} {r : ReasonCode} {env : Env}
    {d : Commit ActionAttempt} (h : denyAction db n x r env = .ok d) :
    x ∈ d.db.attempts ∧
      (∀ m ∈ commandMatches db n x.id (attributedCommands db n (some r)), m ∈ d.db.commandMatches) ∧
      ∀ c ∈ attributedCommands db n (some r),
        (d.db.acknowledgements.get? (c.id, n.id, .gatewayBlock)).isSome = true := by
  simp only [denyAction, bind_eq_ok, pure_eq_ok] at h
  obtain ⟨attempts, hattempts, matched, hmatched, rfl⟩ := h
  have hx : x ∈ attempts := by
    rw [← Table.mem_rows, (insertAttempt_eq_ok hattempts).1, List.mem_append, List.mem_singleton]
    exact Or.inr rfl
  refine ⟨?_, fun m hm => ?_, fun c hc => get?_recordGatewayAcks hc⟩
  · rw [recordGatewayAcks_eq]
    split <;> exact hx
  · have hmem := mem_of_insertMatches hmatched m hm
    rw [recordGatewayAcks_eq]
    split <;> exact hmem

/-- The match of a denied attempt with a command that reaches its node. -/
theorem exists_commandMatch (hC : Controlled db) {attemptId : Id} {commands : List ControlCommand}
    (hmem : c ∈ commands) (hc : c ∈ applicableCommands db n) :
    ∃ m ∈ commandMatches db n attemptId commands, m.actionId = attemptId ∧ m.commandId = c.id := by
  obtain ⟨hstored, hrun, hreaches⟩ := (mem_applicableCommands hC).mp hc
  have hgoverns := hC.command _ c (Table.get?_of_mem hstored)
  obtain ⟨m', hm', hid'⟩ := hgoverns.exists_mismatch hreaches
  obtain ⟨m, hfind⟩ : ∃ m, (evaluateScopes db n).mismatches.find?
      (fun m => m.scopeId = c.targetScopeId) = some m := by
    refine Option.isSome_iff_exists.mp (List.find?_isSome.mpr ⟨m', hm', ?_⟩)
    simpa using hid'
  have hid : m.scopeId = c.targetScopeId := by simpa using List.find?_some hfind
  obtain ⟨hversion, hstatus, _⟩ :=
    hgoverns.mismatch hrun.symm (List.mem_of_find?_eq_some hfind) hid
  refine ⟨⟨n.runId, attemptId, c.id, m.scopeId, m.snapshotVersion, c.toVersion,
    c.commandType.scopeStatus⟩, List.mem_filterMap.mpr ⟨c, hmem, ?_⟩, rfl, rfl⟩
  simp [hfind, hversion, hstatus]

/-- **A denial by a scope is recorded**, and stays recorded. -/
theorem denialRecorded (hC : Controlled a) (hW : a.registry.WellFormed) {nodeId : Id}
    {token : Token} {request : ActionExecute} {env : Env} {done : Commit ActionResult}
    {x : ActionAttempt} {r : ReasonCode} (h : execute cfg a nodeId token request env = .ok done)
    (hx : x ∈ done.db.attempts) (hnew : x ∉ a.attempts) (hr : x.denialReason = some r)
    (hscope : r.isScope = true) (he : Evolves a b) (he' : Evolves done.db b) (hl : Logged done.db b)
    (hS : Settled b) : DenialRecorded a b x := by
  obtain ⟨node, run, spec, d, hnode, hadmission, hattempt, hdeny, hdb⟩ := execute_denied h hx hnew hr
  have hfound : a.nodes.get? node.id = some node := found_of_get? hnode
  obtain ⟨_, _, _, hcut, hreason⟩ := admission_scope hadmission hscope
  obtain ⟨hstale, c, m, hc, hlast, hmatched, hid, hversion, hstatus⟩ :=
    exists_matchedMismatch hC hW hfound hcut hreason
  obtain ⟨hstored, hrun, _⟩ := (mem_applicableCommands hC).mp hc
  have hgoverns := hC.command _ c (Table.get?_of_mem hstored)
  obtain ⟨_, hmatches, hacks⟩ := denyAction_records hdeny
  have hxnode : x.nodeId = node.id := congrArg ActionAttempt.nodeId hattempt
  have hxrun : x.runId = node.runId := congrArg ActionAttempt.runId hattempt
  have hcolumns := @newAttempt_columns cfg a c node request spec env r m hlast hmatched hid hversion
    hstatus
  rw [← hattempt] at hcolumns
  obtain ⟨hxcommand, hxscope, hxsnapshot, hxlive, hxstatus⟩ := hcolumns
  have hattributed : attributedCommands a node (some r) = applicableCommands a node := by
    simp [attributedCommands, hstale]
  have hkept : x ∈ b.attempts := he'.attempt.subset hx
  refine ⟨hkept, by simp [hr, hstale], ⟨?_, fun id hsid => ?_, fun cid hcid => ?_, ?_, ?_, ?_⟩,
    by rw [hxcommand]; rfl, ⟨by rw [hxscope]; rfl, by rw [hxsnapshot]; rfl, by rw [hxlive]; rfl,
      by rw [hxstatus]; rfl⟩, fun n hn c' hc' hrun' hreaches' => ?_⟩
  · obtain ⟨n', hn', hreg⟩ := he.node_registration hfound
    exact ⟨n', hxnode ▸ hn', (congrArg Registration.runId hreg).trans hxrun.symm⟩
  · obtain rfl := Option.some.inj (hxscope.symm.trans hsid)
    obtain ⟨sc, hsc, hscrun, hscstatus, _⟩ := hgoverns.scope
    obtain ⟨sc', hsc', _, hsame⟩ := he.scope _ sc hsc
    obtain rfl := hsame (hscstatus ▸ scopeStatus_ne_active c.commandType)
    exact ⟨sc', hsc', hscrun.trans (hrun.trans hxrun.symm)⟩
  · obtain rfl := Option.some.inj (hxcommand.symm.trans hcid)
    obtain ⟨c', hc', hissued⟩ := he.command c.id c (Table.get?_of_mem hstored)
    refine ⟨c', hc', ?_, ?_, ?_⟩
    · exact (issued_column (·.runId) (fun _ => rfl) hissued).trans (hrun.trans hxrun.symm)
    · rw [hxscope, issued_column (·.targetScopeId) (fun _ => rfl) hissued]
    · rw [hxlive, issued_column (·.toVersion) (fun _ => rfl) hissued]
  · simp [ActionAttempt.matchShape, hxcommand, hxscope, hxsnapshot, hxlive, hxstatus]
  · rw [hattempt]
    rfl
  · intro y hy hsame hkey
    exact hS.once y hy x hkept hsame hkey
  · obtain rfl := Option.some.inj (hfound.symm.trans (hxnode ▸ hn))
    have happlies : c' ∈ applicableCommands a node :=
      (mem_applicableCommands hC).mpr ⟨hc', hrun', hreaches'⟩
    constructor
    · obtain ⟨row, hrow, haction, hcommand⟩ :=
        exists_commandMatch hC (hattributed.symm ▸ happlies) happlies
      have hmem : row ∈ b.commandMatches := hl.commandMatches.subset (hdb ▸ hmatches row hrow)
      refine ⟨row, ⟨hmem, haction, hcommand⟩, fun row' hrow' => ?_⟩
      refine Table.eq_of_key_eq hrow'.1 hmem ?_
      exact Prod.ext (hrow'.2.1.trans haction.symm) (hrow'.2.2.trans hcommand.symm)
    · obtain ⟨k, hk⟩ := Option.isSome_iff_exists.mp (hacks c' (hattributed.symm ▸ happlies))
      have hkept : b.acknowledgements.get? (c'.id, node.id, .gatewayBlock) = some k :=
        Table.get?_of_prefix hl.acknowledgements (hdb ▸ hk)
      have hkey : (k.commandId, k.nodeId, k.ackType) = (c'.id, node.id, .gatewayBlock) :=
        Table.key_of_get? hkept
      simp only [Prod.mk.injEq] at hkey
      exact ⟨k, Table.mem_of_get? hkept, hkey.1, hkey.2.1.trans hxnode.symm, hkey.2.2⟩

/-! ### Reachable states -/

/-- A step that adds an attempt is a call of the gateway. -/
theorem step_execute {l : Label} {s' : Sys} (h : (services cfg).Step s l s') {x : ActionAttempt}
    (hx : x ∈ s'.db.attempts) (hnew : x ∉ s.db.attempts) :
    ∃ nodeId token request env done, l = .call (.execute nodeId token request) env ∧
      execute cfg s.db nodeId token request env = .ok done ∧ s'.db = done.db := by
  have hlabel : x ∈ s.db.attempts ∨
      ∃ nodeId token request env, l = .call (.execute nodeId token request) env := by
    refine (step_writes h).preserve (I := fun b => x ∈ b.attempts → x ∈ s.db.attempts ∨
      ∃ nodeId token request env, l = .call (.execute nodeId token request) env) Or.inl ?_ hx
    intro w a b ha hw he hb
    rcases he.attempts_cases with hsame | ⟨_, _, ⟨rfl, _⟩ | ⟨_, _, rfl, _⟩⟩
    · exact ha (hsame ▸ hb)
    · cases hw
      exact Or.inr ⟨_, _, _, _, rfl⟩
    · cases hw
      exact Or.inr ⟨_, _, _, _, rfl⟩
  obtain ⟨nodeId, token, request, env, rfl⟩ := hlabel.resolve_left hnew
  have hnext : s' = s.next cfg (.call (.execute nodeId token request) env) := h.2.symm
  cases hrun : execute cfg s.db nodeId token request env with
  | error e =>
    rw [hnext] at hx
    simp only [Sys.next, Call.run, hrun] at hx
    exact absurd hx hnew
  | ok done =>
    refine ⟨nodeId, token, request, env, done, rfl, hrun, ?_⟩
    rw [hnext]
    simp only [Sys.next, Call.run, hrun]
    rfl

/-- The row of a denial by a scope satisfies `ck_action_match_shape`. -/
theorem matchShape_of_scope (hC : Controlled db) (hW : db.registry.WellFormed)
    (hn : db.nodes.get? n.id = some n) {run : Run} {request : ActionExecute} {spec : ToolSpec}
    {env : Env} {r : ReasonCode}
    (hadmission : admission cfg db run n request spec (env.clock 0) = .ok (some r))
    (hscope : r.isScope = true) :
    (newAttempt cfg db n request spec (some r) env).matchShape = true := by
  obtain ⟨_, _, _, hcut, hreason⟩ := admission_scope hadmission hscope
  obtain ⟨_, c, m, _, hlast, hmatched, _, hversion, hstatus⟩ :=
    exists_matchedMismatch hC hW hn hcut hreason
  simp [ActionAttempt.matchShape, newAttempt, hlast, hmatched, hversion, hstatus]

/-- **The ledger of scopes and commands.** In every reachable state a scope is open, or closed by
one command; the commands of an evaluation are those whose target occurs in the snapshot; and a
denial by a scope is never stopped by its row constraints and is recorded for good. -/
theorem scope_ledger (hs : (services cfg).Reachable s) :
    (∀ sc ∈ s.db.scopes, LedgerEntry s.db sc) ∧
    (∀ n ∈ s.db.nodes,
      commandsForScopeMismatches s.db (evaluateScopes s.db n).mismatches n.runId =
        (s.db.commands.rows.filter fun c => c.runId = n.runId ∧ c.reaches n).insertionSort
          commandOrder) ∧
    (∀ n ∈ s.db.nodes, ∀ run request spec env r,
      admission cfg s.db run n request spec (env.clock 0) = .ok (some r) → r.isScope = true →
        (newAttempt cfg s.db n request spec (some r) env).matchShape = true) ∧
    ∀ l s₁, (services cfg).Step s l s₁ → ∀ x ∈ s₁.db.attempts, x ∉ s.db.attempts →
      ∀ r, x.denialReason = some r → r.isScope = true →
        ∀ s₂, (services cfg).Run s₁ s₂ → DenialRecorded s.db s₂.db x := by
  have hC := controlled hs
  have hW := registry_wellFormed hs
  refine ⟨fun sc hsc => ledgerEntry hC (soleTargets hs) hsc, fun n _ => applicableCommands_eq hC n,
    fun n hn run request spec env r => matchShape_of_scope hC hW (Table.get?_of_mem hn), ?_⟩
  intro l s₁ hstep x hx hnew r hr hscope s₂ hrun
  obtain ⟨nodeId, token, request, env, done, _, hexecute, hdone⟩ := step_execute hstep hx hnew
  have hlater : Evolves s₁.db s₂.db := run_evolves hrun
  exact denialRecorded hC hW hexecute (hdone ▸ hx) hnew hr hscope
    ((step_evolves hstep).trans hlater) (hdone ▸ hlater) (hdone ▸ run_logged hrun)
    (settled ((hs.step hstep).run hrun))

/-- The worker of the sample run asks for a tool after it has been cancelled. -/
def sampleAsk : Label :=
  .call (.execute 20 30 { idempotencyKey := "first", toolName := "read_metrics" }) (sampleEnv 4 50)

/-- Its attempt is recorded under the command that cancelled it. -/
theorem scope_ledger_sample : ∃ x ∈ (sample (sampleCancelled ++ [sampleAsk])).db.attempts,
    DenialRecorded (sample sampleCancelled).db (sample (sampleCancelled ++ [sampleAsk])).db x := by
  have hempty : (sample sampleCancelled).db.attempts.rows.isEmpty = true := by decide +kernel
  have hdenied : (sample (sampleCancelled ++ [sampleAsk])).db.attempts.rows.any
      (fun x => x.denialReason = some .scopeCancelled) = true := by decide +kernel
  obtain ⟨x, hx, hr⟩ := List.any_eq_true.mp hdenied
  rw [decide_eq_true_eq] at hr
  have hnew : x ∉ (sample sampleCancelled).db.attempts := by
    intro hold
    rw [← Table.mem_rows, List.isEmpty_iff.mp hempty] at hold
    cases hold
  exact ⟨x, hx, (scope_ledger (sample_reachable sampleCancelled)).2.2.2 _ _
    (sample_step sampleCancelled sampleAsk) x hx hnew _ hr rfl _ System.Run.refl⟩

end TraceFence
