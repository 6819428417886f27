import TraceFence.Effect.Refinement

/-!
# Commands, the gateway and the scanner as sequences of entries

## Main results

* `issueCommand_eq_ok` — what a command that is not a replay has been checked for
* `issueCommand_cases`, `execute_entries`, `expireStaleNodes_entries`, `seedWrite_entries`
* `createProposal_booked`, `reviewProposal_booked` — nothing but a proposal is written
-/

namespace TraceFence

open Checked

variable {cfg : Config} {db db' : Database} {P : Write → Prop}

/-! ### Commands -/

/-- A replay changes nothing and says that it is one. -/
theorem replayCommand_eq_ok {runId : Id} {fingerprint : String} {request : CommandCreate}
    {c : Commit CommandIssued} (h : replayCommand cfg db runId fingerprint request = .ok c) :
    c.db = db ∧ c.value.duplicate = true := by
  rw [replayCommand] at h
  split at h
  · cases h
  · split at h
    · cases h
      exact ⟨rfl, rfl⟩
    · cases h

theorem insertCommand?_eq_some {command : ControlCommand} {commands : Table ControlCommand}
    (h : insertCommand? db command = some commands) :
    db.commands.insert? command = some commands := by
  rw [insertCommand?] at h
  split at h
  · exact h
  · cases h

/-- The proposals after a command: the one it was issued for points to it. -/
def usedProposals (db : Database) (source : Option Id) (commandId : Id) :
    Table CorrectionProposal :=
  (source.map fun proposalId => db.proposals.modify proposalId fun row =>
    { row with resultingCommandId := some commandId }).getD db.proposals

/-- What has been checked for a command that `issue_command` has accepted, and what it leaves
behind. -/
structure Acceptance (cfg : Config) (db : Database) (request : CommandCreate) (principal : Principal)
    (nodeToken : Option Token) (env : Env) (c : Commit CommandIssued) (target : Node) (run : Run)
    (issuer : Issuer) (source : Option Id) (plan : CommandPlan) (scope : ControlScope) : Prop where
  targetFound : db.nodes.get? request.targetNodeId = some target
  runFound : db.runs.get? target.runId = some run
  authentic : authenticateIssuer cfg db principal nodeToken = .ok issuer
  authority : authorizeCommand db principal issuer target run request.commandType = .ok ()
  live : requireIssuerLive db issuer (env.clock 0) = .ok ()
  running : run.status = .running
  quota : (db.commands.rows.countP fun c => c.runId = run.id) < cfg.maxCommandsPerRun
  proposal : findSourceProposal cfg db run target request = .ok source
  planned : planCommand cfg db run target request env = .ok plan
  scopeFound : db.scopes.get? plan.targetScopeId = some scope
  scopeRun : scope.runId = run.id
  active : scope.status = .active
  finish : cancelledRuns db request run env = .ok c.db.runs
  inserted : insertCommand? db (newCommand cfg request principal issuer run target source plan
    scope.version env) = some c.db.commands
  commit : c = ⟨{ db with
      scopes := invalidateScope db scope.id request.commandType.scopeStatus
        (issuer.node.map (·.id)) request.reasonCode (env.clock 6)
      runs := c.db.runs
      serviceStates := plan.serviceStates
      commands := c.db.commands
      proposals := usedProposals db source (env.uuid 0)
      events := db.events ++ commandEvents (newCommand cfg request principal issuer run target
        source plan scope.version env) (env.clock 6) },
    some (env.clock 8), toResponse (newCommand cfg request principal issuer run target source plan
      scope.version env) false⟩

/-- **A call of `issue_command` replays a command or has accepted a new one.** -/
theorem issueCommand_eq_ok {request : CommandCreate} {principal : Principal}
    {nodeToken : Option Token} {env : Env} {c : Commit CommandIssued}
    (h : issueCommand cfg db request principal nodeToken env = .ok c) :
    (c.db = db ∧ c.value.duplicate = true) ∨ ∃ target run issuer source plan scope,
      Acceptance cfg db request principal nodeToken env c target run issuer source plan scope := by
  simp only [issueCommand, bind_eq_ok, ensure_eq_ok, getNode_eq_ok, getRun_eq_ok] at h
  obtain ⟨_, -, target, htarget, run, hrun, issuer, hissuer, _, hauthority, h⟩ := h
  split at h
  · simp only [bind_eq_ok, ensure_eq_ok, pure_eq_ok] at h
    obtain ⟨_, _, rfl⟩ := h
    exact Or.inl ⟨rfl, rfl⟩
  simp only [issueNewCommand, bind_eq_ok, ensure_eq_ok] at h
  obtain ⟨_, _, _, hlive, _, hrunning, _, hroom, source, hsource, plan, hplan, h⟩ := h
  simp only [commitCommand, bind_eq_ok, ensure_eq_ok, require_eq_ok, Option.filter_eq_some_iff,
    decide_eq_true_eq] at h
  obtain ⟨scope, ⟨hscope, hscopeRun⟩, _, hactive, runs, hruns, h⟩ := h
  split at h
  · exact Or.inl (replayCommand_eq_ok h)
  · next commands hinsert =>
    cases pure_eq_ok.mp h
    refine Or.inr ⟨target, run, issuer, source, plan, scope, htarget, hrun, hissuer, hauthority,
      hlive, hrunning, hroom, hsource, hplan, hscope, hscopeRun, hactive, hruns, hinsert, ?_⟩
    cases source <;> rfl

/-- **A call of `issue_command` issues one command or none.** -/
theorem issueCommand_cases {request : CommandCreate} {principal : Principal}
    {nodeToken : Option Token} {env : Env} {c : Commit CommandIssued}
    (h : issueCommand cfg db request principal nodeToken env = .ok c) :
    c.db = db ∨ ∃ command, Entry cfg (.issue command) (commandEvents command (env.clock 6)) db
        { c.db with proposals := db.proposals } ∧
      command.createdAt = env.clock 8 ∧ c.read = some (env.clock 8) := by
  rcases issueCommand_eq_ok h with ⟨hsame, -⟩ | ⟨target, run, issuer, source, plan, scope, hc⟩
  · exact Or.inl hsame
  · have heffect := Effect.issue (found_of_get? hc.targetFound) hc.runFound hc.running hc.authority
      hc.planned hc.scopeFound hc.scopeRun hc.active hc.finish (insertCommand?_eq_some hc.inserted)
    rw [hc.commit]
    exact Or.inr ⟨_, .write (.issue _ _) heffect {}, rfl, rfl⟩

theorem issueCommand_booked {request : CommandCreate} {principal : Principal}
    {nodeToken : Option Token} {env : Env} {c : Commit CommandIssued}
    (h : issueCommand cfg db request principal nodeToken env = .ok c)
    (hissue : ∀ command : ControlCommand, command.createdAt = env.clock 8 →
      c.read = some (env.clock 8) → P (.issue command)) : Booked cfg P db c.db := by
  rcases issueCommand_cases h with he | ⟨command, hentry, hat, hread⟩
  · rw [he]
    exact Entries.refl.booked
  · exact ⟨_, .single (hissue command hat hread) hentry, rfl⟩

/-! ### The gateway -/

theorem recordGatewayAcks_eq (node : Node) (commands : List ControlCommand) (clock : ℕ → Time) :
    (recordGatewayAcks db node commands clock).1 =
      { db with
        acknowledgements := (recordGatewayAcks db node commands clock).1.acknowledgements } := by
  have h : ∀ (commands : List ControlCommand) (db : Database) (i : ℕ),
      (commands.foldl (gatewayAckStep node clock) (db, i)).1 =
        { db with
          acknowledgements :=
            (commands.foldl (gatewayAckStep node clock) (db, i)).1.acknowledgements } := by
    intro commands
    induction commands with
    | nil => exact fun _ _ => rfl
    | cons command rest ih =>
      intro db i
      rw [List.foldl_cons]
      have hstep : (gatewayAckStep node clock (db, i) command).1 =
          { db with
            acknowledgements := (gatewayAckStep node clock (db, i) command).1.acknowledgements } := by
        rw [gatewayAckStep]
        split <;> rfl
      rw [ih, hstep]
  exact h commands db 2

theorem prefix_gatewayAcks (node : Node) (commands : List ControlCommand) (clock : ℕ → Time)
    (acc : Database × ℕ) : acc.1.acknowledgements.rows <+:
      (commands.foldl (gatewayAckStep node clock) acc).1.acknowledgements.rows := by
  induction commands generalizing acc with
  | nil => exact List.prefix_rfl
  | cons command rest ih =>
    have hstep : acc.1.acknowledgements.rows <+:
        (gatewayAckStep node clock acc command).1.acknowledgements.rows := by
      rw [gatewayAckStep]
      split
      · exact List.prefix_rfl
      · exact Table.prefix_insertNew _ _
    exact hstep.trans (ih _)

theorem prefix_recordGatewayAcks (a : Database) (node : Node) (commands : List ControlCommand)
    (clock : ℕ → Time) : a.acknowledgements.rows <+:
      (recordGatewayAcks a node commands clock).1.acknowledgements.rows :=
  prefix_gatewayAcks node commands clock (a, 2)

theorem prefix_foldlM_insert? {matched : List ActionCommandMatch} {t₀ t : Table ActionCommandMatch}
    {e : Failure} (h : matched.foldlM (fun t m => require (t.insert? m) e) t₀ = .ok t) :
    t₀.rows <+: t.rows := by
  induction matched generalizing t₀ with
  | nil =>
    cases pure_eq_ok.mp h
    exact List.prefix_rfl
  | cons m rest ih =>
    simp only [List.foldlM_cons, bind_eq_ok, require_eq_ok] at h
    obtain ⟨t₁, hinsert, hrest⟩ := h
    exact (Table.prefix_of_insert? hinsert).trans (ih hrest)

/-- The reasons of an evaluation that does not allow. -/
def ReasonCode.isScope : ReasonCode → Bool
  | .scopeNotFound | .scopeCancelled | .scopeSuperseded | .scopeVersionMismatch
  | .scopeInvalid => true
  | _ => false

theorem ReasonCode.isScope_of_isStale {reason : ReasonCode} (h : reason.isStale = true) :
    reason.isScope = true := by
  cases reason <;> first | rfl | cases h

theorem manifestDenial_not_scope {node : Node} {command : ControlCommand} {request : ActionExecute}
    {spec : ToolSpec} {manifest : ReplacementManifest} {reason : ReasonCode}
    (h : manifestDenial cfg db node command request spec manifest = some reason) :
    reason.isScope = false := by
  simp only [manifestDenial] at h
  repeat' split at h
  all_goals first
    | (obtain rfl := Option.some.inj h; rfl)
    | cases h

/-- No denial of the recovery contract is about a scope. -/
theorem recoveryContractDenial_not_scope {node : Node} {request : ActionExecute} {spec : ToolSpec}
    {reason : ReasonCode} (h : recoveryContractDenial cfg db node request spec = some reason) :
    reason.isScope = false := by
  simp only [recoveryContractDenial] at h
  repeat' split at h
  all_goals first
    | (obtain rfl := Option.some.inj h; rfl)
    | exact manifestDenial_not_scope h
    | cases h

/-- What an admission denies an action for because of a scope: a live node of a running run fails
against its snapshot. -/
theorem admission_scope {run : Run} {node : Node} {request : ActionExecute} {spec : ToolSpec}
    {now : Time} {reason : ReasonCode}
    (h : admission cfg db run node request spec now = .ok (some reason))
    (hscope : reason.isScope = true) :
    run.status = .running ∧ node.status.isLive = true ∧ node.leaseExpired now = false ∧
      (evaluateScopes db node).allowed = false ∧
      reason = (evaluateScopes db node).primaryReason.getD .scopeInvalid := by
  simp only [admission] at h
  split at h
  · cases pure_eq_ok.mp h
    cases hscope
  next hr =>
  split at h
  · cases pure_eq_ok.mp h
    cases hscope
  next hs =>
  split at h
  · cases pure_eq_ok.mp h
    cases hscope
  next hx =>
  split at h
  · next he =>
    have hreason := Option.some.inj (pure_eq_ok.mp h)
    exact ⟨not_not.mp hr, by simpa using hs, by simpa using hx, by simpa using he, hreason.symm⟩
  split at h
  · next hd =>
    cases pure_eq_ok.mp h
    rw [recoveryContractDenial_not_scope hd] at hscope
    cases hscope
  · split at h
    · cases pure_eq_ok.mp h
      cases hscope
    · simp only [bind_eq_ok, pure_eq_ok] at h
      obtain ⟨_, _, h⟩ := h
      cases h

theorem admission_none {run : Run} {node : Node} {request : ActionExecute} {spec : ToolSpec}
    {now : Time} (hrun : db.runs.get? node.runId = some run)
    (h : admission cfg db run node request spec now = .ok none) :
    Live db node now ∧ recoveryContractDenial cfg db node request spec = none ∧
      spec.capability ∈ node.capabilities := by
  simp only [admission] at h
  split at h
  · cases pure_eq_ok.mp h
  next hr =>
  split at h
  · cases pure_eq_ok.mp h
  next hs =>
  split at h
  · cases pure_eq_ok.mp h
  next hx =>
  split at h
  · cases pure_eq_ok.mp h
  next he =>
  split at h
  · cases pure_eq_ok.mp h
  next hd =>
  split at h
  · cases pure_eq_ok.mp h
  next hc =>
  exact ⟨⟨⟨run, hrun, not_not.mp hr⟩, by simpa using hs, by simpa using hx, by simpa using he⟩, hd,
    not_not.mp hc⟩

theorem execute_entries {nodeId : Id} {token : Token} {request : ActionExecute} {env : Env}
    {c : Commit ActionResult} (h : execute cfg db nodeId token request env = .ok c)
    (hdeny : ∀ attempt, P (.deny attempt))
    (hconverge : ∀ node, db.nodes.get? nodeId = some node → RunRunning db node.runId →
      node.status.isLive = true → (evaluateScopes db node).allowed = false →
      P (.converge .gateway (standing db node)))
    (hallow : ∀ node attempt, db.nodes.get? nodeId = some node →
      P (.allow (standing db node) (env.clock 0) attempt)) : Entries cfg P db c.db := by
  simp only [execute, bind_eq_ok, authenticateNode_eq_ok] at h
  obtain ⟨node, ⟨hnode, _⟩, h⟩ := h
  have hfound := found_of_get? hnode
  split at h
  · simp only [bind_eq_ok, ensure_eq_ok, pure_eq_ok] at h
    obtain ⟨_, _, rfl⟩ := h
    exact .refl
  simp only [bind_eq_ok, pure_eq_ok] at h
  obtain ⟨done, hdone, rfl⟩ := h
  simp only [executeNew, bind_eq_ok, getRun_eq_ok, ensure_eq_ok] at hdone
  obtain ⟨_, _, spec, hspec, _, _, run, hrun, denial, hadmission, hdone⟩ := hdone
  cases denial with
  | some reason =>
    simp only [denyAction, bind_eq_ok, pure_eq_ok] at hdone
    obtain ⟨attempts, hattempts, matched, hmatched, rfl⟩ := hdone
    have hd := @Effect.deny cfg _ _ _ rfl hattempts
    have hkept : db.commandMatches.rows <+: matched.rows := prefix_foldlM_insert? hmatched
    split
    · next hstale =>
      obtain ⟨hr, hs, hx, he, _⟩ :=
        admission_scope hadmission (ReasonCode.isScope_of_isStale hstale)
      have hbooked : Entry cfg _ _ db { db with
          attempts := attempts, commandMatches := matched,
          events := db.events ++ [requestedEvent _, deniedEvent _ reason] } :=
        .deny hd hkept {}
      refine (Entries.single (hdeny _) hbooked).tail (hconverge node hnode ⟨run, hrun, hr⟩ hs he)
        (.write (.converge .gateway (standing db node))
          (@Effect.converge cfg { db with
            attempts := attempts, commandMatches := matched, events := _ } node _ .gateway hfound
              ⟨run, hrun, hr⟩ hs hx he) ?_)
      have hacks := prefix_recordGatewayAcks (setStatus { db with
        attempts := attempts, commandMatches := matched } node.id
          (evaluateScopes db node).effectiveStatus) node
        (attributedCommands db node (some reason)) env.clock
      rw [recordGatewayAcks_eq]
      exact { acknowledgements := hacks, events := (List.append_nil _).symm }
    · refine .single (hdeny _) (@Entry.deny cfg _ reason _ _ _ _ hd hkept ?_)
      rw [recordGatewayAcks_eq]
      exact {
        acknowledgements := prefix_recordGatewayAcks
          { db with attempts := attempts, commandMatches := matched } _ _ _ }
  | none =>
    obtain ⟨hlive, hcontract, hcapability⟩ := admission_none hrun hadmission
    simp only [allowAction, bind_eq_ok, pure_eq_ok] at hdone
    obtain ⟨executed, hexecuted, attempts, hattempts, rfl⟩ := hdone
    exact .single (hallow node _ hnode) (.write (.allow _ _ (env.clock 6) _)
      (.allow hfound hlive hspec hcontract hcapability hexecuted rfl hattempts) {})

/-! ### The scanner -/

/-- What a scan leaves alone. -/
structure ScanFrame (db db' : Database) : Prop where
  scopes : db'.scopes = db.scopes
  intents : db'.intents = db.intents
  attempts : db'.attempts = db.attempts
  serviceStates : db'.serviceStates = db.serviceStates
  roots : ∀ node, isRoot db' node = isRoot db node
  replacements : ∀ node, isReplacement db' node = isReplacement db node

theorem ScanFrame.refl : ScanFrame db db := ⟨rfl, rfl, rfl, rfl, fun _ => rfl, fun _ => rfl⟩

theorem ScanFrame.trans {db'' : Database} (h : ScanFrame db db') (h' : ScanFrame db' db'') :
    ScanFrame db db'' :=
  ⟨h'.scopes.trans h.scopes, h'.intents.trans h.intents, h'.attempts.trans h.attempts,
    h'.serviceStates.trans h.serviceStates, fun n => (h'.roots n).trans (h.roots n),
    fun n => (h'.replacements n).trans (h.replacements n)⟩

theorem setReplacementStatus_frame (commandId : Id) (status : ReplacementStatus) :
    ScanFrame db (setReplacementStatus db commandId status) where
  scopes := rfl
  intents := rfl
  attempts := rfl
  serviceStates := rfl
  roots _ := rfl
  replacements node := by
    cases h : node.causedByCommandId with
    | none => simp [isReplacement, h]
    | some cid =>
      simp only [isReplacement, h, Option.bind_some, setReplacementStatus, Table.get?_modify]
      cases db.commands.get? cid with
      | none => rfl
      | some command =>
        simp only [Option.map_some, Option.any_some]
        split <;> rfl

theorem expireActivation_frame (node : Node) : ScanFrame db (expireActivation db node) ∧
    (expireActivation db node).nodes = db.nodes ∧ (expireActivation db node).runs = db.runs := by
  rw [expireActivation]
  split
  · exact ⟨.refl, rfl, rfl⟩
  · split
    · exact ⟨setReplacementStatus_frame _ _, rfl, rfl⟩
    · exact ⟨.refl, rfl, rfl⟩

theorem failRun_frame {node : Node} {now : Time} (h : failRun db node now = .ok db') :
    ScanFrame db db' ∧ db'.nodes = db.nodes ∧ db'.commands = db.commands := by
  rw [failRun] at h
  split at h
  · cases h
    exact ⟨.refl, rfl, rfl⟩
  · simp only [bind_eq_ok, transitionRun_eq_ok, pure_eq_ok] at h
    obtain ⟨_, ⟨_, _, rfl⟩, rfl⟩ := h
    refine ⟨⟨rfl, rfl, rfl, rfl, fun n => ?_, fun _ => rfl⟩, rfl, rfl⟩
    simp only [isRoot, Table.get?_modify]
    cases db.runs.get? n.runId with
    | none => rfl
    | some run =>
      simp only [Option.map_some, Option.any_some]
      split <;> rfl

theorem recordExpiry_frame (node : Node) (now : Time) (event : RuntimeEvent) :
    ScanFrame db (recordRuntimeEvent (recordLeaseExpiryAck db node now) event) := by
  rw [recordLeaseExpiryAck, recordAcks_eq]
  exact ⟨rfl, rfl, rfl, rfl, fun _ => rfl, fun _ => rfl⟩

theorem expireActivation_eq (other : Node) : expireActivation db other =
    { db with commands := (expireActivation db other).commands } := by
  rw [expireActivation]
  repeat' split
  all_goals rfl

theorem failRun_eq {other : Node} {now : Time} (h : failRun db other now = .ok db') :
    db' = { db with runs := db'.runs } := by
  rw [failRun] at h
  split at h
  · cases h
    rfl
  · simp only [bind_eq_ok, pure_eq_ok] at h
    obtain ⟨_, _, rfl⟩ := h
    rfl

/-- One turn of the scan. -/
theorem expireStaleNode_entries {runId : Option Id} {now : Time} {node : Node}
    (h : expireStaleNode now db node = .ok db') (hfound : db.nodes.get? node.id = some node)
    (hstale : staleLease runId now node = true ∨ staleIntent db runId now node = true)
    (hexpire : P (.expire .scanner (standing db node))) :
    Entries cfg P db db' ∧ ScanFrame db db' ∧
      ∀ id, node.id ≠ id → db'.nodes.get? id = db.nodes.get? id := by
  simp only [expireStaleNode, bind_eq_ok, pure_eq_ok] at h
  obtain ⟨failed, hfailed, rfl⟩ := h
  obtain ⟨hact, hactNodes, _⟩ := @expireActivation_frame (setStatus db node.id .leaseExpired) node
  obtain ⟨hfail, hfailNodes, _⟩ := failRun_frame hfailed
  have hmark : ScanFrame db (setStatus db node.id .leaseExpired) :=
    ⟨rfl, rfl, rfl, rfl, fun _ => rfl, fun _ => rfl⟩
  refine ⟨.single hexpire (.write (.expireScanner _ now) (.expireScanner hfound hstale hfailed) ?_),
    ((hmark.trans hact).trans hfail).trans (recordExpiry_frame _ _ _), fun id hid => ?_⟩
  · rw [recordLeaseExpiryAck, recordAcks_eq]
    exact { acknowledgements := (logged_recordAcks failed _ _ _ _).acknowledgements }
  · rw [recordLeaseExpiryAck, recordAcks_eq]
    change failed.nodes.get? id = _
    rw [hfailNodes, hactNodes]
    exact get?_setStatus_of_ne hid.symm

theorem ScanFrame.staleIntent (h : ScanFrame db db') (runId : Option Id) (now : Time) (node : Node) :
    staleIntent db' runId now node = staleIntent db runId now node := by
  simp only [TraceFence.staleIntent, h.intents]

theorem expireFold_entries {runId : Option Id} {now : Time} {nodes : List Node}
    (h : nodes.foldlM (expireStaleNode now) db = .ok db') (hnodup : (nodes.map (·.id)).Nodup)
    (hrows : ∀ n ∈ nodes, db.nodes.get? n.id = some n)
    (hstale : ∀ n ∈ nodes, staleLease runId now n = true ∨ staleIntent db runId now n = true)
    (hexpire : ∀ n ∈ nodes, ∀ at' : Standing, at'.node = n → at'.root = isRoot db n →
      at'.replacement = isReplacement db n → P (.expire .scanner at')) : Entries cfg P db db' := by
  induction nodes generalizing db with
  | nil =>
    cases pure_eq_ok.mp h
    exact .refl
  | cons n rest ih =>
    rw [List.foldlM_cons, bind_eq_ok] at h
    obtain ⟨db₁, hstep, h⟩ := h
    rw [List.map_cons, List.nodup_cons] at hnodup
    have hne : ∀ o ∈ rest, n.id ≠ o.id := fun o ho he =>
      hnodup.1 (List.mem_map.mpr ⟨o, ho, he.symm⟩)
    have hmem {o : Node} (ho : o ∈ rest) : o ∈ n :: rest := List.mem_cons_of_mem _ ho
    obtain ⟨hw, hf, hg⟩ := expireStaleNode_entries hstep (hrows n List.mem_cons_self)
      (hstale n List.mem_cons_self) (hexpire n List.mem_cons_self _ rfl rfl rfl)
    refine hw.trans (ih h hnodup.2 (fun o ho => ?_) (fun o ho => ?_) fun o ho at' h₁ h₂ h₃ => ?_)
    · rw [hg _ (hne o ho)]
      exact hrows o (hmem ho)
    · rw [hf.staleIntent]
      exact hstale o (hmem ho)
    · exact hexpire o (hmem ho) at' h₁ (h₂.trans (hf.roots o)) (h₃.trans (hf.replacements o))

theorem mem_staleNodes {runId : Option Id} {now : Time} {n : Node} :
    n ∈ staleNodes db runId now ↔ db.nodes.get? n.id = some n ∧
      (staleLease runId now n = true ∨ staleIntent db runId now n = true) := by
  simp only [staleNodes, List.mem_append, List.mem_filter, ← and_or_left]
  exact and_congr_left fun _ => ⟨fun h => Table.get?_of_mem h, Table.mem_of_get?⟩

theorem nodup_staleNodes (runId : Option Id) (now : Time) :
    ((staleNodes db runId now).map (·.id)).Nodup := by
  rw [staleNodes, List.map_append, List.nodup_append]
  have hsub (p : Node → Bool) : ((db.nodes.rows.filter p).map (·.id)).Nodup :=
    (db.nodes.nodup).sublist (List.Sublist.map _ List.filter_sublist)
  refine ⟨hsub _, hsub _, fun a ha b hb hab => ?_⟩
  obtain ⟨n, hn, rfl⟩ := List.mem_map.mp ha
  obtain ⟨m, hm, rfl⟩ := List.mem_map.mp hb
  obtain ⟨hn, hlive⟩ := List.mem_filter.mp hn
  obtain ⟨hm, hpending⟩ := List.mem_filter.mp hm
  obtain rfl : n = m := Table.eq_of_key_eq hn hm hab
  simp only [staleIntent, Bool.and_eq_true, decide_eq_true_eq] at hpending
  simp [staleLease, hpending.1.1, NodeStatus.isLive] at hlive

theorem expireStaleNodes_entries {runId : Option Id} {now : Time} {c : Commit ℕ}
    (h : expireStaleNodes db runId now = .ok c)
    (hexpire : ∀ n ∈ staleNodes db runId now, ∀ at' : Standing, at'.node = n →
      at'.root = isRoot db n → at'.replacement = isReplacement db n → P (.expire .scanner at')) :
    Entries cfg P db c.db := by
  simp only [expireStaleNodes, bind_eq_ok, pure_eq_ok] at h
  obtain ⟨expired, hexpired, rfl⟩ := h
  exact expireFold_entries hexpired (nodup_staleNodes runId now)
    (fun n hn => (mem_staleNodes.mp hn).1) (fun n hn => (mem_staleNodes.mp hn).2) hexpire

/-! ### Proposals and the fixture -/

theorem createProposal_booked {reporterId : Id} {token : Token} {request : ProposalCreate}
    {env : Env} {c : Commit CorrectionProposal}
    (h : createProposal cfg db reporterId token request env = .ok c) : Booked cfg P db c.db := by
  simp only [createProposal, bind_eq_ok, pure_eq_ok] at h
  obtain ⟨_, _, _, _, _, _, _, _, _, _, _, _, _, _, _, _, rfl⟩ := h
  exact ⟨db, .refl, rfl⟩

theorem reviewProposal_booked {proposalId : Id} {request : ProposalReview} {reviewer : String}
    {env : Env} {c : Commit Unit} (h : reviewProposal cfg db proposalId request reviewer env = .ok c) :
    Booked cfg P db c.db := by
  simp only [reviewProposal, bind_eq_ok, pure_eq_ok] at h
  obtain ⟨_, _, _, _, _, _, rfl⟩ := h
  exact ⟨db, .refl, rfl⟩

theorem insertFresh {states states' : ServiceTable} {runId : Id} {name status : String} {now : Time}
    (h : states.insert? (freshState runId name status now) = some states') :
    states' = withState states runId name status now :=
  (Table.insertNew_of_insert? h).symm

theorem seedWrite_entries {runId : Id} {now : Time} {c : Commit Unit}
    (h : seedWrite db runId now = .ok c) (hstates : P .states) : Entries cfg P db c.db := by
  simp only [seedWrite, seedDefaults, List.foldlM_cons, List.foldlM_nil, bind_eq_ok, require_eq_ok,
    pure_eq_ok] at h
  obtain ⟨states, ⟨s₁, h₁, s₂, h₂, s₃, h₃, rfl⟩, rfl⟩ := h
  have hfresh : FreshRows db.serviceStates _ :=
    ((Relation.ReflTransGen.single ⟨_, _, _, _, insertFresh h₁⟩).tail
      ⟨_, _, _, _, insertFresh h₂⟩).tail ⟨_, _, _, _, insertFresh h₃⟩
  exact .single hstates (.write .states (.states hfresh) { events := (List.append_nil _).symm })

end TraceFence
