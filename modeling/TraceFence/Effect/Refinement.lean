import TraceFence.Effect.Entries

/-!
# The operations on nodes as sequences of entries

For each operation, a committed call decomposes into entries whose outlines are known. The
outlines are handed to an arbitrary predicate on writes, so that a caller chooses what to remember
of them.

## Main results

* `createRun_entries`, `createSpawn_entries`, `createReplacement_entries`
* `activate_entries`, `heartbeat_entries`, `checkpointWrite_entries`, `complete_entries`
-/

namespace TraceFence

open Checked

variable {cfg : Config} {db db' : Database}

/-! ### Guards -/

theorem getRun_eq_ok {runId : Id} {run : Run} :
    getRun db runId = .ok run ↔ db.runs.get? runId = some run := require_eq_ok

theorem getNode_eq_ok {nodeId : Id} {node : Node} :
    getNode db nodeId = .ok node ↔ db.nodes.get? nodeId = some node := require_eq_ok

theorem authenticateNode_eq_ok {nodeId : Id} {token : Token} {node : Node} :
    authenticateNode cfg db nodeId token = .ok node ↔
      db.nodes.get? nodeId = some node ∧ cfg.tokenMatches token node.tokenHash = true := by
  simp only [authenticateNode, bind_eq_ok, getNode_eq_ok, ensure_eq_ok, pure_eq_ok]
  constructor
  · rintro ⟨n, hn, _, ht, rfl⟩
    exact ⟨hn, ht⟩
  · rintro ⟨hn, ht⟩
    exact ⟨node, hn, (), ht, rfl⟩

theorem found_of_get? {nodeId : Id} {node : Node} (h : db.nodes.get? nodeId = some node) :
    db.nodes.get? node.id = some node := by
  have hk : node.id = nodeId := Table.key_of_get? h
  rw [hk, h]

/-- `validate_node_runtime_state` allows exactly the live nodes. -/
theorem allowed_iff_live {node : Node} {now : Time} {state : RuntimeState}
    (h : validateNodeRuntimeState db node now = .ok state) :
    state.allowed = true ↔ Live db node now := by
  simp only [validateNodeRuntimeState, bind_eq_ok, getRun_eq_ok] at h
  obtain ⟨run, hrun, h⟩ := h
  have hrunning : RunRunning db node.runId ↔ run.status = .running := by
    simp [RunRunning, hrun]
  split at h
  · next hr =>
    cases pure_eq_ok.mp h
    exact ⟨fun hno => absurd hno Bool.false_ne_true, fun hl => absurd (hrunning.mp hl.running) hr⟩
  next hr =>
  split at h
  · next hs =>
    cases pure_eq_ok.mp h
    exact ⟨fun hno => absurd hno Bool.false_ne_true, fun hl => by simp [hl.status] at hs⟩
  next hs =>
  split at h
  · next hx =>
    cases pure_eq_ok.mp h
    exact ⟨fun hno => absurd hno Bool.false_ne_true, fun hl => by simp [hl.lease] at hx⟩
  next hx =>
  split at h
  · next he =>
    cases pure_eq_ok.mp h
    exact ⟨fun hno => absurd hno Bool.false_ne_true, fun hl => by simp [hl.scopes] at he⟩
  next he =>
  cases pure_eq_ok.mp h
  refine ⟨fun _ => ⟨hrunning.mpr (not_not.mp hr), ?_, ?_, ?_⟩, fun _ => rfl⟩
  · simpa using hs
  · simpa using hx
  · simpa using he

theorem requireLive_eq_ok {node : Node} {now : Time} {prose fallback : String}
    (h : requireLive db node now prose fallback = .ok ()) : Live db node now := by
  simp only [requireLive, bind_eq_ok, ensure_eq_ok] at h
  obtain ⟨state, hs, ha⟩ := h
  exact (allowed_iff_live hs).mp ha

/-- `validate_node_runtime_state` lets every live node through. -/
theorem requireLive_of_live {node : Node} {now : Time} (h : Live db node now)
    (prose fallback : String) : requireLive db node now prose fallback = .ok () := by
  obtain ⟨run, hrun, -⟩ := h.running
  obtain ⟨state, hstate⟩ : ∃ state, validateNodeRuntimeState db node now = .ok state := by
    rw [validateNodeRuntimeState, getRun_eq_ok.mpr hrun, ok_bind]
    dsimp only
    split_ifs
    all_goals exact ⟨_, rfl⟩
  rw [requireLive, hstate, ok_bind]
  exact ensure_eq_ok.mpr ((allowed_iff_live hstate).mpr h)

/-! ### Helpers as explicit updates -/

theorem recordAcks_eq (node : Node) (commands : List ControlCommand) (ackType : AckType)
    (now : Time) : recordAcks db node commands ackType now =
      { db with acknowledgements := (recordAcks db node commands ackType now).acknowledgements } := by
  induction commands generalizing db with
  | nil => rfl
  | cons command rest ih =>
    have h := @ih (recordAck db node command ackType now)
    simp only [recordAcks, List.foldl_cons] at h ⊢
    rw [h]
    rfl

theorem logged_recordAcks (a : Database) (node : Node) (commands : List ControlCommand)
    (ackType : AckType) (now : Time) : Logged a (recordAcks a node commands ackType now) := by
  induction commands generalizing a with
  | nil => exact .refl a
  | cons command rest ih =>
    have hstep : Logged a (recordAck a node command ackType now) :=
      ⟨Table.prefix_insertNew _ _, List.prefix_rfl, List.prefix_rfl⟩
    exact hstep.trans (ih _)

theorem recordUnacknowledged_eq {node : Node} {commands : List ControlCommand} {now : Time}
    (h : recordUnacknowledged db node commands now = .ok db') :
    db' = { db with acknowledgements := db'.acknowledgements } ∧
      db.acknowledgements.rows <+: db'.acknowledgements.rows := by
  cases commands with
  | nil =>
    cases h
    exact ⟨rfl, List.prefix_rfl⟩
  | cons command rest =>
    simp only [recordUnacknowledged, bind_eq_ok, require_eq_ok, pure_eq_ok] at h
    obtain ⟨inserted, hinsert, rfl⟩ := h
    refine ⟨by rw [recordAcks_eq], (Table.prefix_of_insert? hinsert).trans ?_⟩
    exact (logged_recordAcks { db with acknowledgements := inserted } node rest .cooperative
      now).acknowledgements

theorem sealRecovery_eq {runId caller subject : Id} {operationType : OperationType}
    {key : Option String} {digest : Digest} {response : Credential} {now : Time}
    (h : sealRecovery cfg db runId operationType caller subject key digest response now = .ok db') :
    db' = { db with envelopes := db'.envelopes } := by
  cases key with
  | none =>
    cases h
    rfl
  | some key =>
    simp only [sealRecovery, sealEnvelope, bind_eq_ok, require_eq_ok, pure_eq_ok] at h
    obtain ⟨_, _, rfl⟩ := h
    rfl

/-! ### Registration -/

variable {P : Write → Prop}

theorem createRun_entries {request : RunCreate} {env : Env} {now : Time} {c : Commit RunCreated}
    (h : createRun cfg db request env now = .ok c)
    (hrun : P (.registerRun (newRoot cfg request env now))) : Entries cfg P db c.db := by
  simp only [createRun, bind_eq_ok, ensure_eq_ok, require_eq_ok, pure_eq_ok] at h
  obtain ⟨_, _, _, _, runs, hruns, scopes₁, hs₁, scopes₂, hs₂, nodes, hnodes, rfl⟩ := h
  exact .single hrun (.write (.registerRun _) (.registerRun hruns hs₁ hs₂ hnodes) {})

theorem createSpawnLocked_eq {parent : Node} {request : SpawnCreate} {s : Supersession} {env : Env}
    (h : createSpawnLocked cfg db parent request s env = .ok db') :
    ∃ scopes nodes intents, db.scopes.insert? (childScope parent env) = some scopes ∧
      db.nodes.insert? (childNode parent request s env) = some nodes ∧
      db.intents.insert? (childIntent cfg parent env) = some intents ∧
      db' = { db with
        scopes := scopes
        nodes := nodes
        intents := intents
        events := db.events ++ [childEvent (childNode parent request s env)] } := by
  simp only [createSpawnLocked, bind_eq_ok, require_eq_ok, pure_eq_ok] at h
  obtain ⟨scopes, hs, nodes, hn, intents, hi, rfl⟩ := h
  exact ⟨scopes, nodes, intents, hs, hn, hi, rfl⟩

theorem recoverSpawnResponse_entries {e : CredentialRecoveryEnvelope} {env : Env}
    {c : Commit SpawnCreated} (h : recoverSpawnResponse cfg db e env = .ok c)
    (hrotate : P .rotate) : Entries cfg P db c.db := by
  simp only [recoverSpawnResponse, bind_eq_ok, ensure_eq_ok, require_eq_ok] at h
  obtain ⟨node, _, intent, _, _, _, h⟩ := h
  split at h
  · simp only [bind_eq_ok, pure_eq_ok] at h
    obtain ⟨_, _, rfl⟩ := h
    exact .refl
  · cases pure_eq_ok.mp h
    exact .single hrotate (.write .rotate (.rotateIntent _ _ _) { events := (List.append_nil _).symm })

theorem createSpawn_entries {parentId : Id} {token : Token} {request : SpawnCreate} {env : Env}
    {c : Commit SpawnCreated} (h : createSpawn cfg db parentId token request env = .ok c)
    (hrotate : P .rotate)
    (hchild : ∀ (child : Node) (k : ℕ), child.registeredAt = env.clock 2 → 2 ≤ k →
      c.read = some (env.clock k) → P (.registerNode child)) : Entries cfg P db c.db := by
  simp only [createSpawn, bind_eq_ok, authenticateNode_eq_ok] at h
  obtain ⟨parent, ⟨hparent, _⟩, envelope, _, h⟩ := h
  cases envelope with
  | some e => exact recoverSpawnResponse_entries h hrotate
  | none =>
    simp only [registerChild, bind_eq_ok, pure_eq_ok] at h
    obtain ⟨_, _, _, hlive, _, _, _, hbudget, _, _, registered, hreg, sealedDb, hseal, rfl⟩ := h
    obtain ⟨scopes, nodes, intents, hs, hn, hi, hdb⟩ := createSpawnLocked_eq hreg
    have heffect : Effect cfg (.registerNode (childNode parent request {} env)) db
        { db with scopes := scopes, nodes := nodes, intents := intents } :=
      .registerNode (found_of_get? hparent) (requireLive_eq_ok hlive) hbudget hs hn hi
    have hk : 2 ≤ if request.operationKey.isSome then 3 else 2 := by split <;> decide
    refine .single (hchild _ _ rfl hk rfl) (.write (.registerNode _) heffect ?_)
    rw [sealRecovery_eq hseal, hdb]
    exact {}

theorem createReplacement_entries {parentId commandId : Id} {token : Token} {request : SpawnCreate}
    {env : Env} {c : Commit SpawnCreated}
    (h : createReplacement cfg db parentId token commandId request env = .ok c)
    (hrotate : P .rotate)
    (hchild : ∀ (child : Node) (k : ℕ), child.registeredAt = env.clock 2 → 2 ≤ k →
      c.read = some (env.clock k) → P (.registerNode child)) : Entries cfg P db c.db := by
  simp only [createReplacement, bind_eq_ok, authenticateNode_eq_ok] at h
  obtain ⟨parent, ⟨hparent, _⟩, envelope, _, h⟩ := h
  cases envelope with
  | some e =>
    simp only [recoverReplacement, bind_eq_ok, pure_eq_ok] at h
    obtain ⟨_, _, recovered, hrecovered, _, _, _, _, _, _, _, _, rfl⟩ := h
    exact recoverSpawnResponse_entries hrecovered hrotate
  | none =>
    simp only [registerReplacement, bind_eq_ok, require_eq_ok, pure_eq_ok] at h
    obtain ⟨_, _, _, hlive, command, hcommand, _, hcheck, _, hretry, _, _, old, hold, _, hmanifest,
      _, _, registered, hreg, sealedDb, hseal, rfl⟩ := h
    obtain ⟨scopes, nodes, intents, hs, hn, hi, hdb⟩ := createSpawnLocked_eq hreg
    have hcid : db.commands.get? command.id = some command := by
      have hk : command.id = commandId := Table.key_of_get? hcommand
      rw [hk, hcommand]
    have heffect := Effect.registerReplacement (found_of_get? hparent) (requireLive_eq_ok hlive)
      hcid hcheck hretry hold hmanifest rfl hs hn hi
    have hk : 2 ≤ if request.operationKey.isSome then 3 else 2 := by split <;> decide
    refine .single (hchild _ _ rfl hk rfl) (.write (.registerNode _) heffect ?_)
    rw [sealRecovery_eq hseal, hdb]
    exact {}

/-! ### Node lifecycle -/

theorem activate_entries {nodeId : Id} {request : NodeActivate} {env : Env} {now : Time}
    {c : Commit NodeActivated} (h : activate cfg db nodeId request env now = .ok c)
    (hrotate : P .rotate)
    (hactivate : ∀ node, db.nodes.get? nodeId = some node → node.status = .pending →
      node.tokenHash = none → P (.activate (standing db node))) : Entries cfg P db c.db := by
  simp only [activate, bind_eq_ok, getNode_eq_ok, require_eq_ok, Option.filter_eq_some_iff] at h
  obtain ⟨node, hnode, intent, ⟨hintent, _⟩, envelope, _, h⟩ := h
  have hid : node.id = nodeId := Table.key_of_get? hnode
  cases envelope with
  | some e =>
    simp only [recoverActivation] at h
    split at h
    · simp only [bind_eq_ok, pure_eq_ok] at h
      obtain ⟨_, _, rfl⟩ := h
      exact .refl
    · simp only [bind_eq_ok, ensure_eq_ok, require_eq_ok, pure_eq_ok] at h
      obtain ⟨_, ⟨hlive, _⟩, _, _, rfl⟩ := h
      exact .single hrotate (.write .rotate (.rotateToken _ (found_of_get? hnode) hlive)
        { events := (List.append_nil _).symm })
  | none =>
    simp only [consumeActivation, bind_eq_ok, ensure_eq_ok, pure_eq_ok] at h
    obtain ⟨_, hunconsumed, _, _, _, hunexpired, _, ⟨hpending, htoken⟩, _, hallowed, commandId,
      hcommand, sealedDb, hseal, rfl⟩ := h
    refine .single (hactivate node hnode hpending htoken) (.write (.activate _ now)
      (.activate request (cfg.hashToken (env.token 0)) (found_of_get? hnode) (hid ▸ hintent)
        hunconsumed hunexpired hpending htoken hallowed hcommand) ?_)
    rw [sealRecovery_eq hseal]
    exact {}

/-- The three ways a heartbeat can write. -/
theorem heartbeat_entries {nodeId : Id} {token : Token} {env : Env} {now : Time}
    {c : Commit (Option ReasonCode)} (h : heartbeat cfg db nodeId token env now = .ok c)
    (hrenew : ∀ node, db.nodes.get? nodeId = some node → Live db node now →
      P (.renew (standing db node)))
    (hconverge : ∀ node, db.nodes.get? nodeId = some node → RunRunning db node.runId →
      node.status.isLive = true → (evaluateScopes db node).allowed = false →
      P (.converge .heartbeat (standing db node)))
    (hexpire : ∀ node, db.nodes.get? nodeId = some node → RunRunning db node.runId →
      node.status.isLive = true → node.leaseExpired now = true →
      P (.expire .heartbeat (standing db node))) : Entries cfg P db c.db := by
  simp only [heartbeat, bind_eq_ok, authenticateNode_eq_ok, getRun_eq_ok] at h
  obtain ⟨node, ⟨hnode, _⟩, _, _, run, hrun, h⟩ := h
  have hfound := found_of_get? hnode
  split at h
  · cases pure_eq_ok.mp h
    exact .refl
  next hr =>
  have hrunning : RunRunning db node.runId := ⟨run, hrun, not_not.mp hr⟩
  split at h
  · cases pure_eq_ok.mp h
    exact .refl
  next hs =>
  have hlive : node.status.isLive = true := by simpa using hs
  split at h
  · next hx =>
    cases pure_eq_ok.mp h
    refine .single (hexpire node hnode hrunning hlive hx) (.write (.expireHeartbeat _ now)
      (.expireHeartbeat hfound hrunning hlive hx) ?_)
    rw [expireByHeartbeat, recordLeaseExpiryAck, recordAcks_eq]
    exact { acknowledgements := (logged_recordAcks _ _ _ _ _).acknowledgements }
  next hx =>
  have hlease : node.leaseExpired now = false := by simpa using hx
  split at h
  · next he =>
    cases pure_eq_ok.mp h
    have hscopes : (evaluateScopes db node).allowed = false := by simpa using he
    refine .single (hconverge node hnode hrunning hlive hscopes) (.write (.converge _ _)
      (.converge hfound hrunning hlive hlease hscopes) ?_)
    rw [convergeByHeartbeat, recordAcks_eq]
    exact { acknowledgements := (logged_recordAcks db _ _ _ _).acknowledgements
            events := (List.append_nil _).symm }
  · next he =>
    cases pure_eq_ok.mp h
    have hscopes : (evaluateScopes db node).allowed = true := by simpa using he
    have hl : Live db node now := ⟨hrunning, hlive, hlease, hscopes⟩
    exact .single (hrenew node hnode hl) (.write (.renew _ now) (.renew hfound hl) {})

/-- The row a checkpoint has read and the status it is about to write, if it writes one. -/
def CheckpointWrite.target : CheckpointWrite → Option (Node × NodeStatus)
  | .wait node _ => some (node, .waiting)
  | .expire node _ => some (node, .leaseExpired)
  | .converge node _ effective _ => some (node, effective)
  | .refuse _ => none

/-- The status of a checkpoint, with what is noted on top. A status that was read before is not
written, and then only the books are kept. -/
theorem assignStatus_entries {read : Node} {status : NodeStatus} {es : List RuntimeEvent}
    (hnotes : Notes es (assignStatus db read status) db') (hbooks : Noted .record es)
    (hnoted : Noted (.checkpoint read status ((db.nodes.get? read.id).map (standing db))) es)
    (hrecord : P .record)
    (hcheckpoint : read.status ≠ status →
      P (.checkpoint read status ((db.nodes.get? read.id).map (standing db)))) :
    Entries cfg P db db' := by
  rw [assignStatus] at hnotes
  split at hnotes
  · exact .single hrecord (.books hbooks hnotes)
  · next h => exact .single (hcheckpoint h) (.write hnoted (.checkpoint h) hnotes)

theorem checkpointWrite_entries {write : CheckpointWrite} {c : Commit Unit}
    (h : checkpointWrite db write = .ok c) (hrecord : P .record)
    (hcheckpoint : ∀ read status, write.target = some (read, status) → read.status ≠ status →
      P (.checkpoint read status ((db.nodes.get? read.id).map (standing db)))) :
    Entries cfg P db c.db := by
  cases write with
  | wait node now =>
    cases h
    exact assignStatus_entries {} (.waiting node now) (.checkpointWait node _ now) hrecord
      (hcheckpoint _ _ rfl)
  | expire node now =>
    cases h
    refine assignStatus_entries ?_ .record (.checkpoint node _ _) hrecord (hcheckpoint _ _ rfl)
    rw [recordLeaseExpiryAck, recordAcks_eq]
    exact { acknowledgements := (logged_recordAcks _ _ _ _ _).acknowledgements
            events := (List.append_nil _).symm }
  | converge node commands effective now =>
    simp only [checkpointWrite, bind_eq_ok, pure_eq_ok] at h
    obtain ⟨acked, hacked, rfl⟩ := h
    obtain ⟨hdb, hlogged⟩ := recordUnacknowledged_eq hacked
    rw [hdb]
    have hbooks : Entry cfg .record [] db { db with acknowledgements := acked.acknowledgements } :=
      .books .record { acknowledgements := hlogged, events := (List.append_nil _).symm }
    exact (Entries.single hrecord hbooks).trans (assignStatus_entries
      { events := (List.append_nil _).symm } .record (.checkpoint node _ _) hrecord
      fun hne => hcheckpoint _ _ rfl hne)
  | refuse read =>
    cases h
    exact .refl

/-! ### Completion -/

/-- Only node statuses and bookkeeping differ. -/
structure StatusOnly (db db' : Database) : Prop where
  runs : db'.runs = db.runs
  scopes : db'.scopes = db.scopes
  intents : db'.intents = db.intents
  commands : db'.commands = db.commands
  attempts : db'.attempts = db.attempts
  serviceStates : db'.serviceStates = db.serviceStates

theorem StatusOnly.refl : StatusOnly db db := ⟨rfl, rfl, rfl, rfl, rfl, rfl⟩

theorem StatusOnly.trans {db'' : Database} (h : StatusOnly db db') (h' : StatusOnly db' db'') :
    StatusOnly db db'' :=
  ⟨h'.runs.trans h.runs, h'.scopes.trans h.scopes, h'.intents.trans h.intents,
    h'.commands.trans h.commands, h'.attempts.trans h.attempts,
    h'.serviceStates.trans h.serviceStates⟩

theorem StatusOnly.standing (h : StatusOnly db db') (node : Node) :
    standing db' node = standing db node := by
  simp only [TraceFence.standing, isRoot, runIsRunning, isReplacement, h.runs, h.commands]

/-- An evaluation depends on the scopes alone. -/
theorem evaluateScopes_congr (h : db'.scopes = db.scopes) (node : Node) :
    evaluateScopes db' node = evaluateScopes db node := by
  have he : evaluateEntry db' = evaluateEntry db := by
    funext runId acc item
    simp only [evaluateEntry, liveScope, h]
  simp only [evaluateScopes, he]

theorem StatusOnly.sweepExpired (h : StatusOnly db db') (node : Node) (now : Time) :
    sweepExpired db' node now = sweepExpired db node now := by
  simp only [TraceFence.sweepExpired, intentLapsed, h.intents]

/-- The database after the sweep has marked a node. -/
theorem sweepMark_eq (other : Node) (now : Time) :
    recordLeaseExpiryAck (setStatus db other.id .leaseExpired) other now =
      { db with
        nodes := (setStatus db other.id .leaseExpired).nodes
        acknowledgements := (recordLeaseExpiryAck (setStatus db other.id .leaseExpired) other
          now).acknowledgements } := by
  rw [recordLeaseExpiryAck, recordAcks_eq]
  rfl

theorem sweepMark_statusOnly (other : Node) (now : Time) :
    StatusOnly db (recordLeaseExpiryAck (setStatus db other.id .leaseExpired) other now) := by
  rw [sweepMark_eq]
  exact ⟨rfl, rfl, rfl, rfl, rfl, rfl⟩

theorem get?_setStatus_of_ne {id id' : Id} {status : NodeStatus} (h : id' ≠ id) :
    (setStatus db id status).nodes.get? id' = db.nodes.get? id' := by
  simp only [setStatus, Table.get?_modify, if_neg h, Option.map_id']

/-- The sweep, over any list of distinct rows none of which is a root. -/
theorem sweepFold_entries {now : Time} {others : List Node} {acc : Bool}
    (hnodup : (others.map (·.id)).Nodup)
    (hrows : ∀ other ∈ others, db.nodes.get? other.id = some other)
    (hroot : ∀ other ∈ others, isRoot db other = false)
    (hexpire : ∀ other ∈ others, sweepExpired db other now = true →
      P (.expire .sweep (standing db other))) :
    Entries cfg P db (others.foldl (sweepNode now) (db, acc)).1 ∧
      StatusOnly db (others.foldl (sweepNode now) (db, acc)).1 ∧
      ∀ id, (∀ other ∈ others, other.id ≠ id) →
        (others.foldl (sweepNode now) (db, acc)).1.nodes.get? id = db.nodes.get? id := by
  induction others generalizing db acc with
  | nil => exact ⟨.refl, .refl, fun _ _ => rfl⟩
  | cons other rest ih =>
    rw [List.map_cons, List.nodup_cons] at hnodup
    rw [List.foldl_cons]
    have hrest : ∀ o ∈ rest, o.id ≠ other.id := fun o ho he =>
      hnodup.1 (List.mem_map.mpr ⟨o, ho, he⟩)
    rcases hstep : sweepNode now (db, acc) other with ⟨db₁, acc₁⟩
    -- One turn: nothing, or the mark of this node.
    obtain ⟨hw, hs, hg⟩ : Entries cfg P db db₁ ∧ StatusOnly db db₁ ∧
        ∀ id, other.id ≠ id → db₁.nodes.get? id = db.nodes.get? id := by
      rw [sweepNode] at hstep
      split at hstep
      · cases hstep
        exact ⟨.refl, .refl, fun _ _ => rfl⟩
      split at hstep
      · next hx =>
        cases hstep
        refine ⟨.single (hexpire other List.mem_cons_self hx) (.write (.expireSweep _)
          (.expireSweep (hrows other List.mem_cons_self) (hroot other List.mem_cons_self) hx) ?_),
          sweepMark_statusOnly other now, fun id hid => ?_⟩
        · rw [sweepMark_eq]
          exact { acknowledgements := (logged_recordAcks _ _ _ _ _).acknowledgements
                  events := (List.append_nil _).symm }
        · rw [sweepMark_eq]
          exact get?_setStatus_of_ne hid.symm
      · cases hstep
        exact ⟨.refl, .refl, fun _ _ => rfl⟩
    have hmem {o : Node} (ho : o ∈ rest) : o ∈ other :: rest := List.mem_cons_of_mem _ ho
    obtain ⟨hw', hs', hg'⟩ := @ih db₁ acc₁ hnodup.2
      (fun o ho => by rw [hg _ (hrest o ho).symm]; exact hrows o (hmem ho))
      (fun o ho => by rw [isRoot, hs.runs]; exact hroot o (hmem ho))
      (fun o ho hx => by
        rw [hs.standing]
        exact hexpire o (hmem ho) (by rwa [hs.sweepExpired] at hx))
    refine ⟨hw.trans hw', hs.trans hs', fun id hid => ?_⟩
    rw [hg' id fun o ho => hid o (hmem ho), hg id (hid other List.mem_cons_self)]

theorem mem_sweep_others {root other : Node} :
    (other ∈ db.nodes.rows.filter fun o => o.runId = root.runId ∧ o.id ≠ root.id) ↔
      db.nodes.get? other.id = some other ∧ other.runId = root.runId ∧ other.id ≠ root.id := by
  simp only [List.mem_filter, decide_eq_true_eq]
  exact and_congr_left fun _ => ⟨fun h => Table.get?_of_mem h, Table.mem_of_get?⟩

theorem sweep_entries {root : Node} {run : Run} {now : Time}
    (hrun : db.runs.get? root.runId = some run) (hroot : run.rootNodeId = root.id)
    (hexpire : ∀ other, db.nodes.get? other.id = some other → other.runId = root.runId →
      other.id ≠ root.id → sweepExpired db other now = true →
      P (.expire .sweep (standing db other))) :
    Entries cfg P db (sweep db root now).1 ∧ StatusOnly db (sweep db root now).1 ∧
      (sweep db root now).1.nodes.get? root.id = db.nodes.get? root.id := by
  obtain ⟨hw, hs, hg⟩ := @sweepFold_entries cfg db P now
    (db.nodes.rows.filter fun o => o.runId = root.runId ∧ o.id ≠ root.id) false
    ((db.nodes.nodup).sublist (List.Sublist.map _ List.filter_sublist))
    (fun o ho => (mem_sweep_others.mp ho).1)
    (fun o ho => by
      obtain ⟨_, hr, hne⟩ := mem_sweep_others.mp ho
      simp [isRoot, hr, hrun, hroot, Ne.symm hne])
    (fun o ho hx => by
      obtain ⟨hg, hr, hne⟩ := mem_sweep_others.mp ho
      exact hexpire o hg hr hne hx)
  exact ⟨hw, hs, hg root.id fun o ho => (mem_sweep_others.mp ho).2.2⟩

theorem Live.of_statusOnly {node : Node} {now : Time} (h : Live db node now)
    (hs : StatusOnly db db') : Live db' node now :=
  ⟨by rw [RunRunning, hs.runs]; exact h.running, h.status, h.lease,
    by rw [evaluateScopes_congr hs.scopes]; exact h.scopes⟩

theorem causingCommand_congr {node : Node} {expected : ReplacementStatus} {message : String}
    (h : db'.commands = db.commands) :
    causingCommand db' node expected message = causingCommand db node expected message := by
  simp only [causingCommand, h]

/-- Only a root sweeps, and only the other nodes of its run. -/
theorem complete_entries_root {nodeId : Id} {token : Token} {env : Env} {c : Commit Unit}
    (h : complete cfg db nodeId token env = .ok c)
    (hexpire : ∀ root other, db.nodes.get? nodeId = some root → isRoot db root = true →
      db.nodes.get? other.id = some other → other.runId = root.runId → other.id ≠ root.id →
      sweepExpired db other (env.clock 1) = true → P (.expire .sweep (standing db other)))
    (hcomplete : ∀ node, db.nodes.get? nodeId = some node → P (.complete (standing db node))) :
    Entries cfg P db c.db := by
  simp only [complete, bind_eq_ok, authenticateNode_eq_ok, getRun_eq_ok, pure_eq_ok] at h
  obtain ⟨node, ⟨hnode, _⟩, _, _, _, hlive, run, hrun, swept, hswept, commandId, hcommand, rfl⟩ := h
  have hl := requireLive_eq_ok hlive
  have hfound := found_of_get? hnode
  have key : ∀ {db₁ : Database} {runs : Table Run}, StatusOnly db db₁ →
      db₁.nodes.get? node.id = some node →
      (if run.rootNodeId = node.id then
        transitionRun db₁.runs run .completed (env.clock 2) = .ok runs else runs = db₁.runs) →
      Entries cfg P db₁ (completeNode { db₁ with runs := runs } node commandId (env.clock 3)) := by
    intro db₁ runs hs hg hfinish
    have heffect := @Effect.complete cfg _ _ _ _ _ _ _ (env.clock 3) hg (hl.of_statusOnly hs)
      (by rw [hs.runs]; exact hrun) hfinish (by rw [causingCommand_congr hs.commands]; exact hcommand)
    have hw : P (.complete (standing db₁ node)) := by
      rw [hs.standing]
      exact hcomplete node hnode
    cases hcaused : node.causedByCommandId with
    | none =>
      have hnone : ¬node.causedByCommandId.isSome = true := by rw [hcaused]; decide
      refine .single hw (.write (.complete _ (env.clock 3) hcaused) heffect ?_)
      rw [completeNode, if_neg hnone]
      cases commandId <;> exact {}
    | some cid =>
      have hsome : node.causedByCommandId.isSome = true := by rw [hcaused]; rfl
      refine .single hw (.write (.completeRecovery _ (env.clock 3) hsome) heffect ?_)
      rw [completeNode, if_pos hsome]
      cases commandId <;> exact {}
  rw [finishRun] at hswept
  split at hswept
  · next hroot =>
    simp only [completeRun, bind_eq_ok, ensure_eq_ok, pure_eq_ok] at hswept
    obtain ⟨_, _, runs, hruns, rfl⟩ := hswept
    have hisRoot : isRoot db node = true := by simp [isRoot, hrun, hroot]
    obtain ⟨hw, hs, hg⟩ := sweep_entries hrun hroot
      (fun other ho hrunId hne hx => hexpire node other hnode hisRoot ho hrunId hne hx)
    exact hw.trans (key hs (hg.trans hfound) (by rw [if_pos hroot]; exact hruns))
  · next hroot =>
    cases hswept
    exact key .refl hfound (by rw [if_neg hroot])

theorem complete_entries {nodeId : Id} {token : Token} {env : Env} {c : Commit Unit}
    (h : complete cfg db nodeId token env = .ok c)
    (hexpire : ∀ other, db.nodes.get? other.id = some other → sweepExpired db other (env.clock 1) →
      P (.expire .sweep (standing db other)))
    (hcomplete : ∀ node, db.nodes.get? nodeId = some node → P (.complete (standing db node))) :
    Entries cfg P db c.db :=
  complete_entries_root h (fun _ other _ _ ho _ _ hx => hexpire other ho hx) hcomplete

end TraceFence
