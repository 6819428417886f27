import TraceFence.System

/-!
# What a transaction can do

Every committed transaction is a sequence of effects: fourteen kinds of write, each with the
guards under which the services perform it. An invariant is proved of one effect at a time, and
holds along every transaction and every run by induction. A `Write` is the outline of an effect.
It keeps what a condition on a run can be about: the row a write found, what the registry said
about it at that moment, and the clock readings that matter.

## Main definitions

* `Live` — a node that passes `validate_node_runtime_state`
* `Standing` — what the registry says about a node
* `Write`, `Effect` — the effects, in outline and in full
* `Writes` — a sequence of effects whose outlines satisfy a predicate
-/

namespace TraceFence

/-! ### Guards -/

/-- The run with this id is running. -/
def RunRunning (db : Database) (runId : Id) : Prop :=
  ∃ run, db.runs.get? runId = some run ∧ run.status = .running

/-- `node` passes `validate_node_runtime_state` when the clock reads `now`. -/
structure Live (db : Database) (node : Node) (now : Time) : Prop where
  running : RunRunning db node.runId
  status : node.status.isLive = true
  lease : node.leaseExpired now = false
  scopes : (evaluateScopes db node).allowed = true

/-- Whether `node` is the root of its run. -/
def isRoot (db : Database) (node : Node) : Bool :=
  (db.runs.get? node.runId).any fun run => run.rootNodeId = node.id

/-- Whether the run of `node` is running. -/
def runIsRunning (db : Database) (node : Node) : Bool :=
  (db.runs.get? node.runId).any fun run => run.status = .running

/-- Whether `node` is the replacement its causing command currently points to. -/
def isReplacement (db : Database) (node : Node) : Bool :=
  (node.causedByCommandId.bind db.commands.get?).any fun command =>
    command.replacementNodeId = some node.id

/-- What the registry says about a node at the moment it is written. -/
structure Standing where
  node : Node
  root : Bool
  runRunning : Bool
  replacement : Bool

/-- The standing of a row. -/
def standing (db : Database) (node : Node) : Standing where
  node := node
  root := isRoot db node
  runRunning := runIsRunning db node
  replacement := isReplacement db node

theorem runIsRunning_iff {db : Database} {node : Node} :
    runIsRunning db node = true ↔ RunRunning db node.runId := by
  simp [runIsRunning, RunRunning, Option.any_eq_true]

/-- Rows of services that `_state` has made sure of. -/
def FreshRows : ServiceTable → ServiceTable → Prop :=
  Relation.ReflTransGen fun t t' =>
    ∃ runId name status now, t' = withState t runId name status now

/-- Records are only added: acknowledgements, matches and events. -/
structure Logged (a b : Database) : Prop where
  acknowledgements : a.acknowledgements.rows <+: b.acknowledgements.rows
  commandMatches : a.commandMatches.rows <+: b.commandMatches.rows
  events : a.events <+: b.events

theorem Logged.refl (a : Database) : Logged a a :=
  ⟨List.prefix_rfl, List.prefix_rfl, List.prefix_rfl⟩

theorem Logged.trans {a b c : Database} (h : Logged a b) (h' : Logged b c) : Logged a c :=
  ⟨h.acknowledgements.trans h'.acknowledgements, h.commandMatches.trans h'.commandMatches,
    h.events.trans h'.events⟩

/-! ### Outlines -/

/-- The paths on which a node loses its liveness. -/
inductive Path
  | heartbeat | gateway | sweep | scanner
  deriving DecidableEq, Repr

/-- An effect in outline. -/
inductive Write
  /-- Envelopes, proposals, acknowledgements, matches, events: what no other guard reads. -/
  | record
  | registerRun (root : Node)
  | registerNode (child : Node)
  /-- A new activation token for a pending node, or a new token for a live one. -/
  | rotate
  | activate (at' : Standing)
  | renew (at' : Standing)
  | converge (path : Path) (at' : Standing)
  | expire (path : Path) (at' : Standing)
  /-- The delayed write of a checkpoint: the row it read and the one it finds. -/
  | checkpoint (read : Node) (status : NodeStatus) (found : Option Standing)
  | complete (at' : Standing)
  | issue (command : ControlCommand)
  | states
  | deny (attempt : ActionAttempt)
  | allow (at' : Standing) (now : Time) (attempt : ActionAttempt)

/-! ### Effects -/

variable (cfg : Config)

/-- **An effect**, with the guards it is performed under. -/
inductive Effect : Write → Database → Database → Prop
  | record {db : Database} (envelopes : Table CredentialRecoveryEnvelope)
      (proposals : Table CorrectionProposal) (acknowledgements : Table CommandAcknowledgement)
      (commandMatches : Table ActionCommandMatch) (events : List RuntimeEvent)
      (logged : Logged db { db with
        acknowledgements := acknowledgements, commandMatches := commandMatches, events := events }) :
      Effect .record db { db with
        envelopes := envelopes, proposals := proposals, acknowledgements := acknowledgements,
        commandMatches := commandMatches, events := events }
  | registerRun {db : Database} {request : RunCreate} {env : Env} {now : Time} {runs : Table Run}
      {scopes₁ scopes₂ : Table ControlScope} {nodes : Table Node}
      (run : db.runs.insert? (newRun request env now) = some runs)
      (runScope : db.scopes.insert? (newScope (env.uuid 2) (env.uuid 0) none now) = some scopes₁)
      (rootScope : scopes₁.insert? (newScope (env.uuid 3) (env.uuid 0) (some (env.uuid 1)) now) =
        some scopes₂)
      (root : db.nodes.insert? (newRoot cfg request env now) = some nodes) :
      Effect (.registerRun (newRoot cfg request env now)) db
        { db with runs := runs, nodes := nodes, scopes := scopes₂ }
  | registerNode {db : Database} {parent : Node} {request : SpawnCreate} {env : Env}
      {scopes : Table ControlScope} {nodes : Table Node} {intents : Table SpawnIntent}
      (found : db.nodes.get? parent.id = some parent)
      (live : Live db parent (env.clock 0))
      (budget : enforceParentChildBudget db parent = .ok ())
      (scope : db.scopes.insert? (childScope parent env) = some scopes)
      (node : db.nodes.insert? (childNode parent request {} env) = some nodes)
      (intent : db.intents.insert? (childIntent cfg parent env) = some intents) :
      Effect (.registerNode (childNode parent request {} env)) db
        { db with scopes := scopes, nodes := nodes, intents := intents }
  | registerReplacement {db : Database} {parent old : Node} {command : ControlCommand}
      {request : SpawnCreate} {env : Env} {s : Supersession}
      {scopes : Table ControlScope} {nodes : Table Node} {intents : Table SpawnIntent}
      (found : db.nodes.get? parent.id = some parent)
      (live : Live db parent (env.clock 0))
      (commandFound : db.commands.get? command.id = some command)
      (check : checkReplacementCommand parent command = .ok ())
      (retry : checkRetry db command = .ok ())
      (lineage : checkCorrectionLineage db parent command = .ok old)
      (manifest : checkReplacementManifest cfg command old request = .ok ())
      (supersession : s = ⟨some old.id, some command.id, old.instructionVersion + 1⟩)
      (scope : db.scopes.insert? (childScope parent env) = some scopes)
      (node : db.nodes.insert? (childNode parent request s env) = some nodes)
      (intent : db.intents.insert? (childIntent cfg parent env) = some intents) :
      Effect (.registerNode (childNode parent request s env)) db
        (assignReplacement { db with scopes := scopes, nodes := nodes, intents := intents }
          command.id (env.uuid 0))
  | rotateIntent {db : Database} (nodeId : Id) (tokenHash : Digest) (expiresAt : Time) :
      Effect .rotate db { db with
        intents := db.intents.modify nodeId fun row =>
          { row with activationTokenHash := tokenHash, expiresAt := expiresAt } }
  | rotateToken {db : Database} {node : Node} (tokenHash : Digest)
      (found : db.nodes.get? node.id = some node) (status : node.status.isLive = true) :
      Effect .rotate db { db with
        nodes := db.nodes.modify node.id fun row => { row with tokenHash := some tokenHash } }
  | activate {db : Database} {node : Node} {intent : SpawnIntent} {now : Time}
      {commandId : Option Id} (request : NodeActivate) (tokenHash : Digest)
      (found : db.nodes.get? node.id = some node)
      (intentFound : db.intents.get? node.id = some intent)
      (unconsumed : intent.consumedAt = none) (unexpired : now < intent.expiresAt)
      (pending : node.status = .pending) (tokenless : node.tokenHash = none)
      (scopes : (evaluateScopes db node).allowed = true)
      (command : causingCommand db node .pending "Replacement activation lifecycle is inconsistent"
        = .ok commandId) :
      Effect (.activate (standing db node)) db
        (advanceReplacement { db with
          intents := db.intents.modify node.id fun row => { row with consumedAt := some now }
          nodes := db.nodes.modify node.id fun row =>
            row.activated request tokenHash now (now + seconds cfg.leaseTtlSeconds) }
          commandId .active)
  | renew {db : Database} {node : Node} {now : Time}
      (found : db.nodes.get? node.id = some node) (live : Live db node now) :
      Effect (.renew (standing db node)) db { db with
        nodes := db.nodes.modify node.id fun row =>
          { row with
            lastHeartbeatAt := some now
            leaseExpiresAt := some (now + seconds cfg.leaseTtlSeconds) } }
  | converge {db : Database} {node : Node} {now : Time} {path : Path}
      (found : db.nodes.get? node.id = some node)
      (running : RunRunning db node.runId) (status : node.status.isLive = true)
      (lease : node.leaseExpired now = false)
      (scopes : (evaluateScopes db node).allowed = false) :
      Effect (.converge path (standing db node)) db
        (setStatus db node.id (evaluateScopes db node).effectiveStatus)
  | expireHeartbeat {db : Database} {node : Node} {now : Time}
      (found : db.nodes.get? node.id = some node)
      (running : RunRunning db node.runId) (status : node.status.isLive = true)
      (lease : node.leaseExpired now = true) :
      Effect (.expire .heartbeat (standing db node)) db (setStatus db node.id .leaseExpired)
  | expireSweep {db : Database} {node : Node} {now : Time}
      (found : db.nodes.get? node.id = some node) (other : isRoot db node = false)
      (expired : sweepExpired db node now = true) :
      Effect (.expire .sweep (standing db node)) db (setStatus db node.id .leaseExpired)
  | expireScanner {db db' : Database} {node : Node} {runId : Option Id} {now : Time}
      (found : db.nodes.get? node.id = some node)
      (stale : staleLease runId now node = true ∨ staleIntent db runId now node = true)
      (failed : failRun (expireActivation (setStatus db node.id .leaseExpired) node) node now =
        .ok db') :
      Effect (.expire .scanner (standing db node)) db db'
  | checkpoint {db : Database} {read : Node} {status : NodeStatus} (changed : read.status ≠ status) :
      Effect (.checkpoint read status ((db.nodes.get? read.id).map (standing db))) db
        (setStatus db read.id status)
  | complete {db : Database} {node : Node} {run : Run} {now finishedAt : Time}
      {commandId : Option Id} {runs : Table Run} (completedAt : Time)
      (found : db.nodes.get? node.id = some node) (live : Live db node now)
      (runFound : db.runs.get? node.runId = some run)
      (finish : if run.rootNodeId = node.id then
        transitionRun db.runs run .completed finishedAt = .ok runs else runs = db.runs)
      (command : causingCommand db node .active "Replacement completion lifecycle is inconsistent"
        = .ok commandId) :
      Effect (.complete (standing db node)) db
        (advanceReplacement { db with
          runs := runs
          nodes := db.nodes.modify node.id fun row =>
            { row with
              status := .completed
              completedAt := some completedAt } }
          commandId .completed)
  | issue {db : Database} {request : CommandCreate} {principal : Principal} {issuer : Issuer}
      {run : Run} {target : Node} {scope : ControlScope} {plan : CommandPlan}
      {sourceProposalId : Option Id} {env : Env} {runs : Table Run}
      {commands : Table ControlCommand}
      (targetFound : db.nodes.get? target.id = some target)
      (runFound : db.runs.get? target.runId = some run) (running : run.status = .running)
      (authority : authorizeCommand db principal issuer target run request.commandType = .ok ())
      (planned : planCommand cfg db run target request env = .ok plan)
      (scopeFound : db.scopes.get? plan.targetScopeId = some scope) (scopeRun : scope.runId = run.id)
      (active : scope.status = .active)
      (finish : cancelledRuns db request run env = .ok runs)
      (inserted : db.commands.insert?
        (newCommand cfg request principal issuer run target sourceProposalId plan scope.version env) =
        some commands) :
      Effect
        (.issue (newCommand cfg request principal issuer run target sourceProposalId plan
          scope.version env)) db
        { db with
          scopes := invalidateScope db scope.id request.commandType.scopeStatus
            (issuer.node.map (·.id)) request.reasonCode (env.clock 6)
          runs := runs
          serviceStates := plan.serviceStates
          commands := commands }
  | states {db : Database} {states : ServiceTable} (fresh : FreshRows db.serviceStates states) :
      Effect .states db { db with serviceStates := states }
  | deny {db : Database} {attempt : ActionAttempt} {attempts : Table ActionAttempt}
      (decision : attempt.decision = .deny) (inserted : insertAttempt db attempt = .ok attempts) :
      Effect (.deny attempt) db { db with attempts := attempts }
  | allow {db : Database} {node : Node} {request : ActionExecute} {spec : ToolSpec} {env : Env}
      {executed : ServiceTable × Json} {attempt : ActionAttempt} {attempts : Table ActionAttempt}
      (found : db.nodes.get? node.id = some node) (live : Live db node (env.clock 0))
      (tool : getToolSpec request.toolName = .ok spec)
      (contract : recoveryContractDenial cfg db node request spec = none)
      (capability : spec.capability ∈ node.capabilities)
      (ran : spec.execute db.serviceStates node.runId (env.uuid 0) request.arguments env.clock =
        .ok executed)
      (row : attempt = { newAttempt cfg db node request spec none env with
        result := some executed.2
        resultDigest := some (cfg.jsonDigest (some executed.2))
        committedAt := some (env.clock 6) })
      (inserted : insertAttempt db attempt = .ok attempts) :
      Effect (.allow (standing db node) (env.clock 0) attempt) db
        { db with attempts := attempts, serviceStates := executed.1 }

/-! ### Sequences -/

variable {cfg}

/-- A sequence of effects whose outlines satisfy `P`. -/
def Writes (cfg : Config) (P : Write → Prop) : Database → Database → Prop :=
  Relation.ReflTransGen fun a b => ∃ w, P w ∧ Effect cfg w a b

namespace Writes

variable {P Q : Write → Prop} {a b c : Database} {w : Write}

theorem refl : Writes cfg P a a := Relation.ReflTransGen.refl

theorem single (hw : P w) (h : Effect cfg w a b) : Writes cfg P a b :=
  Relation.ReflTransGen.single ⟨w, hw, h⟩

theorem trans (h : Writes cfg P a b) (h' : Writes cfg P b c) : Writes cfg P a c :=
  Relation.ReflTransGen.trans h h'

theorem tail (h : Writes cfg P a b) (hw : P w) (h' : Effect cfg w b c) : Writes cfg P a c :=
  Relation.ReflTransGen.tail h ⟨w, hw, h'⟩

theorem mono (h : Writes cfg P a b) (hPQ : ∀ w, P w → Q w) : Writes cfg Q a b := by
  induction h with
  | refl => exact refl
  | tail _ he ih =>
    obtain ⟨w, hw, he⟩ := he
    exact ih.tail (hPQ w hw) he

/-- **The rule for transactions.** What every effect preserves, a sequence preserves. -/
theorem preserve {I : Database → Prop} (h : Writes cfg P a b) (ha : I a)
    (heffect : ∀ w a b, I a → P w → Effect cfg w a b → I b) : I b := by
  induction h with
  | refl => exact ha
  | tail _ he ih =>
    obtain ⟨w, hw, he⟩ := he
    exact heffect w _ _ ih hw he

/-- What relates the two ends of every effect, and composes, relates the two ends of a
sequence. -/
theorem relate {R : Database → Database → Prop} (h : Writes cfg P a b) (hrefl : ∀ a, R a a)
    (htrans : ∀ a b c, R a b → R b c → R a c)
    (heffect : ∀ w a b, P w → Effect cfg w a b → R a b) : R a b := by
  induction h with
  | refl => exact hrefl a
  | tail _ he ih =>
    obtain ⟨w, hw, he⟩ := he
    exact htrans _ _ _ ih (heffect w _ _ hw he)

end Writes

end TraceFence
