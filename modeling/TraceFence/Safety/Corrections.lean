import TraceFence.Safety.Replay
import TraceFence.Safety.BlastRadius

/-!
# Can a correction be fulfilled?

`issue_command` designates the parent of a replacement, the parent of the target if it is live and
the root otherwise, and writes down what the replacement has to be. `create_replacement` checks all
of that again. What it finds is what was written down, in every later state; but it also asks that
the parent holds the capabilities it is to hand on, and `issue_command` has not looked at those.

## Main definitions

* `Fulfillable` — what a correction says about its target and its manifest
* `Asked` — the designated parent asks for the replacement that was written down
* `Delegable` — the parent that is designated holds the capability of the expected tool

## Main results

* `Acceptance.fulfillable`, `Fulfillable.evolves` — from the acceptance on, along every run
* `createReplacement_iff` — the capabilities of the parent decide
* `corrections_fulfilled`
* `corrections_fulfilled_fails` — a root that cannot restart the database is designated
-/

namespace TraceFence

open System Checked

variable {cfg : Config} {a b db : Database} {s s₁ s₂ : Sys} {command : ControlCommand}
  {parent : Node} {m : ManifestFields} {token : Token} {request : SpawnCreate} {env : Env}

/-! ### What was written down -/

/-- What a correction says about its target and its manifest. -/
structure Fulfillable (cfg : Config) (db : Database) (c : ControlCommand) (m : ManifestFields) :
    Prop where
  correction : c.commandType = .correctSubtree
  manifest : c.replacementManifest = some (.fields m)
  digest : c.replacementManifestDigest = some (cfg.payloadDigest (.manifest (.fields m)))
  valid : m.Valid
  instruction : m.instructionDigest = cfg.jsonDigest c.replacementInstruction
  target : ∃ target, db.nodes.get? c.targetNodeId = some target ∧
    m.instructionVersion = target.instructionVersion + 1 ∧ ∃ parentId,
      c.replacementParentId = some parentId ∧ (target.parentId = some parentId ∨
        ∃ run, db.runs.get? target.runId = some run ∧ parentId = run.rootNodeId)

/-- What was written down stays so. -/
theorem Fulfillable.evolves {c c' : ControlCommand} (h : Fulfillable cfg a c m)
    (hab : Evolves a b) (he : c'.issued = c.issued) : Fulfillable cfg b c' m where
  correction := (issued_column (·.commandType) (fun _ => rfl) he).trans h.correction
  manifest := (issued_column (·.replacementManifest) (fun _ => rfl) he).trans h.manifest
  digest := (issued_column (·.replacementManifestDigest) (fun _ => rfl) he).trans h.digest
  valid := h.valid
  instruction := by
    rw [issued_column (·.replacementInstruction) (fun _ => rfl) he]
    exact h.instruction
  target := by
    obtain ⟨target, htarget, hversion, parentId, hparent, hdesignated⟩ := h.target
    obtain ⟨target', htarget', hsame⟩ := hab.node_registration htarget
    have hid : c'.targetNodeId = c.targetNodeId := issued_column (·.targetNodeId) (fun _ => rfl) he
    have hversion' : target'.instructionVersion = target.instructionVersion :=
      congrArg Registration.instructionVersion hsame
    have hparent' : target'.parentId = target.parentId := congrArg Registration.parentId hsame
    have hrun' : target'.runId = target.runId := congrArg Registration.runId hsame
    refine ⟨target', hid ▸ htarget', hversion.trans (by rw [hversion']), parentId,
      (issued_column (·.replacementParentId) (fun _ => rfl) he).trans hparent, ?_⟩
    rcases hdesignated with hown | ⟨run, hrun, hroot⟩
    · exact Or.inl (hparent'.trans hown)
    · obtain ⟨run', hget, hfacts, -, -⟩ := hab.run_facts hrun
      exact Or.inr ⟨run', hrun' ▸ hget, hroot.trans hfacts.symm⟩

/-! ### What `create_replacement` asks for -/

/-- The designated parent asks for the replacement that was written down, as far as the graph
budget, the rate limit, its lease and the freshness of identifiers go in time. -/
structure Asked (cfg : Config) (db : Database) (command : ControlCommand) (parent : Node)
    (m : ManifestFields) (token : Token) (request : SpawnCreate) (env : Env) : Prop where
  commandFound : db.commands.get? command.id = some command
  vacant : command.replacementNodeId = none
  parentFound : db.nodes.get? parent.id = some parent
  designated : command.replacementParentId = some parent.id
  authentic : cfg.tokenMatches token parent.tokenHash = true
  manifest : command.replacementManifest = some (.fields m)
  role : request.role = m.role
  behavior : request.behavior = m.behavior
  capabilities : sortedSet request.capabilities = m.capabilitiesExact
  instruction : command.replacementInstruction = some request.instruction
  unused : findRecovery db .replacement parent.id request.operationKey
    (cfg.recoveryRequestDigest (.spawn (some command.id) request)) = .ok none
  unlimited : env.rateLimited = false
  live : Live db parent (env.clock 0)
  room : enforceGraphBudget cfg db parent = .ok ()
  freshNode : db.nodes.get? (env.uuid 0) = none
  freshIntent : db.intents.get? (env.uuid 0) = none
  freshScope : db.scopes.get? (env.uuid 1) = none

/-- The designated parent is a node of the run. -/
theorem Asked.runId (h : Asked cfg db command parent m token request env)
    (hf : Fulfillable cfg db command m) (hW : db.registry.WellFormed) (hg : Governs db command) :
    command.runId = parent.runId := by
  obtain ⟨target, htarget, -, parentId, hparent, hdesignated⟩ := hf.target
  obtain ⟨_, htarget', hrun, -⟩ := hg.target
  obtain rfl := Option.some.inj (htarget.symm.trans htarget')
  obtain rfl := Option.some.inj (hparent.symm.trans h.designated)
  have hnode := registry_node_of_get? h.parentFound
  rw [← hrun]
  rcases hdesignated with hown | ⟨run, hget, hroot⟩
  · obtain ⟨q, hq, hqrun, -⟩ := hW.child _ _ _ (registry_node_of_get? htarget) hown
    obtain rfl := Option.some.inj (hnode.symm.trans hq)
    exact hqrun.symm
  · obtain ⟨r, hr, hrrun, -⟩ := hW.root _ _ (registry_run_of_get? hget)
    rw [hroot] at hnode
    obtain rfl := Option.some.inj (hnode.symm.trans hr)
    exact hrrun.symm

theorem Asked.checkCommand (h : Asked cfg db command parent m token request env)
    (hf : Fulfillable cfg db command m) (hrun : command.runId = parent.runId) :
    checkReplacementCommand parent command = .ok () := by
  simp only [checkReplacementCommand, bind_eq_ok, ensure_eq_ok]
  exact ⟨(), hf.correction, (), hrun, h.designated⟩

/-- The lineage of a correction is what it was. -/
theorem Asked.checkLineage (h : Asked cfg db command parent m token request env)
    (hf : Fulfillable cfg db command m) (hg : Governs db command)
    (hrun : command.runId = parent.runId) :
    ∃ target, checkCorrectionLineage db parent command = .ok target ∧
      m.instructionVersion = target.instructionVersion + 1 := by
  obtain ⟨target, htarget, hversion, parentId, hparent, hdesignated⟩ := hf.target
  obtain ⟨_, htarget', htrun, hscopeId⟩ := hg.target
  obtain rfl := Option.some.inj (htarget.symm.trans htarget')
  obtain rfl := Option.some.inj (hparent.symm.trans h.designated)
  obtain ⟨scope, hscope, -, hstatus, hscopeVersion⟩ := hg.scope
  have htype : command.commandType ≠ .cancelRun := by simp [hf.correction]
  refine ⟨target, ?_, hversion⟩
  simp only [checkCorrectionLineage, bind_eq_ok, require_eq_ok, ensure_eq_ok, pure_eq_ok]
  refine ⟨target, htarget, scope, hscope, (), ⟨htrun.trans hrun, ?_⟩, (), (hscopeId htype).symm, (),
    ⟨hstatus.trans (by rw [hf.correction]; rfl), hscopeVersion.trans hg.toVersion.symm⟩, rfl⟩
  rcases hdesignated with hown | ⟨run, hget, hroot⟩
  · exact Or.inl hown
  · refine Or.inr ?_
    rw [← htrun, hget]
    simp [hroot, h.designated]

/-- The request is what the manifest says. -/
theorem Asked.checkManifest (h : Asked cfg db command parent m token request env)
    (hf : Fulfillable cfg db command m) {target : Node}
    (hversion : m.instructionVersion = target.instructionVersion + 1) :
    checkReplacementManifest cfg command target request = .ok () := by
  have hmodel : ReplacementManifest.modelValidate (.fields m) = some ⟨m, hf.valid⟩ := by
    rw [ReplacementManifest.modelValidate, dif_pos hf.valid]
  simp only [checkReplacementManifest, bind_eq_ok, require_eq_ok, ensure_eq_ok]
  refine ⟨(), by rw [h.instruction], .fields m, h.manifest, (), hf.digest, ⟨m, hf.valid⟩, hmodel,
    ?_⟩
  exact ⟨h.role, h.behavior, h.capabilities, by rw [hf.instruction, h.instruction], hversion.symm⟩

theorem Asked.checkRetry (h : Asked cfg db command parent m token request env) :
    checkRetry db command = .ok () := by
  rw [TraceFence.checkRetry, h.vacant]

/-- With fresh identifiers a pending child is registered. -/
theorem Asked.registers (h : Asked cfg db command parent m token request env) (sup : Supersession) :
    ∃ registered, createSpawnLocked cfg db parent request sup env = .ok registered ∧
      registered.envelopes = db.envelopes := by
  have hscope := Table.exists_insert? (r := childScope parent env) h.freshScope
  have hnode := Table.exists_insert? (r := childNode parent request sup env) h.freshNode
  have hintent := Table.exists_insert? (r := childIntent cfg parent env) h.freshIntent
  simp only [createSpawnLocked, bind_eq_ok, require_eq_ok, pure_eq_ok]
  exact ⟨_, ⟨_, hscope, _, hnode, _, hintent, rfl⟩, rfl⟩

/-- A response under an operation key that was not used is sealed. -/
theorem exists_sealRecovery {runId callerId subjectId : Id} {key : Option String} {digest : Digest}
    {type : OperationType} {response : Credential} {now : Time}
    (h : findRecovery db type callerId key digest = .ok none) (hsame : a.envelopes = db.envelopes) :
    ∃ db', sealRecovery cfg a runId type callerId subjectId key digest response now = .ok db' := by
  cases key with
  | none => exact ⟨a, rfl⟩
  | some key =>
    simp only [findRecovery, findEnvelope, bind_eq_ok, pure_eq_ok] at h
    obtain ⟨_, -, hnone⟩ := h
    rw [← hsame] at hnone
    let envelope := newEnvelope cfg runId ⟨type, callerId, key, digest, subjectId⟩ response now
    have hinsert := Table.exists_insert? (t := a.envelopes) (r := envelope) hnone
    simp only [sealRecovery, sealEnvelope, bind_eq_ok, require_eq_ok, pure_eq_ok]
    exact ⟨_, _, hinsert, rfl⟩

/-- **The capabilities of the parent decide.** -/
theorem createReplacement_iff (h : Asked cfg db command parent m token request env)
    (hf : Fulfillable cfg db command m) (hW : db.registry.WellFormed) (hg : Governs db command) :
    (∃ c, createReplacement cfg db parent.id token command.id request env = .ok c) ↔
      ∀ capability ∈ m.capabilitiesExact, capability ∈ parent.capabilities := by
  have hrun := h.runId hf hW hg
  obtain ⟨target, hlineage, hversion⟩ := h.checkLineage hf hg hrun
  have hsubset : (∀ capability ∈ m.capabilitiesExact, capability ∈ parent.capabilities) ↔
      request.capabilities ⊆ parent.capabilities := by
    rw [← h.capabilities]
    exact forall_congr' fun capability => by rw [mem_sortedSet]
  have hrate : env.checkRate "spawn" = .ok () := Env.checkRate_eq_ok.mpr h.unlimited
  have hlive := requireLive_of_live h.live "Replacement parent is not live"
    "REPLACEMENT_PARENT_DENIED"
  have hauth := authenticateNode_eq_ok.mpr ⟨h.parentFound, h.authentic⟩
  rw [hsubset]
  constructor
  · rintro ⟨c, hc⟩
    simp only [createReplacement, bind_eq_ok] at hc
    obtain ⟨parent', hparent, envelope, henvelope, hc⟩ := hc
    obtain rfl := Except.ok.inj (hparent.symm.trans hauth)
    obtain rfl := Except.ok.inj (henvelope.symm.trans h.unused)
    simp only [registerReplacement, bind_eq_ok] at hc
    obtain ⟨_, -, _, -, _, -, _, -, _, -, _, -, _, -, _, -, _, hcapabilities, -⟩ := hc
    exact ensure_eq_ok.mp hcapabilities
  · intro hcapabilities
    obtain ⟨registered, hregistered, hsame⟩ :=
      h.registers ⟨some target.id, some command.id, target.instructionVersion + 1⟩
    have hassigned : (assignReplacement registered command.id (env.uuid 0)).envelopes =
        db.envelopes := hsame
    obtain ⟨sealedDb, hsealed⟩ : ∃ sealedDb, sealRecovery cfg
        (assignReplacement registered command.id (env.uuid 0)) parent.runId .replacement parent.id
        (env.uuid 0) request.operationKey
        (cfg.recoveryRequestDigest (.spawn (some command.id) request))
        (.spawn (spawnCreated cfg env)) (env.clock 3) = .ok sealedDb :=
      exists_sealRecovery h.unused hassigned
    obtain ⟨c, hc⟩ : ∃ c, registerReplacement cfg db parent command.id request
        (cfg.recoveryRequestDigest (.spawn (some command.id) request)) env = .ok c := by
      simp only [registerReplacement, bind_eq_ok]
      exact ⟨_, (), hrate, (), hlive, command, require_eq_ok.mpr h.commandFound, (),
        h.checkCommand hf hrun, (), h.checkRetry, (), h.room, target, hlineage, (),
        h.checkManifest hf hversion, (), ensure_eq_ok.mpr hcapabilities, registered, hregistered,
        sealedDb, hsealed, rfl⟩
    refine ⟨c, ?_⟩
    simp only [createReplacement, bind_eq_ok]
    exact ⟨parent, hauth, none, h.unused, hc⟩

/-! ### What an accepted correction writes down -/

theorem isLive_eq_ok {node : Node} {now : Time} (h : isLive db node now = .ok true) :
    Live db node now := by
  simp only [isLive, bind_eq_ok, pure_eq_ok] at h
  obtain ⟨state, hstate, hallowed⟩ := h
  exact (allowed_iff_live hstate).mp hallowed

/-- The designated parent is live, and further up than the target. -/
theorem chooseReplacementParent_eq_ok {run : Run} {target : Node} {parentId : Id}
    (h : chooseReplacementParent db run target env = .ok parentId) :
    ∃ parent, db.nodes.get? parentId = some parent ∧
      (target.parentId = some parentId ∨ (parentId = run.rootNodeId ∧ parentId ≠ target.id)) ∧
      ∃ k, Live db parent (env.clock k) := by
  simp only [chooseReplacementParent, bind_eq_ok] at h
  obtain ⟨intended, hintended, h⟩ := h
  cases intended with
  | some pid =>
    obtain rfl := pure_eq_ok.mp h
    rw [intendedParent] at hintended
    cases hparent : target.parentId.bind db.nodes.get? with
    | none =>
      rw [hparent] at hintended
      cases hintended
    | some parent =>
      rw [hparent] at hintended
      simp only [bind_eq_ok, pure_eq_ok] at hintended
      obtain ⟨live, hlive, hid⟩ := hintended
      cases live with
      | false => cases hid
      | true =>
        obtain ⟨pid', hpid, hget⟩ := Option.bind_eq_some_iff.mp hparent
        have hkey : parent.id = pid' := Table.key_of_get? hget
        obtain rfl : parent.id = pid := Option.some.inj hid
        subst hkey
        exact ⟨parent, hget, Or.inl hpid, 4, isLive_eq_ok hlive⟩
  | none =>
    simp only [fallbackParent, bind_eq_ok, require_eq_ok, ensure_eq_ok, pure_eq_ok,
      Option.filter_eq_some_iff, decide_eq_true_eq] at h
    obtain ⟨root, ⟨hget, hne⟩, live, hlive, _, rfl, rfl⟩ := h
    have hkey : root.id = run.rootNodeId := Table.key_of_get? hget
    exact ⟨root, hkey ▸ hget, Or.inr ⟨hkey, hne⟩, 5, isLive_eq_ok hlive⟩

/-- The manifest of a correction. -/
theorem buildReplacementManifest_eq_ok {run : Run} {target : Node} {request : CommandCreate}
    {built : ServiceTable × ReplacementManifest}
    (h : buildReplacementManifest cfg db run target request env = .ok built) :
    ∃ spec, expectedSpec request = .ok spec ∧
      built.2.capabilitiesExact = sorted (spec.toList.map (·.capability)) ∧
      built.2.instructionDigest = cfg.jsonDigest request.replacementInstruction ∧
      built.2.instructionVersion = target.instructionVersion + 1 := by
  simp only [buildReplacementManifest, bind_eq_ok, ensure_eq_ok, require_eq_ok, pure_eq_ok] at h
  obtain ⟨spec, hspec, _, _, _, _, _, hcapabilities, _, _, _, _, _, _, m, hm, rfl⟩ := h
  have hdump := ReplacementManifest.modelDump_of_modelValidate hm
  simp only [ReplacementManifest.modelDump, ManifestJson.fields.injEq] at hdump
  refine ⟨spec, hspec, ?_, ?_, ?_⟩
  · rw [hdump]
    exact hcapabilities
  · rw [hdump]
  · rw [hdump]

section Accepted

variable {request : CommandCreate} {principal : Principal} {nodeToken : Option Token}
  {c : Commit CommandIssued} {target : Node} {run : Run} {issuer : Issuer} {source : Option Id}
  {plan : CommandPlan} {scope : ControlScope}

/-- The plan of a correction. -/
theorem planCommand_correction (htype : request.commandType = .correctSubtree)
    (h : planCommand cfg db run target request env = .ok plan) :
    ∃ built parentId, buildReplacementManifest cfg db run target request env = .ok built ∧
      chooseReplacementParent db run target env = .ok parentId ∧ plan =
        { targetScopeId := target.ownScopeId, replacementParentId := some parentId,
          manifest := some built.2, serviceStates := built.1 } := by
  rw [planCommand, htype] at h
  simp only [bind_eq_ok, pure_eq_ok] at h
  obtain ⟨built, hbuilt, parentId, hparent, rfl⟩ := h
  exact ⟨built, parentId, hbuilt, hparent, rfl⟩

theorem Acceptance.nodes_eq (hc : Acceptance cfg db request principal nodeToken env c target run
    issuer source plan scope) : c.db.nodes = db.nodes :=
  congrArg (fun c => c.db.nodes) hc.commit

theorem Acceptance.runs_eq (hc : Acceptance cfg db request principal nodeToken env c target run
    issuer source plan scope) (htype : request.commandType = .correctSubtree) :
    c.db.runs = db.runs := by
  have hruns := hc.finish
  rw [cancelledRuns, if_neg (by simp [htype])] at hruns
  exact (Except.ok.inj hruns).symm

/-- **An accepted correction** says what its replacement has to be. -/
theorem Acceptance.fulfillable (hc : Acceptance cfg db request principal nodeToken env c target run
    issuer source plan scope) (htype : request.commandType = .correctSubtree) :
    ∃ command m spec parentId, c.db.commands.get? c.value.commandId = some command ∧
      c.value.replacementParentId = some parentId ∧ command.replacementParentId = some parentId ∧
      chooseReplacementParent db run target env = .ok parentId ∧ expectedSpec request = .ok spec ∧
      m.capabilitiesExact = sorted (spec.toList.map (·.capability)) ∧
      Fulfillable cfg c.db command m := by
  obtain ⟨built, parentId, hbuilt, hparent, hplan⟩ := planCommand_correction htype hc.planned
  obtain ⟨spec, hspec, hcapabilities, hinstruction, hversion⟩ :=
    buildReplacementManifest_eq_ok hbuilt
  obtain ⟨parent, -, hdesignated, -⟩ := chooseReplacementParent_eq_ok hparent
  have hinserted := insertCommand?_eq_some hc.inserted
  have hvalue := congrArg Commit.value hc.commit
  have htarget : target.id = request.targetNodeId := Table.key_of_get? hc.targetFound
  have hmanifest : plan.manifest = some built.2 := by rw [hplan]
  have hparentId : plan.replacementParentId = some parentId := by rw [hplan]
  refine ⟨newCommand cfg request principal issuer run target source plan scope.version env,
    built.2.toManifestFields, spec, parentId, ?_, ?_, hparentId, hparent, hspec, hcapabilities, ?_⟩
  · rw [hvalue, Table.get?_of_insert? hinserted]
    exact if_pos rfl
  · rw [hvalue]
    exact hparentId
  · refine ⟨htype, ?_, ?_, built.2.valid, hinstruction, target, ?_, hversion, parentId, hparentId,
      ?_⟩
    · simp [newCommand, hmanifest, ReplacementManifest.modelDump]
    · simp [newCommand, hmanifest, ReplacementManifest.modelDump]
    · show c.db.nodes.get? target.id = some target
      rw [hc.nodes_eq, htarget]
      exact hc.targetFound
    · rw [hc.runs_eq htype]
      exact hdesignated.imp id fun hroot => ⟨run, hc.runFound, hroot.1⟩

/-- The scope of the target is not in the snapshot of the designated parent. -/
theorem own_not_mem_parent (hW : db.registry.WellFormed)
    (htarget : db.nodes.get? target.id = some target)
    (hrun : db.runs.get? target.runId = some run) {parent : Node}
    (hparent : db.nodes.get? parent.id = some parent)
    (hdesignated : target.parentId = some parent.id ∨
      (parent.id = run.rootNodeId ∧ parent.id ≠ target.id)) :
    target.ownScopeId ∉ parent.scopeSnapshot.map (·.scopeId) := by
  have hx := registry_node_of_get? hparent
  have ha := registry_node_of_get? htarget
  rcases hdesignated with hown | ⟨hroot, hne⟩
  · obtain ⟨q, hq, hqrun, hgeneration, -⟩ := hW.child _ _ _ ha hown
    obtain rfl := Option.some.inj (hx.symm.trans hq)
    have hgeneration : target.generation = parent.generation + 1 := hgeneration
    refine hW.own_not_mem ha hx hqrun.symm ?_ fun he => ?_
    · show parent.generation ≤ target.generation
      omega
    · rw [he] at hx
      have hsame : target.generation = parent.generation :=
        congrArg Registration.generation (Option.some.inj (ha.symm.trans hx))
      omega
  · obtain ⟨r, hr, hrrun, horphan⟩ := hW.root _ _ (registry_run_of_get? hrun)
    rw [← hroot] at hr
    obtain rfl := Option.some.inj (hx.symm.trans hr)
    obtain ⟨f, -, -, hgeneration, -⟩ := hW.orphan _ _ hx horphan
    refine hW.own_not_mem ha hx hrrun.symm ?_ hne
    show parent.generation ≤ target.generation
    have hgeneration : parent.generation = 0 := hgeneration
    omega

/-- Accepting a correction does not take the designated parent down. -/
theorem Acceptance.keeps_live (hc : Acceptance cfg db request principal nodeToken env c target run
    issuer source plan scope) (htype : request.commandType = .correctSubtree) (hW : db.registry.WellFormed)
    {parent : Node} (hparent : db.nodes.get? parent.id = some parent)
    (hdesignated : target.parentId = some parent.id ∨
      (parent.id = run.rootNodeId ∧ parent.id ≠ target.id)) {now : Time} (h : Live db parent now) :
    Live c.db parent now := by
  obtain ⟨built, parentId, -, -, hplan⟩ := planCommand_correction htype hc.planned
  have hkey : scope.id = plan.targetScopeId := Table.key_of_get? hc.scopeFound
  have hscope : scope.id = target.ownScopeId := by rw [hkey, hplan]
  have hscopes : c.db.scopes = invalidateScope db scope.id request.commandType.scopeStatus
      (issuer.node.map (·.id)) request.reasonCode (env.clock 6) :=
    congrArg (fun c => c.db.scopes) hc.commit
  have hout := own_not_mem_parent hW (found_of_get? hc.targetFound) hc.runFound hparent hdesignated
  have hevaluation : evaluateScopes c.db parent = evaluateScopes db parent := by
    refine evaluateScopes_congr_on fun item hitem => ?_
    have hne : item.scopeId ≠ scope.id := fun he =>
      hout (List.mem_map.mpr ⟨item, hitem, he.trans hscope⟩)
    rw [liveScope, liveScope, hscopes, invalidateScope, Table.get?_modify_of_ne (by intro; rfl) hne]
  exact ⟨by rw [RunRunning, hc.runs_eq htype]; exact h.running, h.status, h.lease,
    hevaluation ▸ h.scopes⟩

end Accepted

/-! ### Every accepted correction -/

/-- **The condition.** The parent `issue_command` designates holds the capability of the expected
tool, if the request expects one. -/
def Delegable (db : Database) (request : CommandCreate) (env : Env) : Prop :=
  ∀ target run spec parentId parent, getNode db request.targetNodeId = .ok target →
    getRun db target.runId = .ok run → expectedSpec request = .ok spec →
      chooseReplacementParent db run target env = .ok parentId →
        db.nodes.get? parentId = some parent → ∀ tool ∈ spec, tool.capability ∈ parent.capabilities

/-- **Which corrections can be fulfilled.** When `issue_command` accepts a correction, the parent it
designates is still live right afterwards. In that state and in every later one in which there is no
replacement yet, a designated parent that is live, with room in the graph and under the rate limit,
is admitted with what the manifest says, exactly if it held the capability of the expected tool when
it was designated. -/
theorem corrections_fulfilled (hs : (services cfg).Reachable s) {request : CommandCreate}
    {principal : Principal} {nodeToken : Option Token} {c : Commit CommandIssued}
    (hstep : (services cfg).Step s (.call (.issueCommand request principal nodeToken) env) s₁)
    (h : issueCommand cfg s.db request principal nodeToken env = .ok c)
    (hnew : c.value.duplicate = false) (htype : request.commandType = .correctSubtree) :
    (∃ parent, s₁.db.nodes.get? parent.id = some parent ∧
      c.value.replacementParentId = some parent.id ∧ ∃ k, Live s₁.db parent (env.clock k)) ∧
    ∀ s₂ command parent m token request' env', (services cfg).Run s₁ s₂ →
      command.id = c.value.commandId →
        Asked cfg s₂.db command parent m token request' env' →
          ((∃ c', createReplacement cfg s₂.db parent.id token command.id request' env' = .ok c') ↔
            Delegable s.db request env) := by
  have hdb : s₁.db = c.db := next_issueCommand hstep h
  rcases issueCommand_eq_ok h with ⟨-, hduplicate⟩ | ⟨target, run, issuer, source, plan, scope, hc⟩
  · rw [hduplicate] at hnew
    cases hnew
  obtain ⟨issued, m₀, spec, parentId, hissued, hvalueParent, hissuedParent, hchosen, hspec,
    hcapabilities, hfulfillable⟩ := hc.fulfillable htype
  obtain ⟨parent₀, hparent₀, hdesignated, k, hlive⟩ := chooseReplacementParent_eq_ok hchosen
  obtain rfl : parent₀.id = parentId := Table.key_of_get? hparent₀
  refine ⟨⟨parent₀, ?_, hvalueParent, k, ?_⟩, ?_⟩
  · rw [hdb, hc.nodes_eq]
    exact hparent₀
  · rw [hdb]
    exact hc.keeps_live htype (registry_wellFormed hs) hparent₀ hdesignated hlive
  · intro s₂ command parent m token request' env' hrun hid hasked
    have hs₂ := (hs.step hstep).run hrun
    have hevolves : Evolves c.db s₂.db := hdb ▸ run_evolves hrun
    obtain ⟨command', hcommand', hsame⟩ := hevolves.command _ _ hissued
    obtain rfl := Option.some.inj ((hid ▸ hcommand').symm.trans hasked.commandFound)
    have hf := hfulfillable.evolves hevolves hsame
    have hm : m = m₀ := by
      have := hasked.manifest.symm.trans hf.manifest
      simpa using this
    rw [← hm] at hf
    rw [createReplacement_iff hasked hf (registry_wellFormed hs₂)
      ((controlled hs₂).command _ _ hasked.commandFound), hm, hcapabilities]
    have hparent : parent.id = parent₀.id := Option.some.inj (hasked.designated.symm.trans
      ((issued_column (·.replacementParentId) (fun _ => rfl) hsame).trans hissuedParent))
    obtain ⟨parent', hget', hregistration⟩ :=
      hevolves.node_registration (hc.nodes_eq ▸ hparent₀)
    obtain rfl := Option.some.inj (hget'.symm.trans (hparent ▸ hasked.parentFound))
    have hheld : parent'.capabilities = parent₀.capabilities :=
      congrArg Registration.capabilities hregistration
    rw [hheld]
    constructor
    · intro hall target' run' spec' parentId' parent'' htarget' hrun' hspec' hchosen' hparent'' tool
        htool
      obtain rfl := Option.some.inj (hc.targetFound.symm.trans (getNode_eq_ok.mp htarget'))
      obtain rfl := Option.some.inj (hc.runFound.symm.trans (getRun_eq_ok.mp hrun'))
      obtain rfl := Except.ok.inj (hspec.symm.trans hspec')
      obtain rfl := Except.ok.inj (hchosen.symm.trans hchosen')
      obtain rfl := Option.some.inj (hparent₀.symm.trans hparent'')
      refine hall tool.capability ?_
      rw [sorted, List.mem_insertionSort]
      exact List.mem_map_of_mem (Option.mem_toList.mpr htool)
    · intro hdelegable capability hmem
      rw [sorted, List.mem_insertionSort] at hmem
      obtain ⟨tool, htool, rfl⟩ := List.mem_map.mp hmem
      exact hdelegable target run spec parent₀.id parent₀ (getNode_eq_ok.mpr hc.targetFound)
        (getRun_eq_ok.mpr hc.runFound) hspec hchosen hparent₀ tool (Option.mem_toList.mp htool)

/-- An operator corrects the worker of the sample run. Its replacement is to restart the database,
which the root of the run cannot. -/
def sampleUnheld : CommandCreate where
  idempotencyKey := "correct"
  commandType := .correctSubtree
  targetNodeId := 20
  reasonCode := "CORRECT"
  reasonText := "correct"
  replacementInstruction := some (.obj [])
  replacementExpectedTool := some "restart_postgres"

def sampleIssued : Sys :=
  sample (sampleStart ++
    [.call (.issueCommand sampleUnheld ⟨.human, none, none⟩ none) (sampleEnv 3 40)])

theorem isSome_command : (sampleIssued.db.commands.get? 40).isSome = true := by decide +kernel

theorem isSome_root : (sampleIssued.db.nodes.get? 11).isSome = true := by decide +kernel

/-- The root asks for that replacement. -/
theorem asked_sample : ∃ m, Asked sampleConfig sampleIssued.db
    ((sampleIssued.db.commands.get? 40).get isSome_command)
    ((sampleIssued.db.nodes.get? 11).get isSome_root) m 10
    { role := "postgres_recovery", capabilities := ["tool:restart_postgres"] } (sampleEnv 4 50) :=
  ⟨_, {
    commandFound := rfl
    vacant := rfl
    parentFound := rfl
    designated := rfl
    authentic := rfl
    manifest := rfl
    role := rfl
    behavior := rfl
    capabilities := rfl
    instruction := rfl
    unused := rfl
    unlimited := rfl
    live := ⟨⟨_, rfl, rfl⟩, rfl, by decide +kernel, by decide +kernel⟩
    room := rfl
    freshNode := rfl
    freshIntent := rfl
    freshScope := rfl }⟩

/-- It is refused. -/
theorem refused_sample : createReplacement sampleConfig sampleIssued.db 11 10 40
    { role := "postgres_recovery", capabilities := ["tool:restart_postgres"] } (sampleEnv 4 50) =
      .error (authorizationError "Requested capabilities are not delegable by parent") := by
  rfl

theorem corrections_fulfilled_sample :
    ¬ Delegable (sample sampleStart).db sampleUnheld (sampleEnv 3 40) := by
  intro hdelegable
  obtain ⟨c, hissued, hnew, hid⟩ : ∃ c, issueCommand sampleConfig (sample sampleStart).db
      sampleUnheld ⟨.human, none, none⟩ none (sampleEnv 3 40) = .ok c ∧
        c.value.duplicate = false ∧ c.value.commandId = 40 := ⟨_, rfl, rfl, rfl⟩
  obtain ⟨m, hasked⟩ := asked_sample
  obtain ⟨c', hadmitted⟩ := ((corrections_fulfilled (sample_reachable sampleStart)
    (sample_step sampleStart _) hissued hnew rfl).2 _ _ _ m _ _ _ Run.refl hid.symm hasked).mpr
      hdelegable
  have hfalse := refused_sample.symm.trans hadmitted
  cases hfalse

/-- The correction was accepted all the same. -/
theorem corrections_fulfilled_fails :
    ¬ ∀ (cfg : Config) (s s₁ s₂ : Sys) (request : CommandCreate) (principal : Principal)
      (nodeToken : Option Token) (env : Env) (c : Commit CommandIssued) (command : ControlCommand)
      (parent : Node) (m : ManifestFields) (token : Token) (request' : SpawnCreate) (env' : Env),
      (services cfg).Reachable s →
        (services cfg).Step s (.call (.issueCommand request principal nodeToken) env) s₁ →
          issueCommand cfg s.db request principal nodeToken env = .ok c →
            c.value.duplicate = false → request.commandType = .correctSubtree →
              (services cfg).Run s₁ s₂ → command.id = c.value.commandId →
                Asked cfg s₂.db command parent m token request' env' →
                  ∃ c', createReplacement cfg s₂.db parent.id token command.id request' env' =
                    .ok c' := by
  intro h
  obtain ⟨c, hissued, hnew, hid⟩ : ∃ c, issueCommand sampleConfig (sample sampleStart).db
      sampleUnheld ⟨.human, none, none⟩ none (sampleEnv 3 40) = .ok c ∧
        c.value.duplicate = false ∧ c.value.commandId = 40 := ⟨_, rfl, rfl, rfl⟩
  obtain ⟨m, hasked⟩ := asked_sample
  obtain ⟨c', hadmitted⟩ := h sampleConfig _ _ _ _ _ _ _ c _ _ m _ _ _
    (sample_reachable sampleStart) (sample_step sampleStart _) hissued hnew rfl Run.refl hid.symm
    hasked
  have hfalse := refused_sample.symm.trans hadmitted
  cases hfalse

end TraceFence
