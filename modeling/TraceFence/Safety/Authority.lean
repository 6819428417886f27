import TraceFence.Registry.Control

/-!
# Authority is confined

An agent commands below itself. Its token, its liveness and its place in the tree are checked in
the transaction that issues the command, and a command that is not on the run itself changes the
own scope of its target. So whoever holds the tokens of some nodes can close nothing but own scopes
strictly below these nodes, however many nodes it spawns there and commands from.

## Main definitions

* `Confined` — what an agent's command was issued under
* `Within`, `Adversary` — a set of nodes with all below it, and the runs in which only it commands

## Main results

* `issueCommand_issued` — the guards of a command that is new
* `step_confined` — every command of an agent is confined
* `authority_confined` — what an adversary can close
-/

namespace TraceFence

open System Checked Forest

variable {cfg : Config} {db : Database} {s s' : Sys} {l : Label} {c : ControlCommand}

/-! ### New commands -/

/-- **The guards of a command that is new.** -/
theorem issueCommand_issued {request : CommandCreate} {principal : Principal}
    {token : Option Token} {env : Env} {done : Commit CommandIssued}
    (h : issueCommand cfg db request principal token env = .ok done)
    (hc : done.db.commands.get? c.id = some c) (hnew : db.commands.get? c.id = none) :
    ∃ target run issuer, db.nodes.get? target.id = some target ∧
      db.runs.get? target.runId = some run ∧ run.status = .running ∧
      authenticateIssuer cfg db principal token = .ok issuer ∧
      authorizeCommand db principal issuer target run c.commandType = .ok () ∧
      requireIssuerLive db issuer (env.clock 0) = .ok () ∧
      c.issuerNodeId = issuer.node.map (·.id) ∧ c.issuerType = principal.issuerType ∧
      c.runId = run.id ∧ c.targetNodeId = target.id := by
  have hfresh (hsame : done.db = db) : False := by
    rw [hsame, hnew] at hc
    cases hc
  rcases issueCommand_eq_ok h with ⟨hsame, -⟩ | ⟨target, run, issuer, source, plan, scope, hd⟩
  · exact (hfresh hsame).elim
  rcases Table.get?_insert?_cases (insertCommand?_eq_some hd.inserted) hc with ⟨_, _, rfl⟩ | hold
  · exact ⟨target, run, issuer, found_of_get? hd.targetFound, hd.runFound, hd.running,
      hd.authentic, hd.authority, hd.live, rfl, rfl, rfl, rfl⟩
  · rw [hnew] at hold
    cases hold

/-- A step that adds a command is a call that issues it. -/
theorem step_issueCommand (h : (services cfg).Step s l s') (hc : s'.db.commands.get? c.id = some c)
    (hnew : s.db.commands.get? c.id = none) :
    ∃ request principal token env done, l = .call (.issueCommand request principal token) env ∧
      issueCommand cfg s.db request principal token env = .ok done ∧ s'.db = done.db := by
  have hlabel : (s.db.commands.get? c.id).isSome = true ∨
      ∃ request principal token env, l = .call (.issueCommand request principal token) env := by
    refine (step_writes h).preserve (I := fun b => (b.commands.get? c.id).isSome = true →
      (s.db.commands.get? c.id).isSome = true ∨
        ∃ request principal token env, l = .call (.issueCommand request principal token) env)
      Or.inl ?_ (by rw [hc]; rfl)
    intro w a b ha hw he hb
    obtain ⟨c', hc'⟩ := Option.isSome_iff_exists.mp hb
    rcases he.command_cases hc' with ⟨_, rfl⟩ | ⟨k, hk, _⟩
    · cases hw
      exact Or.inr ⟨_, _, _, _, rfl⟩
    · exact ha (by rw [hk]; rfl)
  rw [hnew] at hlabel
  obtain ⟨request, principal, token, env, rfl⟩ := hlabel.resolve_left Bool.false_ne_true
  have hnext : s' = s.next cfg (.call (.issueCommand request principal token) env) := h.2.symm
  cases hrun : issueCommand cfg s.db request principal token env with
  | error e =>
    rw [hnext] at hc
    simp only [Sys.next, Call.run, hrun] at hc
    exact absurd (hnew.symm.trans hc) (Option.some_ne_none _).symm
  | ok done =>
    refine ⟨request, principal, token, env, done, rfl, hrun, ?_⟩
    rw [hnext]
    simp only [Sys.next, Call.run, hrun]
    rfl

/-! ### Agents -/

/-- **What a command of an agent was issued under**, `node` being the agent. -/
structure Confined (cfg : Config) (db : Database) (principal : Principal) (token : Option Token)
    (now : Time) (c : ControlCommand) (node : Node) : Prop where
  found : db.nodes.get? node.id = some node
  named : principal.nodeId = some node.id
  authenticated : ∃ t, token = some t ∧ cfg.tokenMatches t node.tokenHash = true
  issuer : c.issuerNodeId = some node.id
  live : Live db node now
  sameRun : c.runId = node.runId
  target : ∃ target, db.nodes.get? c.targetNodeId = some target ∧ target.runId = node.runId
  authority : isRoot db node = true ∨ (c.commandType ≠ .cancelRun ∧
    "control:descendants" ∈ node.capabilities ∧
    isDescendant db node.runId node.id c.targetNodeId = true)

/-- Whoever is not human is an agent with a token of its own. -/
theorem authenticateIssuer_agent {principal : Principal} {token : Option Token} {issuer : Issuer}
    (h : authenticateIssuer cfg db principal token = .ok issuer)
    (hagent : principal.issuerType = .agent) :
    ∃ node t, issuer.node = some node ∧ principal.nodeId = some node.id ∧
      db.nodes.get? node.id = some node ∧ token = some t ∧
      cfg.tokenMatches t node.tokenHash = true := by
  simp only [authenticateIssuer, hagent, bind_eq_ok, require_eq_ok, authenticateNode_eq_ok,
    pure_eq_ok] at h
  obtain ⟨nodeId, hnamed, t, htoken, node, ⟨hnode, hmatches⟩, rfl⟩ := h
  obtain rfl : node.id = nodeId := Table.key_of_get? hnode
  exact ⟨node, t, rfl, hnamed, hnode, htoken, hmatches⟩

theorem requireIssuerLive_agent {issuer : Issuer} {node : Node} {now : Time} {u : Unit}
    (hnode : issuer.node = some node) (h : requireIssuerLive db issuer now = .ok u) :
    Live db node now := by
  simp only [requireIssuerLive, hnode, bind_eq_ok, ensure_eq_ok] at h
  obtain ⟨state, hstate, hallowed⟩ := h
  exact (allowed_iff_live hstate).mp hallowed

/-- **A new command of an agent is confined.** -/
theorem issueCommand_confined {request : CommandCreate} {principal : Principal}
    {token : Option Token} {env : Env} {done : Commit CommandIssued}
    (h : issueCommand cfg db request principal token env = .ok done)
    (hc : done.db.commands.get? c.id = some c) (hnew : db.commands.get? c.id = none)
    (hagent : c.issuerType = .agent) :
    ∃ node, Confined cfg db principal token (env.clock 0) c node := by
  obtain ⟨target, run, issuer, htarget, hrun, _, hissuer, hauthority, hlive, hissuedBy, htype, hcrun,
    hctarget⟩ := issueCommand_issued h hc hnew
  rw [hagent] at htype
  obtain ⟨node, t, hnode, hnamed, hfound, htoken, hmatches⟩ :=
    authenticateIssuer_agent hissuer htype.symm
  simp only [authorizeCommand, bind_eq_ok, ensure_eq_ok, mayIssueCommand_allowed_iff] at hauthority
  obtain ⟨_, ⟨hsame, hroot, hallowed⟩, _⟩ := hauthority
  have hid : run.id = target.runId := Table.key_of_get? hrun
  rcases hallowed with hhuman | ⟨node', hnode', hnodeRun, hallowed⟩
  · rw [hhuman] at htype
    cases htype
  obtain rfl : node = node' := Option.some.inj (hnode.symm.trans hnode')
  refine ⟨node, hfound, hnamed, ⟨t, htoken, hmatches⟩, by rw [hissuedBy, hnode]; rfl,
    requireIssuerLive_agent hnode hlive, hcrun.trans hnodeRun.symm,
    ⟨target, hctarget ▸ htarget, hsame.trans hnodeRun.symm⟩, ?_⟩
  rcases hallowed with hisRoot | ⟨hsubtree, hcapability, hbelow⟩
  · left
    rw [isRoot, hnodeRun, hid, hrun]
    simpa using hisRoot.symm
  · right
    rw [hnode, Option.any_some, Bool.and_eq_true] at hbelow
    exact ⟨hsubtree, hcapability, by rw [hnodeRun, hctarget]; exact hbelow.2⟩

/-- **Every command of an agent is confined.** -/
theorem step_confined (h : (services cfg).Step s l s') (hc : s'.db.commands.get? c.id = some c)
    (hnew : s.db.commands.get? c.id = none) (hagent : c.issuerType = .agent) :
    ∃ request principal token env node, l = .call (.issueCommand request principal token) env ∧
      Confined cfg s.db principal token (env.clock 0) c node := by
  obtain ⟨request, principal, token, env, done, hlabel, hissue, hdone⟩ := step_issueCommand h hc hnew
  obtain ⟨node, hconfined⟩ := issueCommand_confined hissue (hdone ▸ hc) hnew hagent
  exact ⟨request, principal, token, env, node, hlabel, hconfined⟩

/-! ### Adversaries -/

/-- A node of a set, or one below such a node. -/
def Within (A : Set Id) (db : Database) (id : Id) : Prop :=
  ∃ a ∈ A, id = a ∨ Ancestor db.registry.parent a id

/-- Commands are accepted from agents of `A` and from what is below them only. -/
def Adversary (cfg : Config) (A : Set Id) (s : Sys) : Label → Prop
  | .call (.issueCommand request principal token) env =>
    ∀ done, issueCommand cfg s.db request principal token env = .ok done →
      principal.issuerType = .agent ∧ ∃ id, principal.nodeId = some id ∧ Within A s.db id
  | _ => True

/-- No node of the set is the root of its run. -/
def Rootless (A : Set Id) (db : Database) : Prop :=
  ∀ a ∈ A, ∀ n, db.nodes.get? a = some n → n.parentId ≠ none

theorem Rootless.before {A : Set Id} {a b : Database} (h : Rootless A b) (he : Evolves a b) :
    Rootless A a := by
  intro id hid n hn
  obtain ⟨n', hn', hreg⟩ := he.node_registration hn
  rw [← show n'.parentId = n.parentId from congrArg Registration.parentId hreg]
  exact h id hid n' hn'

theorem Within.not_root {A : Set Id} {n : Node} (h : Within A db n.id) (hA : Rootless A db)
    (hW : db.registry.WellFormed) (hn : db.nodes.get? n.id = some n) : isRoot db n = false := by
  have hparent : n.parentId ≠ none := by
    obtain ⟨a, ha, rfl | habove⟩ := h
    · exact hA n.id ha n hn
    · obtain ⟨p, hp, _⟩ := ancestor_iff.mp habove
      rw [registry_parent_of_get? hn] at hp
      rw [hp]
      exact Option.some_ne_none p
  by_contra hroot
  rw [Bool.not_eq_false, isRoot, Option.any_eq_true] at hroot
  obtain ⟨r, hr, hid⟩ := hroot
  rw [decide_eq_true_eq] at hid
  obtain ⟨root, hnode, _, horphan⟩ := hW.root _ _ (registry_run_of_get? hr)
  rw [hid, registry_node_of_get? hn] at hnode
  obtain rfl := Option.some.inj hnode
  exact hparent horphan

/-- A command of an adversary is strictly below its nodes. -/
theorem step_below {A : Set Id} (hs : (services cfg).Reachable s) (hA : Rootless A s.db)
    (h : ((services cfg).restrict (Adversary cfg A)).Step s l s')
    (hc : s'.db.commands.get? c.id = some c) (hnew : s.db.commands.get? c.id = none) :
    c.commandType ≠ .cancelRun ∧ ∃ a ∈ A, Ancestor s.db.registry.parent a c.targetNodeId := by
  obtain ⟨hstep, hadversary⟩ := System.restrict_step_iff.mp h
  obtain ⟨request, principal, token, env, done, rfl, hissue, hdone⟩ :=
    step_issueCommand hstep hc hnew
  obtain ⟨hagent, id, hid, hwithin⟩ := hadversary done hissue
  have htype : c.issuerType = .agent := by
    obtain ⟨_, _, _, _, _, _, _, _, _, _, hsame, _⟩ := issueCommand_issued hissue (hdone ▸ hc) hnew
    exact hsame.trans hagent
  obtain ⟨node, hconfined⟩ := issueCommand_confined hissue (hdone ▸ hc) hnew htype
  obtain rfl : id = node.id := Option.some.inj (hid.symm.trans hconfined.named)
  have hW := registry_wellFormed hs
  rcases hconfined.authority with hroot | ⟨hsubtree, _, hbelow⟩
  · rw [hwithin.not_root hA hW hconfined.found] at hroot
    cases hroot
  obtain ⟨target, htarget, hrun⟩ := hconfined.target
  rw [← hrun, isDescendant_iff hW htarget] at hbelow
  obtain ⟨a, ha, rfl | habove⟩ := hwithin
  · exact ⟨hsubtree, _, ha, hbelow⟩
  · exact ⟨hsubtree, a, ha, hbelow.trans habove⟩

/-- Along a run of an adversary every command was there before, or is strictly below its nodes. -/
theorem run_below {A : Set Id} (hs : (services cfg).Reachable s)
    (hrun : ((services cfg).restrict (Adversary cfg A)).Run s s') (hA : Rootless A s'.db) :
    ∀ id c, s'.db.commands.get? id = some c → (s.db.commands.get? id).isSome = true ∨
      (c.commandType ≠ .cancelRun ∧ ∃ a ∈ A, Ancestor s'.db.registry.parent a c.targetNodeId) := by
  induction hrun with
  | refl => exact fun id c hc => Or.inl (by rw [hc]; rfl)
  | @tail t t' hrun hstep ih =>
    obtain ⟨l, hl⟩ := hstep
    have hstep : (services cfg).Step t l t' := (System.restrict_step_iff.mp hl).1
    have ht : (services cfg).Reachable t := hs.run (System.Run.of_restrict hrun)
    have he : Evolves t.db t'.db := step_evolves hstep
    have hA' : Rootless A t.db := hA.before he
    intro id c hc
    obtain rfl : c.id = id := Table.key_of_get? hc
    cases hold : t.db.commands.get? c.id with
    | none =>
      obtain ⟨htype, a, ha, habove⟩ := step_below ht hA' hl hc hold
      exact Or.inr ⟨htype, a, ha, ancestor_of_le he.registry habove⟩
    | some k =>
      rcases ih hA' c.id k hold with hbefore | ⟨htype, a, ha, habove⟩
      · exact Or.inl hbefore
      obtain ⟨c', hc', hissued⟩ := he.command c.id k hold
      obtain rfl := Option.some.inj (hc.symm.trans hc')
      refine Or.inr ⟨?_, a, ha, ?_⟩
      · rwa [issued_column (·.commandType) (fun _ => rfl) hissued]
      · rw [issued_column (·.targetNodeId) (fun _ => rfl) hissued]
        exact ancestor_of_le he.registry habove

/-- **Authority confinement.** Every command of an agent was issued by a live node of the run of
its target, under its own token, that is the root or holds `control:descendants` above the target.
So when commands are accepted only from nodes of a set without roots and from what is below them,
a scope that is closed and was not before is the own scope of a node strictly below one of them. -/
theorem authority_confined (hs : (services cfg).Reachable s) :
    (∀ l s' c, (services cfg).Step s l s' → s'.db.commands.get? c.id = some c →
      s.db.commands.get? c.id = none → c.issuerType = .agent →
      ∃ request principal token env node,
        l = .call (.issueCommand request principal token) env ∧
          Confined cfg s.db principal token (env.clock 0) c node) ∧
    ∀ A s', ((services cfg).restrict (Adversary cfg A)).Run s s' → Rootless A s'.db →
      ∀ sc ∈ s'.db.scopes, sc.status ≠ .active →
        (∀ sc₀ ∈ s.db.scopes, sc₀.id = sc.id → sc₀.status = .active) →
        ∃ a ∈ A, ∃ n ∈ s'.db.nodes, sc.id = n.ownScopeId ∧ sc.ownerNodeId = some n.id ∧
          sc.runId = n.runId ∧ isDescendant s'.db n.runId a n.id = true := by
  refine ⟨fun l s' c hstep hc hnew hagent => step_confined hstep hc hnew hagent, ?_⟩
  intro A s' hrun hA sc hsc hclosed hopen
  have hs' : (services cfg).Reachable s' := hs.run (System.Run.of_restrict hrun)
  have hW := registry_wellFormed hs'
  have hC := controlled hs'
  obtain ⟨cid, c, hc, htarget⟩ := hC.inactive sc.id sc (Table.get?_of_mem hsc) hclosed
  have hgoverns := hC.command cid c hc
  rcases run_below hs hrun hA cid c hc with hbefore | ⟨htype, a, ha, habove⟩
  · -- A command that was there before has closed its scope before.
    obtain ⟨k, hk⟩ := Option.isSome_iff_exists.mp hbefore
    obtain ⟨c', hc', hissued⟩ := (run_evolves (System.Run.of_restrict hrun)).command cid k hk
    obtain rfl := Option.some.inj (hc.symm.trans hc')
    obtain ⟨sc₀, hsc₀, _, hstatus, _⟩ := ((controlled hs).command cid k hk).scope
    have hid : sc₀.id = sc.id := (Table.key_of_get? hsc₀).trans
      ((issued_column (·.targetScopeId) (fun _ => rfl) hissued).symm.trans htarget)
    have hactive := hopen sc₀ (Table.mem_of_get? hsc₀) hid
    exact absurd (hstatus.symm.trans hactive) (scopeStatus_ne_active _)
  · obtain ⟨n, hn, hnrun, hown⟩ := hgoverns.target
    have hown : sc.id = n.ownScopeId := htarget.symm.trans (hown htype)
    have howner := hW.ownScope _ _ (registry_node_of_get? hn)
    have hscope : s'.db.registry.scope sc.id = some ⟨sc.runId, sc.ownerNodeId⟩ := by
      have hget : s'.db.scopes.get? sc.id = some sc := Table.get?_of_mem hsc
      simp [Database.registry, hget]
    rw [hown] at hscope
    have hfacts : ScopeFacts.mk sc.runId sc.ownerNodeId = ⟨n.runId, some c.targetNodeId⟩ :=
      Option.some.inj (hscope.symm.trans howner)
    simp only [ScopeFacts.mk.injEq] at hfacts
    obtain hid : n.id = c.targetNodeId := Table.key_of_get? hn
    refine ⟨a, ha, n, Table.mem_of_get? hn, hown, hid ▸ hfacts.2, hfacts.1, ?_⟩
    rw [isDescendant_iff hW (found_of_get? hn), hid]
    exact habove

/-- A worker that may command, with a child. -/
def sampleLead : List Label :=
  [.begin (.createRun { name := "sample" }) (sampleEnv 1 10), .finish 0 (sampleEnv 1 10),
    .call (.createSpawn 11 10 { role := "lead", capabilities := ["control:descendants"] })
      (sampleEnv 1 20),
    .begin (.activate 20 { activationToken := 20 }) (sampleEnv 2 30), .finish 0 (sampleEnv 2 30),
    .call (.createSpawn 20 30 { role := "worker" }) (sampleEnv 3 40)]

/-- It cancels the child. -/
def sampleLeadStop : Label :=
  .call (.issueCommand
    { idempotencyKey := "stop", commandType := .cancelSubtree, targetNodeId := 40,
      reasonCode := "STOP", reasonText := "stop" } ⟨.agent, some 20, none⟩ (some 30)) (sampleEnv 4 60)

/-- Whether only node `20` commands. -/
def leads (_ : Sys) : Label → Bool
  | .call (.issueCommand _ principal _) _ =>
    decide (principal.issuerType = .agent) && decide (principal.nodeId = some 20)
  | _ => true

theorem adversary_of_leads {s : Sys} {l : Label} (h : leads s l = true) :
    Adversary sampleConfig {20} s l := by
  unfold Adversary
  split
  · rw [leads, Bool.and_eq_true, decide_eq_true_eq, decide_eq_true_eq] at h
    exact fun _ _ => ⟨h.1, 20, h.2, 20, rfl, Or.inl rfl⟩
  · trivial

/-- The worker of the sample run has closed the scope of its child. -/
theorem authority_confined_sample :
    (∃ c node, Confined sampleConfig (sample sampleLead).db ⟨.agent, some 20, none⟩ (some 30)
      (seconds 4) c node) ∧
    ∃ sc ∈ (sample (sampleLead ++ [sampleLeadStop])).db.scopes, sc.status ≠ .active ∧
      ∃ n ∈ (sample (sampleLead ++ [sampleLeadStop])).db.nodes, sc.ownerNodeId = some n.id ∧
        isDescendant (sample (sampleLead ++ [sampleLeadStop])).db n.runId 20 n.id = true := by
  have hconfined := authority_confined (sample_reachable sampleLead)
  have hissued : (sample (sampleLead ++ [sampleLeadStop])).db.commands.rows.any
      (fun c => c.issuerType = .agent) = true := by decide +kernel
  have hnone : (sample sampleLead).db.commands.rows.isEmpty = true := by decide +kernel
  have hclosed : (sample (sampleLead ++ [sampleLeadStop])).db.scopes.rows.any
      (fun sc => sc.status ≠ .active) = true := by decide +kernel
  have hopen : (sample sampleLead).db.scopes.rows.all (fun sc => sc.status = .active) = true := by
    decide +kernel
  have hparent : ((sample (sampleLead ++ [sampleLeadStop])).db.nodes.get? 20).all
      (fun n => n.parentId.isSome) = true := by decide +kernel
  have hrun : ((services sampleConfig).restrict (Adversary sampleConfig {20})).Run
      (sample sampleLead) (sample (sampleLead ++ [sampleLeadStop])) :=
    sample_checked_run (fun _ _ _ h => adversary_of_leads h) (by decide +kernel)
  constructor
  · obtain ⟨c, hc, hagent⟩ := List.any_eq_true.mp hissued
    rw [decide_eq_true_eq] at hagent
    have hnew : (sample sampleLead).db.commands.get? c.id = none := by
      rw [Table.get?_eq_none_iff]
      intro k hk
      rw [← Table.mem_rows, List.isEmpty_iff.mp hnone] at hk
      cases hk
    obtain ⟨_, _, _, _, node, hlabel, hnode⟩ := hconfined.1 _ _ c (sample_step sampleLead _)
      (Table.get?_of_mem hc) hnew hagent
    cases hlabel
    exact ⟨c, node, hnode⟩
  · obtain ⟨sc, hsc, hstatus⟩ := List.any_eq_true.mp hclosed
    rw [decide_eq_true_eq] at hstatus
    have hA : Rootless {20} (sample (sampleLead ++ [sampleLeadStop])).db := by
      rintro a rfl n hn hnone
      rw [hn, Option.all_some, hnone] at hparent
      cases hparent
    have hactive : ∀ sc₀ ∈ (sample sampleLead).db.scopes, sc₀.id = sc.id → sc₀.status = .active :=
      fun sc₀ hsc₀ _ => of_decide_eq_true (List.all_eq_true.mp hopen sc₀ hsc₀)
    obtain ⟨a, rfl, n, hn, _, howner, _, hbelow⟩ :=
      hconfined.2 {20} _ hrun hA sc hsc hstatus hactive
    exact ⟨sc, hsc, hstatus, n, hn, howner, hbelow⟩

end TraceFence
