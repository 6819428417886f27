import TraceFence.Registry.Evolution

/-!
# What a step inserts

The effects leave out some of what an insertion is checked against: the limits of the installation
and the delegation of capabilities. Here a step is read for these alone. Of the four tables whose
rows are counted, a step extends one by one row or leaves all as they are.

## Main definitions

* `Tally` — the four tables, as far as rows are counted and never change
* `Enrols` — the checks a node is registered under
* `Inserts` — one row more, or none, under the checks of its table

## Main results

* `step_commits` — what holds of every transaction holds of every step
* `step_inserts` — a step inserts one checked row or none
-/

namespace TraceFence

open Checked System

variable {cfg : Config} {w : Write} {es : List RuntimeEvent} {a b db : Database} {s s' : Sys} {l : Label}

/-! ### Steps by their transactions -/

/-- **A step commits the transaction of one operation, or none.** -/
theorem step_commits {R : Database → Database → Prop} (h : (services cfg).Step s l s')
    (hrefl : R s.db s.db)
    (hcall : ∀ call env c, l = .call call env → call.run cfg s.db env = .ok c → R s.db c.db)
    (hfinish : ∀ index env f c, l = .finish index env → s.inflight[index]? = some f →
      f.commit cfg s.db env = .ok c → R s.db c.db) : R s.db s'.db := by
  obtain ⟨_, rfl⟩ := h
  change R s.db (s.next cfg l).db
  cases hc : s.transaction cfg l with
  | none =>
    rw [(next_of_no_transaction hc).1]
    exact hrefl
  | some c =>
    rw [(next_of_transaction hc).1]
    cases l with
    | call call env => exact hcall call env c rfl (toOption_eq_some.mp hc)
    | begin call env => cases hc
    | finish index env =>
      obtain ⟨f, hf, hc⟩ := Option.bind_eq_some_iff.mp hc
      exact hfinish index env f c rfl hf (toOption_eq_some.mp hc)

/-! ### Counted rows -/

/-- The registrations, first to last. -/
def Database.registrations (db : Database) : List Registration :=
  db.nodes.rows.map Node.registration

/-- The orders that have been issued, first to last. -/
def Database.orders (db : Database) : List ControlCommand :=
  db.commands.rows.map ControlCommand.issued

theorem orders_setReplacementStatus (db : Database) (commandId : Id) (status : ReplacementStatus) :
    (setReplacementStatus db commandId status).orders = db.orders := by
  rw [setReplacementStatus, Database.orders, Table.map_modify (by intro; rfl)]
  rfl

theorem orders_assignReplacement (db : Database) (commandId nodeId : Id) :
    (assignReplacement db commandId nodeId).orders = db.orders := by
  rw [assignReplacement, Database.orders, Table.map_modify (by intro; rfl)]
  rfl

theorem orders_advanceReplacement (db : Database) (commandId : Option Id)
    (status : ReplacementStatus) : (advanceReplacement db commandId status).orders = db.orders := by
  cases commandId with
  | none => rfl
  | some commandId => exact orders_setReplacementStatus db commandId status

theorem orders_expireActivation (db : Database) (node : Node) :
    (expireActivation db node).orders = db.orders := by
  rw [expireActivation]
  repeat' split
  · rfl
  · exact orders_setReplacementStatus db _ _
  · rfl

/-- The tables whose rows are counted, in the columns that never change. -/
structure Tally where
  registrations : List Registration
  orders : List ControlCommand
  attempts : List ActionAttempt
  /-- The runs of the proposals. -/
  proposals : List Id

def Database.tally (db : Database) : Tally where
  registrations := db.registrations
  orders := db.orders
  attempts := db.attempts.rows
  proposals := db.proposals.rows.map (·.runId)

/-- Whether a write inserts a counted row. -/
def Write.counted : Write → Bool
  | .registerRun _ | .registerNode _ | .issue _ | .deny _ | .allow _ _ _ => true
  | _ => false

theorem registrations_setStatus (db : Database) (nodeId : Id) (status : NodeStatus) :
    (setStatus db nodeId status).registrations = db.registrations :=
  Table.map_modify (by intro; rfl) (by intro; rfl)

/-- What inserts no counted row keeps the registrations, the orders and the attempts. -/
theorem Effect.uncounted (h : Effect cfg w a b) (hw : w.counted = false) :
    b.registrations = a.registrations ∧ b.orders = a.orders ∧ b.attempts = a.attempts := by
  cases h with
  | registerRun | registerNode | registerReplacement | issue | deny | allow => cases hw
  | record | states | rotateIntent => exact ⟨rfl, rfl, rfl⟩
  | rotateToken | renew => exact ⟨Table.map_modify (by intro; rfl) (by intro; rfl), rfl, rfl⟩
  | @activate _ _ _ _ commandId | @complete _ _ _ _ _ commandId =>
    refine ⟨?_, orders_advanceReplacement _ _ _, by cases commandId <;> rfl⟩
    rw [Database.registrations, nodes_advanceReplacement]
    exact Table.map_modify (by intro; rfl) (by intro; rfl)
  | converge | expireHeartbeat | expireSweep | checkpoint =>
    exact ⟨registrations_setStatus .., rfl, rfl⟩
  | @expireScanner _ _ node _ _ _ _ failed =>
    have horders := orders_expireActivation (setStatus a node.id .leaseExpired) node
    refine ⟨?_, ?_, (failRun_frame failed).1.attempts.trans (expireActivation_frame _).1.attempts⟩
    · rw [Database.registrations, (failRun_frame failed).2.1, (expireActivation_frame _).2.1]
      exact registrations_setStatus ..
    · rw [failRun_eq failed]
      exact horders

/-- **Only a command adds to the orders.** -/
theorem Effect.orders_eq (h : Effect cfg w a b) (hw : ∀ command, w ≠ .issue command) :
    b.orders = a.orders := by
  cases hcounted : w.counted with
  | false => exact (h.uncounted hcounted).2.1
  | true =>
    cases h with
    | issue => exact absurd rfl (hw _)
    | registerRun | registerNode | deny | allow => rfl
    | registerReplacement => exact orders_assignReplacement _ _ _
    | record | rotateIntent | rotateToken | activate | renew | converge | expireHeartbeat
    | expireSweep | expireScanner | checkpoint | complete | states => cases hcounted

theorem Notes.tally (h : Notes es a b) : b.tally = a.tally := by
  simp only [Database.tally, Database.registrations, Database.orders, h.nodes, h.commands, h.attempts,
    h.proposals]

theorem Entries.tally (h : Entries cfg (fun w => w.counted = false) a b) : b.tally = a.tally := by
  refine h.preserve (I := fun b => b.tally = a.tally) rfl fun w es b c hb hw he => ?_
  rw [← hb]
  cases he with
  | books _ notes => exact notes.tally
  | write _ effect notes core =>
    obtain ⟨hregistrations, horders, hattempts⟩ := effect.uncounted hw
    rw [notes.tally, Database.tally, Database.tally, hregistrations, horders, hattempts,
      (effect.unbooked core).1]
  | deny => cases hw

/-! ### Checked insertions -/

/-- **The checks a node is registered under**: a root opens its run; a child, plain or a
replacement, is within the limits of its parent and asks for capabilities its parent has. -/
inductive Enrols (cfg : Config) (db : Database) (node : Node) : Prop
  | root (orphan : node.parentId = none) (generation : node.generation = 0)
      (opened : db.runs.get? node.runId = none)
  | child (parent : Node) (found : db.nodes.get? parent.id = some parent)
      (link : node.parentId = some parent.id) (run : node.runId = parent.runId)
      (generation : node.generation = parent.generation + 1)
      (budget : enforceGraphBudget cfg db parent = .ok ())
      (delegated : node.capabilities ⊆ parent.capabilities)

/-- **One row more, or none**, under the checks of its table. -/
inductive Inserts (cfg : Config) (a : Database) : Tally → Prop
  | nothing : Inserts cfg a a.tally
  | node (node : Node) (enrols : Enrols cfg a node) : Inserts cfg a
      { a.tally with registrations := a.tally.registrations ++ [node.registration] }
  | command (command : ControlCommand) (room :
      (a.commands.rows.countP fun c => c.runId = command.runId) < cfg.maxCommandsPerRun) :
      Inserts cfg a { a.tally with orders := a.tally.orders ++ [command.issued] }
  | attempt (attempt : ActionAttempt) (room :
      (a.attempts.rows.countP fun x => x.runId = attempt.runId) < cfg.maxActionsPerRun) :
      Inserts cfg a { a.tally with attempts := a.tally.attempts ++ [attempt] }
  | proposal (runId : Id) (room :
      (a.proposals.rows.countP fun p => p.runId = runId) < cfg.maxProposalsPerRun) :
      Inserts cfg a { a.tally with proposals := a.tally.proposals ++ [runId] }

theorem inserts_of_tally_eq (h : b.tally = a.tally) : Inserts cfg a b.tally := by
  rw [h]
  exact .nothing

theorem inserts_of_entries (h : Entries cfg (fun w => w.counted = false) a b) :
    Inserts cfg a b.tally := inserts_of_tally_eq h.tally

theorem map_insert? {ρ α : Type} [Keyed ρ Id] {t t' : Table ρ} {row : ρ} (g : ρ → α)
    (h : t.insert? row = some t') : t'.rows.map g = t.rows.map g ++ [g row] := by
  rw [(Table.insert?_eq_some_iff.mp h).2, List.map_append]
  rfl

theorem mem_sortedSet {values : List String} {x : String} : x ∈ sortedSet values ↔ x ∈ values := by
  rw [sortedSet, sorted, List.mem_insertionSort, List.mem_dedup]

/-- A pending child is registered once its parent's budget and capabilities have been checked. -/
theorem inserts_of_createSpawnLocked {parent : Node} {request : SpawnCreate} {sup : Supersession}
    {env : Env} (found : db.nodes.get? parent.id = some parent)
    (budget : enforceGraphBudget cfg db parent = .ok ())
    (delegation : validateCapabilityDelegation parent request = .ok ())
    (registered : createSpawnLocked cfg db parent request sup env = .ok a)
    (tally : b.tally = a.tally) : Inserts cfg db b.tally := by
  obtain ⟨_, nodes, _, _, hnode, _, rfl⟩ := createSpawnLocked_eq registered
  have hsub : request.capabilities ⊆ parent.capabilities := ensure_eq_ok.mp delegation
  have henrols : Enrols cfg db (childNode parent request sup env) := by
    refine .child parent found rfl rfl rfl budget fun x hx => ?_
    exact hsub (mem_sortedSet.mp hx)
  rw [tally, Database.tally, Database.registrations, map_insert? _ hnode]
  exact .node _ henrols

theorem createSpawn_inserts {parentId : Id} {token : Token} {request : SpawnCreate} {env : Env}
    {c : Commit SpawnCreated} (h : createSpawn cfg db parentId token request env = .ok c) :
    Inserts cfg db c.db.tally := by
  simp only [createSpawn, bind_eq_ok, authenticateNode_eq_ok] at h
  obtain ⟨parent, ⟨hparent, _⟩, envelope, _, h⟩ := h
  cases envelope with
  | some e =>
    refine inserts_of_entries ?_
    exact recoverSpawnResponse_entries h rfl
  | none =>
    simp only [registerChild, bind_eq_ok, pure_eq_ok] at h
    obtain ⟨_, _, _, _, _, hgraph, _, _, _, hdelegation, registered, hreg, sealedDb, hseal, rfl⟩ := h
    refine inserts_of_createSpawnLocked (found_of_get? hparent) hgraph hdelegation hreg ?_
    rw [sealRecovery_eq hseal]
    rfl

theorem createReplacement_inserts {parentId commandId : Id} {token : Token} {request : SpawnCreate}
    {env : Env} {c : Commit SpawnCreated}
    (h : createReplacement cfg db parentId token commandId request env = .ok c) :
    Inserts cfg db c.db.tally := by
  simp only [createReplacement, bind_eq_ok, authenticateNode_eq_ok] at h
  obtain ⟨parent, ⟨hparent, _⟩, envelope, _, h⟩ := h
  cases envelope with
  | some e =>
    simp only [recoverReplacement, bind_eq_ok, pure_eq_ok] at h
    obtain ⟨_, _, recovered, hrecovered, _, _, _, _, _, _, _, _, rfl⟩ := h
    refine inserts_of_entries ?_
    exact recoverSpawnResponse_entries hrecovered rfl
  | none =>
    simp only [registerReplacement, bind_eq_ok, pure_eq_ok] at h
    obtain ⟨_, _, _, _, command, _, _, _, _, _, _, hgraph, _, _, _, _, _, hdelegation, registered,
      hreg, sealedDb, hseal, rfl⟩ := h
    refine inserts_of_createSpawnLocked (found_of_get? hparent) hgraph hdelegation hreg ?_
    rw [sealRecovery_eq hseal, Database.tally, Database.tally]
    exact congrArg (fun orders => Tally.mk registered.registrations orders registered.attempts.rows
      (registered.proposals.rows.map (·.runId))) (orders_assignReplacement registered command.id _)

theorem createRun_inserts {request : RunCreate} {env : Env} {now : Time} {c : Commit RunCreated}
    (h : createRun cfg db request env now = .ok c) : Inserts cfg db c.db.tally := by
  simp only [createRun, bind_eq_ok, require_eq_ok, pure_eq_ok] at h
  obtain ⟨_, _, _, _, runs, hruns, _, _, _, _, nodes, hnodes, rfl⟩ := h
  rw [Database.tally, Database.registrations, map_insert? _ hnodes]
  exact .node (newRoot cfg request env now) (.root rfl rfl (get?_none_of_insert? hruns))

/-- The command is inserted after its run's commands have been counted; a proposal that it uses
stays a proposal of its run. -/
theorem issueCommand_inserts {request : CommandCreate} {principal : Principal}
    {nodeToken : Option Token} {env : Env} {c : Commit CommandIssued}
    (h : issueCommand cfg db request principal nodeToken env = .ok c) : Inserts cfg db c.db.tally := by
  rcases issueCommand_eq_ok h with ⟨hsame, -⟩ | ⟨target, run, issuer, source, plan, scope, hc⟩
  · rw [hsame]
    exact .nothing
  · have hproposals : (usedProposals db source (env.uuid 0)).rows.map (fun p => p.runId) =
        db.tally.proposals := by
      cases source with
      | none => rfl
      | some proposalId => exact Table.map_modify (by intro; rfl) (by intro; rfl)
    rw [hc.commit, Database.tally, Database.orders,
      map_insert? ControlCommand.issued (insertCommand?_eq_some hc.inserted), hproposals]
    exact .command (newCommand cfg request principal issuer run target source plan scope.version
      env) hc.quota

/-- The attempt is inserted after its run's attempts have been counted, whatever the decision. -/
theorem execute_inserts {nodeId : Id} {token : Token} {request : ActionExecute} {env : Env}
    {c : Commit ActionResult} (h : execute cfg db nodeId token request env = .ok c) :
    Inserts cfg db c.db.tally := by
  simp only [execute, bind_eq_ok] at h
  obtain ⟨node, _, h⟩ := h
  split at h
  · simp only [bind_eq_ok, ensure_eq_ok, pure_eq_ok] at h
    obtain ⟨_, _, rfl⟩ := h
    exact .nothing
  simp only [bind_eq_ok, pure_eq_ok] at h
  obtain ⟨done, hdone, rfl⟩ := h
  simp only [executeNew, bind_eq_ok, ensure_eq_ok] at hdone
  obtain ⟨_, _, spec, _, _, hroom, run, _, denial, _, hdone⟩ := hdone
  cases denial with
  | some reason =>
    simp only [denyAction, bind_eq_ok, pure_eq_ok] at hdone
    obtain ⟨attempts, hattempts, matched, _, rfl⟩ := hdone
    rw [recordGatewayAcks_eq]
    have hregistrations : (if reason.isStale = true then setStatus { db with
          attempts := attempts, commandMatches := matched } node.id
            (evaluateScopes db node).effectiveStatus
        else { db with attempts := attempts, commandMatches := matched }).tally =
          { db.tally with attempts := attempts.rows } := by
      split
      · exact congrArg (fun registrations => Tally.mk registrations db.orders attempts.rows
          (db.proposals.rows.map (·.runId))) (registrations_setStatus _ _ _)
      · rfl
    change Inserts cfg db (Database.tally (ite _ _ _))
    rw [hregistrations, (insertAttempt_eq_ok hattempts).1]
    exact .attempt _ hroom
  | none =>
    simp only [allowAction, bind_eq_ok, pure_eq_ok] at hdone
    obtain ⟨executed, _, attempts, hattempts, rfl⟩ := hdone
    rw [Database.tally, (insertAttempt_eq_ok hattempts).1]
    exact .attempt _ hroom

theorem createProposal_inserts {reporterId : Id} {token : Token} {request : ProposalCreate}
    {env : Env} {c : Commit CorrectionProposal}
    (h : createProposal cfg db reporterId token request env = .ok c) : Inserts cfg db c.db.tally := by
  simp only [createProposal, bind_eq_ok, ensure_eq_ok, require_eq_ok, pure_eq_ok] at h
  obtain ⟨reporter, _, _, _, _, _, _, _, _, _, _, _, _, hroom, proposals, hinsert, rfl⟩ := h
  rw [Database.tally, map_insert? _ hinsert]
  exact .proposal reporter.runId hroom

theorem reviewProposal_inserts {proposalId : Id} {request : ProposalReview} {reviewer : String}
    {env : Env} {c : Commit Unit} (h : reviewProposal cfg db proposalId request reviewer env = .ok c) :
    Inserts cfg db c.db.tally := by
  simp only [reviewProposal, bind_eq_ok, pure_eq_ok] at h
  obtain ⟨_, _, _, _, _, _, rfl⟩ := h
  refine inserts_of_tally_eq ?_
  exact congrArg (Tally.mk db.registrations db.orders db.attempts.rows)
    (Table.map_modify (by intro; rfl) (by intro; rfl))

theorem call_inserts {call : Call} {env : Env} {c : Commit Unit}
    (h : call.run cfg db env = .ok c) : Inserts cfg db c.db.tally := by
  cases call with
  | createSpawn =>
    simp only [Call.run, map_eq_ok] at h
    obtain ⟨c', h, rfl⟩ := h
    exact createSpawn_inserts h
  | createReplacement =>
    simp only [Call.run, map_eq_ok] at h
    obtain ⟨c', h, rfl⟩ := h
    exact createReplacement_inserts h
  | complete =>
    refine inserts_of_entries ?_
    exact complete_entries h (fun _ _ _ => rfl) fun _ _ => rfl
  | issueCommand =>
    simp only [Call.run, map_eq_ok] at h
    obtain ⟨c', h, rfl⟩ := h
    exact issueCommand_inserts h
  | execute =>
    simp only [Call.run, map_eq_ok] at h
    obtain ⟨c', h, rfl⟩ := h
    exact execute_inserts h
  | createProposal =>
    simp only [Call.run, map_eq_ok] at h
    obtain ⟨c', h, rfl⟩ := h
    exact createProposal_inserts h
  | reviewProposal => exact reviewProposal_inserts h

theorem commit_inserts {f : InFlight} {env : Env} {c : Commit Unit}
    (h : f.commit cfg db env = .ok c) : Inserts cfg db c.db.tally := by
  cases f with
  | createRun =>
    simp only [InFlight.commit, map_eq_ok] at h
    obtain ⟨c', h, rfl⟩ := h
    exact createRun_inserts h
  | activate =>
    simp only [InFlight.commit, map_eq_ok] at h
    obtain ⟨c', h, rfl⟩ := h
    refine inserts_of_entries ?_
    exact activate_entries h rfl fun _ _ _ _ => rfl
  | heartbeat =>
    simp only [InFlight.commit, map_eq_ok] at h
    obtain ⟨c', h, rfl⟩ := h
    refine inserts_of_entries ?_
    exact heartbeat_entries h (fun _ _ _ => rfl) (fun _ _ _ _ _ => rfl) fun _ _ _ _ _ => rfl
  | checkpoint =>
    refine inserts_of_entries ?_
    exact checkpointWrite_entries h rfl fun _ _ _ _ => rfl
  | expireStaleNodes =>
    simp only [InFlight.commit, map_eq_ok] at h
    obtain ⟨c', h, rfl⟩ := h
    refine inserts_of_entries ?_
    exact expireStaleNodes_entries h fun _ _ _ _ _ _ => rfl
  | seedScenario =>
    refine inserts_of_entries ?_
    exact seedWrite_entries h rfl

/-- **A step inserts one checked row, or none.** -/
theorem step_inserts (h : (services cfg).Step s l s') : Inserts cfg s.db s'.db.tally :=
  step_commits (R := fun a b => Inserts cfg a b.tally) h .nothing (fun _ _ _ _ => call_inserts)
    fun _ _ _ _ _ _ => commit_inserts

end TraceFence
