import TraceFence.Registry.Control
import TraceFence.Registry.Tally
import TraceFence.Safety.Authorizations

/-!
# Proposals and the commands they back

A proposal is written three times at most: when it is created, when it is reviewed, and when a
command is issued for it. A review needs a pending proposal and leaves one that is not, a command
needs an accepted proposal that backs no command and leaves one that does, and no other operation
writes a proposal. So what a review has decided stays as it is, and a proposal and the command it
backs name each other.

## Main definitions

* `validated` — the services, where reviews have passed their schema
* `ProposalStep` — what a step does to commands and proposals
* `Paired` — proposals and commands name each other
* `Reviewed`, `Created` — what has been done to a proposal, and for a command, on the way to a state

## Main results

* `step_proposals` — every step is a `ProposalStep`
* `run_decision` — a decided proposal keeps its decision
* `proposals_authorized` — a command that is backed by a proposal carries what its review authorized
-/

namespace TraceFence

open System Checked

variable {cfg : Config} {a b db : Database} {s s' : Sys} {l : Label} {P : Write → Prop}
  {row : CorrectionProposal} {proposalId : Id} {review : ProposalReview} {reviewer : String}
  {env : Env}

/-! ### Reviews -/

/-- What a review makes of a proposal. -/
def CorrectionProposal.reviewed (cfg : Config) (review : ProposalReview) (reviewer : String)
    (authorized : Option ProposalCommandAuthorization) (now : Time) (row : CorrectionProposal) :
    CorrectionProposal :=
  { row with
    status := review.status
    reviewedByPrincipal := some reviewer
    acceptedPayloadDigest := some (cfg.payloadDigest (.proposal (proposalPayload row)))
    authorizedCommand := authorized
    authorizedCommandDigest :=
      authorized.map fun command => cfg.payloadDigest (.authorization command)
    reviewedAt := some now }

/-- **What a review has found and what it leaves.** -/
theorem reviewProposal_eq_ok {c : Commit Unit}
    (h : reviewProposal cfg db proposalId review reviewer env = .ok c) :
    ∃ row authorized, db.proposals.get? proposalId = some row ∧ row.status = .pending ∧
      reviewAuthorization row review = .ok authorized ∧ c.db = { db with
        proposals := db.proposals.modify proposalId
          (CorrectionProposal.reviewed cfg review reviewer authorized (env.clock 0)) } := by
  simp only [reviewProposal, bind_eq_ok, require_eq_ok, ensure_eq_ok, pure_eq_ok] at h
  obtain ⟨row, hrow, _, hpending, authorized, hauthorized, rfl⟩ := h
  exact ⟨row, authorized, hrow, hpending, hauthorized, rfl⟩

/-- **What a step does to commands and proposals.** -/
inductive ProposalStep (cfg : Config) (l : Label) (a b : Database) : Prop
  | kept (orders : b.orders = a.orders) (proposals : b.proposals = a.proposals)
  | proposed (row : CorrectionProposal) (orders : b.orders = a.orders)
      (pending : row.status = .pending) (unused : row.resultingCommandId = none)
      (target : ∃ node, a.nodes.get? row.targetNodeId = some node ∧ node.runId = row.runId)
      (inserted : a.proposals.insert? row = some b.proposals)
  | reviewed (proposalId : Id) (review : ProposalReview) (reviewer : String) (env : Env)
      (c : Commit Unit) (label : l = .call (.reviewProposal proposalId review reviewer) env)
      (done : reviewProposal cfg a proposalId review reviewer env = .ok c) (state : b = c.db)
  | issued (request : CommandCreate) (principal : Principal) (token : Option Token) (env : Env)
      (c : Commit CommandIssued) (target : Node) (run : Run) (issuer : Issuer) (source : Option Id)
      (plan : CommandPlan) (scope : ControlScope)
      (label : l = .call (.issueCommand request principal token) env)
      (accepted : Acceptance cfg a request principal token env c target run issuer source plan scope)
      (state : b = c.db)

theorem Entries.orders_eq (h : Entries cfg P a b) (hrecord : P .record)
    (hP : ∀ command, ¬ P (.issue command)) : b.orders = a.orders := by
  refine (h.writes hrecord).preserve (I := fun b => b.orders = a.orders) rfl
    fun w c d hc hw he => ?_
  rw [he.orders_eq fun command hissue => hP command (hissue ▸ hw), hc]

theorem kept_of_entries (h : Entries cfg P a b) (hrecord : P .record)
    (hP : ∀ command, ¬ P (.issue command)) : ProposalStep cfg l a b :=
  .kept (h.orders_eq hrecord hP) h.proposals

/-- A command is issued by `issue_command`. -/
theorem Performs.issued {command : ControlCommand} (h : Performs cfg s l (.issue command)) :
    ∃ request principal token env, l = .call (.issueCommand request principal token) env := by
  cases h with
  | issue => exact ⟨_, _, _, _, rfl⟩

theorem createProposal_step {reporterId : Id} {token : Token} {request : ProposalCreate}
    {c : Commit CorrectionProposal}
    (h : createProposal cfg db reporterId token request env = .ok c) :
    ProposalStep cfg l db c.db := by
  simp only [createProposal, bind_eq_ok, ensure_eq_ok, require_eq_ok, pure_eq_ok,
    getNode_eq_ok] at h
  obtain ⟨reporter, _, _, _, _, _, _, _, target, htarget, _, hrun, _, _, proposals, hinsert, rfl⟩ := h
  refine .proposed _ rfl rfl rfl ⟨target, ?_, hrun.symm⟩ hinsert
  exact found_of_get? htarget

/-- **Every step is of one of these forms.** -/
theorem step_proposals (h : (services cfg).Step s l s') : ProposalStep cfg l s.db s'.db := by
  refine step_commits (R := ProposalStep cfg l) h (.kept rfl rfl) (fun call env c hl hc => ?_)
    fun index env f c hl hf hc => ?_
  · by_cases hcall : call.proposes = false
    · refine kept_of_entries (call_entries hc hcall) .record fun command hissue => ?_
      obtain ⟨_, _, _, _, he⟩ := hissue.issued
      cases he
      cases hcall
    · cases call with
      | createSpawn | createReplacement | complete | execute => exact absurd rfl hcall
      | issueCommand request principal token =>
        simp only [Call.run, map_eq_ok] at hc
        obtain ⟨c', hc, rfl⟩ := hc
        rcases issueCommand_eq_ok hc with ⟨hsame, -⟩ | ⟨target, run, issuer, source, plan, scope, h⟩
        · exact .kept (congrArg Database.orders hsame) (congrArg Database.proposals hsame)
        · exact .issued request principal token env c' target run issuer source plan scope hl h rfl
      | createProposal reporterId token request =>
        simp only [Call.run, map_eq_ok] at hc
        obtain ⟨c', hc, rfl⟩ := hc
        exact createProposal_step hc
      | reviewProposal proposalId review reviewer =>
        exact .reviewed proposalId review reviewer env c hl hc rfl
  · refine kept_of_entries (finish_entries hf hc) .record fun command hissue => ?_
    obtain ⟨_, _, _, _, he⟩ := hissue.issued
    cases he

/-! ### Decisions -/

/-- A proposal without the command it backs. -/
def CorrectionProposal.decision (row : CorrectionProposal) : CorrectionProposal :=
  { row with resultingCommandId := none }

/-- A column that does not say which command a proposal backs. -/
theorem decision_column {α : Type} (f : CorrectionProposal → α) (hf : ∀ r, f r.decision = f r)
    {row row' : CorrectionProposal} (h : row'.decision = row.decision) : f row' = f row := by
  rw [← hf row', h, hf]

theorem get?_usedProposals (source : Option Id) (commandId p : Id) :
    (usedProposals db source commandId).get? p = (db.proposals.get? p).map fun row =>
      if source = some p then { row with resultingCommandId := some commandId } else row := by
  cases source with
  | none => simp [usedProposals]
  | some proposalId =>
    have hiff : some proposalId = some p ↔ p = proposalId := by rw [Option.some.injEq, eq_comm]
    rw [usedProposals, Option.map_some, Option.getD_some, Table.get?_modify]
    exact congrArg (fun f => Option.map f _) (funext fun row => (if_congr hiff rfl rfl).symm)

/-- Backing a command is no decision. -/
theorem decision_usedProposals (db : Database) (source : Option Id) (commandId p : Id) :
    ((usedProposals db source commandId).get? p).map CorrectionProposal.decision =
      (db.proposals.get? p).map CorrectionProposal.decision := by
  rw [get?_usedProposals, Option.map_map]
  congr 1
  funext row
  by_cases hsource : source = some p
  · simp only [Function.comp_apply, if_pos hsource]
    rfl
  · simp only [Function.comp_apply, if_neg hsource]

/-- A decided proposal is not reviewed again. -/
theorem reviewProposal_of_decided (hrow : db.proposals.get? proposalId = some row)
    (hne : row.status ≠ .pending) : reviewProposal cfg db proposalId review reviewer env =
      .error (conflictError "Proposal was already reviewed" "PROPOSAL_ALREADY_REVIEWED") := by
  simp only [reviewProposal, bind_eq_error, require_eq_ok, ensure_eq_error]
  exact .inr ⟨row, hrow, .inl ⟨hne, trivial⟩⟩

/-- **A step keeps what has been decided.** -/
theorem ProposalStep.decided (h : ProposalStep cfg l a b)
    (hrow : a.proposals.get? proposalId = some row) (hne : row.status ≠ .pending) :
    ∃ row', b.proposals.get? proposalId = some row' ∧ row'.decision = row.decision := by
  cases h with
  | kept _ proposals => exact ⟨row, proposals ▸ hrow, rfl⟩
  | proposed _ _ _ _ _ inserted => exact ⟨row, Table.get?_insert?_of_get? inserted hrow, rfl⟩
  | reviewed other _ _ _ c _ done state =>
    by_cases hp : proposalId = other
    · subst hp
      rw [reviewProposal_of_decided hrow hne] at done
      cases done
    · obtain ⟨_, _, _, _, _, hdb⟩ := reviewProposal_eq_ok done
      refine ⟨row, ?_, rfl⟩
      rw [state, hdb]
      exact (Table.get?_modify_of_ne (by intro; rfl) hp).trans hrow
  | issued _ _ _ env _ _ _ _ source _ _ _ accepted state =>
    have hkept := decision_usedProposals a source (env.uuid 0) proposalId
    rw [hrow, Option.map_some, Option.map_eq_some_iff] at hkept
    rw [state, accepted.commit]
    exact hkept

/-- **A decision is final**, along every run. -/
theorem run_decision (h : (services cfg).Run s s')
    (hrow : s.db.proposals.get? proposalId = some row) (hne : row.status ≠ .pending) :
    ∃ row', s'.db.proposals.get? proposalId = some row' ∧ row'.decision = row.decision := by
  induction h with
  | refl => exact ⟨row, hrow, rfl⟩
  | tail _ hstep ih =>
    obtain ⟨l, hl⟩ := hstep
    obtain ⟨row₁, hrow₁, hsame₁⟩ := ih
    have hne₁ : row₁.status ≠ .pending := by
      rw [decision_column (·.status) (fun _ => rfl) hsame₁]
      exact hne
    obtain ⟨row₂, hrow₂, hsame₂⟩ := (step_proposals hl).decided hrow₁ hne₁
    exact ⟨row₂, hrow₂, hsame₂.trans hsame₁⟩

/-! ### Proposals and commands name each other -/

/-- A command is issued for a proposal that is accepted and backs none. -/
theorem Acceptance.backed {request : CommandCreate} {principal : Principal} {token : Option Token}
    {c : Commit CommandIssued} {target : Node} {run : Run} {issuer : Issuer} {source : Option Id}
    {plan : CommandPlan} {scope : ControlScope}
    (h : Acceptance cfg db request principal token env c target run issuer source plan scope) :
    request.sourceProposalId = source ∧ ∀ p, source = some p → ∃ row,
      db.proposals.get? p = some row ∧ Compared cfg db run target request row ∧
      ∃ payload, commandAuthorizationPayload request = .ok payload ∧
        row.authorizedCommandDigest = some (cfg.payloadDigest (.authorization payload)) := by
  have hproposal := h.proposal
  cases source with
  | none => exact ⟨findSourceProposal_eq_none hproposal, fun _ hp => by cases hp⟩
  | some proposalId =>
    obtain ⟨row, hsource, hcompared, hpayload⟩ := findSourceProposal_eq_ok.mp hproposal
    refine ⟨hsource, fun p hp => ?_⟩
    obtain rfl := Option.some.inj hp
    exact ⟨row, hcompared.get? hsource, hcompared, hpayload⟩

/-- Reviews have passed their schema. -/
def Label.Validated : Label → Prop
  | .call (.reviewProposal _ review _) _ => review.Valid
  | _ => True

/-- The services, where reviews have passed their schema. -/
def validated (cfg : Config) : System Sys Label := (services cfg).restrict fun _ l => l.Validated

/-- What a review leaves in a proposal. -/
structure Concluded (cfg : Config) (row : CorrectionProposal) : Prop where
  unmodified : row.acceptedPayloadDigest = some (cfg.payloadDigest (.proposal (proposalPayload row)))
  authorized : row.status = .accepted → ∃ a, row.authorizedCommand = some a ∧
    row.authorizedCommandDigest = some (cfg.payloadDigest (.authorization a)) ∧ a.Canonical ∧
    a.targetNodeId = row.targetNodeId ∧ a.commandType = row.proposalType.commandType

/-- A review of the proposal has been committed on the way to `s`. -/
def Reviewed (cfg : Config) (proposalId : Id) (review : ProposalReview) (s : Sys) : Prop :=
  ∃ s₀ s₁ reviewer env c, (validated cfg).Reachable s₀ ∧
    (validated cfg).Step s₀ (.call (.reviewProposal proposalId review reviewer) env) s₁ ∧
    reviewProposal cfg s₀.db proposalId review reviewer env = .ok c ∧ (validated cfg).Run s₁ s

/-- The request has created the command on the way to `s`. -/
def Created (cfg : Config) (request : CommandCreate) (commandId : Id) (s : Sys) : Prop :=
  ∃ s₀ s₁ principal token env, (validated cfg).Reachable s₀ ∧
    (validated cfg).Step s₀ (.call (.issueCommand request principal token) env) s₁ ∧
    s₀.db.commands.get? commandId = none ∧ (∃ c, s₁.db.commands.get? commandId = some c) ∧
    (validated cfg).Run s₁ s

theorem Reviewed.step (h : Reviewed cfg proposalId review s) (hstep : (validated cfg).Step s l s') :
    Reviewed cfg proposalId review s' := by
  obtain ⟨s₀, s₁, reviewer, env, c, hs₀, hreview, hdone, hrun⟩ := h
  exact ⟨s₀, s₁, reviewer, env, c, hs₀, hreview, hdone, hrun.tail hstep⟩

theorem Created.step {request : CommandCreate} {commandId : Id}
    (h : Created cfg request commandId s) (hstep : (validated cfg).Step s l s') :
    Created cfg request commandId s' := by
  obtain ⟨s₀, s₁, principal, token, env, hs₀, hissue, hnew, hc, hrun⟩ := h
  exact ⟨s₀, s₁, principal, token, env, hs₀, hissue, hnew, hc, hrun.tail hstep⟩

theorem exists_command_of_orders (h : b.orders = a.orders) {commandId : Id} {c : ControlCommand}
    (hc : b.commands.get? commandId = some c) : ∃ c', a.commands.get? commandId = some c' := by
  have hmem : c.issued ∈ b.orders := List.mem_map_of_mem (Table.mem_of_get? hc)
  rw [h] at hmem
  obtain ⟨c', hc', hsame⟩ := List.mem_map.mp hmem
  have hid : c'.id = commandId :=
    (issued_column (·.id) (fun _ => rfl) hsame).trans (Table.key_of_get? hc)
  exact ⟨c', hid ▸ Table.get?_of_mem hc'⟩

/-- A decision that a command has been compared with binds the digest of what its request says. -/
theorem Compared.authorizes {request : CommandCreate} {run : Run} {target : Node}
    {payload : ProposalCommandAuthorization} (h : Compared cfg db run target request row)
    (hdigest : row.authorizedCommandDigest = some (cfg.payloadDigest (.authorization payload))) :
    ∃ a, row.authorizedCommand = some a ∧
      cfg.payloadDigest (.authorization payload) = cfg.payloadDigest (.authorization a) := by
  have hintact := h.intact.2
  rw [hdigest, eq_comm, Option.map_eq_some_iff] at hintact
  obtain ⟨a, ha, hsame⟩ := hintact
  exact ⟨a, ha, hsame.symm⟩

/-- **What a request has created names what the request names**, and what it says has been
authorized for good. -/
theorem Created.command {request : CommandCreate} {commandId : Id}
    (h : Created cfg request commandId s) : ∃ c, s.db.commands.get? commandId = some c ∧
      c.sourceProposalId = request.sourceProposalId ∧
      ∀ p, request.sourceProposalId = some p → ∃ row payload a,
        s.db.proposals.get? p = some row ∧ commandAuthorizationPayload request = .ok payload ∧
        row.authorizedCommand = some a ∧
        cfg.payloadDigest (.authorization payload) = cfg.payloadDigest (.authorization a) := by
  obtain ⟨s₀, s₁, principal, token, env, hs₀, hissue, hold, ⟨c₁, hc₁⟩, hrun⟩ := h
  have hissue := (restrict_step_iff.mp hissue).1
  have hstep := step_proposals hissue
  have hnew (horders : s₁.db.orders = s₀.db.orders) : False := by
    obtain ⟨c', hc'⟩ := exists_command_of_orders horders hc₁
    rw [hold] at hc'
    cases hc'
  cases hstep with
  | kept orders => exact absurd orders hnew
  | proposed _ orders => exact absurd orders hnew
  | reviewed _ _ _ _ _ label => cases label
  | issued request' principal' token' env' c' target run issuer source plan scope label accepted
      state =>
    cases label
    obtain ⟨hsource, hbacked⟩ := accepted.backed
    obtain ⟨c, hc, hissued⟩ := (run_evolves hrun.of_restrict).command _ _ hc₁
    have hsame : c.sourceProposalId = c₁.sourceProposalId :=
      issued_column (·.sourceProposalId) (fun _ => rfl) hissued
    have hinserted := insertCommand?_eq_some accepted.inserted
    rw [← state] at hinserted
    obtain ⟨-, -, rfl⟩ | hthere := Table.get?_insert?_cases hinserted hc₁
    · refine ⟨c, hc, hsame.trans hsource.symm, fun p hp => ?_⟩
      obtain ⟨row, hrow, hcompared, payload, hpayload, hdigest⟩ := hbacked p (hsource.symm.trans hp)
      obtain ⟨a, ha, hsameDigest⟩ := hcompared.authorizes hdigest
      have hne : row.status ≠ .pending := by
        rw [hcompared.accepted]
        simp
      have hrun₀ : (services cfg).Run s₀ s := Run.trans (.single ⟨_, hissue⟩) hrun.of_restrict
      obtain ⟨row', hrow', hdecision⟩ := run_decision hrun₀ hrow hne
      exact ⟨row', payload, a, hrow', hpayload,
        (decision_column (·.authorizedCommand) (fun _ => rfl) hdecision).trans ha, hsameDigest⟩
    · rw [hold] at hthere
      cases hthere

/-! ### Authorization -/

/-- **Commands that proposals back are authorized**, and what is authorized can be issued. -/
structure Authorized (cfg : Config) (s : Sys) : Prop where
  /-- A proposal is reviewed once at most: another review is refused. -/
  once : ∀ p review, Reviewed cfg p review s → ∀ review' reviewer env,
    reviewProposal cfg s.db p review' reviewer env =
      .error (conflictError "Proposal was already reviewed" "PROPOSAL_ALREADY_REVIEWED")
  /-- A proposal backs one command at most. -/
  single : ∀ c ∈ s.db.commands, ∀ c' ∈ s.db.commands, ∀ p,
    c.sourceProposalId = some p → c'.sourceProposalId = some p → c = c'
  /-- A command names a proposal exactly if the proposal names the command. -/
  named : ∀ c ∈ s.db.commands, ∀ p, c.sourceProposalId = some p ↔
    ∃ row, s.db.proposals.get? p = some row ∧ row.resultingCommandId = some c.id
  /-- What a proposal names is a command. -/
  resulting : ∀ p row commandId, s.db.proposals.get? p = some row →
    row.resultingCommandId = some commandId → ∃ c, s.db.commands.get? commandId = some c
  /-- Every command has been created by a request. -/
  created : ∀ c ∈ s.db.commands, ∃ request, Created cfg request c.id s
  /-- The proposal that a command names has been reviewed and accepted. -/
  accepted : ∀ c ∈ s.db.commands, ∀ p, c.sourceProposalId = some p →
    (∃ row, s.db.proposals.get? p = some row ∧ row.status = .accepted) ∧
      ∃ review, Reviewed cfg p review s
  /-- The request that created a command carried what the review authorized. -/
  carried : ∀ c ∈ s.db.commands, ∀ p, c.sourceProposalId = some p → ∀ request review,
    Created cfg request c.id s → Reviewed cfg p review s → request.sourceProposalId = some p ∧
      review.status = .accepted ∧ ∃ a, review.authorizedCommand = some a ∧ request.Carries a
  /-- What is authorized and has not been used passes every check on its proposal. -/
  usable : ∀ p row, s.db.proposals.get? p = some row → row.status = .accepted →
    row.resultingCommandId = none → ∃ a target run, row.authorizedCommand = some a ∧
      s.db.nodes.get? a.targetNodeId = some target ∧ s.db.runs.get? target.runId = some run ∧
      ∀ request, request.sourceProposalId = some p → request.Carries a →
        findSourceProposal cfg s.db run target request = .ok (some p)

/-- What is authorized and has not been used passes every check on its proposal. -/
theorem Concluded.usable (h : Concluded cfg row) (hdigest : cfg.Separates)
    (hW : db.registry.WellFormed) (hrow : db.proposals.get? proposalId = some row)
    (htarget : ∃ node, db.nodes.get? row.targetNodeId = some node ∧ node.runId = row.runId)
    (haccepted : row.status = .accepted) (hunused : row.resultingCommandId = none) :
    ∃ a target run, row.authorizedCommand = some a ∧
      db.nodes.get? a.targetNodeId = some target ∧ db.runs.get? target.runId = some run ∧
      ∀ request, request.sourceProposalId = some proposalId → request.Carries a →
        findSourceProposal cfg db run target request = .ok (some proposalId) := by
  obtain ⟨a, ha, hbound, hcanonical, hfor, htype⟩ := h.authorized haccepted
  obtain ⟨target, hnode, hsame⟩ := htarget
  obtain ⟨f, hf⟩ := hW.exists_run (registry_node_of_get? hnode)
  obtain ⟨run, hrun, -⟩ := Option.map_eq_some_iff.mp hf
  have hrunId : run.id = target.runId := Table.key_of_get? hrun
  have htargetId : target.id = row.targetNodeId := Table.key_of_get? hnode
  refine ⟨a, target, run, ha, hfor ▸ hnode, hrun, fun request hsource hcarries => ?_⟩
  have htypes : request.commandType = a.commandType :=
    congrArg CommandBody.commandType hcarries.body
  have hcompared : Compared cfg db run target request row :=
    { found := ⟨proposalId, hsource, hrow⟩
      run := (hrunId.trans hsame).symm
      accepted := haccepted
      unused := hunused
      target := htargetId.symm
      type := htypes.trans htype
      unmodified := h.unmodified
      intact := by rw [hbound, ha]; simp }
  have hne : request.commandType ≠ .cancelRun := by
    rw [hcompared.type]
    exact row.proposalType.commandType_ne
  obtain ⟨payload, hpayload, hbody⟩ := exists_payload hcanonical hne hcarries
  exact findSourceProposal_eq_ok.mpr ⟨row, hsource, hcompared, payload, hpayload,
    hbound.trans (congrArg some ((hdigest a payload).mpr hbody.symm))⟩

end TraceFence
