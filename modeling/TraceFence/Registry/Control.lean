import TraceFence.Registry.Evolution
import TraceFence.Registry.Lineage

/-!
# Scopes and the commands that change them

A scope starts active at version 1, a command is issued only for an active scope, and nothing
makes a scope active again. So a scope is changed at most once, and what it looks like afterwards
is written in the command.

## Main definitions

* `Governs` — what a command says about its target, for as long as the target exists
* `Controlled` — the invariant
* `ControlCommand.reaches` — whether the target scope of a command is in a snapshot

## Main results

* `controlled` — the invariant in every reachable state
* `Governs.not_allowed` — no node below the target of a command is allowed
* `Controlled.exists_reaches`, `Controlled.cut_evolves` — every other node is, and what is cut off
  stays so
* `Governs.reaches_iff` — which nodes these are
* `Effect.not_reached` — no command reaches a node registered after it
* `mayIssueCommand_allowed_iff` — who may issue what
-/

namespace TraceFence

variable {cfg : Config} {w : Write} {a b db : Database}

/-! ### The invariant -/

/-- What a command says about its target. -/
structure Governs (db : Database) (c : ControlCommand) : Prop where
  fromVersion : c.fromVersion = 1
  toVersion : c.toVersion = 2
  scope : ∃ s, db.scopes.get? c.targetScopeId = some s ∧ s.runId = c.runId ∧
    s.status = c.commandType.scopeStatus ∧ s.version = 2
  run : ∃ r, db.runs.get? c.runId = some r ∧
    (c.commandType = .cancelRun → c.targetScopeId = r.runScopeId ∧ r.status = .cancelled) ∧
    (c.commandType = .cancelRun ↔ c.targetNodeId = r.rootNodeId)
  target : ∃ t, db.nodes.get? c.targetNodeId = some t ∧ t.runId = c.runId ∧
    (c.commandType ≠ .cancelRun → c.targetScopeId = t.ownScopeId)

/-- **What ties scopes and commands together.** -/
structure Controlled (db : Database) : Prop where
  /-- An active scope has never been changed. -/
  active : ∀ id s, db.scopes.get? id = some s → s.status = .active → s.version = 1
  /-- A scope that is not active is the target of a command. -/
  inactive : ∀ id s, db.scopes.get? id = some s → s.status ≠ .active →
    ∃ cid c, db.commands.get? cid = some c ∧ c.targetScopeId = id
  command : ∀ id c, db.commands.get? id = some c → Governs db c

theorem scopeStatus_ne_active (t : CommandType) : t.scopeStatus ≠ .active := by
  cases t <;> nofun

/-! ### Preservation -/

/-- A later row of a run has the same root and run scope. -/
theorem Evolves.run_facts (h : Evolves a b) {id : Id} {r : Run} (hr : a.runs.get? id = some r) :
    ∃ r', b.runs.get? id = some r' ∧ r'.rootNodeId = r.rootNodeId ∧ r'.runScopeId = r.runScopeId ∧
      (r.status.isTerminal = true → r' = r) := by
  obtain ⟨r', hr', hterminal⟩ := h.run id r hr
  have hfacts := h.registry.run id _ (registry_run_of_get? hr)
  simp only [registry_run_of_get? hr', Option.some.injEq, RunFacts.mk.injEq] at hfacts
  exact ⟨r', hr', hfacts.1, hfacts.2, hterminal⟩

/-- A later row of a node has the same registration. -/
theorem Evolves.node_registration (h : Evolves a b) {id : Id} {n : Node}
    (hn : a.nodes.get? id = some n) :
    ∃ n', b.nodes.get? id = some n' ∧ n'.registration = n.registration :=
  Option.map_eq_some_iff.mp (h.registry.node id _ (registry_node_of_get? hn))

/-- What a command says about its target stays true. -/
theorem Governs.evolves {c c' : ControlCommand} (hc : Governs a c) (h : Evolves a b)
    (he : c'.issued = c.issued) : Governs b c' := by
  have hscope : c'.targetScopeId = c.targetScopeId := issued_column (·.targetScopeId) (fun _ => rfl) he
  have hrun : c'.runId = c.runId := issued_column (·.runId) (fun _ => rfl) he
  have htype : c'.commandType = c.commandType := issued_column (·.commandType) (fun _ => rfl) he
  have htarget : c'.targetNodeId = c.targetNodeId := issued_column (·.targetNodeId) (fun _ => rfl) he
  refine ⟨(issued_column (·.fromVersion) (fun _ => rfl) he).trans hc.fromVersion,
    (issued_column (·.toVersion) (fun _ => rfl) he).trans hc.toVersion, ?_, ?_, ?_⟩
  · obtain ⟨s, hs, hr, hstatus, hversion⟩ := hc.scope
    obtain ⟨s', hs', _, hkept⟩ := h.scope _ s hs
    obtain rfl := hkept (hstatus ▸ scopeStatus_ne_active c.commandType)
    exact ⟨s', hscope ▸ hs', hrun ▸ hr, htype ▸ hstatus, hversion⟩
  · obtain ⟨r, hr, hcancel, hroot⟩ := hc.run
    obtain ⟨r', hr', hrootEq, hscopeEq, hkept⟩ := h.run_facts hr
    rw [hscope, hrun, htype, htarget]
    refine ⟨r', hr', fun ht => ?_, by rw [hrootEq]; exact hroot⟩
    obtain ⟨hs, hcancelled⟩ := hcancel ht
    obtain rfl := hkept (by simp [hcancelled, RunStatus.isTerminal])
    exact ⟨hs, hcancelled⟩
  · obtain ⟨t, ht, htrun, hown⟩ := hc.target
    obtain ⟨t', ht', hreg⟩ := h.node_registration ht
    rw [hscope, hrun, htype, htarget]
    exact ⟨t', ht', (congrArg Registration.runId hreg).trans htrun,
      fun hne => (hown hne).trans (congrArg Registration.ownScopeId hreg).symm⟩

theorem Effect.issued_mem {c : ControlCommand} (h : Effect cfg (.issue c) a b) :
    b.commands.get? c.id = some c := by
  cases h with
  | issue _ _ _ _ _ _ _ _ _ inserted =>
    rw [Table.get?_of_insert? inserted]
    exact if_pos rfl

/-- A new command. -/
theorem Effect.governs {c : ControlCommand} (h : Effect cfg (.issue c) a b) (ha : Controlled a) :
    Governs b c := by
  obtain ⟨s, hs, _, hactive, hversion⟩ := h.issuance.scope
  have hfrom : c.fromVersion = 1 := hversion ▸ ha.active _ s hs hactive
  have hto : c.toVersion = 2 := by rw [h.issuance.version, hfrom]
  obtain ⟨s', hs', hr', hstatus', hversion'⟩ := h.issued_scope
  refine ⟨hfrom, hto, ⟨s', hs', hr', hstatus', hversion'.trans hto⟩, ?_, ?_⟩
  · obtain ⟨r, hr, _, hscope, hroot⟩ := h.issuance.run
    obtain ⟨r', hr', hstep⟩ := h.run_step hr
    have hkey : c.runId = r.id := (Table.key_of_get? hr).symm
    cases hstep with
    | same open' => exact ⟨r, hr', fun ht => absurd ⟨hkey, ht⟩ open', hroot⟩
    | finish => exact ⟨_, hr', fun ht => ⟨hscope ht, rfl⟩, hroot⟩
  · obtain ⟨t, ht, htrun, hown⟩ := h.issuance.target
    obtain ⟨t', ht', hstep⟩ := h.node_step ht
    exact ⟨t', ht', (congrArg Registration.runId hstep.registration).trans htrun,
      fun hne => (hown hne).trans (congrArg Registration.ownScopeId hstep.registration).symm⟩

theorem Effect.controlled (h : Effect cfg w a b) (ha : Controlled a) : Controlled b where
  active id s' hs' hactive := by
    rcases h.scope_cases hs' with ⟨_, _, hversion⟩ | ⟨s, hs, hstep⟩
    · exact hversion
    · cases hstep with
      | same => exact ha.active id s' hs hactive
      | invalidate => exact absurd hactive (scopeStatus_ne_active _)
  inactive id s' hs' hne := by
    rcases h.scope_cases hs' with ⟨_, hactive, _⟩ | ⟨s, hs, hstep⟩
    · exact absurd hactive hne
    · cases hstep with
      | same =>
        obtain ⟨cid, c, hc, htarget⟩ := ha.inactive id s' hs hne
        obtain ⟨c', hc', he⟩ := h.evolves.command cid c hc
        exact ⟨cid, c', hc', (issued_column (·.targetScopeId) (fun _ => rfl) he).trans htarget⟩
      | invalidate _ _ target =>
        exact ⟨_, _, h.issued_mem, target.trans (Table.key_of_get? hs)⟩
  command id c' hc' := by
    rcases h.command_cases hc' with ⟨_, rfl⟩ | ⟨c, hc, hstep⟩
    · exact h.governs ha
    · exact (ha.command id c hc).evolves h.evolves hstep.issued

/-! ### Reachable states -/

open System

/-- **Scopes and commands agree** in every reachable state. -/
theorem controlled {s : Sys} (h : (services cfg).Reachable s) : Controlled s.db :=
  reachable_db h
    ⟨fun _ _ h => (nomatch h), fun _ _ h => (nomatch h), fun _ _ h => (nomatch h)⟩
    fun _ _ _ ha he => he.controlled ha

/-! ### Reach -/

/-- Whether `c` reaches `n`: its target scope is in the snapshot of `n`. -/
def ControlCommand.reaches (c : ControlCommand) (n : Node) : Prop :=
  c.targetScopeId ∈ n.scopeSnapshot.map (·.scopeId)

instance (c : ControlCommand) (n : Node) : Decidable (c.reaches n) :=
  inferInstanceAs (Decidable (_ ∈ _))

theorem reaches_of_registration {c : ControlCommand} {n n' : Node}
    (h : n'.registration = n.registration) : c.reaches n' ↔ c.reaches n := by
  rw [ControlCommand.reaches, ControlCommand.reaches,
    show n'.scopeSnapshot = n.scopeSnapshot from congrArg Registration.scopeSnapshot h]

/-- No node that a command reaches is allowed. -/
theorem Governs.not_allowed {c : ControlCommand} (h : Governs db c) {n : Node}
    (hn : c.reaches n) : (evaluateScopes db n).allowed = false := by
  by_contra hallowed
  rw [Bool.not_eq_false, allowed_iff] at hallowed
  obtain ⟨item, hitem, hid⟩ := List.mem_map.mp hn
  obtain ⟨s, hs, hactive, _⟩ := entryMismatch_eq_none.mp (hallowed.2 item hitem)
  obtain ⟨s', hs', _, hstatus, _⟩ := h.scope
  rw [liveScope_eq_some, hid] at hs
  obtain rfl := Option.some.inj (hs.1.symm.trans hs')
  exact scopeStatus_ne_active _ (hstatus.symm.trans hactive)

/-- A node is not allowed only below the target of a command. -/
theorem Controlled.exists_reaches (h : Controlled db) (hW : db.registry.WellFormed) {n : Node}
    (hn : db.nodes.get? n.id = some n) (hcut : (evaluateScopes db n).allowed = false) :
    ∃ c, db.commands.get? c.id = some c ∧ c.reaches n := by
  by_contra hnone
  have hreg := registry_node_of_get? hn
  have hallowed : (evaluateScopes db n).allowed = true := by
    refine allowed_iff.mpr ⟨fun hempty => ?_, fun item hitem => entryMismatch_eq_none.mpr ?_⟩
    · have hlength := hW.length_snapshot hreg
      rw [show n.registration.scopeSnapshot = [] from hempty] at hlength
      cases hlength
    · obtain ⟨f, hf, hrun⟩ := hW.scope_of_snapshot hreg item hitem
      obtain ⟨sc, hsc, rfl⟩ := Option.map_eq_some_iff.mp hf
      have hactive : sc.status = .active := by
        by_contra hne
        obtain ⟨cid, c, hc, htarget⟩ := h.inactive _ sc hsc hne
        have hkey : c.id = cid := Table.key_of_get? hc
        exact hnone ⟨c, hkey ▸ hc, List.mem_map.mpr ⟨item, hitem, htarget.symm⟩⟩
      refine ⟨sc, liveScope_eq_some.mpr ⟨hsc, hrun⟩, hactive, ?_⟩
      rw [h.active _ sc hsc hactive, hW.version_one hreg item hitem]
  rw [hallowed] at hcut
  cases hcut

/-- **The reach of a command** is its target and what is below it. -/
theorem Governs.reaches_iff {c : ControlCommand} (h : Governs db c)
    (hW : db.registry.WellFormed) {n : Node} (hn : db.nodes.get? n.id = some n) :
    c.reaches n ↔ n.runId = c.runId ∧
      (n.id = c.targetNodeId ∨ Forest.Ancestor db.registry.parent c.targetNodeId n.id) := by
  have hreg := registry_node_of_get? hn
  obtain ⟨t, ht, htrun, hown⟩ := h.target
  rw [ControlCommand.reaches]
  have hrun (hmem : c.targetScopeId ∈ n.scopeSnapshot.map (·.scopeId)) : n.runId = c.runId := by
    obtain ⟨item, hitem, hid⟩ := List.mem_map.mp hmem
    obtain ⟨f, hf, hfrun⟩ := hW.scope_of_snapshot hreg item hitem
    obtain ⟨s, hs, hsrun, _⟩ := h.scope
    rw [hid, registry_scope_of_get? hs] at hf
    cases hf
    exact hfrun.symm.trans hsrun
  by_cases htype : c.commandType = .cancelRun
  · -- The run scope is in every snapshot of the run, and the root is above every node of it.
    obtain ⟨r, hr, hcancel, hroot⟩ := h.run
    have hf (hn' : n.runId = c.runId) : db.registry.run n.registration.runId = some _ :=
      (congrArg db.registry.run hn').trans (registry_run_of_get? hr)
    rw [(hcancel htype).1, hroot.mp htype]
    constructor
    · intro hmem
      have hn' := hrun (by rwa [(hcancel htype).1])
      exact ⟨hn', hW.root_or_ancestor hreg (hf hn')⟩
    · rintro ⟨hn', _⟩
      exact hW.runScope_mem hreg (hf hn')
  · constructor
    · intro hmem
      have hn' := hrun hmem
      rw [hown htype, own_mem_snapshot_iff hW ht hn (htrun.trans hn'.symm)] at hmem
      exact ⟨hn', hmem⟩
    · rintro ⟨hn', habove⟩
      rw [hown htype, own_mem_snapshot_iff hW ht hn (htrun.trans hn'.symm)]
      exact habove

/-- The same, as the code asks it. -/
theorem Governs.reaches_iff_isDescendant {c : ControlCommand} (h : Governs db c)
    (hW : db.registry.WellFormed) {n : Node} (hn : db.nodes.get? n.id = some n) :
    c.reaches n ↔ n.runId = c.runId ∧
      (n.id = c.targetNodeId ∨ isDescendant db c.runId c.targetNodeId n.id = true) := by
  rw [h.reaches_iff hW hn]
  refine and_congr_right fun hrun => ?_
  rw [← hrun, isDescendant_iff hW hn]

/-- **What is cut off stays cut off.** -/
theorem Controlled.cut_evolves (hC : Controlled a) (hW : a.registry.WellFormed) (h : Evolves a b)
    {n n' : Node} (hn : a.nodes.get? n.id = some n) (hreg : n'.registration = n.registration)
    (hcut : (evaluateScopes a n).allowed = false) : (evaluateScopes b n').allowed = false := by
  obtain ⟨c, hc, hreaches⟩ := hC.exists_reaches hW hn hcut
  obtain ⟨c', _, hissued⟩ := h.command c.id c hc
  have hgoverns := (hC.command _ c hc).evolves h hissued
  refine hgoverns.not_allowed ((reaches_of_registration hreg).mpr ?_)
  rw [ControlCommand.reaches, issued_column (·.targetScopeId) (fun _ => rfl) hissued]
  exact hreaches

/-- **No command reaches a node registered after it**: a child needs a live parent, and its own
scope is new. -/
theorem Effect.not_reached {c : ControlCommand} {n : Node} (h : Effect cfg w a b)
    (hw : w = .registerRun n ∨ w = .registerNode n) (hc : Governs a c) : ¬ c.reaches n := by
  obtain ⟨s, hs, _⟩ := hc.scope
  intro hreach
  rcases hw with rfl | rfl
  · obtain ⟨item, hitem, hid⟩ := List.mem_map.mp hreach
    have hfresh := h.root_birth.fresh item hitem
    rw [hid, hs] at hfresh
    cases hfresh
  · obtain ⟨parent, hbirth⟩ := h.birth
    obtain ⟨now, hlive⟩ := hbirth.live
    rw [ControlCommand.reaches, hbirth.snapshot, List.map_append, List.mem_append,
      List.map_singleton, List.mem_singleton] at hreach
    rcases hreach with hreach | hid
    · have hno := hc.not_allowed (n := parent) hreach
      rw [hlive.scopes] at hno
      cases hno
    · have hfresh := hbirth.fresh
      rw [show n.ownScopeId = c.targetScopeId from hid.symm, hs] at hfresh
      cases hfresh

/-- **What a command reaches was there when it was issued.** -/
theorem run_reached {s s' : Sys} {c : ControlCommand} {id : Id} {n' : Node}
    (hc : Governs s.db c) (hrun : (services cfg).Run s s') (hn' : s'.db.nodes.get? id = some n')
    (hreaches : c.reaches n') :
    ∃ n, s.db.nodes.get? id = some n ∧ n'.registration = n.registration := by
  have hall : Governs s'.db c ∧ ∀ id n', s'.db.nodes.get? id = some n' → c.reaches n' →
      ∃ n, s.db.nodes.get? id = some n ∧ n'.registration = n.registration := by
    refine run_db (I := fun b => Governs b c ∧ ∀ id n', b.nodes.get? id = some n' → c.reaches n' →
      ∃ n, s.db.nodes.get? id = some n ∧ n'.registration = n.registration) hrun
      ⟨hc, fun id n hn _ => ⟨n, hn, rfl⟩⟩ fun w a b ha he => ?_
    refine ⟨ha.1.evolves he.evolves rfl, fun id n'' hn'' hreach => ?_⟩
    rcases he.node_cases hn'' with ⟨_, hw⟩ | ⟨n', hn', hstep⟩
    · exact absurd hreach (he.not_reached hw ha.1)
    · obtain ⟨n, hn, hreg⟩ := ha.2 id n' hn' ((reaches_of_registration hstep.registration).mp hreach)
      exact ⟨n, hn, hstep.registration.trans hreg⟩
  exact hall.2 id n' hn' hreaches

/-! ### Authority -/

/-- An ancestor stays one. -/
theorem ancestor_of_le (h : a.registry.Le b.registry) {x y : Id}
    (hxy : Forest.Ancestor a.registry.parent x y) : Forest.Ancestor b.registry.parent x y := by
  refine Relation.TransGen.mono (fun z p hp => ?_) _ _ hxy
  obtain ⟨r, hr, hparent⟩ := Option.bind_eq_some_iff.mp hp
  exact Option.bind_eq_some_iff.mpr ⟨r, h.node z r hr, hparent⟩

/-- **What the authority check allows.** -/
theorem mayIssueCommand_allowed_iff {principal : Principal} {issuerNode : Option Node}
    {target : Node} {run : Run} {commandType : CommandType} {descendant : Bool} :
    (mayIssueCommand principal issuerNode target run commandType descendant).allowed = true ↔
      target.runId = run.id ∧ (commandType = .cancelRun → target.id = run.rootNodeId) ∧
      (principal.issuerType = .human ∨ ∃ issuer, issuerNode = some issuer ∧ issuer.runId = run.id ∧
        (issuer.id = run.rootNodeId ∨ (commandType ≠ .cancelRun ∧
          "control:descendants" ∈ issuer.capabilities ∧ descendant = true))) := by
  unfold mayIssueCommand
  by_cases hrun : target.runId = run.id
  swap
  · simp [hrun]
  by_cases htarget : commandType = .cancelRun ∧ target.id ≠ run.rootNodeId
  · simp [hrun, htarget]
  rw [if_neg (not_not.mpr hrun), if_neg htarget]
  have htarget : commandType = .cancelRun → target.id = run.rootNodeId := by simpa using htarget
  by_cases hhuman : principal.issuerType = .human
  · simpa [hrun, hhuman] using htarget
  cases issuerNode with
  | none => simp [hhuman]
  | some issuer =>
    by_cases hissuer : issuer.runId = run.id
    swap
    · simp [hhuman, hissuer]
    by_cases htype : commandType = .cancelRun
    · by_cases hroot : issuer.id = run.rootNodeId <;>
        simp [hrun, hhuman, hissuer, htype, hroot, htarget]
    · by_cases hroot : issuer.id = run.rootNodeId
      · simp [hrun, hhuman, hissuer, htype, hroot]
      · by_cases hcapability : "control:descendants" ∈ issuer.capabilities <;> cases descendant <;>
          simp [hrun, hhuman, hissuer, htype, hroot, hcapability]

end TraceFence
