import TraceFence.Lib.Delegation
import TraceFence.Registry.Control
import TraceFence.Registry.Tally

/-!
# The services refine delegated authority

What TraceFence is for can be said without scopes, versions, snapshots, leases and statuses: agents
take on agents, commands cut them off, and only who is not below a cut takes on others, or acts. The
services refine this machine. Nodes are the agents, commands are the cuts, committed actions are
what is done, and the check of a node's snapshot against the live scopes finds exactly the agents
that have authority. So every promise of the machine is one of the services.

## Main definitions

* `Database.delegation` — the abstraction

## Main results

* `authorized_iff` — the scope check decides authority
* `Effect.delegates` — an effect is one event of the machine, or none
* `services_delegate` — the refinement
-/

namespace TraceFence

open System

variable {cfg : Config} {w : Write} {a b db : Database} {s s' : Sys} {id : Id}

/-! ### The abstraction -/

/-- What the database says about delegation. -/
def Database.delegation (db : Database) : Delegation Id Id where
  agents := db.nodes.rows.map fun n => (n.id, n.parentId)
  cuts := db.commands.rows.map (·.targetNodeId)
  acts := (db.attempts.rows.filter fun x => x.decision = .allow).map fun x => (x.nodeId, x.id)

theorem known_iff : db.delegation.Known id ↔ ∃ n, db.nodes.get? id = some n := by
  simp only [Delegation.Known, Database.delegation, List.map_map, List.mem_map, Function.comp_apply]
  constructor
  · rintro ⟨n, hn, rfl⟩
    exact ⟨n, Table.get?_of_mem hn⟩
  · rintro ⟨n, hn⟩
    exact ⟨n, Table.mem_of_get? hn, Table.key_of_get? hn⟩

theorem parent_delegation : db.delegation.parent = db.registry.parent := by
  funext id
  rw [Delegation.parent, Database.delegation, List.find?_map]
  change ((db.nodes.get? id).map _).bind _ = _
  cases hn : db.nodes.get? id with
  | none => simp [Registry.parent, Database.registry, hn]
  | some n => rw [registry_parent_of_get? hn, Option.map_some, Option.bind_some]

/-- The abstraction depends on what is fixed at registration, issuance and admission. -/
theorem delegation_eq (db : Database) : db.delegation =
    ⟨db.registrations.map fun r => (r.id, r.parentId), db.orders.map (·.targetNodeId),
      db.delegation.acts⟩ := by
  rw [Database.registrations, Database.orders, List.map_map, List.map_map]
  rfl

/-! ### Who has authority -/

/-- Everybody above a node is of its run. -/
theorem exists_ancestor (hW : db.registry.WellFormed) {n : Node} {t : Id}
    (hn : db.nodes.get? n.id = some n) (h : Forest.Ancestor db.registry.parent t n.id) :
    ∃ q, db.nodes.get? t = some q ∧ q.runId = n.runId := by
  suffices hall : ∀ x, Forest.Ancestor db.registry.parent t x → ∀ m, db.nodes.get? x = some m →
      ∃ q, db.nodes.get? t = some q ∧ q.runId = m.runId from hall n.id h n hn
  intro x hx
  induction hx using Relation.TransGen.head_induction_on with
  | single hp =>
    intro m hm
    rw [registry_parent_of_get? hm] at hp
    exact exists_parent hW (found_of_get? hm) hp
  | head hp _ ih =>
    intro m hm
    rw [registry_parent_of_get? hm] at hp
    obtain ⟨q, hq, hrun⟩ := exists_parent hW (found_of_get? hm) hp
    obtain ⟨r, hr, hrun'⟩ := ih q hq
    exact ⟨r, hr, hrun'.trans hrun⟩

/-- **The scope check decides authority.** -/
theorem authorized_iff (hC : Controlled db) (hW : db.registry.WellFormed) {n : Node}
    (hn : db.nodes.get? n.id = some n) :
    (evaluateScopes db n).allowed = true ↔ db.delegation.Authorized n.id := by
  constructor
  · intro hallowed
    refine ⟨known_iff.mpr ⟨n, hn⟩, fun t ht hbelow => ?_⟩
    obtain ⟨c, hc, rfl⟩ := List.mem_map.mp ht
    have hgoverns := hC.command c.id c (Table.get?_of_mem hc)
    rw [Delegation.Below, parent_delegation] at hbelow
    have hrun : n.runId = c.runId := by
      obtain ⟨t, ht, htrun, _⟩ := hgoverns.target
      rcases hbelow with hid | habove
      · rw [← hid, hn] at ht
        rw [← htrun, Option.some.inj ht]
      · obtain ⟨q, hq, hqrun⟩ := exists_ancestor hW hn habove
        rw [← hqrun, ← htrun, Option.some.inj (hq.symm.trans ht)]
    have hcut := hgoverns.not_allowed ((hgoverns.reaches_iff hW hn).mpr ⟨hrun, hbelow⟩)
    rw [hallowed] at hcut
    cases hcut
  · intro hauthorized
    by_contra hcut
    rw [Bool.not_eq_true] at hcut
    obtain ⟨c, hc, hreaches⟩ := hC.exists_reaches hW hn hcut
    have hbelow := (((hC.command _ c hc).reaches_iff hW hn).mp hreaches).2
    refine hauthorized.uncut c.targetNodeId (List.mem_map_of_mem (Table.mem_of_get? hc)) ?_
    rw [Delegation.Below, parent_delegation]
    exact hbelow

/-! ### Effects are events -/

/-- A node is the target of one command. -/
theorem Governs.targetScope_eq {c c' : ControlCommand} (h : Governs db c) (h' : Governs db c')
    (ht : c.targetNodeId = c'.targetNodeId) : c.targetScopeId = c'.targetScopeId := by
  obtain ⟨t, hrow, hrun, hown⟩ := h.target
  obtain ⟨t', hrow', hrun', hown'⟩ := h'.target
  obtain ⟨r, hr, hcancel, hroot⟩ := h.run
  obtain ⟨r', hr', hcancel', hroot'⟩ := h'.run
  rw [ht, hrow'] at hrow
  obtain rfl := Option.some.inj hrow
  rw [← hrun, hrun', hr'] at hr
  obtain rfl := Option.some.inj hr
  by_cases htype : c.commandType = .cancelRun
  · rw [(hcancel htype).1, (hcancel' (hroot'.mpr (ht ▸ hroot.mp htype))).1]
  · rw [hown htype, hown' fun htype' => htype (hroot.mpr (ht.trans (hroot'.mp htype')))]

/-- A new command cuts off somebody whom no command has cut off. -/
theorem Effect.target_fresh {c : ControlCommand} (h : Effect cfg (.issue c) a b)
    (hC : Controlled a) : c.targetNodeId ∉ a.delegation.cuts := by
  intro hmem
  obtain ⟨c', hc', ht⟩ := List.mem_map.mp hmem
  have hgoverns := hC.command c'.id c' (Table.get?_of_mem hc')
  have hscope := (hgoverns.evolves h.evolves rfl).targetScope_eq (h.governs hC) ht
  obtain ⟨s, hs, _, hstatus, _⟩ := hgoverns.scope
  obtain ⟨s', hs', _, hactive, _⟩ := h.issuance.scope
  rw [hscope, hs'] at hs
  obtain rfl := Option.some.inj hs
  exact scopeStatus_ne_active _ (hstatus.symm.trans hactive)

theorem delegation_congr (hregistrations : b.registrations = a.registrations)
    (horders : b.orders = a.orders) (hattempts : b.attempts = a.attempts) :
    b.delegation = a.delegation := by
  rw [delegation_eq b, delegation_eq a, hregistrations, horders]
  simp only [Database.delegation, hattempts]

/-- A node that is registered joins. -/
theorem delegation_register {n : Node} (hnodes : a.nodes.insert? n = some b.nodes)
    (hcommands : b.orders = a.orders) (hattempts : b.attempts = a.attempts) :
    b.delegation =
      { a.delegation with agents := a.delegation.agents ++ [(n.id, n.parentId)] } := by
  rw [delegation_eq b, delegation_eq a, hcommands, Database.registrations, map_insert? _ hnodes,
    List.map_append]
  simp only [Database.delegation, hattempts]
  rfl

/-- An attempt that is recorded is done if it is allowed. -/
theorem delegation_attempt {x : ActionAttempt} {attempts : Table ActionAttempt}
    {states : ServiceTable} (h : attempts.rows = a.attempts.rows ++ [x]) :
    ({ a with attempts := attempts, serviceStates := states } : Database).delegation =
      { a.delegation with
        acts := a.delegation.acts ++ if x.decision = .allow then [(x.nodeId, x.id)] else [] } := by
  simp only [Database.delegation, h, List.filter_append, List.map_append]
  by_cases hallow : x.decision = .allow <;> simp [hallow]

theorem attempt_fresh {x : ActionAttempt} {attempts : Table ActionAttempt}
    (h : insertAttempt a x = .ok attempts) : ∀ y ∈ a.attempts.rows, y.id ≠ x.id := by
  simp only [insertAttempt, Checked.bind_eq_ok, Checked.require_eq_ok] at h
  obtain ⟨_, _, _, _, hinsert⟩ := h
  exact Table.get?_eq_none_iff.mp (get?_none_of_insert? hinsert)

/-- **An effect is one event, or none.** -/
theorem Effect.delegates (h : Effect cfg w a b) (hC : Controlled a) (hW : a.registry.WellFormed) :
    b.delegation = a.delegation ∨
      ∃ e, a.delegation.Possible e ∧ b.delegation = a.delegation.next e := by
  have hunknown {n : Node} (hnone : a.nodes.get? n.id = none) : ¬ a.delegation.Known n.id := by
    rw [known_iff]
    rintro ⟨m, hm⟩
    rw [hnone] at hm
    cases hm
  have hchild {n : Node} (h : Effect cfg (.registerNode n) a b)
      (hnodes : a.nodes.insert? n = some b.nodes) (horders : b.orders = a.orders)
      (hattempts : b.attempts = a.attempts) :
      ∃ e, a.delegation.Possible e ∧ b.delegation = a.delegation.next e := by
    obtain ⟨parent, hbirth⟩ := h.birth
    obtain ⟨now, hlive⟩ := hbirth.live
    refine ⟨.delegate parent.id n.id, ⟨(authorized_iff hC hW hbirth.found).mp hlive.scopes,
      hunknown (h.registered (Or.inr rfl)).1⟩, ?_⟩
    rw [delegation_register hnodes horders hattempts, hbirth.link]
    rfl
  have hall := h
  cases h with
  | registerRun _ _ _ root =>
    refine Or.inr ⟨.found _, hunknown (hall.registered (Or.inl rfl)).1, ?_⟩
    exact delegation_register root rfl rfl
  | registerNode _ _ _ _ node => exact Or.inr (hchild hall node rfl rfl)
  | registerReplacement _ _ _ _ _ _ _ _ _ node =>
    exact Or.inr (hchild hall node (orders_assignReplacement _ _ _) rfl)
  | issue _ _ _ _ _ _ _ _ _ inserted =>
    obtain ⟨t, ht, _⟩ := hall.issuance.target
    refine Or.inr ⟨.cut _, ⟨known_iff.mpr ⟨t, ht⟩, hall.target_fresh hC⟩, ?_⟩
    simp only [Database.delegation, Delegation.next, map_insert? _ inserted]
  | deny decision inserted =>
    left
    rw [delegation_attempt (insertAttempt_eq_ok inserted).1, decision]
    exact congrArg (Delegation.mk _ _) (List.append_nil _)
  | @allow _ node _ _ _ _ x _ found live _ _ _ _ row inserted =>
    refine Or.inr ⟨.act node.id x.id, ⟨(authorized_iff hC hW found).mp live.scopes, ?_⟩, ?_⟩
    · intro hmem
      obtain ⟨_, hacts, hid⟩ := List.mem_map.mp hmem
      obtain ⟨y, hy, rfl⟩ := List.mem_map.mp hacts
      exact attempt_fresh inserted y (List.mem_of_mem_filter hy) hid
    · have hallow : x.decision = .allow := by rw [row]; rfl
      have hactor : x.nodeId = node.id := hall.admission.actor
      rw [delegation_attempt (insertAttempt_eq_ok inserted).1, if_pos hallow, hactor]
      rfl
  | record | rotateIntent | rotateToken | activate | renew | converge | expireHeartbeat
  | expireSweep | expireScanner | checkpoint | complete | states =>
    left
    obtain ⟨hregistrations, horders, hattempts⟩ := hall.uncounted rfl
    exact delegation_congr hregistrations horders hattempts

/-- A run of the services is a run of the machine. -/
theorem run_delegates (h : (services cfg).Reachable s) (hrun : (services cfg).Run s s') :
    Delegation.machine.Run s.db.delegation s'.db.delegation := by
  induction hrun with
  | refl => exact .refl
  | tail hrun₁ hstep ih =>
    obtain ⟨l, hl⟩ := hstep
    have hreach₁ := h.run hrun₁
    refine ((step_writes hl).preserve (I := fun b => Controlled b ∧ b.registry.WellFormed ∧
      Delegation.machine.Run s.db.delegation b.delegation)
      ⟨controlled hreach₁, registry_wellFormed hreach₁, ih⟩ fun w a b ha _ he => ?_).2.2
    obtain ⟨hC, hW, hdelegation⟩ := ha
    refine ⟨he.controlled hC, he.registry_wellFormed hW, ?_⟩
    rcases he.delegates hC hW with heq | ⟨e, hpossible, heq⟩
    · rw [heq]
      exact hdelegation
    · exact hdelegation.tail ⟨hpossible, heq.symm⟩

/-- **The refinement.** -/
theorem services_delegate (h : (services cfg).Reachable s) :
    Delegation.machine.Reachable s.db.delegation ∧
      (∀ n ∈ s.db.nodes,
        (evaluateScopes s.db n).allowed = true ↔ s.db.delegation.Authorized n.id) ∧
      ∀ s', (services cfg).Run s s' → Delegation.machine.Run s.db.delegation s'.db.delegation ∧
        s.db.delegation.Honours s'.db.delegation := by
  have hreachable : Delegation.machine.Reachable s.db.delegation := run_delegates .init h
  refine ⟨hreachable, fun n hn => ?_, fun s' hrun => ⟨run_delegates h hrun, ?_⟩⟩
  · exact authorized_iff (controlled h) (registry_wellFormed h) (Table.get?_of_mem hn)
  · exact Delegation.honours (Delegation.sound hreachable) (run_delegates h hrun)

theorem services_delegate_sample :
    (sample sampleCancelled).db.delegation = ⟨[(11, none), (20, some 11)], [20], []⟩ ∧
      (∀ n ∈ (sample sampleCancelled).db.nodes,
        (evaluateScopes (sample sampleCancelled).db n).allowed = true ↔
          (sample sampleCancelled).db.delegation.Authorized n.id) ∧
      Delegation.machine.Run (sample sampleStart).db.delegation
        (sample sampleCancelled).db.delegation :=
  ⟨by decide +kernel, (services_delegate (sample_reachable sampleCancelled)).2.1,
    ((services_delegate (sample_reachable sampleStart)).2.2 _ (sample_run sampleStart _)).1⟩

end TraceFence
