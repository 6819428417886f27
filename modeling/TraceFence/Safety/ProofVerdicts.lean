import TraceFence.Registry.Lineage
import TraceFence.Services.ProofService
import TraceFence.System

/-!
# What a verdict says

A verdict that combines others is verified only when all that apply are, and inconsistent as soon as
one is. The dimensions of a proof can be read backwards: control is verified only when every
affected node is accounted for, and a recovery only when manifest, replacement, actions and service
rows all agree, whatever else the database holds.

## Main definitions

* `Accounted` — the ways an affected node is accounted for
* `Declared` — the foreign keys the argument needs
* `Recovered`, `RuntimeVerified` — what a verified runtime verdict says about a correction

## Main results

* `combine_cleared`, `combine_of_inconsistent` — the lattice
* `controlVerdict_eq_verified_iff` — what a verified control verdict says
* `runtime_verified_sound` — soundness of a verified runtime verdict
-/

namespace TraceFence

open Checked

variable {cfg : Config} {db : Database} {c : ControlCommand} {n : Node} {now : Time}

/-! ### The lattice -/

/-- Either nothing applies, or the combination is the most severe of what does. -/
theorem combine_cases (verdicts : List ProofVerdict) :
    (combineProofVerdicts verdicts = .notApplicable ∧ ∀ u ∈ verdicts, u = .notApplicable) ∨
    (combineProofVerdicts verdicts ∈ verdicts ∧ ∀ u ∈ verdicts, u ≠ .notApplicable →
      verdictSeverity.idxOf (combineProofVerdicts verdicts) ≤ verdictSeverity.idxOf u) := by
  rw [combineProofVerdicts]
  cases hmin : (verdicts.filter (· ≠ .notApplicable)).argmin (verdictSeverity.idxOf ·) with
  | none =>
    rw [List.argmin_eq_none, List.filter_eq_nil_iff] at hmin
    exact Or.inl ⟨rfl, fun u hu => by simpa using hmin u hu⟩
  | some v =>
    obtain ⟨hv, hle, _⟩ := List.argmin_eq_some_iff.mp hmin
    refine Or.inr ⟨List.mem_of_mem_filter hv, fun u hu hne => hle u ?_⟩
    simp [hu, hne]

/-- Nothing is left to be said against what a verdict is about. -/
def Cleared (v : ProofVerdict) : Prop := v = .verified ∨ v = .notApplicable

/-- **A combination is cleared only when all it combines is.** -/
theorem combine_cleared {verdicts : List ProofVerdict} (h : Cleared (combineProofVerdicts verdicts)) :
    ∀ u ∈ verdicts, Cleared u := by
  intro u hu
  rcases combine_cases verdicts with ⟨_, hall⟩ | ⟨_, hle⟩
  · exact Or.inr (hall u hu)
  · by_cases hne : u = .notApplicable
    · exact Or.inr hne
    have hsevere := hle u hu hne
    rcases h with h | h <;> rw [h] at hsevere <;> revert hsevere hne <;> cases u <;>
      simp [Cleared, verdictSeverity]

/-- **A combination is inconsistent as soon as one verdict is.** -/
theorem combine_of_inconsistent {verdicts : List ProofVerdict} (h : .inconsistent ∈ verdicts) :
    combineProofVerdicts verdicts = .inconsistent := by
  rcases combine_cases verdicts with ⟨_, hall⟩ | ⟨_, hle⟩
  · cases hall _ h
  · have hworst := hle .inconsistent h (by decide)
    revert hworst
    generalize combineProofVerdicts verdicts = v
    cases v <;> decide

/-! ### Control -/

/-- **The ways an affected node is accounted for.** -/
inductive Accounted (db : Database) (c : ControlCommand) (now : Time) (n : Node) : Prop
  | completed {t : Time} (at' : n.completedAt = some t) (before : t ≤ c.createdAt)
  | converged {ack : CommandAcknowledgement} (stored : ack ∈ db.acknowledgements)
      (run : ack.runId = c.runId) (node : ack.nodeId = n.id) (before : ack.observedAt ≤ c.createdAt)
      (other : ack.commandId ≠ c.id) (status : n.status.isTerminal = true)
  /-- It has acknowledged the command, was stopped at the gateway under it, or has expired. -/
  | acknowledged {ack : CommandAcknowledgement} (stored : ack ∈ db.acknowledgements)
      (command : ack.commandId = c.id) (node : ack.nodeId = n.id)
  | blocked {x : ActionAttempt} {m : ActionCommandMatch} (attempt : x ∈ db.attempts)
      (node : x.nodeId = n.id) (since : c.createdAt ≤ x.attemptedAt) (denied : x.decision = .deny)
      (stale : x.denialReason.any ReasonCode.isStale = true) (stored : m ∈ db.commandMatches)
      (run : m.runId = c.runId) (command : m.commandId = c.id) (action : m.actionId = x.id)
  | expired (status : n.status = .leaseExpired)
  | lapsed {t : Time} (lease : n.leaseExpiresAt = some t) (before : t ≤ now)

theorem hasAck_eq_true {ackType : AckType} : hasAck db c n ackType = true ↔
    ∃ ack ∈ db.acknowledgements, ack.commandId = c.id ∧ ack.nodeId = n.id ∧
      ack.ackType = ackType := by
  simp [hasAck, List.any_eq_true]

theorem mem_affectedActions {x : ActionAttempt} : x ∈ affectedActions db c ↔
    x ∈ db.attempts ∧ (∃ n ∈ affectedNodes db c, n.id = x.nodeId) ∧ c.createdAt ≤ x.attemptedAt := by
  simp [affectedActions, List.mem_filter]

theorem blockedUnder_eq_true {x : ActionAttempt} : blockedUnder db c x = true ↔
    x.decision = .deny ∧ x.denialReason.any ReasonCode.isStale = true ∧
      ∃ m ∈ db.commandMatches, m.runId = c.runId ∧ m.commandId = c.id ∧ m.actionId = x.id := by
  simp [blockedUnder, matchedActionIds, and_assoc]

/-- The guards of the classes, one after the other. -/
theorem classify_isSome : (classify db c now n).isSome = true ↔
    (n.completedAt.any fun t => t ≤ c.createdAt) = true ∨
    (hasPriorAck db c n = true ∧ n.status.isTerminal = true) ∨
    hasAck db c n .cooperative = true ∨
    (hasAck db c n .gatewayBlock = true ∨ ∃ x ∈ affectedActions db c, x.nodeId = n.id ∧
      blockedUnder db c x = true) ∨
    (hasAck db c n .leaseExpired = true ∨ n.status = .leaseExpired ∨
      (n.leaseExpiresAt.any fun t => t ≤ now) = true) := by
  rw [classify]
  split
  · next h => simp [h]
  next h₁ =>
  split
  · next h => simp_all
  next h₂ =>
  split
  · next h => simp [h]
  next h₃ =>
  split
  · next h => simp_all
  next h₄ =>
  split <;> simp_all [or_assoc]

/-- **A node has a class exactly when it is accounted for.** -/
theorem classify_isSome_iff (hn : n ∈ affectedNodes db c) :
    (classify db c now n).isSome = true ↔ Accounted db c now n := by
  rw [classify_isSome]
  constructor
  · rintro (hcompleted | ⟨hprior, hstatus⟩ | hack | (hack | ⟨x, hx, hnode, hblocked⟩) |
      hack | hstatus | hlease)
    · obtain ⟨t, ht, hle⟩ := (Option.any_eq_true _ _).mp hcompleted
      exact .completed ht (of_decide_eq_true hle)
    · obtain ⟨ack, hack, hall⟩ := List.any_eq_true.mp hprior
      obtain ⟨hrun, hnode, hbefore, hother⟩ := of_decide_eq_true hall
      exact .converged hack hrun hnode hbefore hother hstatus
    · obtain ⟨ack, hack, hcommand, hnode, _⟩ := hasAck_eq_true.mp hack
      exact .acknowledged hack hcommand hnode
    · obtain ⟨ack, hack, hcommand, hnode, _⟩ := hasAck_eq_true.mp hack
      exact .acknowledged hack hcommand hnode
    · obtain ⟨hattempt, _, hsince⟩ := mem_affectedActions.mp hx
      obtain ⟨hdenied, hstale, m, hm, hrun, hcommand, haction⟩ := blockedUnder_eq_true.mp hblocked
      exact .blocked hattempt hnode hsince hdenied hstale hm hrun hcommand haction
    · obtain ⟨ack, hack, hcommand, hnode, _⟩ := hasAck_eq_true.mp hack
      exact .acknowledged hack hcommand hnode
    · exact .expired hstatus
    · obtain ⟨t, ht, hle⟩ := (Option.any_eq_true _ _).mp hlease
      exact .lapsed ht (of_decide_eq_true hle)
  · intro h
    cases h with
    | completed at' before => exact Or.inl (by simp [at', before])
    | @converged ack stored run node before other status =>
      refine Or.inr (Or.inl ⟨List.any_eq_true.mpr ⟨ack, stored, ?_⟩, status⟩)
      exact decide_eq_true ⟨run, node, before, other⟩
    | @acknowledged ack stored command node =>
      have hack : hasAck db c n ack.ackType = true :=
        hasAck_eq_true.mpr ⟨ack, stored, command, node, rfl⟩
      cases htype : ack.ackType with
      | cooperative => exact Or.inr (Or.inr (Or.inl (htype ▸ hack)))
      | gatewayBlock => exact Or.inr (Or.inr (Or.inr (Or.inl (Or.inl (htype ▸ hack)))))
      | leaseExpired => exact Or.inr (Or.inr (Or.inr (Or.inr (Or.inl (htype ▸ hack)))))
    | @blocked x m attempt node since denied stale stored run command action =>
      refine Or.inr (Or.inr (Or.inr (Or.inl (Or.inr ⟨x, ?_, node, ?_⟩))))
      · exact mem_affectedActions.mpr ⟨attempt, ⟨n, hn, node.symm⟩, since⟩
      · exact blockedUnder_eq_true.mpr ⟨denied, stale, m, stored, run, command, action⟩
    | expired status => exact Or.inr (Or.inr (Or.inr (Or.inr (Or.inr (Or.inl status)))))
    | lapsed lease before =>
      exact Or.inr (Or.inr (Or.inr (Or.inr (Or.inr (Or.inr (by simp [lease, before]))))))

theorem staleCommittedActions_eq_nil_iff : staleCommittedActions db c = [] ↔
    ∀ n ∈ affectedNodes db c, ∀ x ∈ db.attempts, x.nodeId = n.id → x.sideEffecting = true →
      x.decision = .allow → x.committedAt.isSome = true → x.attemptedAt < c.createdAt := by
  rw [staleCommittedActions, List.filter_eq_nil_iff]
  constructor
  · intro h n hn x hx hnode hside hallow hcommitted
    by_contra hlater
    exact h x (mem_affectedActions.mpr ⟨hx, ⟨n, hn, hnode.symm⟩, not_lt.mp hlater⟩)
      (by simp [hside, hallow, hcommitted])
  · intro h x hx hall
    obtain ⟨hattempt, ⟨n, hn, hnode⟩, hsince⟩ := mem_affectedActions.mp hx
    simp only [Bool.and_eq_true, decide_eq_true_eq] at hall
    exact absurd (h n hn x hattempt hnode.symm hall.1.1 hall.1.2 hall.2) (not_lt.mpr hsince)

/-- **What a verified control verdict says.** -/
theorem controlVerdict_eq_verified_iff : controlVerdict db c now = .verified ↔
    staleCommittedActions db c = [] ∧ (∀ n ∈ affectedNodes db c, Accounted db c now n) ∧
      unrelatedInterrupted db c = 0 := by
  have hclasses : unclassified db c now = [] ↔ ∀ n ∈ affectedNodes db c, Accounted db c now n := by
    rw [unclassified, List.filter_eq_nil_iff]
    refine forall₂_congr fun n hn => ?_
    rw [← classify_isSome_iff hn]
    cases classify db c now n <;> simp
  rw [← hclasses, controlVerdict]
  split
  · next h => simp [List.ne_nil_of_length_pos h]
  next h =>
  have hnil : staleCommittedActions db c = [] := List.eq_nil_of_length_eq_zero (by omega)
  split
  · next hor =>
    simp only [Bool.not_eq_true', List.isEmpty_eq_false_iff] at hor
    rcases hor with hne | hpos
    · simp [hne]
    · simp [Nat.pos_iff_ne_zero.mp hpos]
  · next hor =>
    simp only [Bool.not_eq_true', List.isEmpty_eq_false_iff, not_or, not_not, not_lt,
      Nat.le_zero] at hor
    simp [hnil, hor.1, hor.2]

theorem controlVerdict_ne_notApplicable : controlVerdict db c now ≠ .notApplicable := by
  rw [controlVerdict]
  split
  · simp
  · split <;> simp

/-! ### Findings -/

variable {target r : Node} {m : ReplacementManifest} {v : ProofVerdict} {d : String} {t : Time}
  {tool : String} {contract : RecoveryContract} {a x : ActionAttempt}

/-- The verdicts that come with a finding. -/
def Adverse (v : ProofVerdict) : Prop := v = .inconsistent ∨ v = .incomplete

theorem Cleared.not_adverse (h : Cleared v) : ¬ Adverse v := by
  rcases h with rfl | rfl <;> simp [Adverse]

theorem lifecycleStateFinding_adverse {status : ReplacementStatus}
    (h : lifecycleStateFinding db c status = some (v, d)) : Adverse v := by
  simp only [lifecycleStateFinding] at h
  -- Every branch that ends in a finding ends in one of two verdicts.
  repeat' split at h
  all_goals simp_all [Adverse]

theorem lifecycleFinding_adverse (h : lifecycleFinding cfg db c = some (v, d)) : Adverse v := by
  rw [lifecycleFinding] at h
  split at h
  · cases h
  simp only at h
  repeat' split at h
  all_goals first
    | exact lifecycleStateFinding_adverse h
    | (cases h; simp [Adverse])

theorem authorizedReplacement_adverse
    (h : authorizedReplacement cfg db c target = .error (v, d)) : Adverse v := by
  rw [authorizedReplacement] at h
  split at h
  · next finding hfinding =>
    cases h
    exact lifecycleFinding_adverse hfinding
  · simp only [bind_eq_error, require_eq_error, ensure_eq_error, pure_ne_error, Prod.mk.injEq] at h
    rcases h with ⟨_, rfl, _⟩ | ⟨_, _, ⟨_, rfl, _⟩ | ⟨_, _, ⟨_, rfl, _⟩ | ⟨_, _, ⟨_, rfl, _⟩ |
      ⟨_, _, hfalse⟩⟩⟩⟩
    iterate 4 exact Or.inl rfl
    exact hfalse.elim

theorem recoveryAction_adverse {actions : List ActionAttempt}
    (h : recoveryAction cfg r tool contract actions = .error (v, d)) : Adverse v := by
  simp only [recoveryAction, bind_eq_error, require_eq_error, ensure_eq_error, pure_ne_error,
    Prod.mk.injEq] at h
  rcases h with ⟨_, rfl, _⟩ | ⟨_, _, ⟨_, rfl, _⟩ | ⟨_, _, ⟨_, rfl, _⟩ | ⟨_, _, ⟨_, rfl, _⟩ |
    ⟨_, _, ⟨_, rfl, _⟩ | ⟨_, _, hfalse⟩⟩⟩⟩⟩
  exacts [Or.inr rfl, Or.inl rfl, Or.inl rfl, Or.inr rfl, Or.inl rfl, hfalse.elim]

/-! ### The replacement -/

/-- The replacement a correction records agrees with the manifest it stores. -/
structure Replaced (cfg : Config) (db : Database) (c : ControlCommand) (m : ReplacementManifest)
    (r : Node) : Prop where
  stored : c.replacementManifest = some m.modelDump
  intact : c.replacementManifestDigest = some (cfg.payloadDigest (.manifest m.modelDump))
  recorded : c.replacementNodeId = some r.id
  found : r ∈ db.nodes
  run : r.runId = c.runId
  parent : r.parentId = c.replacementParentId
  supersedes : r.supersedesNodeId = some c.targetNodeId
  cause : r.causedByCommandId = some c.id
  role : r.role = m.role
  behavior : r.behavior = m.behavior
  capabilities : sortedSet r.capabilities = m.capabilitiesExact
  instruction : cfg.jsonDigest (some r.instruction) = m.instructionDigest
  instructionVersion : r.instructionVersion = m.instructionVersion
  children : db.nodes.rows.countP (fun n => n.parentId = some r.id) ≤ m.maxChildren

theorem lifecycleFinding_eq_none (htype : c.commandType = .correctSubtree)
    (h : lifecycleFinding cfg db c = none)
    (hm : c.replacementManifest.bind ReplacementManifest.modelValidate = some m) :
    c.replacementManifest = some m.modelDump ∧
      c.replacementManifestDigest = some (cfg.payloadDigest (.manifest m.modelDump)) := by
  obtain ⟨raw, hraw, hvalid⟩ := Option.bind_eq_some_iff.mp hm
  obtain rfl := ReplacementManifest.modelDump_of_modelValidate hvalid
  refine ⟨hraw, ?_⟩
  by_contra hdigest
  simp [lifecycleFinding, htype, hraw, hdigest] at h

theorem lineageOk_eq_true (h : lineageOk cfg c target r m = true) :
    r.runId = c.runId ∧ r.parentId = c.replacementParentId ∧
      r.supersedesNodeId = some target.id ∧ r.causedByCommandId = some c.id ∧ r.role = m.role ∧
      r.behavior = m.behavior ∧ sortedSet r.capabilities = m.capabilitiesExact ∧
      cfg.jsonDigest (some r.instruction) = m.instructionDigest ∧
      r.instructionVersion = m.instructionVersion := by
  rw [lineageOk, Bool.and_eq_true, decide_eq_true_eq] at h
  obtain ⟨⟨hrun, hparent, hsuper, hcause, hrole, hbehavior, hcaps, hinst, hversion, _⟩, _⟩ := h
  exact ⟨hrun, hparent, hsuper, hcause, hrole, hbehavior, hcaps, hinst, hversion⟩

/-- The foreign keys of nodes and of attempts: parents and actors are registered in the run. -/
structure Declared (db : Database) : Prop where
  parent : ∀ n ∈ db.nodes, ∀ p, n.parentId = some p →
    ∃ q ∈ db.nodes, q.id = p ∧ q.runId = n.runId
  actor : ∀ x ∈ db.attempts, ∃ n ∈ db.nodes, n.id = x.nodeId ∧ n.runId = x.runId

theorem registry_parent_of_mem (hn : n ∈ db.nodes) : db.registry.parent n.id = n.parentId :=
  registry_parent_of_get? (Table.get?_of_mem hn)

/-- A subtree stays within its run: every step towards the root does. -/
theorem Declared.run_of_subtree (hD : Declared db) (hr : r ∈ db.nodes) (hn : n ∈ db.nodes)
    (h : n.id = r.id ∨ Forest.Ancestor db.registry.parent r.id n.id) : n.runId = r.runId := by
  rcases h with he | hancestor
  · rw [Table.eq_of_key_eq hn hr he]
  · suffices hclimb : ∀ y, Forest.Ancestor db.registry.parent r.id y → ∀ k ∈ db.nodes, k.id = y →
        k.runId = r.runId from hclimb n.id hancestor n hn rfl
    intro y hy
    induction hy using Relation.TransGen.head_induction_on with
    | single hp =>
      rintro k hk rfl
      rw [registry_parent_of_mem hk] at hp
      obtain ⟨q, hq, hid, hqrun⟩ := hD.parent k hk _ hp
      rw [← hqrun, Table.eq_of_key_eq hq hr hid]
    | head hp _ ih =>
      rintro k hk rfl
      rw [registry_parent_of_mem hk] at hp
      obtain ⟨q, hq, hid, hqrun⟩ := hD.parent k hk _ hp
      rw [← hqrun, ih q hq hid]

/-- The walk down from a replacement, in any database that keeps its foreign keys. -/
theorem mem_replacementNodes_iff (hD : Declared db) : n ∈ replacementNodes db c r ↔
    n ∈ db.nodes ∧ n.runId = c.runId ∧
      (n.id = r.id ∨ Forest.Ancestor db.registry.parent r.id n.id) := by
  have hmem {k : Node} : k ∈ registeredNodes db c.runId none ↔ k ∈ db.nodes ∧ k.runId = c.runId := by
    rw [mem_registeredNodes]
    exact ⟨fun h => ⟨Table.mem_of_get? h.1, h.2.1⟩,
      fun h => ⟨Table.get?_of_mem h.1, h.2, by simp⟩⟩
  rw [replacementNodes, mem_descendantsIncludingSelf_iff, hmem, and_assoc]
  intro k hk p hp
  obtain ⟨q, hq, hid, hqrun⟩ := hD.parent k (hmem.mp hk).1 p hp
  exact ⟨q, hmem.mpr ⟨hq, hqrun.trans (hmem.mp hk).2⟩, hid⟩

/-- The walk counts every child of the replacement. -/
theorem countP_children_le (hD : Declared db) (hr : r ∈ db.nodes) (hrun : r.runId = c.runId) :
    db.nodes.rows.countP (fun n => n.parentId = some r.id) ≤
      (replacementNodes db c r).countP fun n => n.parentId = some r.id := by
  rw [List.countP_eq_length_filter, List.countP_eq_length_filter]
  have hnodup : db.nodes.rows.Nodup := .of_map _ db.nodes.nodup
  refine (hnodup.filter _).subperm (fun n hn => ?_) |>.length_le
  rw [List.mem_filter, decide_eq_true_eq] at hn ⊢
  have hbelow : Forest.Ancestor db.registry.parent r.id n.id :=
    Forest.Ancestor.of_parent (by rw [registry_parent_of_mem hn.1, hn.2])
  have hnrun := (hD.run_of_subtree hr hn.1 (Or.inr hbelow)).trans hrun
  exact ⟨(mem_replacementNodes_iff hD).mpr ⟨hn.1, hnrun, Or.inr hbelow⟩, hn.2⟩

/-- **What an authorized replacement is.** -/
theorem authorizedReplacement_sound (hD : Declared db) (htype : c.commandType = .correctSubtree)
    (htarget : db.nodes.get? c.targetNodeId = some target)
    (h : authorizedReplacement cfg db c target = .ok (m, r)) : Replaced cfg db c m r := by
  rw [authorizedReplacement] at h
  split at h
  · cases h
  next hnone =>
  simp only [bind_eq_ok, require_eq_ok, ensure_eq_ok, pure_eq_ok, Prod.mk.injEq] at h
  obtain ⟨m, hm, r, hr, _, hok, _, hchildren, rfl, rfl⟩ := h
  obtain ⟨hstored, hintact⟩ := lifecycleFinding_eq_none htype hnone hm
  obtain ⟨id, hid, hget⟩ := Option.bind_eq_some_iff.mp hr
  obtain rfl : r.id = id := Table.key_of_get? hget
  obtain ⟨hrun, hparent, hsuper, hcause, hrole, hbehavior, hcaps, hinst, hversion⟩ :=
    lineageOk_eq_true hok
  have htargetId : target.id = c.targetNodeId := Table.key_of_get? htarget
  have hfound := Table.mem_of_get? hget
  exact ⟨hstored, hintact, hid, hfound, hrun, hparent, htargetId ▸ hsuper, hcause, hrole, hbehavior,
    hcaps, hinst, hversion, (countP_children_le hD hfound hrun).trans hchildren⟩

/-! ### The recovery -/

/-- An attempt by which the subtree of the replacement has carried out the recovery. -/
structure Recovers (db : Database) (c : ControlCommand) (r : Node) (tool : String)
    (contract : RecoveryContract) (x : ActionAttempt) : Prop where
  attempt : x ∈ db.attempts
  subtree : x.nodeId = r.id ∨ Forest.Ancestor db.registry.parent r.id x.nodeId
  tool : x.toolName = tool
  arguments : x.argumentsDigest = contract.expectedArgumentsDigest
  allowed : x.decision = .allow
  committed : x.committedAt.isSome = true
  since : c.createdAt ≤ x.attemptedAt

/-- A postcondition holds of its service row, through the recovery action where it says so, and
has held for the length of the window. -/
def Holds (db : Database) (c : ControlCommand) (contract : RecoveryContract) (a : ActionAttempt)
    (now : Time) (p : RecoveryPostcondition) : Prop :=
  ∃ state, db.serviceStates.get? (c.runId, p.serviceName) = some state ∧
    state.equals p.field p.expected = true ∧
    (p.requireRecoveryAction = true → state.lastActionId = some a.id) ∧
    (0 < contract.stabilityWindowSeconds →
      state.updatedAt + seconds contract.stabilityWindowSeconds ≤ now)

theorem mem_recoveryActions_iff (hD : Declared db) (hr : r ∈ db.nodes) (hrun : r.runId = c.runId) :
    x ∈ recoveryActions db c r tool contract ↔ Recovers db c r tool contract x := by
  have hids : x ∈ db.attempts → ((x.runId = c.runId ∧
      x.nodeId ∈ (replacementNodes db c r).map (·.id)) ↔
        (x.nodeId = r.id ∨ Forest.Ancestor db.registry.parent r.id x.nodeId)) := by
    intro hx
    obtain ⟨n, hn, hid, hactor⟩ := hD.actor x hx
    rw [List.mem_map]
    constructor
    · rintro ⟨_, k, hk, hkid⟩
      exact hkid ▸ ((mem_replacementNodes_iff hD).mp hk).2.2
    · intro h
      have hnrun := (hD.run_of_subtree hr hn (hid ▸ h)).trans hrun
      exact ⟨hactor.symm.trans hnrun, n, (mem_replacementNodes_iff hD).mpr ⟨hn, hnrun, hid ▸ h⟩, hid⟩
  rw [recoveryActions, List.mem_insertionSort, List.mem_filter, decide_eq_true_eq]
  constructor
  · rintro ⟨hx, hxrun, hnode, htool, hargs, hallow, hcommitted, hsince⟩
    exact ⟨hx, (hids hx).mp ⟨hxrun, hnode⟩, htool, hargs, hallow, hcommitted, hsince⟩
  · rintro ⟨hx, hsubtree, htool, hargs, hallow, hcommitted, hsince⟩
    obtain ⟨hxrun, hnode⟩ := (hids hx).mpr hsubtree
    exact ⟨hx, hxrun, hnode, htool, hargs, hallow, hcommitted, hsince⟩

theorem nodup_recoveryActions : (recoveryActions db c r tool contract).Nodup := by
  rw [recoveryActions, (List.perm_insertionSort _ _).nodup_iff]
  exact (List.Nodup.of_map _ db.attempts.nodup).filter _

instance : Std.Total recoveryOrder := ⟨fun a a' => by
  rcases lt_trichotomy (a.committedAt.getD 0) (a'.committedAt.getD 0) with h | h | h
  · exact Or.inl (Or.inl h)
  · exact (le_total a.id a'.id).imp (fun hle => Or.inr ⟨h, hle⟩) fun hle => Or.inr ⟨h.symm, hle⟩
  · exact Or.inr (Or.inl h)⟩

instance : IsTrans ActionAttempt recoveryOrder := ⟨by
  rintro a b c (hab | ⟨hab, hle⟩) (hbc | ⟨hbc, hle'⟩)
  · exact Or.inl (hab.trans hbc)
  · exact Or.inl (hbc ▸ hab)
  · exact Or.inl (hab ▸ hbc)
  · exact Or.inr ⟨hab.trans hbc, hle.trans hle'⟩⟩

/-- The recovery action is the last to be committed. -/
theorem recoveryOrder_getLast (ha : (recoveryActions db c r tool contract).getLast? = some a)
    (hx : x ∈ recoveryActions db c r tool contract) : recoveryOrder x a := by
  rw [← List.getLast_of_getLast?_eq_some ha]
  exact (List.pairwise_insertionSort recoveryOrder _).rel_getLast hx

/-- An evaluation without any of the three flags. -/
def PostconditionEvaluation.clean (e : PostconditionEvaluation) : Bool :=
  !e.inconsistent && !e.incomplete && !e.stabilityIncomplete

theorem PostconditionEvaluation.clean_add (e e' : PostconditionEvaluation) :
    (e.add e').clean = (e.clean && e'.clean) := by
  simp only [clean, add, Bool.not_or]
  ac_rfl

theorem PostconditionEvaluation.clean_foldl (es : List PostconditionEvaluation)
    (e : PostconditionEvaluation) :
    (es.foldl add e).clean = true ↔ e.clean = true ∧ ∀ e' ∈ es, e'.clean = true := by
  induction es generalizing e with
  | nil => simp
  | cons e' es ih => rw [List.foldl_cons, ih, clean_add, Bool.and_eq_true, and_assoc,
      List.forall_mem_cons]

theorem holds_of_clean {p : RecoveryPostcondition}
    (h : (evaluatePostcondition db.serviceStates c.runId a.id contract
      (now - seconds contract.stabilityWindowSeconds) p).clean = true) :
    Holds db c contract a now p := by
  rw [evaluatePostcondition] at h
  split at h
  · cases h
  next state hstate =>
  split at h
  · cases h
  next hequals =>
  split at h
  · cases h
  next hcause =>
  split at h
  · cases h
  next hstable =>
  refine ⟨state, hstate, by simpa using hequals, fun hrequire => ?_, fun hwindow => ?_⟩
  · by_contra hne
    exact hcause ⟨hrequire, hne⟩
  · by_contra hlate
    refine hstable ⟨hwindow, ?_⟩
    have hlt : now < state.updatedAt + seconds contract.stabilityWindowSeconds := not_le.mp hlate
    rw [sub_lt_iff_lt_add]
    exact_mod_cast hlt

/-- A stability verdict is verified only when no flag is set. -/
theorem clean_of_stability {e : PostconditionEvaluation}
    (h : (postconditionVerdicts e).stability = .verified) : e.clean = true := by
  simp only [postconditionVerdicts] at h
  split at h
  · cases h
  next hconsistent =>
  split at h
  · cases h
  next hcomplete =>
  rw [not_or] at hcomplete
  simp [PostconditionEvaluation.clean, hconsistent, hcomplete.1, hcomplete.2]

theorem holds_of_verified (h : (postconditionVerdicts (verifyPostconditions db.serviceStates c.runId
      a.id contract (now - seconds contract.stabilityWindowSeconds))).stability = .verified) :
    ∀ p ∈ contract.postconditions, Holds db c contract a now p := by
  intro p hp
  have hclean := clean_of_stability h
  rw [verifyPostconditions, PostconditionEvaluation.clean_foldl] at hclean
  exact holds_of_clean (hclean.2 _ (List.mem_map_of_mem hp))

/-- **What a verified runtime verdict says about the recovery of a correction.** -/
structure Recovered (cfg : Config) (db : Database) (c : ControlCommand) (r : Node) (tool : String)
    (contract : RecoveryContract) (now : Time) : Prop where
  /-- The subtree has carried it out at least once and as often as allowed. -/
  actions : ∃ xs : List ActionAttempt, xs.Nodup ∧
    (∀ x, x ∈ xs ↔ Recovers db c r tool contract x) ∧ 1 ≤ xs.length ∧
      xs.length ≤ contract.maxCommittedInvocations
  /-- The last time with a valid result, before the replacement completed, and to effect. -/
  last : ∃ a, Recovers db c r tool contract a ∧
    (∀ x, Recovers db c r tool contract x → recoveryOrder x a) ∧
    a.result.isSome = true ∧ a.resultDigest = some (cfg.jsonDigest a.result) ∧
    r.status = .completed ∧
    (∃ t ∈ r.completedAt, ∃ t' ∈ a.committedAt, t' ≤ t) ∧
    ∀ p ∈ contract.postconditions, Holds db c contract a now p

theorem recoveryAction_sound (hD : Declared db) (hr : r ∈ db.nodes) (hrun : r.runId = c.runId)
    (h : recoveryAction cfg r tool contract (recoveryActions db c r tool contract) = .ok a)
    (hstable : (postconditionVerdicts (verifyPostconditions db.serviceStates c.runId a.id contract
      (now - seconds contract.stabilityWindowSeconds))).stability = .verified) :
    Recovered cfg db c r tool contract now := by
  simp only [recoveryAction, bind_eq_ok, require_eq_ok, ensure_eq_ok, pure_eq_ok] at h
  obtain ⟨a', hlast, _, hmax, _, ⟨hresult, hdigest⟩, t, hcompleted, _, hbefore, rfl⟩ := h
  have hmem := List.mem_of_getLast? hlast
  obtain ⟨hcompletedAt, hstatus⟩ := Option.filter_eq_some_iff.mp hcompleted
  obtain ⟨t', ht', hle⟩ := (Option.any_eq_true _ _).mp hbefore
  refine ⟨⟨_, nodup_recoveryActions, fun x => mem_recoveryActions_iff hD hr hrun,
    List.length_pos_of_mem hmem, hmax⟩, a', (mem_recoveryActions_iff hD hr hrun).mp hmem, ?_,
    hresult, hdigest, of_decide_eq_true hstatus, ⟨t, hcompletedAt, t', ht', of_decide_eq_true hle⟩,
    holds_of_verified hstable⟩
  intro x hx
  exact recoveryOrder_getLast hlast ((mem_recoveryActions_iff hD hr hrun).mpr hx)

/-! ### The runtime verdict -/

/-- **What a verified runtime verdict about a correction says.** -/
structure RuntimeVerified (cfg : Config) (db : Database) (c : ControlCommand)
    (m : ReplacementManifest) (tool : String) (clock : ℕ → Time) : Prop where
  unstale : ∀ n ∈ affectedNodes db c, ∀ x ∈ db.attempts, x.nodeId = n.id → x.sideEffecting = true →
    x.decision = .allow → x.committedAt.isSome = true → x.attemptedAt < c.createdAt
  accounted : ∀ n ∈ affectedNodes db c, Accounted db c (clock 0) n
  replacement : ∃ r, Replaced cfg db c m r ∧
    Recovered cfg db c r tool m.recoveryContract (clock 1)

theorem replacementVerdicts_sound (hD : Declared db) (htype : c.commandType = .correctSubtree)
    (hm : c.replacementManifest.bind ReplacementManifest.modelValidate = some m)
    (htool : m.recoveryContract.expectedTool = some tool)
    (htarget : db.nodes.get? c.targetNodeId = some target)
    {verdicts : ReplacementVerdicts} {discrepancies : List String}
    (h : replacementVerdicts cfg db c target now = .ok (verdicts, discrepancies))
    (hlineage : ¬ Adverse verdicts.lineage)
    (haction : ¬ Adverse verdicts.action) (hstability : ¬ Adverse verdicts.stability) :
    ∃ r, Replaced cfg db c m r ∧ Recovered cfg db c r tool m.recoveryContract now := by
  rw [replacementVerdicts, if_neg (not_not.mpr htype)] at h
  split at h
  · next hfinding =>
    cases h
    exact absurd (authorizedReplacement_adverse hfinding) hlineage
  next m' r hauthorized =>
  have hreplaced := authorizedReplacement_sound hD htype htarget hauthorized
  -- The manifest that was checked is the one that is stored.
  obtain rfl : m' = m := by
    rw [hreplaced.stored] at hm
    simpa using hm
  simp only [htool] at h
  split at h
  · next hfinding =>
    cases h
    exact absurd (recoveryAction_adverse hfinding) haction
  next a hrecovery =>
  simp only [bind_eq_ok, pure_eq_ok, Prod.mk.injEq] at h
  obtain ⟨_, _, rfl, _⟩ := h
  refine ⟨r, hreplaced, recoveryAction_sound hD hreplaced.found hreplaced.run hrecovery ?_⟩
  revert hstability
  simp only [postconditionVerdicts, Adverse]
  split
  · simp
  split <;> simp

/-- **Soundness of a verified runtime verdict.** In any database that keeps the foreign keys of its
nodes and attempts, a correction whose manifest names a tool and whose runtime verdict is verified
has left no stale side effect and no affected node unaccounted for, and its replacement agrees with
the manifest and has recovered. -/
theorem runtime_verified_sound (hD : Declared db) {commandId : Id} {clock : ℕ → Time}
    {telemetry : TelemetryProof} {response : ProofResponse}
    (hc : db.commands.get? commandId = some c) (htype : c.commandType = .correctSubtree)
    (hm : c.replacementManifest.bind ReplacementManifest.modelValidate = some m)
    (htool : m.recoveryContract.expectedTool = some tool)
    (h : buildUncached cfg db commandId clock telemetry = .ok response)
    (hverified : response.runtimeVerdict = .verified) :
    RuntimeVerified cfg db c m tool clock := by
  simp only [buildUncached, bind_eq_ok, require_eq_ok, pure_eq_ok] at h
  obtain ⟨c', hc', _, _, target, htarget, ⟨verdicts, _⟩, hverdicts, rfl⟩ := h
  obtain rfl : c = c' := Option.some.inj (hc.symm.trans hc')
  have hruntime := combine_cleared (Or.inl hverified)
  simp only [List.forall_mem_cons] at hruntime
  obtain ⟨hcontrol, hlineage, hrecovery, _⟩ := hruntime
  have hparts := combine_cleared hrecovery
  simp only [List.forall_mem_cons] at hparts
  obtain ⟨haction, _, hstability, _⟩ := hparts
  obtain ⟨hstale, haccounted, _⟩ := controlVerdict_eq_verified_iff.mp
    (hcontrol.resolve_right controlVerdict_ne_notApplicable)
  exact ⟨staleCommittedActions_eq_nil_iff.mp hstale, haccounted,
    replacementVerdicts_sound hD htype hm htool htarget hverdicts hlineage.not_adverse
      haction.not_adverse hstability.not_adverse⟩

/-- A worker is corrected and acknowledges it, and its replacement restarts postgres. -/
def sampleRecovered : List Label :=
  [.begin (.createRun
      { name := "sample", rootCapabilities := ["tool:read_metrics", "tool:restart_postgres"] })
      (sampleEnv 1 10), .finish 0 (sampleEnv 1 10),
    .call (.createSpawn 11 10 { role := "worker", capabilities := ["tool:read_metrics"] })
      (sampleEnv 1 20),
    .begin (.activate 20 { activationToken := 20 }) (sampleEnv 2 30), .finish 0 (sampleEnv 2 30),
    .call (.issueCommand
      { idempotencyKey := "repair", commandType := .correctSubtree, targetNodeId := 20,
        reasonCode := "FIX", reasonText := "fix", replacementInstruction := some (.obj []),
        replacementExpectedTool := some "restart_postgres", recoveryStabilitySeconds := 2 }
        ⟨.human, none, none⟩ none) (sampleEnv 3 40),
    .begin (.heartbeat 20 30) (sampleEnv 3 45), .finish 0 (sampleEnv 3 45),
    .call (.createReplacement 11 10 40
      { role := "postgres_recovery", capabilities := ["tool:restart_postgres"] }) (sampleEnv 3 50),
    .begin (.activate 50 { activationToken := 50 }) (sampleEnv 4 60), .finish 0 (sampleEnv 4 60),
    .call (.execute 50 60 { idempotencyKey := "first", toolName := "restart_postgres" })
      (sampleEnv 4 70),
    .call (.complete 50 60) (sampleEnv 5 80)]

theorem runtime_verified_sound_sample : ∃ (c : ControlCommand) (m : ReplacementManifest),
    c.id = 40 ∧ RuntimeVerified sampleConfig (sample sampleRecovered).db c m "restart_postgres"
      fun _ => seconds 6 := by
  have hdeclared : Declared (sample sampleRecovered).db := by
    constructor
    · have hall : ((sample sampleRecovered).db.nodes.rows.all fun n => n.parentId.all fun p =>
          (sample sampleRecovered).db.nodes.rows.any fun q =>
            decide (q.id = p ∧ q.runId = n.runId)) = true := by decide +kernel
      intro n hn p hp
      have hparent := List.all_eq_true.mp hall n hn
      rw [hp, Option.all_some, List.any_eq_true] at hparent
      obtain ⟨q, hq, heq⟩ := hparent
      exact ⟨q, hq, of_decide_eq_true heq⟩
    · have hall : ((sample sampleRecovered).db.attempts.rows.all fun x =>
          (sample sampleRecovered).db.nodes.rows.any fun n =>
            decide (n.id = x.nodeId ∧ n.runId = x.runId)) = true := by decide +kernel
      intro x hx
      obtain ⟨n, hn, heq⟩ := List.any_eq_true.mp (List.all_eq_true.mp hall x hx)
      exact ⟨n, hn, of_decide_eq_true heq⟩
  have hcommand : ((sample sampleRecovered).db.commands.get? 40).any (fun c =>
      decide (c.commandType = .correctSubtree) &&
        (c.replacementManifest.bind ReplacementManifest.modelValidate).any fun m =>
          m.recoveryContract.expectedTool = some "restart_postgres") = true := by
    decide +kernel
  have hresponse : (buildUncached sampleConfig (sample sampleRecovered).db 40 (fun _ => seconds 6)
      { verdict := .verified }).toOption.any (·.runtimeVerdict = .verified) = true := by
    decide +kernel
  obtain ⟨c, hc, hshape⟩ := (Option.any_eq_true _ _).mp hcommand
  rw [Bool.and_eq_true, decide_eq_true_eq] at hshape
  obtain ⟨m, hm, htool⟩ := (Option.any_eq_true _ _).mp hshape.2
  obtain ⟨response, hbuilt, hverified⟩ := (Option.any_eq_true _ _).mp hresponse
  exact ⟨c, m, Table.key_of_get? hc, runtime_verified_sound hdeclared hc hshape.1 hm
    (of_decide_eq_true htool) (toOption_eq_some.mp hbuilt) (of_decide_eq_true hverified)⟩

end TraceFence
