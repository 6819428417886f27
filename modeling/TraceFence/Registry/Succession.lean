import TraceFence.Registry.Activation

/-!
# Corrections and their replacements

A correction may get one replacement after another, but only while no earlier one has been
activated. So the replacement that is activated is the one its command points to, for good. No
replacement has a child: the manifest of a correction leaves no budget for one.

## Main definitions

* `Succession` — the invariant

## Main results

* `succession` — the invariant in every reachable state
* `Succession.unique` — a correction has at most one activated replacement
-/

namespace TraceFence

open System Checked

variable {cfg : Config} {w : Write} {a b db : Database} {s : Sys}

/-- **What ties replacements to the corrections that caused them.** -/
structure Succession (db : Database) : Prop where
  cause : ∀ id n cid, db.nodes.get? id = some n → n.causedByCommandId = some cid →
    ∃ c, db.commands.get? cid = some c ∧ c.commandType = .correctSubtree ∧ c.runId = n.runId
  /-- An activated replacement is in use. -/
  current : ∀ id n cid c, db.nodes.get? id = some n → n.activatedAt ≠ none →
    n.causedByCommandId = some cid → db.commands.get? cid = some c →
    c.replacementNodeId = some id ∧
      (c.replacementStatus = some .active ∨ c.replacementStatus = some .completed)
  manifest : ∀ cid c, db.commands.get? cid = some c →
    (∀ j, c.replacementManifest = some j → ∃ m : ReplacementManifest, m.modelDump = j ∧
      m.maxChildren = 0) ∧
    (c.commandType = .correctSubtree → c.replacementManifest ≠ none)
  /-- A parent is no replacement. -/
  barren : ∀ id n p q, db.nodes.get? id = some n → n.parentId = some p → db.nodes.get? p = some q →
    q.causedByCommandId = none

/-! ### Preservation -/

/-- A command with a replacement in use gets no other. -/
theorem checkRetry_of_current {c : ControlCommand} {id : Id} (h : checkRetry a c = .ok ())
    (hid : c.replacementNodeId = some id) : c.replacementStatus = some .activationExpired := by
  rw [checkRetry, hid] at h
  exact (ensure_eq_ok.mp h).1

/-- A command whose replacement is in use keeps it in use. -/
theorem CommandStep.current {c c' : ControlCommand} {id : Id} (h : CommandStep a w c c')
    (hid : c.replacementNodeId = some id)
    (hs : c.replacementStatus = some .active ∨ c.replacementStatus = some .completed) :
    c'.replacementNodeId = some id ∧
      (c'.replacementStatus = some .active ∨ c'.replacementStatus = some .completed) := by
  cases h with
  | same | skip => exact ⟨hid, hs⟩
  | register _ retry => simp [checkRetry_of_current retry hid] at hs
  | activate _ pending | expire _ pending => simp [pending.2] at hs
  | complete => exact ⟨hid, Or.inr rfl⟩

/-- A parent within its budget is no replacement. -/
theorem Succession.uncaused_of_budget (ha : Succession a) {parent : Node}
    (h : enforceParentChildBudget a parent = .ok ()) : parent.causedByCommandId = none := by
  rw [enforceParentChildBudget] at h
  split at h
  · next hnone => exact hnone
  · simp only [bind_eq_ok, require_eq_ok, ensure_eq_ok, Option.bind_eq_some_iff] at h
    obtain ⟨j, ⟨c, hc, hj⟩, m, hm, hbudget⟩ := h
    obtain ⟨m', hdump, hzero⟩ := (ha.manifest _ c hc).1 j hj
    rw [← hdump, ReplacementManifest.modelValidate_modelDump] at hm
    obtain rfl := Option.some.inj hm
    omega

/-- The parent of a replacement is no replacement: it is the parent of the corrected node, or the
root. -/
theorem Succession.uncaused_of_lineage (ha : Succession a) (hW : a.registry.WellFormed)
    {parent old : Node} {c : ControlCommand} (found : a.nodes.get? parent.id = some parent)
    (h : checkCorrectionLineage a parent c = .ok old) : parent.causedByCommandId = none := by
  unfold checkCorrectionLineage at h
  simp only [bind_eq_ok, require_eq_ok, ensure_eq_ok] at h
  obtain ⟨old, hold, _, _, _, ⟨_, hparent⟩, _⟩ := h
  rcases hparent with hparent | hroot
  · exact ha.barren _ old parent.id parent hold hparent found
  · simp only [Bool.and_eq_true, Option.any_eq_true, decide_eq_true_eq] at hroot
    obtain ⟨⟨r, hr, hid⟩, _⟩ := hroot
    obtain ⟨root, hfound, _, horphan⟩ := hW.root _ _ (registry_run_of_get? hr)
    rw [← hid, registry_node_of_get? found] at hfound
    cases hfound
    obtain ⟨_, _, _, _, huncaused, _⟩ := hW.orphan _ _ (registry_node_of_get? found) horphan
    exact huncaused

theorem Effect.succession (h : Effect cfg w a b) (hW : a.registry.WellFormed) (ha : Succession a) :
    Succession b := by
  have hcause {n n' : Node} (hstep : NodeStep cfg w n n') :
      n'.causedByCommandId = n.causedByCommandId :=
    congrArg Registration.causedByCommandId hstep.registration
  refine ⟨fun id n' cid hn' hc => ?_, fun id n' cid c' hn' hactivated hc hc' => ?_,
    fun cid c' hc' => ?_, fun id n' p q' hn' hp hq' => ?_⟩
  · have hkept {c : ControlCommand} (hc : a.commands.get? cid = some c)
        (ht : c.commandType = .correctSubtree) : ∃ c', b.commands.get? cid = some c' ∧
          c'.commandType = .correctSubtree ∧ c'.runId = c.runId := by
      obtain ⟨c', hc', hissued⟩ := h.evolves.command _ c hc
      exact ⟨c', hc', (issued_column (·.commandType) (fun _ => rfl) hissued).trans ht,
        issued_column (·.runId) (fun _ => rfl) hissued⟩
    rcases h.node_cases hn' with ⟨_, rfl | rfl⟩ | ⟨n, hn, hstep⟩
    · rw [h.root_birth.uncaused] at hc
      cases hc
    · obtain ⟨parent, hbirth⟩ := h.birth
      rcases hbirth.origin with ⟨hnone, _⟩ | ⟨c, hcommission⟩
      · rw [hnone] at hc
        cases hc
      · obtain rfl := Option.some.inj (hcommission.cause.symm.trans hc)
        obtain ⟨c', hc', ht, hrun⟩ := hkept hcommission.found hcommission.correction
        exact ⟨c', hc', ht, hrun.trans (hcommission.run.trans hbirth.run.symm)⟩
    · rw [hcause hstep] at hc
      obtain ⟨c, hfound, ht, hrun⟩ := ha.cause id n cid hn hc
      obtain ⟨c', hc', ht', hrun'⟩ := hkept hfound ht
      exact ⟨c', hc', ht', (hrun'.trans hrun).trans
        (congrArg Registration.runId hstep.registration).symm⟩
  · rcases h.node_cases hn' with ⟨_, rfl | rfl⟩ | ⟨n, hn, hstep⟩
    · rw [h.root_birth.uncaused] at hc
      cases hc
    · obtain ⟨_, hbirth⟩ := h.birth
      exact absurd hbirth.dormant hactivated
    · rw [hcause hstep] at hc
      rcases h.command_cases hc' with ⟨hnone, _⟩ | ⟨c, hfound, hcommand⟩
      · obtain ⟨_, hfound, _⟩ := ha.cause id n cid hn hc
        rw [hnone] at hfound
        cases hfound
      by_cases hold : n.activatedAt = none
      · -- The node is being activated, so its command points to it and moves with it.
        obtain ⟨at', rfl, rfl⟩ := hstep.dormant hold hactivated
        have hid : at'.node.id = id := Table.key_of_get? hn
        have hkey : c.id = cid := Table.key_of_get? hfound
        cases hcommand with
        | same untouched => exact absurd (hc.trans (congrArg some hkey.symm)) untouched
        | activate _ pending => exact ⟨hid ▸ pending.1, Or.inl rfl⟩
      · obtain ⟨hpoints, hstatus⟩ := ha.current id n cid c hn hold hc hfound
        exact hcommand.current hpoints hstatus
  · rcases h.command_cases hc' with ⟨_, rfl⟩ | ⟨c, hc, hstep⟩
    · exact ⟨h.issuance.manifest, h.issuance.corrects⟩
    · rw [issued_column (·.replacementManifest) (fun _ => rfl) hstep.issued,
        issued_column (·.commandType) (fun _ => rfl) hstep.issued]
      exact ha.manifest cid c hc
  · rcases h.node_cases hn' with ⟨_, rfl | rfl⟩ | ⟨n, hn, hstep⟩
    · rw [h.root_birth.orphan] at hp
      cases hp
    · obtain ⟨parent, hbirth⟩ := h.birth
      obtain rfl := Option.some.inj (hbirth.link.symm.trans hp)
      obtain ⟨q, hq, hstep⟩ := h.node_step hbirth.found
      obtain rfl := Option.some.inj (hq.symm.trans hq')
      rw [hcause hstep]
      rcases hbirth.origin with ⟨_, hbudget⟩ | ⟨c, hcommission⟩
      · exact ha.uncaused_of_budget hbudget
      · obtain ⟨_, hlineage⟩ := hcommission.lineage
        exact ha.uncaused_of_lineage hW hbirth.found hlineage
    · rw [show n'.parentId = n.parentId from congrArg Registration.parentId hstep.registration] at hp
      obtain ⟨q, hq, _⟩ := exists_parent hW (found_of_get? hn) hp
      obtain ⟨q₁, hq₁, hqstep⟩ := h.node_step hq
      obtain rfl := Option.some.inj (hq₁.symm.trans hq')
      rw [hcause hqstep]
      exact ha.barren id n p q hn hp hq

/-! ### Reachable states -/

/-- **The succession of replacements**, in every reachable state. -/
theorem succession (h : (services cfg).Reachable s) : Succession s.db := by
  have hboth := reachable_db (I := fun db => db.registry.WellFormed ∧ Succession db) h
    ⟨registry_wellFormed (@Reachable.init _ _ (services cfg)), fun _ _ _ h => (nomatch h),
      fun _ _ _ _ h => (nomatch h), fun _ _ h => (nomatch h), fun _ _ _ _ h => (nomatch h)⟩
    fun _ _ _ ha he => ⟨he.registry_wellFormed ha.1, he.succession ha.1 ha.2⟩
  exact hboth.2

/-- **At most one replacement of a correction is ever activated.** -/
theorem Succession.unique (h : Succession db) {id id' cid : Id} {n n' : Node}
    (hn : db.nodes.get? id = some n) (hn' : db.nodes.get? id' = some n')
    (hc : n.causedByCommandId = some cid) (hc' : n'.causedByCommandId = some cid)
    (ha : n.activatedAt ≠ none) (ha' : n'.activatedAt ≠ none) : id = id' := by
  obtain ⟨c, hfound, _⟩ := h.cause id n cid hn hc
  have hpoints := (h.current id n cid c hn ha hc hfound).1
  have hpoints' := (h.current id' n' cid c hn' ha' hc' hfound).1
  exact Option.some.inj (hpoints.symm.trans hpoints')

end TraceFence
