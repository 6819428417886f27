import Mathlib.Data.Multiset.Lattice
import Mathlib.Order.Lattice
import TraceFence.Registry.Evaluation

/-!
# Evaluation of a snapshot is a join

The loop of `evaluate_scopes` keeps one effective status for three kinds of failure, with rules of
precedence between them. What the rules compute is the worst of the entries in a linear order, so
the status does not depend on the order of the snapshot, while the mismatches and with them the
primary reason do.

## Main definitions

* `Severity` — what one entry makes of the node
* `entrySeverity`, `snapshotSeverity` — the severity of an entry, and of a snapshot
* `FindsInOrder` — an entry that does not fail
* `mismatchOf` — what is reported of an entry that fails

## Main results

* `effectiveStatus_eq` — the effective status is the severity of the snapshot
* `evaluation_is_join` — what an evaluation returns
-/

namespace TraceFence

variable {db : Database} {runId : Id} {item : ScopeRef}

/-! ### Severity -/

/-- What an entry of a snapshot makes of the node, worse and worse. -/
inductive Severity
  | active
  | superseded
  | cancelled
  deriving DecidableEq, Repr

namespace Severity

/-- The place of a severity in the order. -/
def rank : Severity → ℕ
  | .active => 0
  | .superseded => 1
  | .cancelled => 2

theorem rank_injective : Function.Injective rank := by
  intro s s' h
  cases s <;> cases s' <;> first | rfl | exact absurd h (by decide)

instance : LinearOrder Severity := LinearOrder.lift' rank rank_injective

instance : OrderBot Severity where
  bot := .active
  bot_le s := Nat.zero_le s.rank

/-- The status that a severity stands for. -/
def status : Severity → NodeStatus
  | .active => .active
  | .superseded => .superseded
  | .cancelled => .cancelled

/-- The rule of the loop for an entry that is missing or cancelled. -/
theorem sup_cancelled (s : Severity) : s ⊔ .cancelled = .cancelled := by
  cases s <;> decide

/-- The rule of the loop for an entry that is superseded or of another version. -/
theorem sup_superseded (s : Severity) :
    s ⊔ .superseded = if s = .cancelled then .cancelled else .superseded := by
  cases s <;> decide

theorem sup_active (s : Severity) : s ⊔ .active = s := by
  cases s <;> decide

end Severity

/-- The severity of an entry: it is worst when the scope is missing or cancelled, and bad when the
scope is superseded or has another version. -/
def entrySeverity (db : Database) (runId : Id) (item : ScopeRef) : Severity :=
  match liveScope db runId item.scopeId with
  | none => .cancelled
  | some live =>
    if live.status = .cancelled then .cancelled
    else if live.status = .superseded ∨ live.version ≠ item.version then .superseded
    else .active

/-- The severity of a snapshot, of which it does not matter in what order the entries stand. -/
def snapshotSeverity (db : Database) (runId : Id) (snapshot : Multiset ScopeRef) : Severity :=
  (snapshot.map (entrySeverity db runId)).sup

theorem snapshotSeverity_cons (snapshot : List ScopeRef) :
    snapshotSeverity db runId ↑(item :: snapshot) =
      entrySeverity db runId item ⊔ snapshotSeverity db runId ↑snapshot := by
  rw [snapshotSeverity, ← Multiset.cons_coe, Multiset.map_cons, Multiset.sup_cons]
  rfl

theorem snapshotSeverity_le_append (snapshot more : List ScopeRef) :
    snapshotSeverity db runId ↑snapshot ≤ snapshotSeverity db runId ↑(snapshot ++ more) := by
  rw [snapshotSeverity, snapshotSeverity, ← Multiset.coe_add, Multiset.map_add, Multiset.sup_add]
  exact le_sup_left

/-! ### The loop -/

/-- A round of the loop joins the severity of its entry to the effective status. -/
theorem evaluateEntry_status {acc : ScopeEvaluation} {s : Severity}
    (h : acc.effectiveStatus = s.status) (item : ScopeRef) :
    (evaluateEntry db runId acc item).effectiveStatus =
      (s ⊔ entrySeverity db runId item).status := by
  rw [evaluateEntry, entrySeverity]
  cases liveScope db runId item.scopeId with
  | none =>
    rw [Severity.sup_cancelled]
    rfl
  | some live =>
    dsimp only
    by_cases hcancelled : live.status = .cancelled
    · rw [if_pos hcancelled, if_pos hcancelled, Severity.sup_cancelled]
      rfl
    rw [if_neg hcancelled, if_neg hcancelled]
    by_cases hsuperseded : live.status = .superseded
    · rw [if_pos hsuperseded, if_pos (Or.inl hsuperseded), Severity.sup_superseded]
      show (if acc.effectiveStatus ≠ .cancelled then _ else _) = _
      rw [h]
      cases s <;> rfl
    rw [if_neg hsuperseded]
    by_cases hversion : live.version ≠ item.version
    · rw [if_pos hversion, if_pos (Or.inr hversion), Severity.sup_superseded]
      show (if acc.effectiveStatus = .active then _ else _) = _
      rw [h]
      cases s <;> rfl
    · rw [if_neg hversion, if_neg (not_or.mpr ⟨hsuperseded, hversion⟩), Severity.sup_active]
      exact h

theorem foldl_status {acc : ScopeEvaluation} {s : Severity} (h : acc.effectiveStatus = s.status)
    (snapshot : List ScopeRef) :
    (snapshot.foldl (evaluateEntry db runId) acc).effectiveStatus =
      (s ⊔ snapshotSeverity db runId ↑snapshot).status := by
  induction snapshot generalizing acc s with
  | nil => exact h.trans (congrArg Severity.status (Severity.sup_active s).symm)
  | cons item rest ih =>
    rw [List.foldl_cons, ih (evaluateEntry_status h item), snapshotSeverity_cons, sup_assoc]

/-- **The effective status of a snapshot** is its severity. -/
theorem effectiveStatus_eq {node : Node} (h : node.scopeSnapshot ≠ []) :
    (evaluateScopes db node).effectiveStatus =
      (snapshotSeverity db node.runId ↑node.scopeSnapshot).status := by
  rw [evaluateScopes, if_neg (mt List.isEmpty_iff.mp h)]
  refine (foldl_status (s := .active) rfl node.scopeSnapshot).trans ?_
  rw [sup_comm, Severity.sup_active]

/-! ### Mismatches -/

/-- An entry finds its scope in the run of the node, active and at the version it names. -/
def FindsInOrder (db : Database) (runId : Id) (item : ScopeRef) : Prop :=
  ∃ scope, db.scopes.get? item.scopeId = some scope ∧ scope.runId = runId ∧
    scope.status = .active ∧ scope.version = item.version

theorem entryMismatch_eq_none_iff :
    entryMismatch db runId item = none ↔ FindsInOrder db runId item := by
  simp only [entryMismatch_eq_none, liveScope_eq_some, and_assoc, FindsInOrder]

instance : DecidablePred (FindsInOrder db runId) :=
  fun _ => decidable_of_iff _ entryMismatch_eq_none_iff

/-- Why an entry fails. -/
def entryReason (db : Database) (runId : Id) (item : ScopeRef) : ReasonCode :=
  match liveScope db runId item.scopeId with
  | none => .scopeNotFound
  | some live =>
    if live.status = .cancelled then .scopeCancelled
    else if live.status = .superseded then .scopeSuperseded
    else .scopeVersionMismatch

/-- What is reported of an entry that fails: the entry, what it found, and why it fails. -/
def mismatchOf (db : Database) (runId : Id) (item : ScopeRef) : ScopeMismatch where
  scopeId := item.scopeId
  snapshotVersion := item.version
  liveVersion := (liveScope db runId item.scopeId).map (·.version)
  liveStatus := (liveScope db runId item.scopeId).map (·.status)
  reasonCode := entryReason db runId item

theorem entryMismatch_eq : entryMismatch db runId item =
    if FindsInOrder db runId item then none else some (mismatchOf db runId item) := by
  split_ifs with h
  · exact entryMismatch_eq_none_iff.mpr h
  · rw [← entryMismatch_eq_none_iff, entryMismatch] at h
    rw [entryMismatch, mismatchOf, entryReason]
    cases hlive : liveScope db runId item.scopeId with
    | none => rfl
    | some live =>
      simp only [hlive] at h ⊢
      split_ifs at h ⊢
      · rfl
      · rfl
      · rfl
      · exact absurd rfl h

/-- The mismatches are the entries that fail, in the order of the snapshot. -/
theorem mismatches_eq_map (node : Node) : (evaluateScopes db node).mismatches =
    (node.scopeSnapshot.filter fun item => ¬ FindsInOrder db node.runId item).map
      (mismatchOf db node.runId) := by
  rw [mismatches_eq]
  induction node.scopeSnapshot with
  | nil => rfl
  | cons item rest ih =>
    rw [List.filterMap_cons, List.filter_cons, entryMismatch_eq, ih]
    by_cases h : FindsInOrder db node.runId item <;> simp [h]

/-- The primary reason is that of the outermost entry that fails. -/
theorem primaryReason_eq (node : Node) : (evaluateScopes db node).primaryReason =
    (node.scopeSnapshot.find? fun item => ¬ FindsInOrder db node.runId item).map
      (entryReason db node.runId) := by
  rw [ScopeEvaluation.primaryReason, mismatches_eq_map, List.head?_map, List.head?_filter,
    Option.map_map]
  rfl

/-! ### What an evaluation returns -/

/-- **Evaluation of a snapshot is a join.** It allows when the snapshot has entries and all find
their scopes in order. The effective status is the worst that an entry asks for; it does not depend
on the order of the entries, and further entries do not make it better. The mismatches are the
entries that fail, in order, and the primary reason is that of the first of them, the
outermost. -/
theorem evaluation_is_join (db : Database) (node : Node) :
    ((evaluateScopes db node).allowed = true ↔ node.scopeSnapshot ≠ [] ∧
      ∀ item ∈ node.scopeSnapshot, FindsInOrder db node.runId item) ∧
    (node.scopeSnapshot ≠ [] → (evaluateScopes db node).effectiveStatus =
      (snapshotSeverity db node.runId ↑node.scopeSnapshot).status) ∧
    (∀ snapshot, snapshot.Perm node.scopeSnapshot →
      (evaluateScopes db { node with scopeSnapshot := snapshot }).effectiveStatus =
        (evaluateScopes db node).effectiveStatus) ∧
    (node.scopeSnapshot ≠ [] → ∀ more, ∃ s s' : Severity, s ≤ s' ∧
      (evaluateScopes db node).effectiveStatus = s.status ∧
      (evaluateScopes db { node with
        scopeSnapshot := node.scopeSnapshot ++ more }).effectiveStatus = s'.status) ∧
    (evaluateScopes db node).mismatches =
      (node.scopeSnapshot.filter fun item => ¬ FindsInOrder db node.runId item).map
        (mismatchOf db node.runId) ∧
    (evaluateScopes db node).primaryReason =
      (node.scopeSnapshot.find? fun item => ¬ FindsInOrder db node.runId item).map
        (entryReason db node.runId) := by
  refine ⟨?_, effectiveStatus_eq, fun snapshot hperm => ?_, fun h more => ?_,
    mismatches_eq_map node, primaryReason_eq node⟩
  · rw [allowed_iff]
    exact and_congr_right fun _ => forall₂_congr fun _ _ => entryMismatch_eq_none_iff
  · by_cases h : node.scopeSnapshot = []
    · obtain rfl : snapshot = [] := (h ▸ hperm).eq_nil
      simp [evaluateScopes, h]
    · have hne : snapshot ≠ [] := fun he => h (he ▸ hperm).symm.eq_nil
      rw [effectiveStatus_eq h, @effectiveStatus_eq db { node with scopeSnapshot := snapshot } hne,
        Multiset.coe_eq_coe.mpr hperm]
  · refine ⟨_, _, snapshotSeverity_le_append _ more, effectiveStatus_eq h, ?_⟩
    exact @effectiveStatus_eq db { node with scopeSnapshot := node.scopeSnapshot ++ more }
      fun he => h (List.append_eq_nil_iff.mp he).1

/-- A registry with a scope of each status. -/
def threeScopes : Database :=
  { Database.empty with
    scopes := ⟨[⟨1, 10, none, 1, .active, none, none, 0⟩, ⟨2, 10, none, 2, .superseded, none, none, 0⟩,
      ⟨3, 10, none, 2, .cancelled, none, none, 0⟩], by decide⟩ }

/-- A node below a scope that is active and one that is superseded. -/
def staleNode : Node where
  id := 20
  runId := 10
  parentId := none
  role := "worker"
  behavior := "cooperative"
  generation := 1
  lineagePath := [20]
  status := .active
  ownScopeId := 2
  scopeSnapshot := [⟨1, 1⟩, ⟨2, 1⟩]
  instructionVersion := 1
  instruction := .obj []
  capabilities := []
  registeredAt := 0

theorem evaluation_is_join_sample :
    (evaluateScopes threeScopes staleNode).effectiveStatus = .superseded ∧
      (evaluateScopes threeScopes { staleNode with
        scopeSnapshot := [⟨2, 1⟩, ⟨1, 1⟩] }).effectiveStatus = .superseded ∧
      (evaluateScopes threeScopes staleNode).primaryReason = some .scopeSuperseded := by
  obtain ⟨-, hstatus, hperm, -, -, hprimary⟩ := evaluation_is_join threeScopes staleNode
  have hjoin := hstatus (by decide)
  refine ⟨hjoin.trans (by decide), (hperm _ (List.Perm.swap ..)).trans (hjoin.trans (by decide)), ?_⟩
  exact hprimary.trans (by decide)

end TraceFence
