import TraceFence.ProofBuilds
import TraceFence.Safety.ProofVerdicts

/-!
# Coherent verdicts

A response sums its verdicts up twice, and a contradiction in one of them ought to show in the sum.
It does in whatever a stable pass returns, also when it comes out of the cache or is shared. A build
that gives up overwrites the sums without looking at what they sum up, so a contradiction its last
pass has found goes unnoticed.

## Main definitions

* `ProofResponse.Coherent` — the law
* `ProofPass.Contradictory` — a pass has found a contradiction

## Main results

* `combine_eq_inconsistent_iff` — a sum is inconsistent when a summand is
* `coherent_unstable_iff` — when a build that gives up obeys the law
* `verdicts_coherent` — when all builds do
* `verdicts_incoherent` — a build that does not
-/

namespace TraceFence

open System

variable {cfg : Config} {commandId : Id} {w₀ : ProofWorld} {s s' : ProofService} {l : BuildLabel}
  {pass : ProofPass} {v : ProofVerdict} {verdicts : List ProofVerdict}

/-! ### The law -/

/-- A response is marked as unstable. -/
def ProofResponse.Marked (r : ProofResponse) : Prop :=
  r.runtimeVerdict = .stateChangedDuringProof ∧ r.overallVerdict = .stateChangedDuringProof

/-- All verdicts but the overall one. -/
def ProofResponse.dimensions (r : ProofResponse) : List ProofVerdict :=
  [r.controlConvergenceVerdict, r.replacementLineageVerdict, r.recoveryActionVerdict,
    r.recoveryPostconditionVerdict, r.recoveryStabilityVerdict, r.recoveryOutcomeVerdict,
    r.runtimeVerdict, r.telemetryVerdict]

/-- **Coherence**: the verdicts that sum up others are their combinations, and no contradiction is
left out of the overall verdict. -/
structure ProofResponse.Coherent (r : ProofResponse) : Prop where
  overall : r.overallVerdict = combineProofVerdicts [r.runtimeVerdict, r.telemetryVerdict]
  runtime : ¬ r.Marked → r.runtimeVerdict = combineProofVerdicts
    [r.controlConvergenceVerdict, r.replacementLineageVerdict, r.recoveryOutcomeVerdict]
  recovery : ¬ r.Marked → r.recoveryOutcomeVerdict = combineProofVerdicts
    [r.recoveryActionVerdict, r.recoveryPostconditionVerdict, r.recoveryStabilityVerdict]
  dominant : .inconsistent ∈ r.dimensions → r.overallVerdict = .inconsistent

/-- A pass has found a contradiction: a side effect that was committed after the command, a
replacement or recovery that is not what was authorized, or telemetry that says otherwise. -/
def ProofPass.Contradictory (pass : ProofPass) : Prop :=
  0 < pass.evidence.staleCommitted ∨
    .inconsistent ∈ [pass.evidence.replacement.lineage, pass.evidence.replacement.action,
      pass.evidence.replacement.postcondition, pass.evidence.replacement.stability] ∨
    pass.telemetry.verdict = .inconsistent

/-! ### The lattice -/

/-- **A combination is inconsistent exactly when one verdict is.** -/
theorem combine_eq_inconsistent_iff :
    combineProofVerdicts verdicts = .inconsistent ↔ .inconsistent ∈ verdicts := by
  refine ⟨fun h => ?_, combine_of_inconsistent⟩
  rcases combine_cases verdicts with ⟨hnone, _⟩ | ⟨hmem, _⟩
  · rw [h] at hnone
    cases hnone
  · rw [h] at hmem
    exact hmem

/-- Only a contradiction outweighs that the state has changed. -/
theorem combine_stateChanged (hv : v ≠ .inconsistent) :
    combineProofVerdicts [.stateChangedDuringProof, v] = .stateChangedDuringProof := by
  cases v with
  | inconsistent => exact absurd rfl hv
  | _ => decide

theorem ProofEvidence.controlVerdict_eq_inconsistent {e : ProofEvidence} :
    e.controlVerdict = .inconsistent ↔ 0 < e.staleCommitted := by
  rw [ProofEvidence.controlVerdict]
  split
  · next hstale => exact iff_of_true rfl hstale
  · next hnone =>
    refine iff_of_false ?_ hnone
    split <;> simp

/-! ### A pass -/

theorem ProofEvidence.recoveryVerdict_eq_inconsistent {e : ProofEvidence} :
    e.recoveryVerdict = .inconsistent ↔ e.replacement.action = .inconsistent ∨
      e.replacement.postcondition = .inconsistent ∨ e.replacement.stability = .inconsistent := by
  rw [ProofEvidence.recoveryVerdict, combine_eq_inconsistent_iff]
  simp [eq_comm]

theorem ProofEvidence.runtimeVerdict_eq_inconsistent {e : ProofEvidence} :
    e.runtimeVerdict = .inconsistent ↔ 0 < e.staleCommitted ∨
      e.replacement.lineage = .inconsistent ∨ e.recoveryVerdict = .inconsistent := by
  rw [ProofEvidence.runtimeVerdict, combine_eq_inconsistent_iff,
    ← ProofEvidence.controlVerdict_eq_inconsistent]
  simp [eq_comm]

/-- A stable response adds up. -/
theorem overall_of_mem_dimensions (h : .inconsistent ∈ pass.response.dimensions) :
    pass.response.overallVerdict = .inconsistent := by
  have hoverall : pass.response.overallVerdict =
      combineProofVerdicts [pass.evidence.runtimeVerdict, pass.telemetry.verdict] := rfl
  rw [hoverall, combine_eq_inconsistent_iff]
  simp only [ProofResponse.dimensions, ProofPass.response, ProofEvidence.conclude, List.mem_cons,
    List.not_mem_nil, or_false, @eq_comm _ ProofVerdict.inconsistent,
    ProofEvidence.controlVerdict_eq_inconsistent, ProofEvidence.runtimeVerdict_eq_inconsistent,
    ProofEvidence.recoveryVerdict_eq_inconsistent] at h ⊢
  tauto

/-- What an unstable response shows is what its pass has found. -/
theorem mem_dimensions_unstable :
    .inconsistent ∈ pass.unstable.dimensions ↔ pass.Contradictory := by
  simp only [ProofResponse.dimensions, ProofPass.unstable, ProofPass.response,
    ProofEvidence.conclude, ProofPass.Contradictory, List.mem_cons, List.not_mem_nil, or_false,
    @eq_comm _ ProofVerdict.inconsistent, ProofEvidence.controlVerdict_eq_inconsistent,
    ProofEvidence.recoveryVerdict_eq_inconsistent, reduceCtorEq, false_or]
  tauto

/-- **What a stable pass returns is coherent.** -/
theorem coherent_response (pass : ProofPass) : pass.response.Coherent :=
  ⟨rfl, fun _ => rfl, fun _ => rfl, overall_of_mem_dimensions⟩

theorem marked_unstable (pass : ProofPass) : pass.unstable.Marked := ⟨rfl, rfl⟩

/-- **What a build returns when it gives up is coherent** exactly when its last pass has not found a
contradiction. -/
theorem coherent_unstable_iff : pass.unstable.Coherent ↔ ¬ pass.Contradictory := by
  constructor
  · intro h hcontra
    have hoverall := h.dominant (mem_dimensions_unstable.mpr hcontra)
    cases hoverall
  · intro hclean
    have htelemetry : pass.telemetry.verdict ≠ .inconsistent := fun h =>
      hclean (Or.inr (Or.inr h))
    refine ⟨(combine_stateChanged htelemetry).symm, fun hmark => ?_, fun hmark => ?_, fun h => ?_⟩
    · exact absurd (marked_unstable pass) hmark
    · exact absurd (marked_unstable pass) hmark
    · exact absurd (mem_dimensions_unstable.mp h) hclean

/-! ### Builds -/

/-- Every response that calls have got comes from a pass, and every pass that has been given up on
has been returned. -/
structure Sourced (s : ProofService) : Prop where
  cached : ∀ entry ∈ s.cache, ∃ pass : ProofPass, entry.response = pass.response
  returned : ∀ (index : ℕ) (call : BuildCall) (response : ProofResponse) (moment : ℕ),
    s.calls[index]? = some call → call.stage = .returned response moment →
      (∃ pass : ProofPass, response = pass.response) ∨ ∃ pass ∈ s.unsettled, response = pass.unstable
  delivered : ∀ pass ∈ s.unsettled, ∃ (index : ℕ) (call : BuildCall) (moment : ℕ),
    s.calls[index]? = some call ∧ call.stage = .returned pass.unstable moment

/-- A call goes on, and returns what comes from a pass if it returns. -/
theorem Sourced.move (h : Sourced s) {index : ℕ} {call call' : BuildCall}
    (hcall : s.calls[index]? = some call)
    (hrunning : ∀ response moment, call.stage ≠ .returned response moment)
    (hcalls : s'.calls = s.calls.set index call')
    (hcache : ∀ entry ∈ s'.cache, ∃ pass : ProofPass, entry.response = pass.response)
    (hunsettled : ∀ pass ∈ s.unsettled, pass ∈ s'.unsettled)
    (hnew : ∀ pass ∈ s'.unsettled, pass ∈ s.unsettled ∨
      ∃ moment, call'.stage = .returned pass.unstable moment)
    (hstage : ∀ response moment, call'.stage = .returned response moment →
      (∃ pass : ProofPass, response = pass.response) ∨
        ∃ pass ∈ s'.unsettled, response = pass.unstable) : Sourced s' := by
  refine ⟨hcache, fun j c response moment hc hreturned => ?_, fun pass hpass => ?_⟩
  · rw [hcalls] at hc
    rcases getElem?_set_cases hc with ⟨_, rfl⟩ | ⟨_, hold⟩
    · exact hstage response moment hreturned
    · exact (h.returned j c response moment hold hreturned).imp id fun ⟨pass, hmem, heq⟩ =>
        ⟨pass, hunsettled pass hmem, heq⟩
  · rw [hcalls]
    rcases hnew pass hpass with hold | ⟨moment, hreturned⟩
    · obtain ⟨j, c, moment, hc, hreturned⟩ := h.delivered pass hold
      have hne : index ≠ j := by
        rintro rfl
        rw [hcall] at hc
        exact hrunning _ _ (Option.some.inj hc ▸ hreturned)
      exact ⟨j, c, moment, by rw [List.getElem?_set_ne hne, hc], hreturned⟩
    · have hlt := (List.getElem?_eq_some_iff.mp hcall).1
      exact ⟨index, call', moment, List.getElem?_set_self hlt, hreturned⟩

/-- A call goes on without returning. -/
theorem Sourced.advance (h : Sourced s) {index : ℕ} {call call' : BuildCall}
    (hcall : s.calls[index]? = some call)
    (hrunning : ∀ response moment, call.stage ≠ .returned response moment)
    (hcalls : s'.calls = s.calls.set index call') (hcache : ∀ entry ∈ s'.cache, entry ∈ s.cache)
    (hunsettled : s'.unsettled = s.unsettled)
    (hstage : ∀ response moment, call'.stage ≠ .returned response moment) : Sourced s' := by
  refine h.move hcall hrunning hcalls (fun entry he => h.cached entry (hcache entry he))
    (fun pass hpass => hunsettled ▸ hpass) (fun pass hpass => Or.inl (hunsettled ▸ hpass)) ?_
  intro response moment hreturned
  exact absurd hreturned (hstage response moment)

/-- A call returns what a pass has come to. -/
theorem Sourced.answer (h : Sourced s) {index : ℕ} {call : BuildCall} {response : ProofResponse}
    (hcall : s.calls[index]? = some call)
    (hrunning : ∀ response moment, call.stage ≠ .returned response moment)
    (hresponse : (∃ pass : ProofPass, response = pass.response) ∨
      ∃ pass ∈ s.unsettled, response = pass.unstable)
    {cache : List CacheEntry} {inflight : Option ℕ}
    (hcache : ∀ entry ∈ cache, ∃ pass : ProofPass, entry.response = pass.response) :
    Sourced { s.answer index call response with cache := cache, inflight := inflight } := by
  refine h.move hcall hrunning rfl hcache (fun _ hpass => hpass) (fun _ hpass => Or.inl hpass) ?_
  intro _ _ hreturned
  cases hreturned
  exact hresponse

theorem mem_kept {call : BuildCall} {now : Time} {entry : CacheEntry} :
    entry ∈ s.kept call now ↔
      entry ∈ s.cache ∧ now < entry.expiresAt ∧ some entry.key = call.key := by
  simp [ProofService.kept]

theorem mem_store {now expiresAt : Time} {entry : CacheEntry} (h : entry ∈ s.store pass now expiresAt) :
    entry ∈ s.cache ∨ entry.key.revision = pass.revision ∧ entry.response = pass.response := by
  rw [ProofService.store] at h
  split at h
  · exact Or.inl h
  · dsimp only at h
    split at h
    · rcases List.mem_append.mp h with hold | hnew
      · exact Or.inl (List.mem_of_mem_filter hold)
      · rw [List.mem_singleton.mp hnew]
        exact Or.inr ⟨rfl, rfl⟩
    · exact Or.inl h

theorem sourced_step (hs : Sourced s) (h : BuildStep cfg commandId s l s') : Sourced s' := by
  cases h with
  | idle | commit => exact ⟨hs.cached, hs.returned, hs.delivered⟩
  | start first =>
    refine ⟨hs.cached, fun j c response moment hc hreturned => ?_, fun pass hpass => ?_⟩
    · rcases getElem?_concat_cases hc with rfl | hold
      · rcases first with rfl | ⟨_, rfl⟩ <;> cases hreturned
      · exact hs.returned j c response moment hold hreturned
    · obtain ⟨j, c, moment, hc, hreturned⟩ := hs.delivered pass hpass
      exact ⟨j, c, moment, getElem?_append_of_some hc, hreturned⟩
  | context called stage => exact hs.advance called (by simp [stage]) rfl (fun _ h => h) rfl (by simp)
  | @hit index call now entry rest called stage found =>
    have hcached : ∀ e ∈ entry :: rest, ∃ pass : ProofPass, e.response = pass.response := fun e he =>
      hs.cached e (mem_kept.mp (found ▸ he)).1
    exact hs.answer called (by simp [stage]) (Or.inl (hcached entry List.mem_cons_self)) hcached
  | join called stage | own called stage =>
    exact hs.advance called (by simp [stage]) rfl (by simp) rfl (by simp)
  | readCommand called stage | readRun called stage | collect called stage | settle called stage
  | retry called stage | giveUp called stage =>
    exact hs.advance called (by simp [stage]) rfl (fun _ h => h) rfl (by simp)
  | @publishStable index call pass now expiresAt called stage =>
    refine hs.answer called (by simp [stage]) (Or.inl ⟨pass, rfl⟩) fun entry he => ?_
    rcases mem_store he with hold | ⟨_, hresponse⟩
    · exact hs.cached entry hold
    · exact ⟨pass, hresponse⟩
  | @publishUnstable index call pass _ _ called stage =>
    refine hs.move called (by simp [stage]) rfl hs.cached (fun _ hpass => List.mem_append_left _ hpass)
      (fun pass' hpass => ?_) fun response moment hreturned => ?_
    · rcases List.mem_append.mp hpass with hold | hnew
      · exact Or.inl hold
      · rw [List.mem_singleton.mp hnew]
        exact Or.inr ⟨_, rfl⟩
    · cases hreturned
      exact Or.inr ⟨pass, List.mem_append_right _ (List.mem_singleton.mpr rfl), rfl⟩
  | receive called stage awaited done =>
    exact hs.answer called (by simp [stage]) (hs.returned _ _ _ _ awaited done) hs.cached
  | fail called running => exact hs.advance called running rfl (fun _ h => h) rfl (by simp)

theorem sourced (h : (proofs cfg commandId w₀).Reachable s) : Sourced s := by
  refine h.invariant (I := Sourced) ⟨?_, ?_, ?_⟩ fun s l s' _ hs hstep =>
    sourced_step hs (buildStep_of_step hstep)
  · intro entry hentry
    cases hentry
  · intro index call response moment hcall
    cases hcall
  · intro pass hpass
    cases hpass

/-- **Verdicts are coherent**, in every response that any call has got by any way, exactly when no
build has given up after a pass that has found a contradiction. -/
theorem verdicts_coherent (hs : (proofs cfg commandId w₀).Reachable s) :
    (∀ response ∈ s.responses, response.Coherent) ↔
      ∀ pass ∈ s.unsettled, ¬ pass.Contradictory := by
  have hsourced := sourced hs
  constructor
  · intro h pass hpass
    obtain ⟨index, call, moment, hcall, hreturned⟩ := hsourced.delivered pass hpass
    have hmem : pass.unstable ∈ s.responses :=
      mem_responses.mpr ⟨call, List.mem_of_getElem? hcall, moment, hreturned⟩
    exact coherent_unstable_iff.mp (h _ hmem)
  · intro h response hresponse
    obtain ⟨call, hcall, moment, hreturned⟩ := mem_responses.mp hresponse
    obtain ⟨index, hindex⟩ := List.getElem?_of_mem hcall
    rcases hsourced.returned index call response moment hindex hreturned with
      ⟨pass, rfl⟩ | ⟨pass, hpass, rfl⟩
    · exact coherent_response pass
    · exact coherent_unstable_iff.mpr (h pass hpass)

/-! ### Samples -/

/-- A pass of the first call. -/
def samplePass (telemetry : TelemetryProof) : List BuildLabel :=
  [.readCommand 0, .readRun 0,
    .collect 0 (fun _ => seconds 4) (.error (notFoundError "torn")) telemetry (some "exported")]

/-- One call builds, one shares what it builds, and one finds it in the cache. -/
def sampleShared : List BuildLabel :=
  [.start, .context 0 (some "exported") (seconds 4), .enter 0 (seconds 4),
    .start, .context 1 (some "exported") (seconds 4), .enter 1 (seconds 4)] ++
  samplePass { verdict := .inconsistent } ++ [.check 0, .publish 0 (seconds 4) (seconds 9), .receive 1,
    .start, .context 2 (some "exported") (seconds 4), .enter 2 (seconds 5)]

/-- All three get coherent verdicts. -/
theorem verdicts_coherent_sample : (sampleBuilds sampleShared).responses.length = 3 ∧
    ∀ response ∈ (sampleBuilds sampleShared).responses, response.Coherent := by
  refine ⟨by decide +kernel, (verdicts_coherent (sampleBuilds_reachable (by decide))).mpr ?_⟩
  have hsettled : (sampleBuilds sampleShared).unsettled.isEmpty = true := by decide +kernel
  rw [List.isEmpty_iff.mp hsettled]
  simp

/-- A pass of the first call, with something committed before its revision check. -/
def sampleAttempt (revision : ℕ) : List BuildLabel :=
  samplePass { verdict := .inconsistent } ++ [.commit (sampleWorld revision), .check 0]

/-- A build that gives up, though telemetry has contradicted the command. -/
def sampleUnstable : List BuildLabel :=
  [.start, .context 0 none (seconds 4), .enter 0 (seconds 4)] ++ sampleAttempt 2 ++ sampleAttempt 3 ++
    sampleAttempt 4 ++ [.publish 0 (seconds 4) (seconds 5)]

/-- A contradiction that telemetry has found is not in the overall verdict. -/
theorem verdicts_incoherent : ¬ ∀ s, (proofs sampleConfig 40 (sampleWorld 1)).Reachable s →
    ∀ response ∈ s.responses, response.Coherent := by
  intro h
  have hresponse : (sampleBuilds sampleUnstable).responses.any (fun response =>
      decide (response.overallVerdict = .stateChangedDuringProof ∧
        response.telemetryVerdict = .inconsistent)) = true := by
    decide +kernel
  obtain ⟨response, hmem, hverdicts⟩ := List.any_eq_true.mp hresponse
  obtain ⟨hoverall, htelemetry⟩ := of_decide_eq_true hverdicts
  have hcoherent := h _ (sampleBuilds_reachable (by decide)) response hmem
  have hdominant := hcoherent.dominant (by simp [ProofResponse.dimensions, htelemetry])
  rw [hoverall] at hdominant
  cases hdominant

end TraceFence
