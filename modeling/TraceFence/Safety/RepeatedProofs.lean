import TraceFence.Safety.FaithfulAnswers

/-!
# Repeated proofs

The query for export watermarks asks for those of the command, and every proof of the command
leaves one. Once a proof has been verified, a backend that keeps what it was sent has two for the
next proof, which expects exactly one. Only a clock that was set back can keep the other watermarks
out of the window of a later proof, and then the proofs do agree.

## Main definitions

* `Steadily` — the premises: an unchanging database, and a backend that returns all of it
* `Faithfully` — the same of the backend, and a clock that does not go back
* `Undisplaced` — the condition on the proofs after a verified one

## Main results

* `repeated_proofs` — when the proofs of a command agree with a verified one
-/

namespace TraceFence

open System

/-! ### Disciplines -/

/-- **The premises of the law**: what the database says of a command does not change, and the
backend answers with all that was emitted, as rows of the schema. -/
def Steadily (cfg : ExportSettings) (others : List Emission) (s : Exporter) : ExportLabel → Prop
  | .gather facts => ∀ build ∈ s.builds, facts.runId = build.facts.runId →
      facts.commandId = build.facts.commandId → facts = build.facts
  | .reconcile b now evidence => ∀ f own found, s.builds[b]? = some ⟨f, .read own found⟩ →
      FaithfulEvidence (verificationContext cfg f now found) (s.emissions others) evidence ∧
        ∃ rows, StrictEvidence evidence rows
  | _ => True

/-- The clock does not go back, and the backend answers with all that was emitted. -/
def Faithfully (cfg : ExportSettings) (others : List Emission) (s : Exporter) : ExportLabel → Prop
  | .propose _ _ now | .emit _ now _ => s.nowMs ≤ now
  | .reconcile b now evidence => s.nowMs ≤ now ∧ ∀ f own found,
      s.builds[b]? = some ⟨f, .read own found⟩ →
      FaithfulEvidence (verificationContext cfg f now found) (s.emissions others) evidence
  | _ => True

variable {cfg : ExportSettings} {others : List Emission} {s s' : Exporter} {l : ExportLabel}
  {b i j : ℕ} {f f' : ProofFacts} {w w' : ExportWatermark} {own found : Option ExportWatermark}
  {now now' : ℤ} {t : Exporter} {spans spans' : List WatermarkSpan} {evidence : Evidence}

/-! ### A clock that does not go back -/

/-- A build flushes after its command, its watermark has a span of that time, and without one it is
not verified. -/
structure Stamped (now : ℤ) (spans : List WatermarkSpan) (build : ProofExport) : Prop where
  proposed : ∀ t, build.stage = .proposed t → build.facts.commandStartedMs < t ∧ t ≤ now
  emitted : ∀ w, build.stage.own = some w → ∃ span ∈ spans, span.watermark = w ∧
    build.facts.commandStartedMs < span.timestampMs ∧ 0 ≤ span.timestampMs ∧
    span.timestampMs ≤ now
  read : ∀ found, build.stage = .read none found → found = none
  reconciled : ∀ found verdict, build.stage = .reconciled none found verdict → verdict ≠ .verified

theorem Stamped.mono {build : ProofExport} (h : Stamped now spans build) (hnow : now ≤ now')
    (hspans : spans ⊆ spans') : Stamped now' spans' build where
  proposed t ht := ⟨(h.proposed t ht).1, (h.proposed t ht).2.trans hnow⟩
  emitted w hw := by
    obtain ⟨span, hspan, hwatermark, hafter, hzero, hbefore⟩ := h.emitted w hw
    exact ⟨span, hspans hspan, hwatermark, hafter, hzero, hbefore.trans hnow⟩
  read := h.read
  reconciled := h.reconciled

/-- The builds of a state are stamped. -/
structure StampedInv (s : Exporter) : Prop where
  now : 0 ≤ s.nowMs
  builds : ∀ build ∈ s.builds, Stamped s.nowMs s.spans build

theorem Moves.stamped (h : Moves cfg s l s') (hI : StampedInv s) (hl : Faithfully cfg others s l) :
    StampedInv s' := by
  have hold {b : ℕ} {build : ProofExport} (hb : s.builds[b]? = some build) :
      Stamped s.nowMs s.spans build := hI.builds build (List.mem_of_getElem? hb)
  have hmove {r : Exporter} {b : ℕ} {f : ProofFacts} {stage : ExportStage}
      (hbuilds : r.builds = s.builds) (hnow : s.nowMs ≤ r.nowMs) (hspans : s.spans ⊆ r.spans)
      (hnew : Stamped r.nowMs r.spans ⟨f, stage⟩) : StampedInv (r.move b f stage) := by
    refine ⟨hI.now.trans hnow, fun build hbuild => ?_⟩
    rcases List.mem_or_eq_of_mem_set hbuild with hmem | rfl
    · exact (hI.builds build (hbuilds ▸ hmem)).mono hnow hspans
    · exact hnew
  cases h with
  | gather f =>
    refine ⟨hI.now, fun build hbuild => ?_⟩
    rcases List.mem_append.mp hbuild with hmem | hnew
    · exact hI.builds build hmem
    · obtain rfl := List.mem_singleton.mp hnew
      exact ⟨by simp, by simp [ExportStage.own], by simp, by simp⟩
  | propose at' later =>
    refine hmove rfl hl (List.Subset.refl _) ⟨fun t ht => ?_, by simp [ExportStage.own], by simp, by simp⟩
    obtain rfl := ExportStage.proposed.inj ht
    exact ⟨later, le_refl _⟩
  | refuse at' | fail at' | readNothing at' =>
    exact hmove rfl (le_refl _) (List.Subset.refl _) ⟨by simp, by simp [ExportStage.own], by simp, by simp⟩
  | @emit b now traceId f t own at' new =>
    refine hmove rfl hl (List.subset_append_left _ _) ⟨by simp, fun w hw => ?_, by simp, by simp⟩
    obtain rfl := Option.some.inj hw
    have hproposed := (hold at').proposed t rfl
    have hnow : s.nowMs ≤ now := hl
    exact ⟨_, List.mem_append_right _ (List.mem_singleton.mpr rfl), rfl,
      hproposed.1.trans_le (hproposed.2.trans hnow), hI.now.trans hnow, le_refl _⟩
  | publish at' | read at' =>
    exact hmove rfl (le_refl _) (List.Subset.refl _) ⟨by simp, (hold at').emitted, by simp, by simp⟩
  | reconcile at' =>
    refine hmove rfl hl.1 (List.Subset.refl _)
      ⟨by simp, ((hold at').mono hl.1 (List.Subset.refl _)).emitted, by simp, fun found verdict h => ?_⟩
    obtain ⟨rfl, rfl, rfl⟩ := ExportStage.reconciled.inj h
    intro hverified
    obtain ⟨watermark, -, hfound, -⟩ := (verifyCommand_verified.mp hverified).2
    rw [verificationContext, (hold at').read _ rfl] at hfound
    cases hfound

theorem stamped_inv (h : ((exports cfg).restrict (Faithfully cfg others)).Reachable s) :
    StampedInv s := by
  refine h.invariant ⟨le_refl _, fun build hbuild => ?_⟩ fun s l s' _ hI hs => ?_
  · cases hbuild
  · obtain ⟨hstep, hl⟩ := restrict_step_iff.mp hs
    rcases step_moves hstep with rfl | hmoves
    · exact hI
    · exact hmoves.stamped hI hl

/-! ### The second watermark -/

theorem emission_sequence (span : WatermarkSpan) :
    span.emission.row.get? "sequence" = some (.int span.watermark.sequence) := rfl

/-- The span of a build's watermark answers the query of every later proof of the command. -/
theorem mem_queryRows (hI : StampedInv s) {build : ProofExport} (hbuild : build ∈ s.builds)
    (hown : build.stage.own = some w) (hrun : w.runId = f.runId)
    (hcommand : w.commandId = f.commandId)
    (hstarted : build.facts.commandStartedMs = f.commandStartedMs) (hnow : s.nowMs ≤ now) :
    ∃ row ∈ queryRows (verificationContext cfg f now found) (s.emissions others)
      "tracefence.telemetry.export_watermark", row.get? "sequence" = some (.int w.sequence) := by
  obtain ⟨span, hspan, rfl, hafter, hzero, hbefore⟩ := (hI.builds build hbuild).emitted w hown
  refine ⟨span.emission.row, List.mem_map_of_mem (List.mem_filter.mpr
    ⟨List.mem_append_right _ (List.mem_map_of_mem hspan), decide_eq_true ?_⟩), emission_sequence span⟩
  refine ⟨hcommand, hrun, rfl, ?_, ?_⟩
  · change max 0 (f.commandStartedMs - 5000) ≤ span.timestampMs
    omega
  · change span.timestampMs ≤ now + 5000
    omega

/-- Verified evidence has one watermark. -/
theorem exists_watermark_row {ctx : TelemetryVerificationContext} {rows : List JsonValue}
    (h : ExactEvidence ctx evidence) (hanswers : Answers evidence.exportWatermarks rows) :
    ∃ row, rows = [row] := by
  obtain ⟨watermark, parsed, -, -, hstrict, hrows⟩ := h
  obtain ⟨results, hanswer, hperm⟩ := hanswers
  obtain ⟨row, hrow, -⟩ := hrows.export'
  have hlength := congrArg List.length (strictRows_answer (hanswer ▸ hstrict.exportWatermarks))
  rw [hrow, List.length_map, List.length_map, hperm.length_eq] at hlength
  exact List.length_eq_one_iff.mp hlength

/-- A proof that comes after another with a watermark of the command is not verified. -/
theorem not_verified_of_watermark (hI : ExporterInv s) (hT : StampedInv s)
    {stage : ExportStage} (hi : s.builds[i]? = some ⟨f, stage⟩) (hown : stage.own = some w)
    (hj : s.builds[j]? = some ⟨f', .read (some w') found⟩) (hne : i ≠ j)
    (hrun : f'.runId = f.runId) (hcommand : f'.commandId = f.commandId)
    (hstarted : f'.commandStartedMs = f.commandStartedMs) (hnow : s.nowMs ≤ now)
    (hfaithful : FaithfulEvidence (verificationContext cfg f' now found) (s.emissions others)
      evidence) :
    (verifyCommand cfg.signozApiKey cfg.firstError (verificationContext cfg f' now found)
      evidence).verdict ≠ .verified := by
  intro hverified
  obtain ⟨row, hrows⟩ :=
    exists_watermark_row (verifyCommand_verified.mp hverified).2 hfaithful.exportWatermarks
  have howni : s.own i = some w := (Exporter.own_of_builds hi).trans hown
  have hownj : s.own j = some w' := Exporter.own_of_builds hj
  -- the one row is that of either watermark
  have hsequence {k : ℕ} {fk : ProofFacts} {stage : ExportStage} {w : ExportWatermark}
      (hk : s.builds[k]? = some ⟨fk, stage⟩) (hw : stage.own = some w)
      (hrun : f'.runId = fk.runId) (hcommand : f'.commandId = fk.commandId)
      (hstarted : f'.commandStartedMs = fk.commandStartedMs) :
      row.get? "sequence" = some (.int w.sequence) := by
    obtain ⟨-, -, hwrun, hwcommand⟩ := hI.emitted k fk w (Exporter.facts_of_builds hk)
      ((Exporter.own_of_builds hk).trans hw)
    obtain ⟨row', hrow', hget⟩ := @mem_queryRows cfg others s f' w found now hT _
      (List.mem_of_getElem? hk) hw (hwrun.trans hrun.symm) (hwcommand.trans hcommand.symm)
      hstarted.symm hnow
    rw [hrows, List.mem_singleton] at hrow'
    rw [← hrow', hget]
  have heq := (hsequence hi hown hrun hcommand hstarted).symm.trans (hsequence hj rfl rfl rfl rfl)
  exact hne (hI.distinct i j w w' howni hownj (JsonValue.int.inj (Option.some.inj heq)))

/-! ### The law -/

/-- A build has reconciled. -/
def Exporter.Reconciled (s : Exporter) (b : ℕ) : Prop :=
  ∃ f own found verdict, s.builds[b]? = some ⟨f, .reconciled own found verdict⟩

/-- The proofs are of one command. -/
def ProofFacts.SameCommand (f f' : ProofFacts) : Prop :=
  f'.runId = f.runId ∧ f'.commandId = f.commandId ∧ f'.commandStartedMs = f.commandStartedMs

theorem ProofFacts.SameCommand.refl (f : ProofFacts) : f.SameCommand f := ⟨rfl, rfl, rfl⟩

/-- What a step has reconciled had read before. -/
theorem Moves.reconciles (h : Moves cfg s l s') (hold : ¬ s.Reconciled j) {verdict : ProofVerdict}
    (hj : s'.builds[j]? = some ⟨f, .reconciled own found verdict⟩) :
    ∃ now evidence, l = .reconcile j now evidence ∧ s.builds[j]? = some ⟨f, .read own found⟩ ∧
      verdict = (verifyCommand cfg.signozApiKey cfg.firstError (verificationContext cfg f now found)
        evidence).verdict := by
  have hmoved {r : Exporter} {b : ℕ} {fb : ProofFacts} {stage : ExportStage}
      (hbuilds : r.builds = s.builds)
      (hset : (r.move b fb stage).builds[j]? = some ⟨f, .reconciled own found verdict⟩) :
      j = b ∧ fb = f ∧ stage = .reconciled own found verdict := by
    rcases getElem?_set_cases hset with ⟨hb, hnew⟩ | ⟨-, hprior⟩
    · obtain ⟨hf, hstage⟩ := ProofExport.mk.inj hnew
      exact ⟨hb, hf.symm, hstage.symm⟩
    · rw [hbuilds] at hprior
      exact absurd ⟨_, _, _, _, hprior⟩ hold
  cases h with
  | gather f =>
    rcases getElem?_concat_cases hj with hnew | hprior
    · cases hnew
    · exact absurd ⟨_, _, _, _, hprior⟩ hold
  | reconcile at' =>
    obtain ⟨rfl, rfl, hstage⟩ := hmoved rfl hj
    obtain ⟨rfl, rfl, rfl⟩ := ExportStage.reconciled.inj hstage
    exact ⟨_, _, rfl, at', rfl⟩
  | propose | refuse | emit | publish | fail | read | readNothing =>
    cases (hmoved rfl hj).2.2

/-- **A step verifies no second proof of a command** while the clock does not go back. -/
theorem Moves.not_verified (h : Moves cfg s l s') (hl : Faithfully cfg others s l)
    (hI : ExporterInv s) (hT : StampedInv s) {verdict : ProofVerdict}
    (hi : s.builds[i]? = some ⟨f, .reconciled (some w) found .verified⟩) (hsame : f.SameCommand f')
    (hold : ¬ s.Reconciled j)
    (hj : s'.builds[j]? = some ⟨f', .reconciled (some w') own verdict⟩) : verdict ≠ .verified := by
  obtain ⟨now, evidence, rfl, hread, rfl⟩ := h.reconciles hold hj
  have hne : i ≠ j := by
    rintro rfl
    exact hold ⟨_, _, _, _, hi⟩
  exact not_verified_of_watermark hI hT hi rfl hread hne hsame.1 hsame.2.1 hsame.2.2 hl.1
    (hl.2 _ _ _ hread)

/-- What has been reconciled stays so. -/
theorem Moves.reconciled (h : Moves cfg s l s') {verdict : ProofVerdict}
    (hj : s.builds[j]? = some ⟨f, .reconciled own found verdict⟩) :
    s'.builds[j]? = some ⟨f, .reconciled own found verdict⟩ := by
  have hstays {r : Exporter} {b : ℕ} {fb : ProofFacts} {stage stage' : ExportStage}
      (hb : s.builds[b]? = some ⟨fb, stage⟩) (hbuilds : r.builds = s.builds)
      (hstage : stage ≠ .reconciled own found verdict) :
      (r.move b fb stage').builds[j]? = some ⟨f, .reconciled own found verdict⟩ := by
    have hne : j ≠ b := by
      rintro rfl
      exact hstage (ProofExport.mk.inj (Option.some.inj (hb.symm.trans hj))).2
    rw [Exporter.builds_move (hbuilds ▸ hb), if_neg hne, hbuilds]
    exact hj
  cases h with
  | gather f' => exact (List.getElem?_append_left (List.getElem?_eq_some_iff.mp hj).1).trans hj
  | propose at' _ | refuse at' | emit at' _ | publish at' | fail at' | read at' | readNothing at'
    | reconcile at' => exact hstays at' rfl (by simp)

/-- After a verified proof no proof of the command is verified while the clock does not go back. -/
theorem not_verified_of_faithfully
    (hr : ((exports cfg).restrict (Faithfully cfg others)).Reachable s)
    (hrun : ((exports cfg).restrict (Faithfully cfg others)).Run s s') {verdict : ProofVerdict}
    {found' : Option ExportWatermark}
    (hi : s.builds[i]? = some ⟨f, .reconciled own found .verified⟩) (hlater : ¬ s.Reconciled j)
    (hsame : f.SameCommand f')
    (hj : s'.builds[j]? = some ⟨f', .reconciled (some w') found' verdict⟩) : verdict ≠ .verified := by
  obtain ⟨w, rfl⟩ : ∃ w, own = some w := by
    refine Option.ne_none_iff_exists'.mp ?_
    rintro rfl
    exact ((stamped_inv hr).builds _ (List.mem_of_getElem? hi)).reconciled _ _ rfl rfl
  have hrun' := hrun.stable (Q := fun t =>
    t.builds[i]? = some ⟨f, .reconciled (some w) found .verified⟩ ∧
    ∀ own verdict, t.builds[j]? = some ⟨f', .reconciled (some w') own verdict⟩ →
      verdict ≠ .verified) hr ⟨hi, fun _ _ h => absurd ⟨_, _, _, _, h⟩ hlater⟩
    fun t l t' ht hQ hs => ?_
  · exact hrun'.2 found' verdict hj
  · obtain ⟨hstep, hl⟩ := restrict_step_iff.mp hs
    rcases step_moves hstep with rfl | hmoves
    · exact hQ
    refine ⟨hmoves.reconciled hQ.1, fun own verdict h => ?_⟩
    by_cases hold : t.Reconciled j
    · obtain ⟨g, own', found', verdict', hprior⟩ := hold
      obtain heq := (hmoves.reconciled hprior).symm.trans h
      exact hQ.2 own verdict (hprior.trans heq)
    · exact hmoves.not_verified hl (exporter_inv ht.of_restrict) (stamped_inv ht) hQ.1 hsame hold h

/-! ### Any clock -/

/-- What the builds have found in the database. -/
def Exporter.gathered (s : Exporter) : List ProofFacts := s.builds.map (·.facts)

theorem Exporter.mem_gathered {stage : ExportStage} (h : s.builds[b]? = some ⟨f, stage⟩) :
    f ∈ s.gathered :=
  List.mem_map.mpr ⟨_, List.mem_of_getElem? h, rfl⟩

theorem Exporter.gathered_move {stage stage' : ExportStage} (h : s.builds[b]? = some ⟨f, stage⟩) :
    (s.move b f stage').gathered = s.gathered := by
  refine List.ext_getElem? fun k => ?_
  show ((s.builds.set b ⟨f, stage'⟩).map (·.facts))[k]? = (s.builds.map (·.facts))[k]?
  rw [List.getElem?_map, List.getElem?_map]
  by_cases hk : b = k
  · subst hk
    rw [List.getElem?_set_self (List.getElem?_eq_some_iff.mp h).1, h]
    rfl
  · rw [List.getElem?_set_ne hk]

/-- **What the flushes have to do with the database**: it says one thing of a command, and each
watermark is one of a command that the flush has found to be earlier. -/
structure SteadyInv (cfg : ExportSettings) (s : Exporter) : Prop where
  facts : ∀ f ∈ s.gathered, ∀ f' ∈ s.gathered, f'.runId = f.runId → f'.commandId = f.commandId →
    f' = f
  proposed : ∀ build ∈ s.builds, ∀ t, build.stage = .proposed t → build.facts.commandStartedMs < t
  spans : ∀ span ∈ s.spans, ∃ f ∈ s.gathered, ∃ t n, f.commandStartedMs < t ∧
    span.watermark = newWatermark cfg f t n

/-- A move keeps it, unless it proposes or emits something else. -/
theorem SteadyInv.move (hI : SteadyInv cfg s) {stage stage' : ExportStage} {r : Exporter}
    (h : s.builds[b]? = some ⟨f, stage⟩) (hbuilds : r.builds = s.builds)
    (hproposed : ∀ t, stage' = .proposed t → f.commandStartedMs < t)
    (hspans : ∀ span ∈ r.spans, span ∈ s.spans ∨
      ∃ t n, f.commandStartedMs < t ∧ span.watermark = newWatermark cfg f t n) :
    SteadyInv cfg (r.move b f stage') := by
  have hgathered : (r.move b f stage').gathered = s.gathered := by
    rw [Exporter.gathered_move (hbuilds ▸ h), Exporter.gathered, hbuilds, Exporter.gathered]
  refine ⟨?_, fun build hbuild t ht => ?_, fun span hspan => ?_⟩
  · rw [hgathered]
    exact hI.facts
  · rcases List.mem_or_eq_of_mem_set hbuild with hmem | rfl
    · exact hI.proposed build (hbuilds ▸ hmem) t ht
    · exact hproposed t ht
  · rw [hgathered]
    rcases hspans span hspan with hold | hnew
    · exact hI.spans span hold
    · exact ⟨f, Exporter.mem_gathered h, hnew⟩

theorem Moves.steady (h : Moves cfg s l s') (hI : SteadyInv cfg s) (hl : Steadily cfg others s l) :
    SteadyInv cfg s' := by
  cases h with
  | gather f =>
    have hgathered : Exporter.gathered { s with builds := s.builds ++ [⟨f, .gathered⟩] } =
        s.gathered ++ [f] := List.map_append
    have hnew {g : ProofFacts} (hg : g ∈ s.gathered) (hrun : f.runId = g.runId)
        (hcommand : f.commandId = g.commandId) : f = g := by
      obtain ⟨build, hbuild, rfl⟩ := List.mem_map.mp hg
      exact hl build hbuild hrun hcommand
    refine ⟨fun g hg g' hg' hrun hcommand => ?_, fun build hbuild t ht => ?_, fun span hspan => ?_⟩
    · rw [hgathered, List.mem_append, List.mem_singleton] at hg hg'
      rcases hg with hg | rfl <;> rcases hg' with hg' | rfl
      · exact hI.facts g hg g' hg' hrun hcommand
      · exact hnew hg hrun hcommand
      · exact (hnew hg' hrun.symm hcommand.symm).symm
      · rfl
    · rcases List.mem_append.mp hbuild with hmem | hmem
      · exact hI.proposed build hmem t ht
      · obtain rfl := List.mem_singleton.mp hmem
        cases ht
    · obtain ⟨g, hg, hspan⟩ := hI.spans span hspan
      exact ⟨g, hgathered ▸ List.mem_append_left _ hg, hspan⟩
  | propose at' later =>
    refine hI.move at' rfl (fun t ht => ?_) fun span hspan => .inl hspan
    obtain rfl := ExportStage.proposed.inj ht
    exact later
  | emit at' new =>
    refine hI.move at' rfl (by simp) fun span hspan => ?_
    rcases List.mem_append.mp hspan with hold | hnew
    · exact .inl hold
    · obtain rfl := List.mem_singleton.mp hnew
      exact .inr ⟨_, _, hI.proposed _ (List.mem_of_getElem? at') _ rfl, new⟩
  | refuse at' | publish at' | fail at' | read at' | readNothing at' | reconcile at' =>
    exact hI.move at' rfl (by simp) fun span hspan => .inl hspan

/-- The exports of a process under the premises of the law. -/
def steadyExports (cfg : ExportSettings) (others : List Emission) : System Exporter ExportLabel :=
  (exports cfg).restrict (Steadily cfg others)

theorem steady_inv (h : (steadyExports cfg others).Reachable s) : SteadyInv cfg s := by
  refine h.invariant ⟨fun f hf => ?_, fun build hbuild => ?_, fun span hspan => ?_⟩
    fun s l s' _ hI hs => ?_
  · cases hf
  · cases hbuild
  · cases hspan
  · obtain ⟨hstep, hl⟩ := restrict_step_iff.mp hs
    rcases step_moves hstep with rfl | hmoves
    · exact hI
    · exact hmoves.steady hI hl

theorem gathered_subset (h : (exports cfg).Run s t) : s.gathered ⊆ t.gathered := by
  induction h with
  | refl => exact List.Subset.refl _
  | tail _ hs ih =>
    obtain ⟨l, hl⟩ := hs
    refine List.Subset.trans ih ?_
    rcases step_moves hl with rfl | hmoves
    · exact List.Subset.refl _
    cases hmoves with
    | gather f =>
      rw [Exporter.gathered, Exporter.gathered, List.map_append]
      exact List.subset_append_left _ _
    | propose at' | refuse at' | emit at' | publish at' | fail at' | read at' | readNothing at'
      | reconcile at' => exact (Exporter.gathered_move at').symm ▸ List.Subset.refl _

theorem next_reconcile (h : s.builds[b]? = some ⟨f, .read own found⟩) :
    s.next cfg (.reconcile b now evidence) = ({ s with nowMs := now } : Exporter).move b f
      (.reconciled own found (verifyCommand cfg.signozApiKey cfg.firstError
        (verificationContext cfg f now found) evidence).verdict) := by
  rw [Exporter.next, h]

theorem builds_next_reconcile (h : s.builds[b]? = some ⟨f, .read own found⟩) :
    (s.next cfg (.reconcile b now evidence)).builds[b]? =
      some ⟨f, .reconciled own found (verifyCommand cfg.signozApiKey cfg.firstError
        (verificationContext cfg f now found) evidence).verdict⟩ := by
  rw [next_reconcile h, Exporter.builds_move (s := { s with nowMs := now }) h, if_pos rfl]

/-- A build has just been verified. -/
def VerifiesAt (T : System Exporter ExportLabel) (i : ℕ) (f : ProofFacts) (now : ℤ) (s : Exporter) :
    Prop :=
  ∃ r own found evidence, T.Reachable r ∧ r.builds[i]? = some ⟨f, .read own found⟩ ∧
    T.Step r (.reconcile i now evidence) s ∧
    s.builds[i]? = some ⟨f, .reconciled own found .verified⟩

/-- The condition on a run after a verified proof: when a build of the command whose flush has
succeeded reconciles, its window holds the same of the others, and one watermark. -/
def Undisplaced (cfg : ExportSettings) (others : List Emission) (f : ProofFacts) (now : ℤ)
    (s : Exporter) : ExportLabel → Prop
  | .reconcile b now' _ => ∀ f' w found, s.builds[b]? = some ⟨f', .read (some w) found⟩ →
      f'.runId = f.runId → f'.commandId = f.commandId →
      Sole cfg others s f now' found ∧ SameOthers cfg others f now now'
  | _ => True

/-- What a build of the command reconciles to after a verified proof. -/
theorem VerifiesAt.verified_iff (hothers : ∀ e ∈ others, e.Beside cfg)
    (h : VerifiesAt (steadyExports cfg others) i f now s)
    (hrun : (steadyExports cfg others).Run s t)
    (hsame : f'.runId = f.runId ∧ f'.commandId = f.commandId)
    (hread : t.builds[j]? = some ⟨f', .read own found⟩)
    (hsteady : Steadily cfg others t (.reconcile j now' evidence)) : f' = f ∧
      ((verifyCommand cfg.signozApiKey cfg.firstError (verificationContext cfg f now' found)
        evidence).verdict = .verified ↔
        Sole cfg others t f now' found ∧ SameOthers cfg others f now now') := by
  obtain ⟨r, own₀, found₀, evidence₀, hr, hi, hstep, hverified⟩ := h
  have hI := steady_inv (((hr.step hstep).run hrun) : (steadyExports cfg others).Reachable t)
  obtain ⟨⟨-, rfl⟩, hfaithful⟩ := restrict_step_iff.mp hstep
  have hf : f ∈ t.gathered := gathered_subset hrun.of_restrict (Exporter.mem_gathered hverified)
  obtain rfl := hI.facts f hf f' (Exporter.mem_gathered hread) hsame.1 hsame.2
  have hbuild := Option.some.inj ((builds_next_reconcile hi).symm.trans hverified)
  have hverdict := (ExportStage.reconciled.inj (ProofExport.mk.inj hbuild).2).2.2
  obtain ⟨hanswers, hstrict⟩ := hsteady _ _ _ hread
  refine ⟨rfl, verified_iff hothers hverdict (hfaithful _ _ _ hi).1 hanswers hstrict
    fun span hspan hrunId hcommandId => ?_⟩
  obtain ⟨g, hg, t', n, hafter, hwatermark⟩ := hI.spans span hspan
  rw [hwatermark] at hrunId hcommandId
  obtain rfl := hI.facts f' hf g hg hrunId hcommandId
  exact ⟨t', n, hafter, hwatermark⟩

/-- Under the condition every later proof of the command is verified. -/
theorem VerifiesAt.run (hothers : ∀ e ∈ others, e.Beside cfg)
    (h : VerifiesAt (steadyExports cfg others) i f now s)
    (hrun : ((steadyExports cfg others).restrict (Undisplaced cfg others f now)).Run s t)
    (hsame : f'.runId = f.runId ∧ f'.commandId = f.commandId) (hlater : ¬ s.Reconciled j)
    {verdict : ProofVerdict} (hj : t.builds[j]? = some ⟨f', .reconciled (some w) found verdict⟩) :
    verdict = .verified := by
  have hs : (steadyExports cfg others).Reachable s := by
    obtain ⟨r, _, _, _, hr, _, hstep, _⟩ := h
    exact hr.step hstep
  refine hrun.stable_restrict (Q := fun t => ∀ found verdict,
    t.builds[j]? = some ⟨f', .reconciled (some w) found verdict⟩ → verdict = .verified) hs
    (fun found verdict hj => absurd ⟨_, _, _, _, hj⟩ hlater)
    (fun u l u' hu hru hQ hstep hl found verdict hj => ?_) found verdict hj
  obtain ⟨hstep', hsteady⟩ := restrict_step_iff.mp hstep
  rcases step_moves hstep' with rfl | hmoves
  · exact hQ found verdict hj
  by_cases hold : u.Reconciled j
  · obtain ⟨g, own', found', verdict', hprior⟩ := hold
    have heq := (hmoves.reconciled hprior).symm.trans hj
    exact hQ found verdict (hprior.trans heq)
  · obtain ⟨now', evidence, rfl, hread, rfl⟩ := hmoves.reconciles hold hj
    obtain ⟨rfl, hiff⟩ := h.verified_iff hothers hu hsame hread hsteady
    exact hiff.mpr (hl _ _ _ hread rfl rfl)

/-! ### Samples -/

def sampleCommandRow : JsonValue :=
  .dict ([("trace_id", .str "aaaaaaaaaaaaaaaaaaaaaaaaaaaaaaaa"), ("command_id", .str "command-123"),
    ("run_id", .str "run-123"), ("operation", .str "tracefence.control.command_issue"),
    ("timestamp_ms", .int 1001000)] ++ sampleIdentity)

/-- The span of the sample's command. -/
def sampleEmissions : List Emission :=
  [{ row := sampleCommandRow, commandId := "command-123", runId := "run-123",
     operation := "tracefence.control.command_issue", timestampMs := 1001000 }]

theorem sampleEmissions_beside : ∀ e ∈ sampleEmissions, e.Beside sampleExportSettings := by
  intro e he
  obtain rfl := List.mem_singleton.mp he
  exact ⟨fun _ => rfl, fun h => absurd h (by decide)⟩

/-- All that a proof of the sample's command matches, when its window holds certain watermarks. -/
def sampleAnswers (spans : List WatermarkSpan) : Evidence where
  commandTraces := answer [sampleCommandRow]
  blockedTraces := answer []
  blockedLogs := answer []
  exportWatermarks := answer (spans.map fun span => span.emission.row)
  attemptsMetric := answer []
  committedMetric := answer []

/-- The span that the first or the second flush of the sample's command emits. -/
def sampleSpan (exportedAtMs sequence : ℤ) (traceId : String) : WatermarkSpan where
  watermark := newWatermark sampleExportSettings (sampleFacts "command-123") exportedAtMs sequence
  traceId := traceId
  timestampMs := exportedAtMs

def sampleSpanFirst (now : ℤ) : WatermarkSpan :=
  sampleSpan now 1 "cccccccccccccccccccccccccccccccc"

def sampleSpanSecond (now : ℤ) : WatermarkSpan :=
  sampleSpan now 2 "dddddddddddddddddddddddddddddddd"

/-- A proof of the sample's command up to its queries. -/
def sampleBuild (build : ℕ) (now : ℤ) (traceId : String) : List ExportLabel :=
  [.gather (sampleFacts "command-123"), .propose build true now, .emit build now traceId,
    .publish build, .read build]

/-- The process when the first proof of the sample has asked. -/
def sampleAsked (now : ℤ) : Exporter :=
  (exports sampleExportSettings).replay {} (sampleBuild 0 now "cccccccccccccccccccccccccccccccc")

/-- The process when the first proof of the sample has reconciled. -/
def sampleFirst (now : ℤ) : Exporter :=
  (sampleAsked now).next sampleExportSettings
    (.reconcile 0 now (sampleAnswers [sampleSpanFirst now]))

/-- The process when the second has asked. -/
def sampleAskedAgain (now now' : ℤ) : Exporter :=
  (exports sampleExportSettings).replay (sampleFirst now)
    (sampleBuild 1 now' "dddddddddddddddddddddddddddddddd")

/-- The process when the second has reconciled. -/
def sampleSecond (now now' : ℤ) (spans : List WatermarkSpan) : Exporter :=
  (sampleAskedAgain now now').next sampleExportSettings (.reconcile 1 now' (sampleAnswers spans))

/-- A proof of the sample that has reconciled. -/
def sampleReconciled (span : WatermarkSpan) (verdict : ProofVerdict) : ProofExport where
  facts := sampleFacts "command-123"
  stage := .reconciled (some span.watermark) (some span.watermark) verdict

/-- The clock of the second proof is ten seconds on: it is inconsistent. -/
theorem sampleSecond_later : (sampleFirst 1005000).builds[0]? =
      some (sampleReconciled (sampleSpanFirst 1005000) .verified) ∧
    (sampleSecond 1005000 1015000 [sampleSpanFirst 1005000, sampleSpanSecond 1015000]).builds[1]? =
      some (sampleReconciled (sampleSpanSecond 1015000) .inconsistent) := by
  decide

/-- The clock of the second proof has been set back by fifteen seconds: it is verified. -/
theorem sampleSecond_earlier : (sampleFirst 1020000).builds[0]? =
      some (sampleReconciled (sampleSpanFirst 1020000) .verified) ∧
    (sampleSecond 1020000 1005000 [sampleSpanSecond 1005000]).builds[1]? =
      some (sampleReconciled (sampleSpanSecond 1005000) .verified) := by
  decide

theorem exists_strict {firstError : EvidenceModel → JsonValue → String}
    (h : (parseEvidence firstError evidence).toBool = true) :
    ∃ rows, StrictEvidence evidence rows := by
  cases hparse : parseEvidence firstError evidence with
  | ok rows => exact ⟨rows, parseEvidence_eq_ok.mp hparse⟩
  | error message =>
    rw [hparse] at h
    cases h

theorem sampleAnswers_faithful {ctx : TelemetryVerificationContext} {emissions : List Emission}
    {spans : List WatermarkSpan}
    (hcommands : queryRows ctx emissions ctx.commandOperation = [sampleCommandRow])
    (htraces : queryRows ctx emissions "tracefence.action.block" = [])
    (hlogs : queryRows ctx emissions "action_denied" = [])
    (hwatermarks : queryRows ctx emissions "tracefence.telemetry.export_watermark" =
      spans.map fun span => span.emission.row) :
    FaithfulEvidence ctx emissions (sampleAnswers spans) where
  commandTraces := ⟨_, rfl, .of_eq hcommands.symm⟩
  blockedTraces := ⟨_, rfl, .of_eq htraces.symm⟩
  blockedLogs := ⟨_, rfl, .of_eq hlogs.symm⟩
  exportWatermarks := ⟨_, rfl, .of_eq hwatermarks.symm⟩

/-- The first proof of the sample gets all that was emitted. -/
theorem sampleAsked_faithful (now : ℤ) (h : now = 1005000 ∨ now = 1020000) :
    Steadily sampleExportSettings sampleEmissions (sampleAsked now)
      (.reconcile 0 now (sampleAnswers [sampleSpanFirst now])) := by
  rcases h with rfl | rfl <;>
  · rintro f own found hread
    obtain ⟨rfl, -⟩ := ProofExport.mk.inj (Option.some.inj hread)
    exact ⟨sampleAnswers_faithful rfl rfl rfl rfl, @exists_strict _ (fun _ _ => "") (by decide)⟩

/-- The second gets both watermarks when the clock has gone on. -/
theorem sampleAskedAgain_later : Steadily sampleExportSettings sampleEmissions
    (sampleAskedAgain 1005000 1015000)
    (.reconcile 1 1015000 (sampleAnswers [sampleSpanFirst 1005000, sampleSpanSecond 1015000])) := by
  rintro f own found hread
  obtain ⟨rfl, -⟩ := ProofExport.mk.inj (Option.some.inj hread)
  exact ⟨sampleAnswers_faithful rfl rfl rfl rfl, @exists_strict _ (fun _ _ => "") (by decide)⟩

/-- The second gets its own when the clock was set back. -/
theorem sampleAskedAgain_earlier : Steadily sampleExportSettings sampleEmissions
    (sampleAskedAgain 1020000 1005000)
    (.reconcile 1 1005000 (sampleAnswers [sampleSpanSecond 1005000])) := by
  rintro f own found hread
  obtain ⟨rfl, -⟩ := ProofExport.mk.inj (Option.some.inj hread)
  exact ⟨sampleAnswers_faithful rfl rfl rfl rfl, @exists_strict _ (fun _ _ => "") (by decide)⟩

theorem sampleBuild_steady {s : Exporter} {b : ℕ} {now : ℤ} {traceId : String}
    (hsame : ∀ build ∈ s.builds, sampleFacts "command-123" = build.facts) :
    (steadyExports sampleExportSettings sampleEmissions).Enabled s (sampleBuild b now traceId) := by
  simp only [sampleBuild, Enabled, steadyExports, restrict, exports, Steadily, true_and, and_true]
  exact fun build hbuild _ _ => hsame build hbuild

/-- The first proof of the sample is verified. -/
theorem sampleFirst_verifies (now : ℤ) (h : now = 1005000 ∨ now = 1020000) :
    VerifiesAt (steadyExports sampleExportSettings sampleEmissions) 0 (sampleFacts "command-123")
      now (sampleFirst now) := by
  refine ⟨sampleAsked now, some (sampleSpanFirst now).watermark,
    some (sampleSpanFirst now).watermark, _,
    reachable_replay (sampleBuild_steady (by simp [steadyExports, restrict, exports])), ?_,
    ⟨⟨trivial, sampleAsked_faithful now h⟩, rfl⟩, ?_⟩
  · rcases h with rfl | rfl <;> rfl
  · rcases h with rfl | rfl
    · exact sampleSecond_later.1
    · exact sampleSecond_earlier.1

theorem sampleAskedAgain_run (now now' : ℤ) (h : now = 1005000 ∨ now = 1020000) :
    (steadyExports sampleExportSettings sampleEmissions).Run (sampleFirst now)
      (sampleAskedAgain now now') := by
  refine run_replay (sampleBuild_steady ?_)
  rcases h with rfl | rfl <;> decide

/-- The window of the second holds the command's span and its own watermark. -/
theorem sampleAskedAgain_sole : Sole sampleExportSettings sampleEmissions
    (sampleAskedAgain 1020000 1005000) (sampleFacts "command-123") 1005000
    (some (sampleSpanSecond 1005000).watermark) := by
  refine ⟨sampleSpanSecond 1005000, by decide, rfl, by decide, rfl, fun operation _ e he _ => ?_⟩
  obtain rfl := List.mem_singleton.mp he
  simp [sampleCommandRow, sampleSpanSecond, sampleSpan]

theorem sampleAskedAgain_undisplaced :
    ((steadyExports sampleExportSettings sampleEmissions).restrict
      (Undisplaced sampleExportSettings sampleEmissions (sampleFacts "command-123") 1020000)).Run
      (sampleFirst 1020000) (sampleSecond 1020000 1005000 [sampleSpanSecond 1005000]) := by
  have hbuild : ((steadyExports sampleExportSettings sampleEmissions).restrict
      (Undisplaced sampleExportSettings sampleEmissions (sampleFacts "command-123") 1020000)).Run
        (sampleFirst 1020000) (sampleAskedAgain 1020000 1005000) := by
    refine run_replay ?_
    simp only [sampleBuild, Enabled, steadyExports, restrict, exports, Steadily, Undisplaced,
      true_and, and_true]
    decide
  have hreconcile : Undisplaced sampleExportSettings sampleEmissions (sampleFacts "command-123")
      1020000 (sampleAskedAgain 1020000 1005000)
      (.reconcile 1 1005000 (sampleAnswers [sampleSpanSecond 1005000])) := by
    rintro f w found hread - -
    obtain ⟨rfl, hstage⟩ := ProofExport.mk.inj (Option.some.inj hread)
    obtain ⟨-, rfl⟩ := ExportStage.read.inj hstage
    refine ⟨sampleAskedAgain_sole, fun operation _ e he => ?_⟩
    obtain rfl := List.mem_singleton.mp he
    simp [Matches, InWindow, verificationContext, sampleFacts]
  exact hbuild.tail ⟨⟨⟨trivial, sampleAskedAgain_earlier⟩, hreconcile⟩, rfl⟩

/-- The first sample under a clock that does not go back. -/
theorem sampleFirst_forward :
    ((exports sampleExportSettings).restrict
      (Faithfully sampleExportSettings sampleEmissions)).Reachable (sampleFirst 1005000) := by
  have hbuild : ((exports sampleExportSettings).restrict
      (Faithfully sampleExportSettings sampleEmissions)).Reachable (sampleAsked 1005000) := by
    refine reachable_replay ?_
    simp only [sampleBuild, Enabled, restrict, exports, Faithfully, true_and, and_true]
    decide
  have hreconcile : Faithfully sampleExportSettings sampleEmissions (sampleAsked 1005000)
      (.reconcile 0 1005000 (sampleAnswers [sampleSpanFirst 1005000])) :=
    ⟨by decide, fun f own found hread =>
      (sampleAsked_faithful 1005000 (.inl rfl) f own found hread).1⟩
  exact hbuild.step ⟨⟨trivial, hreconcile⟩, rfl⟩

theorem sampleSecond_forward :
    ((exports sampleExportSettings).restrict (Faithfully sampleExportSettings sampleEmissions)).Run
      (sampleFirst 1005000)
      (sampleSecond 1005000 1015000 [sampleSpanFirst 1005000, sampleSpanSecond 1015000]) := by
  have hbuild : ((exports sampleExportSettings).restrict
      (Faithfully sampleExportSettings sampleEmissions)).Run (sampleFirst 1005000)
        (sampleAskedAgain 1005000 1015000) := by
    refine run_replay ?_
    simp only [sampleBuild, Enabled, restrict, exports, Faithfully, true_and, and_true]
    decide
  have hreconcile : Faithfully sampleExportSettings sampleEmissions
      (sampleAskedAgain 1005000 1015000)
      (.reconcile 1 1015000 (sampleAnswers [sampleSpanFirst 1005000, sampleSpanSecond 1015000])) :=
    ⟨by decide, fun f own found hread => (sampleAskedAgain_later f own found hread).1⟩
  exact hbuild.tail ⟨⟨trivial, hreconcile⟩, rfl⟩

theorem sampleFirst_unreconciled (now : ℤ) (h : now = 1005000 ∨ now = 1020000) :
    ¬ (sampleFirst now).Reconciled 1 := by
  rintro ⟨f, own, found, verdict, hsecond⟩
  rcases h with rfl | rfl <;> cases hsecond

/-- **Repeated proofs of a command.** The database does not change, and the backend returns all that
the program has emitted. After a verified proof a later one is verified exactly when its window
holds the same of the command's other spans and logs, and of the watermark spans only that of the
watermark it has read; so the proofs that meet this are all verified. While the clock does not go
back none does: a later proof whose flush has succeeded is never verified. -/
theorem repeated_proofs (cfg : ExportSettings) (others : List Emission)
    (hothers : ∀ e ∈ others, e.Beside cfg) :
    (∀ (i : ℕ) (f : ProofFacts) (now : ℤ) (s : Exporter),
      VerifiesAt (steadyExports cfg others) i f now s →
      (∀ (t t' : Exporter) (j : ℕ) (f' : ProofFacts) (own found : Option ExportWatermark) (now' : ℤ)
        (evidence : Evidence) (verdict : ProofVerdict), (steadyExports cfg others).Run s t →
        f'.runId = f.runId ∧ f'.commandId = f.commandId →
        t.builds[j]? = some ⟨f', .read own found⟩ →
        (steadyExports cfg others).Step t (.reconcile j now' evidence) t' →
        t'.builds[j]? = some ⟨f', .reconciled own found verdict⟩ →
        (verdict = .verified ↔
          Sole cfg others t f now' found ∧ SameOthers cfg others f now now')) ∧
      ∀ (t : Exporter) (j : ℕ) (f' : ProofFacts) (w : ExportWatermark)
        (found : Option ExportWatermark) (verdict : ProofVerdict),
        ((steadyExports cfg others).restrict (Undisplaced cfg others f now)).Run s t →
        f'.runId = f.runId ∧ f'.commandId = f.commandId → ¬ s.Reconciled j →
        t.builds[j]? = some ⟨f', .reconciled (some w) found verdict⟩ → verdict = .verified) ∧
    ∀ (s s' : Exporter) (i j : ℕ) (f f' : ProofFacts) (own found found' : Option ExportWatermark)
      (w : ExportWatermark) (verdict : ProofVerdict),
      ((exports cfg).restrict (Faithfully cfg others)).Reachable s →
      ((exports cfg).restrict (Faithfully cfg others)).Run s s' →
      s.builds[i]? = some ⟨f, .reconciled own found .verified⟩ → ¬ s.Reconciled j →
      f.SameCommand f' → s'.builds[j]? = some ⟨f', .reconciled (some w) found' verdict⟩ →
      verdict ≠ .verified := by
  refine ⟨fun i f now s hverifies => ⟨?_, ?_⟩, ?_⟩
  · intro t t' j f' own found now' evidence verdict hrun hsame hread hstep hj
    obtain ⟨⟨-, hsteady⟩, rfl⟩ := hstep
    have hbuild := Option.some.inj ((builds_next_reconcile hread).symm.trans hj)
    obtain rfl := (ExportStage.reconciled.inj (ProofExport.mk.inj hbuild).2).2.2
    obtain ⟨rfl, hiff⟩ := hverifies.verified_iff hothers hrun hsame hread hsteady
    exact hiff
  · intro t j f' w found verdict hrun hsame hlater hj
    exact hverifies.run hothers hrun hsame hlater hj
  · intro s s' i j f f' own found found' w verdict hr hrun hi hlater hsame hj
    exact not_verified_of_faithfully hr hrun hi hlater hsame hj

/-- The second proof of the sample: when the clock has gone on its window does not hold one
watermark only, and it is not verified; when the clock was set back it is. -/
theorem repeated_proofs_sample :
    ¬ (Sole sampleExportSettings sampleEmissions (sampleAskedAgain 1005000 1015000)
        (sampleFacts "command-123") 1015000 (some (sampleSpanSecond 1015000).watermark) ∧
      SameOthers sampleExportSettings sampleEmissions (sampleFacts "command-123") 1005000 1015000) ∧
    (∀ verdict, (sampleSecond 1020000 1005000 [sampleSpanSecond 1005000]).builds[1]? =
      some (sampleReconciled (sampleSpanSecond 1005000) verdict) → verdict = .verified) ∧
    ∀ verdict, (sampleSecond 1005000 1015000 [sampleSpanFirst 1005000,
      sampleSpanSecond 1015000]).builds[1]? =
        some (sampleReconciled (sampleSpanSecond 1015000) verdict) → verdict ≠ .verified := by
  refine ⟨fun hcondition => ?_, fun verdict h => ?_, fun verdict h => ?_⟩
  · have hverified := (((repeated_proofs sampleExportSettings sampleEmissions
      sampleEmissions_beside).1 0 _ 1005000 _ (sampleFirst_verifies _ (.inl rfl))).1
        (sampleAskedAgain 1005000 1015000) _ 1 (sampleFacts "command-123")
        (some (sampleSpanSecond 1015000).watermark) (some (sampleSpanSecond 1015000).watermark)
        1015000 _ .inconsistent (sampleAskedAgain_run _ _ (.inl rfl)) ⟨rfl, rfl⟩ rfl
        ⟨⟨trivial, sampleAskedAgain_later⟩, rfl⟩ sampleSecond_later.2).mpr hcondition
    cases hverified
  · exact ((repeated_proofs sampleExportSettings sampleEmissions sampleEmissions_beside).1 0 _
      1020000 _ (sampleFirst_verifies _ (.inr rfl))).2 _ 1 _ _ _ verdict
      sampleAskedAgain_undisplaced
      ⟨rfl, rfl⟩ (sampleFirst_unreconciled _ (.inr rfl)) h
  · exact (repeated_proofs sampleExportSettings sampleEmissions sampleEmissions_beside).2 _ _ 0 1
      _ _ _ _ _ _ verdict sampleFirst_forward sampleSecond_forward sampleSecond_later.1
      (sampleFirst_unreconciled _ (.inl rfl)) (.refl _) h

/-- The second proof of the sample is inconsistent, not verified as the first. -/
theorem repeated_proofs_differ : ¬ ∀ (i : ℕ) (f : ProofFacts) (now : ℤ) (s : Exporter),
    VerifiesAt (steadyExports sampleExportSettings sampleEmissions) i f now s →
    ∀ (t : Exporter) (j : ℕ) (w : ExportWatermark) (found : Option ExportWatermark)
      (verdict : ProofVerdict), (steadyExports sampleExportSettings sampleEmissions).Run s t →
      ¬ s.Reconciled j → t.builds[j]? = some ⟨f, .reconciled (some w) found verdict⟩ →
      verdict = .verified := by
  intro hclaim
  have hverified := hclaim 0 _ 1005000 _ (sampleFirst_verifies _ (.inl rfl)) _ 1 _ _ _
    ((sampleAskedAgain_run _ 1015000 (.inl rfl)).tail ⟨⟨trivial, sampleAskedAgain_later⟩, rfl⟩)
    (sampleFirst_unreconciled _ (.inl rfl)) sampleSecond_later.2
  cases hverified

end TraceFence
