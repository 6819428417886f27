import Mathlib.Data.List.Basic
import TraceFence.Telemetry.Setup

/-!
# Watermarks of concurrent proofs

The process has one variable for the last export watermark. A build whose flush has succeeded finds
its own watermark in it exactly when it was the last to publish, and otherwise finds none.

## Main definitions

* `Moves` — what a step of a build does
* `ReadsLast` — the steps in which nobody reads after another build has published

## Main results

* `exporter_inv` — what the watermarks of the builds have to do with each other
* `export_watermarks` — when a build reconciles against its own watermark
-/

namespace TraceFence

open System

variable {cfg : ExportSettings} {s s' : Exporter} {l : ExportLabel} {b b' : ℕ} {f : ProofFacts}
  {stage stage' : ExportStage} {w : ExportWatermark} {found : Option ExportWatermark}

/-! ### Steps -/

/-- **What a step does** when it does anything. -/
inductive Moves (cfg : ExportSettings) (s : Exporter) : ExportLabel → Exporter → Prop
  | gather (facts : ProofFacts) :
      Moves cfg s (.gather facts) { s with builds := s.builds ++ [⟨facts, .gathered⟩] }
  | propose {b : ℕ} {ready : Bool} {now : ℤ} {facts : ProofFacts}
      (at' : s.builds[b]? = some ⟨facts, .gathered⟩) (later : facts.commandStartedMs < now) :
      Moves cfg s (.propose b ready now) ({ s with nowMs := now }.move b facts (.proposed now))
  | refuse {b : ℕ} {ready : Bool} {now : ℤ} {facts : ProofFacts}
      (at' : s.builds[b]? = some ⟨facts, .gathered⟩) :
      Moves cfg s (.propose b ready now) (s.move b facts .unflushed)
  | emit {b : ℕ} {now : ℤ} {traceId : String} {facts : ProofFacts} {proposedAtMs : ℤ}
      {own : ExportWatermark} (at' : s.builds[b]? = some ⟨facts, .proposed proposedAtMs⟩)
      (new : own = newWatermark cfg facts proposedAtMs (s.exportSequence + 1)) :
      Moves cfg s (.emit b now traceId) ({ s with
        nowMs := now
        exportSequence := s.exportSequence + 1
        spans := s.spans ++ [WatermarkSpan.mk own traceId now] }.move b facts (.emitted own))
  | publish {b : ℕ} {facts : ProofFacts} {own : ExportWatermark}
      (at' : s.builds[b]? = some ⟨facts, .emitted own⟩) :
      Moves cfg s (.publish b) ({ s with
        lastExportWatermark := some own
        publishers := s.publishers ++ [b] }.move b facts (.published own))
  | fail {b : ℕ} {facts : ProofFacts} {own : ExportWatermark}
      (at' : s.builds[b]? = some ⟨facts, .emitted own⟩) :
      Moves cfg s (.fail b) (s.move b facts .unflushed)
  | read {b : ℕ} {facts : ProofFacts} {own : ExportWatermark}
      (at' : s.builds[b]? = some ⟨facts, .published own⟩) :
      Moves cfg s (.read b) (s.move b facts (.read (some own)
        (telemetryExportContext s.lastExportWatermark facts.runId facts.commandId)))
  | readNothing {b : ℕ} {facts : ProofFacts} (at' : s.builds[b]? = some ⟨facts, .unflushed⟩) :
      Moves cfg s (.read b) (s.move b facts (.read none none))
  | reconcile {b : ℕ} {now : ℤ} {evidence : Evidence} {facts : ProofFacts}
      {own found : Option ExportWatermark} (at' : s.builds[b]? = some ⟨facts, .read own found⟩) :
      Moves cfg s (.reconcile b now evidence) ({ s with nowMs := now }.move b facts
        (.reconciled own found (verifyCommand cfg.signozApiKey cfg.firstError
          (verificationContext cfg facts now found) evidence).verdict))

theorem next_moves (s : Exporter) (l : ExportLabel) :
    s.next cfg l = s ∨ Moves cfg s l (s.next cfg l) := by
  cases l with
  | gather facts => exact .inr (.gather facts)
  | propose b ready now =>
    unfold Exporter.next
    dsimp only
    split
    · next facts h =>
      split
      · next hlater => exact .inr (.propose h hlater.2)
      · exact .inr (.refuse h)
    · exact .inl rfl
  | emit b now traceId =>
    unfold Exporter.next
    dsimp only
    split
    · next facts proposedAtMs h => exact .inr (.emit h rfl)
    · exact .inl rfl
  | publish b =>
    unfold Exporter.next
    dsimp only
    split
    · next facts own h => exact .inr (.publish h)
    · exact .inl rfl
  | fail b =>
    unfold Exporter.next
    dsimp only
    split
    · next facts own h => exact .inr (.fail h)
    · exact .inl rfl
  | read b =>
    unfold Exporter.next
    dsimp only
    split
    · next facts own h => exact .inr (.read h)
    · next facts h => exact .inr (.readNothing h)
    · exact .inl rfl
  | reconcile b now evidence =>
    unfold Exporter.next
    dsimp only
    split
    · next facts own found h => exact .inr (.reconcile h)
    · exact .inl rfl

theorem step_moves (h : (exports cfg).Step s l s') : s' = s ∨ Moves cfg s l s' := by
  obtain ⟨-, rfl⟩ := h
  exact next_moves s l

/-! ### The watermarks of the builds -/

/-- The watermark that the flush of a build has emitted. -/
def ExportStage.own : ExportStage → Option ExportWatermark
  | .emitted own | .published own => some own
  | .read own _ | .reconciled own _ _ => own
  | .gathered | .proposed _ | .unflushed => none

/-- The watermark that the flush of a build has published. -/
def ExportStage.flushed : ExportStage → Option ExportWatermark
  | .published own => some own
  | .read own _ | .reconciled own _ _ => own
  | .gathered | .proposed _ | .emitted _ | .unflushed => none

namespace Exporter

def own (s : Exporter) (b : ℕ) : Option ExportWatermark := (s.builds[b]?).bind (·.stage.own)

def flushed (s : Exporter) (b : ℕ) : Option ExportWatermark := (s.builds[b]?).bind (·.stage.flushed)

def facts (s : Exporter) (b : ℕ) : Option ProofFacts := (s.builds[b]?).map (·.facts)

theorem builds_move (h : s.builds[b]? = some ⟨f, stage⟩) : (s.move b f stage').builds[b']? =
    if b' = b then some ⟨f, stage'⟩ else s.builds[b']? := by
  have hlt : b < s.builds.length := (List.getElem?_eq_some_iff.mp h).1
  rw [move, List.getElem?_set]
  by_cases heq : b = b'
  · rw [if_pos heq, if_pos heq.symm, if_pos hlt]
  · rw [if_neg heq, if_neg (Ne.symm heq)]

theorem own_move (h : s.builds[b]? = some ⟨f, stage⟩) :
    (s.move b f stage').own b' = if b' = b then stage'.own else s.own b' := by
  rw [own, builds_move h]
  split <;> rfl

theorem flushed_move (h : s.builds[b]? = some ⟨f, stage⟩) :
    (s.move b f stage').flushed b' = if b' = b then stage'.flushed else s.flushed b' := by
  rw [flushed, builds_move h]
  split <;> rfl

theorem facts_move (h : s.builds[b]? = some ⟨f, stage⟩) :
    (s.move b f stage').facts b' = s.facts b' := by
  rw [facts, builds_move h]
  split
  · next heq =>
    rw [facts, heq, h]
    rfl
  · rfl

theorem own_congr (h : s'.builds = s.builds) : s'.own b = s.own b := by
  rw [own, own, h]

theorem flushed_congr (h : s'.builds = s.builds) : s'.flushed b = s.flushed b := by
  rw [flushed, flushed, h]

theorem facts_congr (h : s'.builds = s.builds) : s'.facts b = s.facts b := by
  rw [facts, facts, h]

theorem own_of_builds (h : s.builds[b]? = some ⟨f, stage⟩) : s.own b = stage.own := by
  rw [own, h]
  rfl

theorem flushed_of_builds (h : s.builds[b]? = some ⟨f, stage⟩) : s.flushed b = stage.flushed := by
  rw [flushed, h]
  rfl

theorem facts_of_builds (h : s.builds[b]? = some ⟨f, stage⟩) : s.facts b = some f := by
  rw [facts, h]
  rfl

end Exporter

open Exporter

/-- **What the watermarks of the builds have to do with each other.** -/
structure ExporterInv (s : Exporter) : Prop where
  /-- A build's watermark has a span, and is about the build's command. -/
  emitted : ∀ b f w, s.facts b = some f → s.own b = some w →
    w ∈ s.spans.map (·.watermark) ∧ w.sequence ≤ s.exportSequence ∧
      w.runId = f.runId ∧ w.commandId = f.commandId
  /-- No two builds have watermarks with one number. -/
  distinct : ∀ b b' w w', s.own b = some w → s.own b' = some w' → w.sequence = w'.sequence → b = b'
  /-- The variable of the process has the watermark of the last to publish. -/
  last : s.lastExportWatermark = s.publishers.getLast?.bind s.flushed

theorem exists_facts {b : ℕ} (h : s.own b = some w) : ∃ f stage, s.builds[b]? = some ⟨f, stage⟩ ∧
    s.facts b = some f ∧ stage.own = some w := by
  obtain ⟨⟨f, stage⟩, hbuild, hown⟩ := Option.bind_eq_some_iff.mp h
  exact ⟨f, stage, hbuild, facts_of_builds hbuild, hown⟩

/-- What publishes and emits nothing keeps the invariant. -/
theorem ExporterInv.keep (hI : ExporterInv s)
    (hown : ∀ b w, s'.own b = some w → s.own b = some w ∧ s'.facts b = s.facts b)
    (hflushed : s'.flushed = s.flushed) (hspans : s'.spans = s.spans)
    (hsequence : s'.exportSequence = s.exportSequence)
    (hlast : s'.lastExportWatermark = s.lastExportWatermark)
    (hpublishers : s'.publishers = s.publishers) : ExporterInv s' where
  emitted b f w hf hw := by
    obtain ⟨hw', hf'⟩ := hown b w hw
    rw [hspans, hsequence]
    exact hI.emitted b f w (hf' ▸ hf) hw'
  distinct b b' w w' hw hw' heq := hI.distinct b b' w w' (hown b w hw).1 (hown b' w' hw').1 heq
  last := by rw [hlast, hpublishers, hflushed, hI.last]

theorem ExporterInv.move (hI : ExporterInv s) (h : s.builds[b]? = some ⟨f, stage⟩)
    (hown : stage'.own = none ∨ stage'.own = stage.own) (hflushed : stage'.flushed = stage.flushed) :
    ExporterInv (s.move b f stage') := by
  refine hI.keep (fun b' w hw => ⟨?_, facts_move h⟩) ?_ rfl rfl rfl rfl
  · rw [own_move h] at hw
    split at hw
    · next heq =>
      rw [heq, own_of_builds h]
      rcases hown with hnone | hsame
      · rw [hnone] at hw
        cases hw
      · rw [← hsame, hw]
    · exact hw
  · funext b'
    rw [flushed_move h]
    split
    · next heq => rw [heq, flushed_of_builds h, hflushed]
    · rfl

theorem builds_gather : ({ s with builds := s.builds ++ [⟨f, .gathered⟩] } : Exporter).builds[b]? =
    if b = s.builds.length then some ⟨f, .gathered⟩ else s.builds[b]? := by
  rw [List.getElem?_append]
  by_cases hlt : b < s.builds.length
  · rw [if_pos hlt, if_neg (by omega)]
  · rw [if_neg hlt]
    by_cases heq : b = s.builds.length
    · rw [if_pos heq, heq, Nat.sub_self]
      rfl
    · rw [if_neg heq, List.getElem?_eq_none (by simp; omega), List.getElem?_eq_none (by omega)]

theorem not_built : s.builds[s.builds.length]? = none :=
  List.getElem?_eq_none (Nat.le_refl _)

theorem ExporterInv.gather (hI : ExporterInv s) (f : ProofFacts) :
    ExporterInv { s with builds := s.builds ++ [⟨f, .gathered⟩] } := by
  refine hI.keep (fun b w hw => ?_) (funext fun b => ?_) rfl rfl rfl rfl
  · rw [own, builds_gather] at hw
    rw [facts, builds_gather]
    split at hw
    · cases hw
    · next hne =>
      rw [if_neg hne]
      exact ⟨hw, rfl⟩
  · rw [flushed, builds_gather]
    split
    · next heq =>
      rw [flushed, heq, not_built]
      rfl
    · rfl

/-- A flush takes a number that no build has. -/
theorem ExporterInv.emit (hI : ExporterInv s) {t : ℤ} (h : s.builds[b]? = some ⟨f, .proposed t⟩)
    (hw : w = newWatermark cfg f t (s.exportSequence + 1)) (hbuilds : s'.builds = s.builds)
    (hsequence : s'.exportSequence = s.exportSequence + 1)
    (hspans : s'.spans.map (·.watermark) = s.spans.map (·.watermark) ++ [w])
    (hlast : s'.lastExportWatermark = s.lastExportWatermark)
    (hpublishers : s'.publishers = s.publishers) : ExporterInv (s'.move b f (.emitted w)) := by
  have hnew : w.sequence = s.exportSequence + 1 := by
    rw [hw]
    rfl
  have hbound (b' : ℕ) (w' : ExportWatermark) (hw' : s.own b' = some w') :
      w'.sequence ≤ s.exportSequence := by
    obtain ⟨f', -, -, hf', -⟩ := exists_facts hw'
    exact (hI.emitted b' f' w' hf' hw').2.1
  have h' : s'.builds[b]? = some ⟨f, .proposed t⟩ := hbuilds ▸ h
  have hown (b' : ℕ) : (s'.move b f (.emitted w)).own b' = if b' = b then some w else s.own b' := by
    rw [own_move h', own_congr hbuilds]
    rfl
  refine ⟨fun b' f' w' hf' hw' => ?_, fun b₁ b₂ w₁ w₂ h₁ h₂ heq => ?_, ?_⟩
  · rw [facts_move h', facts_congr hbuilds] at hf'
    rw [hown] at hw'
    change w' ∈ s'.spans.map (·.watermark) ∧ w'.sequence ≤ s'.exportSequence ∧ _
    rw [hspans, hsequence, List.mem_append]
    split at hw'
    · next hb =>
      obtain rfl : w = w' := Option.some.inj hw'
      obtain rfl : f = f' := Option.some.inj ((facts_of_builds h).symm.trans (hb ▸ hf'))
      refine ⟨.inr (List.mem_singleton.mpr rfl), hnew.le, ?_, ?_⟩ <;>
      · rw [hw]
        rfl
    · have hold := hI.emitted b' f' w' hf' hw'
      exact ⟨.inl hold.1, by omega, hold.2.2⟩
  · rw [hown] at h₁ h₂
    split at h₁ <;> split at h₂
    · next hb₁ hb₂ => exact hb₁.trans hb₂.symm
    · obtain rfl : w = w₁ := Option.some.inj h₁
      have := hbound b₂ w₂ h₂
      omega
    · obtain rfl : w = w₂ := Option.some.inj h₂
      have := hbound b₁ w₁ h₁
      omega
    · exact hI.distinct b₁ b₂ w₁ w₂ h₁ h₂ heq
  · have hflushed : (s'.move b f (.emitted w)).flushed = s.flushed := by
      funext b'
      rw [flushed_move h', flushed_congr hbuilds]
      split
      · next hb =>
        rw [hb, flushed_of_builds h]
        rfl
      · rfl
    rw [hflushed]
    exact (hlast.trans hI.last).trans (by rw [← hpublishers]; rfl)

/-- Who has published is the last to have done so. -/
theorem ExporterInv.publish (hI : ExporterInv s) (h : s.builds[b]? = some ⟨f, .emitted w⟩)
    (hbuilds : s'.builds = s.builds) (hsequence : s'.exportSequence = s.exportSequence)
    (hspans : s'.spans = s.spans) (hlast : s'.lastExportWatermark = some w)
    (hpublishers : s'.publishers = s.publishers ++ [b]) :
    ExporterInv (s'.move b f (.published w)) := by
  have h' : s'.builds[b]? = some ⟨f, .emitted w⟩ := hbuilds ▸ h
  have hown (b' : ℕ) : (s'.move b f (.published w)).own b' = s.own b' := by
    rw [own_move h', own_congr hbuilds]
    split
    · next hb =>
      rw [hb, own_of_builds h]
      rfl
    · rfl
  refine ⟨fun b' f' w' hf' hw' => ?_, fun b₁ b₂ w₁ w₂ h₁ h₂ heq => ?_, ?_⟩
  · rw [facts_move h', facts_congr hbuilds] at hf'
    rw [hown] at hw'
    change w' ∈ s'.spans.map (·.watermark) ∧ w'.sequence ≤ s'.exportSequence ∧ _
    rw [hspans, hsequence]
    exact hI.emitted b' f' w' hf' hw'
  · rw [hown] at h₁ h₂
    exact hI.distinct b₁ b₂ w₁ w₂ h₁ h₂ heq
  · change s'.lastExportWatermark = s'.publishers.getLast?.bind _
    rw [hlast, hpublishers, List.getLast?_concat, Option.bind_some, flushed_move h', if_pos rfl]
    rfl

theorem Moves.inv (h : Moves cfg s l s') (hI : ExporterInv s) : ExporterInv s' := by
  have htime (now : ℤ) : ExporterInv { s with nowMs := now } := ⟨hI.emitted, hI.distinct, hI.last⟩
  cases h with
  | gather f => exact hI.gather f
  | propose at' _ => exact (htime _).move at' (.inl rfl) rfl
  | refuse at' => exact hI.move at' (.inl rfl) rfl
  | emit at' new => exact hI.emit at' new rfl rfl (List.map_append ..) rfl rfl
  | publish at' => exact hI.publish at' rfl rfl rfl rfl rfl
  | fail at' => exact hI.move at' (.inl rfl) rfl
  | read at' => exact hI.move at' (.inr rfl) rfl
  | readNothing at' => exact hI.move at' (.inl rfl) rfl
  | reconcile at' => exact (htime _).move at' (.inr rfl) rfl

/-- The invariant is one of the process. -/
theorem exporter_inv (h : (exports cfg).Reachable s) : ExporterInv s := by
  refine h.invariant ⟨fun b f w _ hw => ?_, fun b b' w w' hw => ?_, rfl⟩ fun s l s' _ hI hs => ?_
  · cases hw
  · cases hw
  · rcases step_moves hs with rfl | hmoves
    · exact hI
    · exact hmoves.inv hI

/-! ### What a build reconciles against -/

/-- The watermark a build's own flush has published and the one the build reconciles against. -/
def ExportStage.against : ExportStage → Option (Option ExportWatermark × Option ExportWatermark)
  | .read own found | .reconciled own found _ => some (own, found)
  | _ => none

/-- The same of the build with a number. -/
def Exporter.against (s : Exporter) (b : ℕ) :
    Option (Option ExportWatermark × Option ExportWatermark) :=
  (s.builds[b]?).bind (·.stage.against)

theorem against_cases {p : Option ExportWatermark × Option ExportWatermark}
    (h : s.builds[b]? = some ⟨f, stage⟩) (hp : (s'.move b f stage').against b' = some p)
    (hbuilds : s'.builds = s.builds) : (b' = b ∧ stage'.against = some p) ∨ s.against b' = some p := by
  rw [Exporter.against, builds_move (hbuilds ▸ h)] at hp
  split at hp
  · next hb => exact .inl ⟨hb, hp⟩
  · rw [hbuilds] at hp
    exact .inr hp

/-- The condition: a build whose flush has published reads while it is the last to have done so. -/
def ReadsLast (s : Exporter) : ExportLabel → Prop
  | .read b => ∀ f own, s.builds[b]? = some ⟨f, .published own⟩ → s.publishers.getLast? = some b
  | _ => True

theorem own_of_flushed (h : s.flushed b = some w) : s.own b = some w := by
  obtain ⟨⟨f, stage⟩, hbuild, hstage⟩ := Option.bind_eq_some_iff.mp h
  rw [own_of_builds hbuild]
  cases stage with
  | published own => exact hstage
  | read own found => exact hstage
  | reconciled own found verdict => exact hstage
  | _ => cases hstage

/-- A build finds its own watermark exactly when it was the last to publish. -/
theorem ExporterInv.context_eq_iff (hI : ExporterInv s)
    (h : s.builds[b]? = some ⟨f, .published w⟩) :
    telemetryExportContext s.lastExportWatermark f.runId f.commandId = some w ↔
      s.publishers.getLast? = some b := by
  have hown : s.own b = some w := own_of_builds h
  rw [telemetryExportContext, Option.filter_eq_some_iff, hI.last]
  constructor
  · rintro ⟨hlast, -⟩
    obtain ⟨b', hb', hflushed⟩ := Option.bind_eq_some_iff.mp hlast
    rw [hb', hI.distinct b' b w w (own_of_flushed hflushed) hown rfl]
  · intro hlast
    obtain ⟨-, -, hrun, hcommand⟩ := hI.emitted b f w (facts_of_builds h) hown
    rw [hlast]
    exact ⟨flushed_of_builds h, decide_eq_true ⟨hrun, hcommand⟩⟩

theorem next_read (h : s.builds[b]? = some ⟨f, .published w⟩) :
    s.next cfg (.read b) = s.move b f (.read (some w)
      (telemetryExportContext s.lastExportWatermark f.runId f.commandId)) := by
  rw [Exporter.next, h]

/-- A step under the condition makes no build reconcile against anything but its own watermark. -/
theorem Moves.against (h : Moves cfg s l s') (hI : ExporterInv s) (hlast : ReadsLast s l)
    (hold : ∀ b own found, s.against b = some (some own, found) → found = some own) (b : ℕ)
    (own : ExportWatermark) (found : Option ExportWatermark)
    (hnew : s'.against b = some (some own, found)) : found = some own := by
  cases h with
  | gather facts =>
    rw [Exporter.against, builds_gather] at hnew
    split at hnew
    · cases hnew
    · exact hold b own found hnew
  | propose at' _ | refuse at' | emit at' _ | publish at' | fail at' | readNothing at' =>
    rcases against_cases at' hnew rfl with ⟨-, habsurd⟩ | hsame
    · cases habsurd
    · exact hold b own found hsame
  | @read b' facts own' at' =>
    rcases against_cases at' hnew rfl with ⟨-, hread⟩ | hsame
    · obtain ⟨hown, rfl⟩ := Prod.mk.inj (Option.some.inj hread)
      obtain rfl : own' = own := Option.some.inj hown
      exact (hI.context_eq_iff at').mpr (hlast facts own' at')
    · exact hold b own found hsame
  | reconcile at' =>
    rcases against_cases at' hnew rfl with ⟨rfl, hread⟩ | hsame
    · refine hold b own found ?_
      rw [Exporter.against, at']
      exact hread
    · exact hold b own found hsame

theorem against_of_reads_last (h : ((exports cfg).restrict ReadsLast).Reachable s) (b : ℕ)
    (own : ExportWatermark) (found : Option ExportWatermark)
    (hagainst : s.against b = some (some own, found)) : found = some own := by
  refine h.invariant (I := fun s => ∀ b own found, s.against b = some (some own, found) →
    found = some own) (fun b own found hnone => ?_) (fun s l s' hr hold hs => ?_) b own found hagainst
  · cases hnone
  · obtain ⟨hstep, hlast⟩ := restrict_step_iff.mp hs
    rcases step_moves hstep with rfl | hmoves
    · exact hold
    · exact hmoves.against (exporter_inv hr.of_restrict) hlast hold

/-! ### A sample -/

def sampleExportSettings : ExportSettings where
  identity :=
    { serviceName := "tracefence-control-plane", serviceInstanceId := "service-instance-a",
      processInstanceId := "process-a", buildCommit := "0123456789abcdef", schemaVersion := 1 }
  signozApiKey := "key"
  firstError := fun _ _ => ""

/-- A command of the sample run that has blocked nothing. -/
def sampleFacts (commandId : String) : ProofFacts where
  runId := "run-123"
  commandId := commandId
  commandStartedMs := 1000000
  blockedActions := []

/-- Two proofs flush: the second publishes last. -/
def sampleFlushes : List ExportLabel :=
  [.gather (sampleFacts "command-123"), .gather (sampleFacts "command-124"),
    .propose 0 true 1005000, .propose 1 true 1005000, .emit 0 1005001 "a", .emit 1 1005002 "b",
    .publish 0, .publish 1]

theorem exports_enabled : ∀ (ls : List ExportLabel) (s : Exporter), (exports cfg).Enabled s ls
  | [], _ => trivial
  | _ :: ls, _ => ⟨trivial, exports_enabled ls _⟩

theorem exports_reachable (ls : List ExportLabel) :
    (exports cfg).Reachable ((exports cfg).replay {} ls) :=
  reachable_replay (exports_enabled ls _)

/-- **Whose watermark a build reconciles against.** A build whose flush has succeeded reads its own
watermark exactly when no flush has published since; in a run in which every build reads so, every
build reconciles against its own. -/
theorem export_watermarks (cfg : ExportSettings) :
    (∀ s, (exports cfg).Reachable s → ∀ b f own, s.builds[b]? = some ⟨f, .published own⟩ →
      ((s.next cfg (.read b)).against b = some (some own, some own) ↔
        s.publishers.getLast? = some b)) ∧
    ∀ s, ((exports cfg).restrict ReadsLast).Reachable s → ∀ b own found,
      s.against b = some (some own, found) → found = some own := by
  refine ⟨fun s hr b f own hpublished => ?_, fun s hr => against_of_reads_last hr⟩
  rw [next_read hpublished, Exporter.against, builds_move hpublished, if_pos rfl,
    ← (exporter_inv hr).context_eq_iff hpublished]
  constructor
  · intro hread
    exact (Prod.mk.inj (Option.some.inj hread)).2
  · intro hcontext
    rw [hcontext]
    rfl

/-- The build that was the first to publish reconciles against nothing. -/
theorem export_watermarks_lost : ¬ ∀ s, (exports sampleExportSettings).Reachable s →
    ∀ b own found, s.against b = some (some own, found) → found = some own := by
  intro hclaim
  have hnone := hclaim _ (exports_reachable (sampleFlushes ++ [.read 0])) 0
    (newWatermark sampleExportSettings (sampleFacts "command-123") 1005000 1) none (by decide)
  cases hnone

theorem sampleFlushes_last : ((exports sampleExportSettings).restrict ReadsLast).Enabled {}
    (sampleFlushes ++ [.read 1]) := by
  simp only [sampleFlushes, List.cons_append, List.nil_append, Enabled, ReadsLast, restrict, exports,
    and_true, true_and]
  exact fun _ _ _ => rfl

/-- The build that was the last to publish reconciles against its own watermark. -/
theorem export_watermarks_sample :
    (((exports sampleExportSettings).replay {} sampleFlushes).next sampleExportSettings
      (.read 1)).against 1 =
      some (some (newWatermark sampleExportSettings (sampleFacts "command-124") 1005000 2),
        some (newWatermark sampleExportSettings (sampleFacts "command-124") 1005000 2)) ∧
    ∀ own found, ((exports sampleExportSettings).replay {} (sampleFlushes ++ [.read 1])).against 1 =
      some (some own, found) → found = some own :=
  ⟨((export_watermarks sampleExportSettings).1 _ (exports_reachable sampleFlushes) 1
      (sampleFacts "command-124") _ rfl).mpr rfl,
    (export_watermarks sampleExportSettings).2 _ (reachable_replay sampleFlushes_last) 1⟩

end TraceFence
