import TraceFence.Lib.Transition
import TraceFence.Signoz.McpClient

/-!
# Export watermarks

Before a proof asks the telemetry backend it flushes the exporters of the process, on a worker
thread: the flush emits a watermark span for the command, and when every provider has flushed it
publishes the watermark in a variable of the process. The build reads the variable back in a later
critical section and reconciles. Builds of different commands go through these steps in any order.

## Main definitions

* `telemetryExportContext` — what a build reads
* `ExportStage`, `Exporter` — where a build stands, and the process
* `exports` — the system, whose labels are the steps of the builds
-/

namespace TraceFence

/-- `telemetry_process_identity`. -/
structure ProcessIdentity where
  serviceName : String
  serviceInstanceId : String
  processInstanceId : String
  buildCommit : String
  schemaVersion : ℤ

/-- What does not change while the process runs. What the schema layer says about a row that does
not validate is `firstError`. -/
structure ExportSettings where
  identity : ProcessIdentity
  signozApiKey : String
  firstError : EvidenceModel → JsonValue → String

/-- A span `tracefence.telemetry.export_watermark`: its attributes and those of its process. -/
structure WatermarkSpan where
  watermark : ExportWatermark
  traceId : String
  timestampMs : ℤ
  deriving DecidableEq, Repr

/-- `telemetry_export_context`: the last watermark, if it is one of the run and the command. -/
def telemetryExportContext (last : Option ExportWatermark) (runId commandId : String) :
    Option ExportWatermark :=
  last.filter fun watermark => watermark.runId = runId ∧ watermark.commandId = commandId

/-- What a build has found in the database when it turns to telemetry. -/
structure ProofFacts where
  runId : String
  commandId : String
  commandStartedMs : ℤ
  blockedActions : List RuntimeBlockedAction
  deriving DecidableEq, Repr

/-- Where a build stands. The watermark its own flush emitted is kept, although the code forgets
it. -/
inductive ExportStage
  | gathered
  /-- The flush has read the clock. -/
  | proposed (proposedAtMs : ℤ)
  | emitted (own : ExportWatermark)
  | published (own : ExportWatermark)
  /-- The flush has returned `False`. -/
  | unflushed
  /-- The build has read the variable of the process, if its flush has succeeded. -/
  | read (own found : Option ExportWatermark)
  | reconciled (own found : Option ExportWatermark) (verdict : ProofVerdict)
  deriving DecidableEq, Repr

/-- A build. -/
structure ProofExport where
  facts : ProofFacts
  stage : ExportStage
  deriving DecidableEq, Repr

/-- The telemetry of a process and the builds in it. -/
structure Exporter where
  nowMs : ℤ := 0
  exportSequence : ℤ := 0
  lastExportWatermark : Option ExportWatermark := none
  /-- Every watermark span so far. -/
  spans : List WatermarkSpan := []
  builds : List ProofExport := []
  /-- Ghost: the builds whose flushes have published, in order. -/
  publishers : List ℕ := []

/-- The steps of a build. -/
inductive ExportLabel
  | gather (facts : ProofFacts)
  | propose (build : ℕ) (ready : Bool) (now : ℤ)
  | emit (build : ℕ) (now : ℤ) (traceId : String)
  /-- Every provider has flushed. -/
  | publish (build : ℕ)
  /-- Some provider has not. -/
  | fail (build : ℕ)
  | read (build : ℕ)
  | reconcile (build : ℕ) (now : ℤ) (evidence : Evidence)

variable (cfg : ExportSettings)

/-- The watermark of a flush. -/
def newWatermark (facts : ProofFacts) (proposedAtMs sequence : ℤ) : ExportWatermark where
  serviceName := cfg.identity.serviceName
  serviceInstanceId := cfg.identity.serviceInstanceId
  processInstanceId := cfg.identity.processInstanceId
  buildCommit := cfg.identity.buildCommit
  schemaVersion := cfg.identity.schemaVersion
  runId := facts.runId
  commandId := facts.commandId
  exportedAtMs := proposedAtMs
  sequence := sequence

/-- The context a build reconciles in. -/
def verificationContext (facts : ProofFacts) (now : ℤ) (found : Option ExportWatermark) :
    TelemetryVerificationContext where
  commandId := facts.commandId
  runId := facts.runId
  commandCreatedMs := facts.commandStartedMs
  startMs := max 0 (facts.commandStartedMs - 5000)
  endMs := now + 5000
  commandOperation := "tracefence.control.command_issue"
  serviceName := cfg.identity.serviceName
  serviceInstanceId := cfg.identity.serviceInstanceId
  processInstanceId := cfg.identity.processInstanceId
  buildCommit := cfg.identity.buildCommit
  schemaVersion := cfg.identity.schemaVersion
  blockedActions := facts.blockedActions
  exportWatermark := found

namespace Exporter

/-- A build goes on to another stage. -/
def move (s : Exporter) (build : ℕ) (facts : ProofFacts) (stage : ExportStage) : Exporter :=
  { s with builds := s.builds.set build ⟨facts, stage⟩ }

/-- The steps of `force_flush_telemetry` and of `_build_uncached` after it. A label that does not
fit the stage of its build does nothing. -/
def next (s : Exporter) : ExportLabel → Exporter
  | .gather facts => { s with builds := s.builds ++ [⟨facts, .gathered⟩] }
  | .propose build ready now =>
    match s.builds[build]? with
    | some ⟨facts, .gathered⟩ =>
      if ready ∧ facts.commandStartedMs < now then
        { s with nowMs := now }.move build facts (.proposed now)
      else s.move build facts .unflushed
    | _ => s
  | .emit build now traceId =>
    match s.builds[build]? with
    | some ⟨facts, .proposed proposedAtMs⟩ =>
      let own := newWatermark cfg facts proposedAtMs (s.exportSequence + 1)
      { s with
        nowMs := now
        exportSequence := s.exportSequence + 1
        spans := s.spans ++ [WatermarkSpan.mk own traceId now] }.move build facts (.emitted own)
    | _ => s
  | .publish build =>
    match s.builds[build]? with
    | some ⟨facts, .emitted own⟩ =>
      { s with
        lastExportWatermark := some own
        publishers := s.publishers ++ [build] }.move build facts (.published own)
    | _ => s
  | .fail build =>
    match s.builds[build]? with
    | some ⟨facts, .emitted _⟩ => s.move build facts .unflushed
    | _ => s
  | .read build =>
    match s.builds[build]? with
    | some ⟨facts, .published own⟩ =>
      s.move build facts (.read (some own)
        (telemetryExportContext s.lastExportWatermark facts.runId facts.commandId))
    | some ⟨facts, .unflushed⟩ => s.move build facts (.read none none)
    | _ => s
  | .reconcile build now evidence =>
    match s.builds[build]? with
    | some ⟨facts, .read own found⟩ =>
      { s with nowMs := now }.move build facts (.reconciled own found
        (verifyCommand cfg.signozApiKey cfg.firstError
          (verificationContext cfg facts now found) evidence).verdict)
    | _ => s

end Exporter

/-- The exports of a process, under every interleaving of its builds. -/
def exports : System Exporter ExportLabel where
  init := {}
  next := Exporter.next cfg
  enabled := fun _ _ => True

end TraceFence
