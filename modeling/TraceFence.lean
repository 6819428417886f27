import TraceFence.Lib.Checked
import TraceFence.Lib.Table
import TraceFence.Lib.Transition
import TraceFence.Lib.Forest
import TraceFence.Lib.Loop
import TraceFence.Lib.Quota
import TraceFence.Lib.Json
import TraceFence.Lib.JsonText
import TraceFence.Lib.JsonRoundTrip
import TraceFence.Lib.JsonAscii
import TraceFence.Lib.Framing
import TraceFence.Domain.Schemas
import TraceFence.Services.Common
import TraceFence.Services.ToolRegistry
import TraceFence.Services.RunService
import TraceFence.Services.SpawnService
import TraceFence.Services.NodeLifecycle
import TraceFence.Services.ControlService
import TraceFence.Services.ActionGateway
import TraceFence.Services.LeaseService
import TraceFence.Services.StateService
import TraceFence.Services.ProposalService
import TraceFence.Services.InvariantService
import TraceFence.Services.ProofService
import TraceFence.Signoz.McpClient
import TraceFence.Signoz.QueryBuilder
import TraceFence.Telemetry.BlockedAction
import TraceFence.Telemetry.Setup
import TraceFence.Telemetry.Spans
import TraceFence.Telemetry.Schema
import TraceFence.System
import TraceFence.Effect.Basic
import TraceFence.Effect.Entries
import TraceFence.Effect.Refinement
import TraceFence.Effect.Operations
import TraceFence.Effect.Step
import TraceFence.Registry.Basic
import TraceFence.Registry.Refinement
import TraceFence.Registry.Evaluation
import TraceFence.Registry.Lineage
import TraceFence.Registry.Inversion
import TraceFence.Registry.Evolution
import TraceFence.Registry.Control
import TraceFence.Registry.Clock
import TraceFence.Registry.Activation
import TraceFence.Registry.Succession
import TraceFence.Registry.Tally
import TraceFence.Safety.Fence
import TraceFence.Safety.Snapshots
import TraceFence.Safety.BlastRadius
import TraceFence.Safety.ExactlyOnce
import TraceFence.Safety.RecoveryBudget
import TraceFence.Safety.NodeStatus
import TraceFence.Safety.Leases
import TraceFence.Safety.TerminalRuns
import TraceFence.Safety.LeaseExpiry
import TraceFence.Safety.ReplacementLifecycle
import TraceFence.Safety.ScopeLedger
import TraceFence.Safety.Replay
import TraceFence.Safety.Authority
import TraceFence.Safety.Attenuation
import TraceFence.Safety.Quotas
import TraceFence.Safety.Attribution
import TraceFence.Safety.ProofVerdicts
import TraceFence.Safety.Convergence
import TraceFence.Audit
import TraceFence.Safety.Outbox
import TraceFence.Safety.ViolationLedger
import TraceFence.ProofBuilds
import TraceFence.Safety.ProofCoherence
import TraceFence.Safety.ProofFreshness
import TraceFence.Safety.Reconciliation
import TraceFence.Safety.RepeatedProofs
import TraceFence.Safety.Watermarks
import TraceFence.Safety.EvidenceRoundTrip
import TraceFence.Safety.EvidenceTampering
import TraceFence.Safety.QueryCompleteness
import TraceFence.Safety.TelemetryContract
import TraceFence.Safety.RateLimiting
import TraceFence.Safety.AdmissionLadders
import TraceFence.Safety.RootCompletion
import TraceFence.Safety.RecoveryContracts
import TraceFence.Safety.GraphWalks
import TraceFence.Safety.ScopeJoin
import TraceFence.Safety.MetricReferences
import TraceFence.Safety.DomainSeparation
import TraceFence.Safety.Seeding
import TraceFence.Api.Dependencies
import TraceFence.Safety.Permits
import TraceFence.Safety.CommandErrors
import TraceFence.Safety.Corrections
import TraceFence.Lib.JsonCode
import TraceFence.Safety.Authorizations
import TraceFence.Safety.Proposals
import TraceFence.Safety.EventFeed
import TraceFence.Safety.RunGraphs
import TraceFence.Safety.Workers
import TraceFence.Safety.Delegations
import TraceFence.Safety.ApiGuards
import TraceFence.Safety.ApiRates
