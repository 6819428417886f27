import TraceFence.Services.ControlService

/-!
# Proposals

`ProposalService.create` and `ProposalService.review`: how a node asks for a correction and how an
operator binds an acceptance to one exact command.

## Main definitions

* `createProposal`, `reviewProposal`
-/

namespace TraceFence

open Checked

variable (cfg : Config) (db : Database)

/-- `create`. -/
def createProposal (reporterNodeId : Id) (reporterToken : Token) (request : ProposalCreate)
    (env : Env) : Except Failure (Commit CorrectionProposal) := do
  let reporter ← authenticateNode cfg db reporterNodeId reporterToken
  env.checkRate "command"
  requireLive db reporter (env.clock 0) "Reporter is not live" "REPORTER_NOT_LIVE"
  ensure ("tool:propose_correction" ∈ reporter.capabilities)
    (authorizationError "Reporter lacks tool:propose_correction capability")
  let target ← getNode db request.targetNodeId
  ensure (reporter.runId = target.runId)
    (authorizationError "Cross-run proposals are not allowed")
  ensure ((db.proposals.rows.countP fun p => p.runId = reporter.runId) < cfg.maxProposalsPerRun)
    (conflictError "Proposal quota exceeded for run" "RUN_PROPOSAL_QUOTA_EXCEEDED")
  let proposal : CorrectionProposal :=
    { id := env.uuid 0
      runId := reporter.runId
      reporterNodeId := reporter.id
      targetNodeId := target.id
      proposalType := request.proposalType
      evidence := request.evidence
      reason := request.reason
      status := .pending
      createdAt := env.clock 1 }
  let proposals ← require (db.proposals.insert? proposal) (.integrityError "correction_proposals")
  return ⟨{ db with proposals := proposals }, some (env.clock 1), proposal⟩

/-- The command a review authorizes, checked against the proposal. -/
def reviewAuthorization (proposal : CorrectionProposal) (request : ProposalReview) :
    Except Failure (Option ProposalCommandAuthorization) :=
  if request.status = .accepted then do
    let authorization ← require request.authorizedCommand
      (conflictError "Accepted proposal has no authorized command"
        "PROPOSAL_AUTHORIZATION_REQUIRED")
    ensure (authorization.targetNodeId = proposal.targetNodeId)
      (conflictError "Authorized command targets a different node"
        "PROPOSAL_AUTHORIZATION_TARGET_MISMATCH")
    ensure (authorization.commandType = proposal.proposalType.commandType)
      (conflictError "Authorized command type does not match proposal type"
        "PROPOSAL_AUTHORIZATION_TYPE_MISMATCH")
    return some authorization
  else .ok none

/-- `review`. -/
def reviewProposal (proposalId : Id) (request : ProposalReview) (reviewerPrincipal : String)
    (env : Env) : Except Failure (Commit Unit) := do
  let proposal ← require (db.proposals.get? proposalId)
    (notFoundError s!"Proposal {proposalId} was not found")
  ensure (proposal.status = .pending)
    (conflictError "Proposal was already reviewed" "PROPOSAL_ALREADY_REVIEWED")
  let authorized ← reviewAuthorization proposal request
  return ⟨{ db with
    proposals := db.proposals.modify proposalId fun row =>
      { row with
        status := request.status
        reviewedByPrincipal := some reviewerPrincipal
        acceptedPayloadDigest := some (cfg.payloadDigest (.proposal (proposalPayload row)))
        authorizedCommand := authorized
        authorizedCommandDigest :=
          authorized.map fun command => cfg.payloadDigest (.authorization command)
        reviewedAt := some (env.clock 0) } }, some (env.clock 0), ()⟩

end TraceFence
