import Mathlib.Data.List.Sort
import TraceFence.Domain.Enums
import TraceFence.Lib.JsonText

/-!
# Requests, responses and the replacement manifest

`domain/schemas.py`, `config.py` and the parts of `security.py` that hash. Identifiers (`uuid4`)
and tokens are numbers, a time is a number of microseconds, and a digest is an opaque number that
the `Config` computes: nothing here relies on which digest it is.

## Main definitions

* `Json` — the values of free-form fields
* `ReplacementManifest` — a manifest together with the proof that its schema accepts it
* `Payload` — what `payload_digest` is applied to
* `Config` — settings and hash functions
-/

namespace TraceFence

abbrev Id := ℕ
abbrev Token := ℕ
abbrev Digest := ℕ
/-- Naive UTC, in microseconds. -/
abbrev Time := ℕ
/-- The carrier a tracer injects. -/
abbrev TraceContext := List (String × String)

/-- `timedelta(seconds=n)`. -/
def seconds (n : ℕ) : Time := n * 1000000

/-- The values of free-form JSON fields. -/
inductive Json
  | null
  | bool (b : Bool)
  | num (n : ℤ)
  | str (s : String)
  | arr (items : List Json)
  | obj (fields : List (String × Json))

mutual

/-- A free-form field as a document. -/
def Json.value : Json → JsonValue
  | .null => .null
  | .bool b => .bool b
  | .num n => .int n
  | .str s => .str s
  | .arr items => .list (Json.values items)
  | .obj fields => .dict (Json.entries fields)

def Json.values : List Json → List JsonValue
  | [] => []
  | j :: items => j.value :: Json.values items

def Json.entries : List (String × Json) → List (String × JsonValue)
  | [] => []
  | e :: fields => Json.entry e :: Json.entries fields

def Json.entry : String × Json → String × JsonValue
  | (key, j) => (key, j.value)

end

/-- A `dict[str, Any]` that the code looks into. -/
abbrev Dict := List (String × Json)

/-- `sorted(values)`. -/
def sorted (values : List String) : List String := values.insertionSort (· ≤ ·)

/-- `sorted(set(values))`. -/
def sortedSet (values : List String) : List String := sorted values.dedup

/-! ### Requests -/

structure RunCreate where
  name : String
  rootRole : String := "coordinator"
  rootInstruction : Json := .obj []
  rootCapabilities : List String :=
    ["control:descendants", "tool:read_metrics", "tool:propose_correction"]

structure SpawnCreate where
  operationKey : Option String := none
  role : String
  instruction : Json := .obj []
  capabilities : List String := []
  behavior : String := "cooperative"

structure NodeActivate where
  operationKey : Option String := none
  activationToken : Token
  processId : Option ℕ := none

structure ProposalCreate where
  targetNodeId : Id
  proposalType : ProposalType
  reason : String
  evidence : Json := .obj []

structure ProposalCommandAuthorization where
  commandType : CommandType
  targetNodeId : Id
  reasonCode : String
  reasonText : String
  replacementInstruction : Option Json := none
  replacementExpectedTool : Option String := none
  replacementRole : Option String := none
  replacementBehavior : Option String := none
  replacementCapabilities : Option (List String) := none
  replacementArguments : Option Dict := none
  replacementMaxChildren : Option ℕ := none
  recoveryStabilitySeconds : ℕ := 0

structure ProposalReview where
  status : ProposalStatus
  authorizedCommand : Option ProposalCommandAuthorization := none

structure CommandCreate where
  idempotencyKey : String
  commandType : CommandType
  sourceProposalId : Option Id := none
  targetNodeId : Id
  reasonCode : String
  reasonText : String
  replacementInstruction : Option Json := none
  replacementExpectedTool : Option String := none
  replacementRole : Option String := none
  replacementBehavior : Option String := none
  replacementCapabilities : Option (List String) := none
  replacementArguments : Option Dict := none
  replacementMaxChildren : Option ℕ := none
  recoveryStabilitySeconds : ℕ := 0

/-- Whether `json.dumps` writes a request: an integer with too many digits raises. -/
def CommandCreate.Dumps (r : CommandCreate) : Prop :=
  (∀ j ∈ r.replacementInstruction, JsonText.fits j.value = true) ∧
  (∀ fields ∈ r.replacementArguments, JsonText.fits (Json.obj fields).value = true) ∧
  (∀ n ∈ r.replacementMaxChildren, JsonText.fits (.int n) = true) ∧
  JsonText.fits (.int r.recoveryStabilitySeconds) = true

instance (r : CommandCreate) : Decidable r.Dumps := inferInstanceAs (Decidable (_ ∧ _))

structure ActionExecute where
  idempotencyKey : String
  toolName : String
  arguments : Dict := []

structure Principal where
  issuerType : IssuerType
  nodeId : Option Id := none
  principalId : Option String := none

/-! ### The replacement manifest -/

inductive PostconditionField
  | status | restartCount | poolResetCount
  deriving DecidableEq, Repr

structure RecoveryPostcondition where
  serviceName : String
  field : PostconditionField
  expected : Json
  requireRecoveryAction : Bool := true

structure RecoveryContract where
  schemaVersion : ℕ := 1
  expectedTool : Option String := none
  expectedArgumentsDigest : Digest
  allowedEnvironment : String
  allowedResources : List String := []
  maxCommittedInvocations : ℕ
  stabilityWindowSeconds : ℕ
  postconditions : List RecoveryPostcondition := []

/-- The field bounds and `validate_tool_shape`. -/
def RecoveryContract.Valid (c : RecoveryContract) : Prop :=
  c.schemaVersion = 1 ∧
  (∀ tool ∈ c.expectedTool, tool.length ≤ 100) ∧
  1 ≤ c.allowedEnvironment.length ∧ c.allowedEnvironment.length ≤ 80 ∧
  c.allowedResources.length ≤ 32 ∧
  c.maxCommittedInvocations ≤ 16 ∧
  c.stabilityWindowSeconds ≤ 300 ∧
  c.postconditions.length ≤ 32 ∧
  (∀ p ∈ c.postconditions, 1 ≤ p.serviceName.length ∧ p.serviceName.length ≤ 80) ∧
  c.allowedResources.Nodup ∧
  c.allowedResources = sorted c.allowedResources ∧
  if c.expectedTool.isNone then
    c.maxCommittedInvocations = 0 ∧ c.postconditions.isEmpty ∧ c.allowedResources.isEmpty
  else 1 ≤ c.maxCommittedInvocations

instance (c : RecoveryContract) : Decidable c.Valid :=
  inferInstanceAs (Decidable (_ ∧ _))

/-- The fields of a manifest, before validation. -/
structure ManifestFields where
  schemaVersion : ℕ := 1
  policyVersion : String := "tracefence-replacement-v1"
  role : String
  behavior : String := "cooperative"
  instructionDigest : Digest
  instructionVersion : ℕ
  capabilitiesExact : List String := []
  maxChildren : ℕ
  recoveryContract : RecoveryContract

/-- The field bounds and `validate_capabilities`. -/
def ManifestFields.Valid (m : ManifestFields) : Prop :=
  m.schemaVersion = 1 ∧
  m.policyVersion = "tracefence-replacement-v1" ∧
  1 ≤ m.role.length ∧ m.role.length ≤ 80 ∧
  m.behavior = "cooperative" ∧
  1 ≤ m.instructionVersion ∧
  m.capabilitiesExact.length ≤ 32 ∧
  m.maxChildren ≤ 32 ∧
  m.recoveryContract.Valid ∧
  m.capabilitiesExact.Nodup ∧
  m.capabilitiesExact = sorted m.capabilitiesExact ∧
  ¬(m.recoveryContract.expectedTool.isNone ∧ ¬ m.capabilitiesExact.isEmpty)

instance (m : ManifestFields) : Decidable m.Valid :=
  inferInstanceAs (Decidable (_ ∧ _))

/-- A manifest its schema accepts. -/
structure ReplacementManifest extends ManifestFields where
  /-- The schema accepts the fields. -/
  valid : toManifestFields.Valid

/-- What the `replacement_manifest_json` column can hold: an object with the manifest's fields,
or JSON of another shape. -/
inductive ManifestJson
  | fields (m : ManifestFields)
  | other (j : Json)

/-- `ReplacementManifest.model_validate`, where `none` is a `ValidationError`. -/
def ReplacementManifest.modelValidate : ManifestJson → Option ReplacementManifest
  | .fields m => if h : m.Valid then some ⟨m, h⟩ else none
  | .other _ => none

/-- `model_dump(mode="json")`. -/
def ReplacementManifest.modelDump (m : ReplacementManifest) : ManifestJson :=
  .fields m.toManifestFields

/-- A stored manifest survives the trip through its column. -/
@[simp] theorem ReplacementManifest.modelValidate_modelDump (m : ReplacementManifest) :
    modelValidate m.modelDump = some m := by
  simp [modelDump, modelValidate, m.valid]

theorem ReplacementManifest.modelDump_of_modelValidate {j : ManifestJson}
    {m : ReplacementManifest} (h : modelValidate j = some m) : m.modelDump = j := by
  cases j with
  | fields f =>
    rw [modelValidate] at h
    split at h
    · cases h; rfl
    · cases h
  | other _ => cases h

/-! ### Hashing and settings -/

/-- The immutable facts of a proposal, `proposal_payload`. -/
structure ProposalFacts where
  id : Id
  runId : Id
  reporterNodeId : Id
  targetNodeId : Id
  proposalType : ProposalType
  evidence : Json
  reason : String
  createdAt : Time

/-- The values `payload_digest` is applied to. -/
inductive Payload
  | json (value : Json)
  | manifest (value : ManifestJson)
  | command (value : CommandCreate)
  | action (value : ActionExecute)
  | authorization (value : ProposalCommandAuthorization)
  | proposal (value : ProposalFacts)

/-- The values `recovery_request_digest` is applied to: the request without its operation key,
and the correction a replacement request is about. -/
inductive RecoveryPayload
  | spawn (context : Option Id) (request : SpawnCreate)
  | activate (request : NodeActivate)

/-- `settings` and the keyed hash functions. -/
structure Config where
  environment : String
  leaseTtlSeconds : ℕ
  spawnIntentTtlSeconds : ℕ
  credentialRecoveryTtlSeconds : ℕ
  maxActiveRuns : ℕ
  maxNodesPerRun : ℕ
  maxGraphDepth : ℕ
  maxChildrenPerNode : ℕ
  maxCommandsPerRun : ℕ
  maxActionsPerRun : ℕ
  maxProposalsPerRun : ℕ
  /-- `hash_token`. -/
  hashToken : Token → Digest
  /-- `payload_digest` of what `json.dumps` writes. -/
  payloadDigest : Payload → Digest
  /-- `recovery_request_digest`. -/
  recoveryRequestDigest : RecoveryPayload → Digest

/-- What one service call draws from its surroundings: fresh identifiers and secrets, successive
clock readings, the tracer's carrier, and whether the rate limiter refuses the call. Program
points that read the clock are numbered in program order. -/
structure Env where
  uuid : ℕ → Id
  token : ℕ → Token
  clock : ℕ → Time
  carrier : TraceContext := []
  rateLimited : Bool := false

/-- `token_matches`. -/
def Config.tokenMatches (cfg : Config) (token : Token) (expectedHash : Option Digest) : Bool :=
  expectedHash = some (cfg.hashToken token)

/-- `authenticated_rate_limiter.check`, with the limiter's decision taken from the
surroundings. -/
def Env.checkRate (env : Env) (category : String) : Except Failure Unit :=
  if env.rateLimited then .error (rateLimitError category) else .ok ()

@[simp] theorem Env.checkRate_eq_ok {env : Env} {category : String} {u : Unit} :
    env.checkRate category = .ok u ↔ env.rateLimited = false := by
  cases h : env.rateLimited <;> simp [checkRate, h]

end TraceFence
