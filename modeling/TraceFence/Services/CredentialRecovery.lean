import TraceFence.Services.Common

/-!
# Recovery envelopes

`services/credential_recovery.py`: a response that carries a secret is kept, sealed, under the
operation key it was requested with, so that an exact retry gets it back. The encryption is ideal
(see `Sealed`); the key and the nonces do not appear.

## Main definitions

* `findEnvelope`, `openEnvelope`, `sealEnvelope`
-/

namespace TraceFence

open Checked

/-- `find_envelope`. -/
def findEnvelope (db : Database) (operationType : OperationType) (callerNodeId : Id)
    (operationKey : String) (requestDigest : Digest) :
    Except Failure (Option CredentialRecoveryEnvelope) := do
  let envelope := db.envelopes.get? (operationType, callerNodeId, operationKey)
  ensure (∀ e ∈ envelope, e.requestPayloadDigest = requestDigest)
    (conflictError "Operation key was already used with a different payload"
      "OPERATION_KEY_PAYLOAD_MISMATCH")
  return envelope

/-- The lookup a call makes only when its request has an operation key. -/
def findRecovery (db : Database) (operationType : OperationType) (callerNodeId : Id)
    (operationKey : Option String) (requestDigest : Digest) :
    Except Failure (Option CredentialRecoveryEnvelope) :=
  match operationKey with
  | none => .ok none
  | some key => findEnvelope db operationType callerNodeId key requestDigest

/-- `_aad`, of an envelope's own columns. -/
def CredentialRecoveryEnvelope.aad (e : CredentialRecoveryEnvelope) : AssociatedData where
  operationType := e.operationType
  callerNodeId := e.callerNodeId
  operationKey := e.operationKey
  requestDigest := e.requestPayloadDigest
  subjectNodeId := e.subjectNodeId

def envelopeInvalid : Failure :=
  conflictError "Credential recovery envelope failed authentication"
    "CREDENTIAL_RECOVERY_ENVELOPE_INVALID"

/-- `open_envelope` with `SpawnCreated`. -/
def openSpawn (e : CredentialRecoveryEnvelope) : Except Failure SpawnCreated := do
  ensure (e.ciphertext.associatedData = e.aad) envelopeInvalid
  match e.ciphertext.plaintext with
  | .spawn response => return response
  | .activation _ => throw envelopeInvalid

/-- `open_envelope` with `NodeActivated`. -/
def openActivation (e : CredentialRecoveryEnvelope) : Except Failure NodeActivated := do
  ensure (e.ciphertext.associatedData = e.aad) envelopeInvalid
  match e.ciphertext.plaintext with
  | .activation response => return response
  | .spawn _ => throw envelopeInvalid

/-- A new envelope, as `seal_envelope` fills it in. -/
def newEnvelope (cfg : Config) (runId : Id) (aad : AssociatedData) (response : Credential)
    (now : Time) : CredentialRecoveryEnvelope where
  runId := runId
  operationType := aad.operationType
  callerNodeId := aad.callerNodeId
  subjectNodeId := aad.subjectNodeId
  operationKey := aad.operationKey
  requestPayloadDigest := aad.requestDigest
  ciphertext := ⟨aad, response⟩
  expiresAt := now + seconds cfg.credentialRecoveryTtlSeconds
  createdAt := now
  updatedAt := now

/-- `seal_envelope` without an existing envelope. -/
def sealEnvelope (cfg : Config) (db : Database) (runId : Id) (aad : AssociatedData)
    (response : Credential) (now : Time) : Except Failure Database := do
  let envelopes ← require (db.envelopes.insert? (newEnvelope cfg runId aad response now))
    (.integrityError "credential_recovery_envelopes")
  return { db with envelopes := envelopes }

/-- The sealing a call does only when its request has an operation key. -/
def sealRecovery (cfg : Config) (db : Database) (runId : Id) (operationType : OperationType)
    (callerNodeId subjectNodeId : Id) (operationKey : Option String) (requestDigest : Digest)
    (response : Credential) (now : Time) : Except Failure Database :=
  match operationKey with
  | none => .ok db
  | some key =>
    sealEnvelope cfg db runId ⟨operationType, callerNodeId, key, requestDigest, subjectNodeId⟩
      response now

/-- `seal_envelope` over an existing envelope. -/
def resealEnvelope (cfg : Config) (db : Database) (e : CredentialRecoveryEnvelope)
    (response : Credential) (now : Time) : Database :=
  { db with
    envelopes := db.envelopes.modify (Keyed.key e) fun row =>
      { row with
        ciphertext := ⟨e.aad, response⟩
        expiresAt := now + seconds cfg.credentialRecoveryTtlSeconds
        updatedAt := now } }

end TraceFence
