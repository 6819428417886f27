import TraceFence.Lib.Framing
import TraceFence.Lib.JsonAscii
import TraceFence.Safety.EvidenceRoundTrip

/-!
# Domain separation of credential recovery

`services/credential_recovery.py` down to the bytes. The digest of a request is taken over the name
of its class, a context and its canonical payload, an envelope is bound to five fields, and in both
the parts stand one after the other with a NUL between them. A context and an operation key come
from the caller and may have a NUL in them. All other parts have none: the name of a class is an
identifier, and the canonical payload is ASCII without control characters.

## Main definitions

* `RequestModel` — a request, as `recovery_request_digest` sees it
* `recoveryRequestBytes` — the bytes that are hashed
* `EnvelopeBinding.aad` — the bytes an envelope is bound to

## Main results

* `recoveryRequestBytes_injective`, `aad_injective` — the parts can be told apart
* `recovery_domain_separation` — different requests share neither digest nor binding
-/

namespace TraceFence

open JsonText

/-- A request of the schema layer: the name of its class, which is an identifier, and what
`model_dump(mode="json")` makes of its fields. -/
structure RequestModel where
  className : String
  fields : List (String × JsonValue)
  identifier : '\x00' ∉ className.toList

/-- `request.model_dump(mode="json", exclude={"operation_key"})`. -/
def RequestModel.payload (request : RequestModel) : JsonValue :=
  .dict (request.fields.filter fun field => field.1 ≠ "operation_key")

/-- `_canonical_json`, which raises when an integer has too many digits. -/
def canonicalJson (floats : Floats) (payload : JsonValue) : Option ByteArray :=
  (dumpsAscii floats payload).map fun text => (String.ofList text).toUTF8

/-- `b"\0"`. -/
def nulByte : ByteArray := ⟨#[0]⟩

/-- What `recovery_request_digest` hashes. -/
def recoveryRequestBytes (floats : Floats) (request : RequestModel) (context : String := "") :
    Option ByteArray :=
  (canonicalJson floats request.payload).map fun payload =>
    request.className.toUTF8 ++ nulByte ++ context.toUTF8 ++ nulByte ++ payload

/-- `recovery_request_digest`. -/
def recoveryRequestDigest (sha256 : ByteArray → String) (floats : Floats) (request : RequestModel)
    (context : String := "") : Option String :=
  (recoveryRequestBytes floats request context).map sha256

/-- The five arguments of `_aad`. -/
structure EnvelopeBinding where
  operationType : String
  callerNodeId : String
  operationKey : String
  requestDigest : String
  subjectNodeId : String
  deriving DecidableEq, Repr

/-- `_aad`. -/
def EnvelopeBinding.aad (e : EnvelopeBinding) : ByteArray :=
  ("\x00".intercalate
    [e.operationType, e.callerNodeId, e.operationKey, e.requestDigest, e.subjectNodeId]).toUTF8

/-- At most the operation key has a NUL in it. -/
structure EnvelopeBinding.Plain (e : EnvelopeBinding) : Prop where
  operationType : '\x00' ∉ e.operationType.toList
  callerNodeId : '\x00' ∉ e.callerNodeId.toList
  requestDigest : '\x00' ∉ e.requestDigest.toList
  subjectNodeId : '\x00' ∉ e.subjectNodeId.toList

variable {floats : Floats} {request request' : RequestModel} {context context' : String}

/-! ### The bytes of a request -/

/-- The bytes are those of a text of three fields. -/
theorem recoveryRequestBytes_eq_some {bytes : ByteArray} :
    recoveryRequestBytes floats request context = some bytes ↔
      ∃ text, dumpsAscii floats request.payload = some text ∧
        bytes = ("\x00".intercalate [request.className, context, String.ofList text]).toUTF8 := by
  have hfields (text : List Char) :
      ("\x00".intercalate [request.className, context, String.ofList text]).toUTF8 =
        request.className.toUTF8 ++ nulByte ++ context.toUTF8 ++ nulByte ++
          (String.ofList text).toUTF8 := by
    have hnul : nulByte = "\x00".toUTF8 := rfl
    rw [hnul]
    simp only [String.intercalate_cons_cons, String.intercalate_singleton]
    show (_ ++ _ ++ (_ ++ _ ++ _) : String).toByteArray = _
    simp only [String.toByteArray_append, ByteArray.append_assoc]
    rfl
  simp only [recoveryRequestBytes, canonicalJson, Option.map_map, Option.map_eq_some_iff,
    Function.comp_apply, hfields]
  exact exists_congr fun text => and_congr_right fun _ => eq_comm

theorem notMem_dumpsAscii (hfloats : floats.Lawful) {v : JsonValue} {text : List Char}
    (h : dumpsAscii floats v = some text) : '\x00' ∉ text := by
  unfold dumpsAscii at h
  split_ifs at h
  obtain rfl := Option.some.inj h
  exact fun hmem => absurd (printable_renderAscii hfloats _ _ hmem) (by decide)

theorem toList_nul : "\x00".toList = ['\x00'] := rfl

/-- **The bytes of a request** tell its class, its context and its canonical payload. -/
theorem recoveryRequestBytes_injective (hfloats : floats.Lawful) {bytes : ByteArray}
    (h : recoveryRequestBytes floats request context = some bytes)
    (h' : recoveryRequestBytes floats request' context' = some bytes) :
    request.className = request'.className ∧ context = context' ∧
      dumpsAscii floats request.payload = dumpsAscii floats request'.payload := by
  obtain ⟨text, htext, hbytes⟩ := recoveryRequestBytes_eq_some.mp h
  obtain ⟨text', htext', hbytes'⟩ := recoveryRequestBytes_eq_some.mp h'
  have hjoined := String.toByteArray_inj.mp (hbytes.symm.trans hbytes')
  have hchars := congrArg String.toList hjoined
  rw [String.toList_intercalate, String.toList_intercalate, toList_nul] at hchars
  have hclass : ∀ r : RequestModel, ∀ f ∈ [r.className.toList], '\x00' ∉ f := by
    intro r f hf
    rw [List.mem_singleton.mp hf]
    exact r.identifier
  have hpayload {v : JsonValue} {text : List Char} (htext : dumpsAscii floats v = some text) :
      ∀ f ∈ [(String.ofList text).toList], '\x00' ∉ f := by
    intro f hf
    rw [List.mem_singleton.mp hf, String.toList_ofList]
    exact notMem_dumpsAscii hfloats htext
  obtain ⟨hname, hcontext, hcanonical⟩ := Framing.intercalate_inj (hclass request) (hclass request')
    (hpayload htext) (hpayload htext') rfl rfl hchars
  rw [List.cons.injEq, String.toList_ofList, String.toList_ofList] at hcanonical
  refine ⟨String.toList_inj.mp (List.cons.inj hname).1, String.toList_inj.mp hcontext, ?_⟩
  rw [htext, htext', hcanonical.1]

/-! ### The bytes of a binding -/

/-- **The bytes of a binding** tell its fields. -/
theorem aad_injective {e e' : EnvelopeBinding} (he : e.Plain) (he' : e'.Plain)
    (h : e.aad = e'.aad) : e = e' := by
  have hchars := congrArg String.toList (String.toByteArray_inj.mp h)
  rw [String.toList_intercalate, String.toList_intercalate, toList_nul] at hchars
  have hbefore : ∀ e : EnvelopeBinding, e.Plain →
      ∀ f ∈ [e.operationType.toList, e.callerNodeId.toList], '\x00' ∉ f := by
    intro e he f hf
    rcases List.mem_pair.mp hf with rfl | rfl
    · exact he.operationType
    · exact he.callerNodeId
  have hafter : ∀ e : EnvelopeBinding, e.Plain →
      ∀ f ∈ [e.requestDigest.toList, e.subjectNodeId.toList], '\x00' ∉ f := by
    intro e he f hf
    rcases List.mem_pair.mp hf with rfl | rfl
    · exact he.requestDigest
    · exact he.subjectNodeId
  obtain ⟨hbefore, hkey, hafter⟩ := Framing.intercalate_inj (hbefore e he) (hbefore e' he')
    (hafter e he) (hafter e' he') rfl rfl hchars
  simp only [List.cons.injEq, String.toList_inj, and_true] at hbefore hkey hafter
  obtain ⟨type, caller, key, digest, subject⟩ := e
  obtain ⟨rfl, rfl⟩ := hbefore
  obtain ⟨rfl, rfl⟩ := hafter
  subst hkey
  rfl

/-! ### Requests and envelopes -/

/-- Two requests with their contexts have the same class, context and canonical payload. -/
structure SameRequest (floats : Floats) (request : RequestModel) (context : String)
    (request' : RequestModel) (context' : String) : Prop where
  className : request.className = request'.className
  context : context = context'
  payload : canonicalJson floats request.payload = canonicalJson floats request'.payload

/-- A hash function takes two byte strings to one digest. -/
def Collides (hash : ByteArray → String) : Prop := ∃ b b', b ≠ b' ∧ hash b = hash b'

theorem sameRequest_of_bytes (hfloats : floats.Lawful) {bytes : ByteArray}
    (h : recoveryRequestBytes floats request context = some bytes)
    (h' : recoveryRequestBytes floats request' context' = some bytes) :
    SameRequest floats request context request' context' := by
  obtain ⟨hclass, hcontext, hpayload⟩ := recoveryRequestBytes_injective hfloats h h'
  exact ⟨hclass, hcontext, by rw [canonicalJson, canonicalJson, hpayload]⟩

/-- Requests with one digest are the same, or the hash function collides. -/
theorem sameRequest_of_digest (hfloats : floats.Lawful) {sha256 : ByteArray → String}
    {digest : String} (h : recoveryRequestDigest sha256 floats request context = some digest)
    (h' : recoveryRequestDigest sha256 floats request' context' = some digest) :
    SameRequest floats request context request' context' ∨ Collides sha256 := by
  obtain ⟨bytes, hbytes, hdigest⟩ := Option.map_eq_some_iff.mp h
  obtain ⟨bytes', hbytes', hdigest'⟩ := Option.map_eq_some_iff.mp h'
  by_cases heq : bytes = bytes'
  · subst heq
    exact Or.inl (sameRequest_of_bytes hfloats hbytes hbytes')
  · exact Or.inr ⟨bytes, bytes', heq, hdigest.trans hdigest'.symm⟩

/-- Payloads with one canonical text are one object. -/
theorem payload_of_canonicalJson (hfloats : floats.Lawful) {v w : JsonValue} (hv : v.Proper)
    (hw : w.Proper) {canonical : ByteArray} (h : canonicalJson floats v = some canonical)
    (h' : canonicalJson floats w = some canonical) : v.sortKeys = w.sortKeys := by
  obtain ⟨text, htext, hbytes⟩ := Option.map_eq_some_iff.mp h
  obtain ⟨text', htext', hbytes'⟩ := Option.map_eq_some_iff.mp h'
  have hchars := congrArg String.toList (String.toByteArray_inj.mp (hbytes.trans hbytes'.symm))
  rw [String.toList_ofList, String.toList_ofList] at hchars
  exact dumpsAscii_injective hfloats hv hw htext (hchars ▸ htext')

/-- **Domain separation of credential recovery.** The bytes of a request tell the name of its class,
its context and its canonical payload, and this tells the payload, but for the order of keys. The
bytes of a binding tell its five fields when only the operation key may have a NUL in it. So requests
that differ in one of these share a digest only if the hash function collides, and so do envelopes
that are bound to them. -/
theorem recovery_domain_separation {floats : Floats} (hfloats : floats.Lawful)
    (sha256 : ByteArray → String) :
    (∀ request request' context context' bytes,
      recoveryRequestBytes floats request context = some bytes →
      recoveryRequestBytes floats request' context' = some bytes →
      SameRequest floats request context request' context') ∧
    (∀ v w : JsonValue, v.Proper → w.Proper → ∀ canonical, canonicalJson floats v = some canonical →
      canonicalJson floats w = some canonical → v.sortKeys = w.sortKeys) ∧
    (∀ e e' : EnvelopeBinding, e.Plain → e'.Plain → e.aad = e'.aad → e = e') ∧
    (∀ request request' context context' digest,
      recoveryRequestDigest sha256 floats request context = some digest →
      recoveryRequestDigest sha256 floats request' context' = some digest →
      SameRequest floats request context request' context' ∨ Collides sha256) ∧
    ∀ (e e' : EnvelopeBinding) (request request' : RequestModel) (context context' : String),
      e.Plain → e'.Plain →
      recoveryRequestDigest sha256 floats request context = some e.requestDigest →
      recoveryRequestDigest sha256 floats request' context' = some e'.requestDigest →
      e.aad = e'.aad →
      e = e' ∧ (SameRequest floats request context request' context' ∨ Collides sha256) := by
  refine ⟨fun _ _ _ _ _ => sameRequest_of_bytes hfloats,
    fun _ _ hv hw _ => payload_of_canonicalJson hfloats hv hw, fun _ _ => aad_injective,
    fun _ _ _ _ _ => sameRequest_of_digest hfloats, ?_⟩
  intro e e' request request' context context' he he' h h' haad
  obtain rfl := aad_injective he he' haad
  exact ⟨rfl, sameRequest_of_digest hfloats h h'⟩

/-- A binding with an operation key of the caller. -/
def spawnBinding (operationKey : String) : EnvelopeBinding where
  operationType := "SPAWN"
  callerNodeId := "c1"
  operationKey := operationKey
  requestDigest := "ab12"
  subjectNodeId := "n1"

/-- A request to spawn a node of a role. -/
def spawnRequest (role : String) : RequestModel where
  className := "SpawnCreate"
  fields := [("operation_key", .str "key"), ("role", .str role), ("instruction", .dict []),
    ("capabilities", .list []), ("behavior", .str "cooperative")]
  identifier := by decide

/-- A NUL in an operation key or in a context does not make it into two fields. -/
theorem recovery_domain_separation_sample :
    (spawnBinding "key\x00ab12\x00n2").aad ≠ (spawnBinding "key").aad ∧
    recoveryRequestDigest byteText sampleFloats (spawnRequest "worker") "c1\x00\x7b\x7d" ≠
      recoveryRequestDigest byteText sampleFloats (spawnRequest "worker") "c1" := by
  have hplain (operationKey : String) : (spawnBinding operationKey).Plain :=
    ⟨(by decide : '\x00' ∉ "SPAWN".toList), (by decide : '\x00' ∉ "c1".toList),
      (by decide : '\x00' ∉ "ab12".toList), (by decide : '\x00' ∉ "n1".toList)⟩
  constructor
  · intro h
    have heq := (recovery_domain_separation sampleFloats_lawful byteText).2.2.1 _ _
      (hplain "key\x00ab12\x00n2") (hplain "key") h
    exact absurd heq (by decide)
  · intro h
    have hdigest : (recoveryRequestDigest byteText sampleFloats (spawnRequest "worker")
        "c1").isSome = true := by decide +kernel
    obtain ⟨digest, hdigest⟩ := Option.isSome_iff_exists.mp hdigest
    rcases (recovery_domain_separation sampleFloats_lawful byteText).2.2.2.1 _ _ _ _ digest
      (h.trans hdigest) hdigest with hsame | ⟨b, b', hne, hcollides⟩
    · exact absurd hsame.context (by decide)
    · exact hne (byteText_injective hcollides)

end TraceFence
