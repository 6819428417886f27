import TraceFence.Safety.EvidenceRoundTrip

/-!
# Tampered evidence

What `resolve_evidence_path` accepts: a pointer and a manifest that were signed, the manifest that
the pointer names, and exactly the artifacts whose digests the manifest lists.

## Main definitions

* `Signed` — a document whose message was signed
* `Unforgeable` — no signature in the files is of a message that was not signed
* `ByteForByte` — the file with a digest, and no other
* `Authentic` — evidence that is what was signed

## Main results

* `resolved_evidence` — only authentic evidence is resolved, and evidence with another file in the
  place of one of its files is rejected
-/

namespace TraceFence

open Checked
open JsonValue (dict? text? dict?_eq_some text?_eq_some)

variable (rt : EvidenceRuntime) (cfg : EvidenceSettings)

/-- The message of a document, which is what its signature is of, was signed. -/
def Signed (signed : ByteArray → Prop) (entries : List (String × JsonValue)) : Prop :=
  ∃ message, canonicalJsonBytes rt (unsigned entries) = .ok message ∧ signed message

/-- No document among the files has the signature of a message that was not signed. -/
def Unforgeable (signed : ByteArray → Prop) (key : ByteArray) (fs : FileTree) : Prop :=
  ∀ path value message, readJson rt fs path = .ok value →
    signatureValue value = .str (rt.hmacSha256 key message) → signed message

/-- At a location is the file that has a digest, and no other file has it. -/
def ByteForByte (fs : FileTree) (path : Location) (digest : JsonValue) : Prop :=
  ∃ content, fs.file? path = some content ∧
    ∀ other, digest = .str (rt.sha256 other) ↔ other = content

/-- The files are those that the pointer and the manifest name. -/
structure Digested (fs : FileTree) (path : Location) (pointer manifest : JsonValue) : Prop where
  pointer_read : readJson rt fs path = .ok pointer
  manifest_read :
    readJson rt fs (bundleDirectory fs path pointer ++ ["manifest.json"]) = .ok manifest
  inside : fs.resolve path.dropLast <+: bundleDirectory fs path pointer ∧
    fs.resolve path.dropLast ≠ bundleDirectory fs path pointer
  manifest_bytes : ByteForByte rt fs (bundleDirectory fs path pointer ++ ["manifest.json"])
    (field pointer "manifest_sha256")
  artifact_bytes : ∀ name ∈ requiredArtifacts,
    ByteForByte rt fs (bundleDirectory fs path pointer ++ [name])
      (field (field manifest "files") name)
  only : ∃ files, field manifest "files" = .dict files ∧
    files.map Prod.fst ⊆ requiredArtifacts ∧ requiredArtifacts ⊆ files.map Prod.fst

/-- Evidence that is what was signed, with artifacts that agree with each other. -/
structure Authentic (signed : ByteArray → Prop) (fs : FileTree) (path : Location)
    (pointer manifest : List (String × JsonValue)) : Prop
    extends Digested rt fs path (.dict pointer) (.dict manifest) where
  pointer_signed : Signed rt signed pointer
  manifest_signed : Signed rt signed manifest
  derived : ∃ bundle,
    readJson rt fs (bundleDirectory fs path (.dict pointer) ++ ["bundle.json"]) =
      .ok (.dict bundle) ∧
    (∀ artifact ∈ bundleArtifacts,
      Agrees rt fs (bundleDirectory fs path (.dict pointer)) bundle artifact) ∧
    readText fs (bundleDirectory fs path (.dict pointer) ++ ["worker-output.txt"]) =
      .ok (workerOutput rt bundle).toList

variable {rt cfg} {fs : FileTree} {path bundleDir : Location} {now : ℤ} {options : EvidenceOptions}
  {pointer manifest : JsonValue} {entries : List (String × JsonValue)} {key : ByteArray}

/-! ### Digests -/

/-- With a hash without collisions only one file has a digest. -/
theorem ByteForByte.of_digest (hsha : Function.Injective rt.sha256) {content : ByteArray}
    (h : fs.file? path = some content) : ByteForByte rt fs path (.str (rt.sha256 content)) := by
  refine ⟨content, h, fun other => ⟨fun heq => ?_, fun heq => heq ▸ rfl⟩⟩
  exact (hsha (JsonValue.str.inj heq)).symm

theorem byteForByte_of_sha256File (hsha : Function.Injective rt.sha256) {digest : String}
    (h : sha256File rt fs path = .ok digest) : ByteForByte rt fs path (.str digest) := by
  obtain ⟨content, hcontent, rfl⟩ := sha256File_eq_ok.mp h
  exact .of_digest hsha hcontent

/-- The digest map lists the artifacts, each with its digest. -/
theorem digests_of_checkFiles (hsha : Function.Injective rt.sha256)
    (h : checkFiles rt fs bundleDir entries = .ok ()) :
    (∃ files, field (.dict entries) "files" = .dict files ∧
      files.map Prod.fst ⊆ requiredArtifacts ∧ requiredArtifacts ⊆ files.map Prod.fst) ∧
    ∀ name ∈ requiredArtifacts,
      ByteForByte rt fs (bundleDir ++ [name]) (field (field (.dict entries) "files") name) := by
  unfold checkFiles at h
  simp only [bind_eq_ok, ensure_eq_ok, require_eq_ok, forM_eq_ok, dict?_eq_some] at h
  obtain ⟨files, hdict, -, -, -, ⟨hsub, hall⟩, hchecks⟩ := h
  refine ⟨⟨files, hdict, hsub, hall⟩, fun name hname => ?_⟩
  obtain ⟨entry, hentry, rfl⟩ := List.mem_map.mp (hall hname)
  have hlookup : (files.lookup entry.1).isSome := by
    rw [List.lookup_isSome_iff]
    exact ⟨entry, hentry, beq_self_eq_true _⟩
  obtain ⟨expected, hexpected⟩ := Option.isSome_iff_exists.mp hlookup
  have hcheck := hchecks _ (JsonValue.mem_of_lookup hexpected)
  unfold checkFile at hcheck
  simp only [bind_eq_ok, ensure_eq_ok, text?_eq_some, joinPath_artifact hname] at hcheck
  obtain ⟨-, -, -, -, digest, hdigest, rfl⟩ := hcheck
  rw [hdict, field, JsonValue.get?_dict, hexpected]
  exact byteForByte_of_sha256File hsha hdigest

/-! ### Authentic evidence -/

/-- Evidence that is resolved has the files that its pointer and its manifest name. -/
theorem digested_of_resolve (hsha : Function.Injective rt.sha256)
    {result : Location × Option JsonValue}
    (hread : readJson rt fs path = .ok pointer) (hpointer : (pointer? pointer).isSome)
    (h : resolveEvidencePath rt cfg fs now path options = .ok result) :
    ∃ manifest, Digested rt fs path pointer manifest := by
  obtain ⟨entries, hentries⟩ := Option.isSome_iff_exists.mp hpointer
  obtain ⟨-, manifest, -, -, -, hinside, ⟨digest, hdigest, hlisted⟩, hmanifest, hverify, -⟩ :=
    resolveEvidencePath_eq_ok hread hentries h
  obtain ⟨entries, -, rfl, -, -, hfiles, -⟩ := verifyManifest_eq_ok hverify
  obtain ⟨honly, hartifacts⟩ := digests_of_checkFiles hsha hfiles
  refine ⟨.dict entries, hread, hmanifest, hinside, ?_, hartifacts, honly⟩
  rw [hlisted]
  exact byteForByte_of_sha256File hsha hdigest

/-- One digest is that of one file. -/
theorem ByteForByte.file?_eq {fs' : FileTree} {path' : Location} {digest : JsonValue}
    (h : ByteForByte rt fs path digest) (h' : ByteForByte rt fs' path' digest) :
    fs'.file? path' = fs.file? path := by
  obtain ⟨content, hcontent, honly⟩ := h
  obtain ⟨content', hcontent', honly'⟩ := h'
  obtain rfl := (honly content').mp ((honly' content').mpr rfl)
  rw [hcontent, hcontent']

/-- What is read depends on the bytes only. -/
theorem readJson_congr {fs' : FileTree} {path' : Location} (h : fs'.file? path' = fs.file? path) :
    readJson rt fs' path' = readJson rt fs path := by
  rw [readJson, readJson, readText, readText, h]

/-- Pointers that name one manifest lead to the same files. -/
theorem Digested.file?_eq {fs' : FileTree} {path' : Location} {pointer' manifest' : JsonValue}
    (h : Digested rt fs path pointer manifest) (h' : Digested rt fs' path' pointer' manifest')
    (heq : field pointer' "manifest_sha256" = field pointer "manifest_sha256") :
    ∀ name ∈ "manifest.json" :: requiredArtifacts,
      fs'.file? (bundleDirectory fs' path' pointer' ++ [name]) =
        fs.file? (bundleDirectory fs path pointer ++ [name]) := by
  have hbytes := h.manifest_bytes.file?_eq (heq ▸ h'.manifest_bytes)
  have hsame : manifest' = manifest := by
    have hread' := h'.manifest_read
    rw [readJson_congr hbytes, h.manifest_read] at hread'
    exact (Except.ok.inj hread').symm
  intro name hname
  rcases List.mem_cons.mp hname with rfl | hname
  · exact hbytes
  · exact (h.artifact_bytes name hname).file?_eq (hsame ▸ h'.artifact_bytes name hname)

/-- **Tampered evidence is rejected.** With a hash without collisions and signatures that are not
forged, evidence that is resolved was signed and is byte for byte what was signed, and another file
in the place of the manifest or of an artifact, wherever the pointer and its files are, makes
resolving fail. -/
theorem resolved_evidence (hsha : Function.Injective rt.sha256) {signed : ByteArray → Prop}
    (hunforgeable : ∀ key, evidenceKey cfg options.signingKey = .ok key →
      Unforgeable rt signed key fs)
    (hlegacy : options.allowLegacy = false) {bundlePath : Location} {document : Option JsonValue}
    (h : resolveEvidencePath rt cfg fs now path options = .ok (bundlePath, document)) :
    ∃ pointer manifest, Authentic rt signed fs path pointer manifest ∧
      bundlePath = bundleDirectory fs path (.dict pointer) ++ ["bundle.json"] ∧
      document = some (.dict manifest) ∧
      ∀ fs' now' path' options' pointer', readJson rt fs' path' = .ok pointer' →
        (pointer? pointer').isSome →
        field pointer' "manifest_sha256" = field (.dict pointer) "manifest_sha256" →
        (∃ name ∈ "manifest.json" :: requiredArtifacts,
          fs'.file? (bundleDirectory fs' path' pointer' ++ [name]) ≠
            fs.file? (bundleDirectory fs path (.dict pointer) ++ [name])) →
        ∃ failure, resolveEvidencePath rt cfg fs' now' path' options' = .error failure := by
  obtain ⟨value, hread, entries, hpointer⟩ := exists_pointer hlegacy h
  obtain ⟨key, value', hkey, rfl, hsignature, hinside, ⟨digest, hdigest, hlisted⟩, hmanifest,
    hverify, hresult⟩ := resolveEvidencePath_eq_ok hread hpointer h
  obtain ⟨manifest, key', rfl, hkey', hsignature', hfiles, hartifacts⟩ :=
    verifyManifest_eq_ok hverify
  obtain ⟨rfl, rfl⟩ := Prod.mk.inj hresult
  obtain ⟨honly, hbytes⟩ := digests_of_checkFiles hsha hfiles
  have hdigested : Digested rt fs path (.dict entries) (.dict manifest) :=
    ⟨hread, hmanifest, hinside, hlisted ▸ byteForByte_of_sha256File hsha hdigest, hbytes, honly⟩
  refine ⟨entries, manifest, ⟨hdigested, ?_, ?_, derived_of_checkArtifacts hartifacts⟩, rfl, rfl, ?_⟩
  · obtain ⟨message, hmessage, hvalue⟩ := signed_of_checkSignature hsignature
    exact ⟨message, hmessage, hunforgeable key hkey path _ message hread hvalue⟩
  · obtain ⟨message, hmessage, hvalue⟩ := signed_of_checkSignature hsignature'
    exact ⟨message, hmessage, hunforgeable key' hkey' _ _ message hmanifest hvalue⟩
  · intro fs' now' path' options' pointer' hread' hpointer' heq hchanged
    cases hresolve : resolveEvidencePath rt cfg fs' now' path' options' with
    | error failure => exact ⟨failure, rfl⟩
    | ok result =>
      -- evidence that is resolved has the same files, against what is assumed
      obtain ⟨name, hname, hne⟩ := hchanged
      obtain ⟨manifest', hdigested'⟩ := digested_of_resolve hsha hread' hpointer' hresolve
      exact absurd (hdigested.file?_eq hdigested' heq name hname) hne

/-- The key of the sample settings. -/
def sampleKey : ByteArray := sampleSettings.evidenceSigningKey.toUTF8

/-- What a document of a disk has the signature of, under that key. -/
def SignedOn (fs : FileTree) (message : ByteArray) : Prop :=
  ∃ path value, readJson sampleRuntime fs path = .ok value ∧
    signatureValue value = .str (sampleRuntime.hmacSha256 sampleKey message)

/-- A bundle that was just written, on a disk where nothing else was signed. -/
theorem resolved_evidence_sample : ∃ fs bundlePath document,
    resolveEvidencePath sampleRuntime sampleSettings fs 0 ["evidence", "latest.json"] {} =
      .ok (bundlePath, document) ∧
    ∃ pointer manifest, Authentic sampleRuntime (SignedOn fs) fs ["evidence", "latest.json"] pointer
      manifest := by
  have hbundle := complete_sampleBundle "report"
  have hfits := fits_sampleBundle "report"
  obtain ⟨fs, name, files, manifest, pointer, -, hpublished⟩ :=
    exists_published sampleRuntime_lawful evidenceKey_sample (by decide : "c0ffee" ≠ "")
      writable_sampleDisk hbundle hfits none
  have hresolve := @Published.resolve_eq _ _ _ _ _ _ _ _ _ _ _ 0 _ _ _ none hpublished
    sampleRuntime_lawful evidenceKey_sample (by decide) le_rfl hbundle hfits (by decide)
  have hunforgeable (key : ByteArray) (hkey : evidenceKey sampleSettings none = .ok key) :
      Unforgeable sampleRuntime (SignedOn fs) key fs := by
    intro path value message hread hvalue
    obtain rfl : key = sampleKey := Except.ok.inj (hkey.symm.trans evidenceKey_sample)
    exact ⟨path, value, hread, hvalue⟩
  obtain ⟨pointer, manifest, hauthentic, -⟩ := resolved_evidence byteText_injective
    hunforgeable rfl hresolve
  exact ⟨fs, _, _, hresolve, pointer, manifest, hauthentic⟩

end TraceFence
