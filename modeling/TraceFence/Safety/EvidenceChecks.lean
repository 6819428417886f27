import TraceFence.Evidence

/-!
# The checks of evidence

What a successful `resolve_evidence_path` says: the checks that were passed, one after the other.

## Main results

* `resolveEvidencePath_eq_ok`, `verifyManifest_eq_ok` — the checks of a pointer and of a manifest
* `signed_of_checkSignature`, `derived_of_checkArtifacts` — what signatures and artifacts agree on
-/

namespace TraceFence

open Checked
open JsonValue (dict? text? dict?_eq_some text?_eq_some)

section

variable (rt : EvidenceRuntime)

/-- The value of the signature of a document. -/
def signatureValue (value : JsonValue) : JsonValue := field (field value "signature") "value"

/-- Where a pointer says that the files are. -/
def bundleDirectory (fs : FileTree) (path : Location) (pointer : JsonValue) : Location :=
  fs.resolve (joinPath path.dropLast ((text? (field pointer "bundle_dir")).getD ""))

/-- A derived artifact agrees with the bundle. -/
def Agrees (fs : FileTree) (bundleDir : Location) (bundle : List (String × JsonValue))
    (artifact : String × String) : Prop :=
  ∃ value, readJson rt fs (bundleDir ++ [artifact.1]) = .ok value ∧
    value.eq ((bundle.lookup artifact.2).getD
      (if artifact.2 = "violations" then .list [] else .null)) = true

end

variable {rt : EvidenceRuntime} {cfg : EvidenceSettings} {fs : FileTree} {path bundleDir : Location}
  {now : ℤ} {options : EvidenceOptions} {pointer manifest : JsonValue}
  {entries : List (String × JsonValue)} {key : ByteArray}

theorem sha256File_eq_ok {digest : String} :
    sha256File rt fs path = .ok digest ↔
      ∃ content, fs.file? path = some content ∧ rt.sha256 content = digest := by
  simp [sha256File]

/-- A document that passes has the signature that the key gives. -/
theorem signed_of_checkSignature {what : String}
    (h : checkSignature rt what entries key = .ok ()) :
    ∃ message, canonicalJsonBytes rt (unsigned entries) = .ok message ∧
      signatureValue (.dict entries) = .str (rt.hmacSha256 key message) := by
  unfold checkSignature documentSignature at h
  simp only [bind_eq_ok, ensure_eq_ok, require_eq_ok, pure_eq_ok, text?_eq_some] at h
  obtain ⟨-, -, expected, ⟨message, hmessage, rfl⟩, supplied, hsupplied, -, -, rfl⟩ := h
  exact ⟨message, hmessage, hsupplied⟩

/-- The names of the artifacts are names of files in a directory. -/
theorem joinPath_artifact {name : String} (h : name ∈ requiredArtifacts) (bundleDir : Location) :
    joinPath bundleDir name = bundleDir ++ [name] := by
  have hparts : ∀ name ∈ requiredArtifacts,
      name.toList.head? ≠ some '/' ∧ pathParts name = [name] := by decide
  obtain ⟨hhead, hname⟩ := hparts name h
  rw [joinPath, if_neg hhead, hname]

/-- The derived artifacts agree with the bundle. -/
theorem derived_of_checkArtifacts (h : checkArtifacts rt fs bundleDir entries = .ok ()) :
    ∃ bundle, readJson rt fs (bundleDir ++ ["bundle.json"]) = .ok (.dict bundle) ∧
      (∀ artifact ∈ bundleArtifacts, Agrees rt fs bundleDir bundle artifact) ∧
      readText fs (bundleDir ++ ["worker-output.txt"]) = .ok (workerOutput rt bundle).toList := by
  unfold checkArtifacts requireDict at h
  simp only [bind_eq_ok, ensure_eq_ok, require_eq_ok, forM_eq_ok, dict?_eq_some] at h
  obtain ⟨_, hread, bundle, rfl, -, hchecks, output, houtput, -, rfl, -⟩ := h
  refine ⟨bundle, hread, fun artifact hartifact => ?_, houtput⟩
  have hcheck := hchecks artifact hartifact
  unfold checkArtifact at hcheck
  simp only [bind_eq_ok, ensure_eq_ok] at hcheck
  exact hcheck

/-- Without legacy evidence a pointer is read. -/
theorem exists_pointer {result : Location × Option JsonValue} (hlegacy : options.allowLegacy = false)
    (h : resolveEvidencePath rt cfg fs now path options = .ok result) :
    ∃ value, readJson rt fs path = .ok value ∧ ∃ entries, pointer? value = some entries := by
  unfold resolveEvidencePath at h
  obtain ⟨value, hread, hrest⟩ := bind_eq_ok.mp h
  refine ⟨value, hread, ?_⟩
  cases hpointer : pointer? value with
  | some entries => exact ⟨entries, rfl⟩
  | none =>
    rw [hpointer] at hrest
    simp [hlegacy] at hrest

/-- A pointer that is read, and the checks that follow. -/
theorem resolveEvidencePath_eq_ok {result : Location × Option JsonValue}
    (hread : readJson rt fs path = .ok pointer) (hpointer : pointer? pointer = some entries)
    (h : resolveEvidencePath rt cfg fs now path options = .ok result) :
    ∃ key manifest, evidenceKey cfg options.signingKey = .ok key ∧ pointer = .dict entries ∧
      checkSignature rt "pointer" entries key = .ok () ∧
      (fs.resolve path.dropLast <+: bundleDirectory fs path pointer ∧
        fs.resolve path.dropLast ≠ bundleDirectory fs path pointer) ∧
      (∃ digest, sha256File rt fs (bundleDirectory fs path pointer ++ ["manifest.json"]) =
        .ok digest ∧ field pointer "manifest_sha256" = .str digest) ∧
      readJson rt fs (bundleDirectory fs path pointer ++ ["manifest.json"]) = .ok manifest ∧
      verifyManifest rt cfg fs now (bundleDirectory fs path pointer) manifest options = .ok () ∧
      result = (bundleDirectory fs path pointer ++ ["bundle.json"], some manifest) := by
  have hdict : pointer = .dict entries := by
    rw [pointer?, Option.filter_eq_some_iff, dict?_eq_some] at hpointer
    exact hpointer.1
  unfold resolveEvidencePath at h
  rw [hread] at h
  simp only [bind_eq_ok, Except.ok.injEq, exists_eq_left', hpointer, ensure_eq_ok, require_eq_ok,
    pure_eq_ok, text?_eq_some, Option.filter_eq_some_iff] at h
  obtain ⟨key, hkey, _, -, _, hsignature, name, ⟨hname, -⟩, _, hinside, _, -, digest, hdigest, _,
    hequal, manifest, hmanifest, _, hverify, -, -, -, -, hresult⟩ := h
  have hdirectory : fs.resolve (joinPath path.dropLast name) = bundleDirectory fs path pointer := by
    rw [bundleDirectory, hname, text?, Option.getD_some]
  rw [hdirectory] at hinside hdigest hmanifest hverify hresult
  exact ⟨key, manifest, hkey, hdict, hsignature, hinside, ⟨digest, hdigest, hequal⟩, hmanifest,
    hverify, hresult.symm⟩

/-- What follows from the checks of a manifest. -/
theorem verifyManifest_eq_ok
    (h : verifyManifest rt cfg fs now bundleDir manifest options = .ok ()) :
    ∃ entries key, manifest = .dict entries ∧ evidenceKey cfg options.signingKey = .ok key ∧
      checkSignature rt "manifest" entries key = .ok () ∧
      checkFiles rt fs bundleDir entries = .ok () ∧
      checkArtifacts rt fs bundleDir entries = .ok () := by
  unfold verifyManifest requireDict at h
  simp only [bind_eq_ok, require_eq_ok, dict?_eq_some] at h
  obtain ⟨entries, hentries, -, -, -, -, -, -, -, -, -, -, -, -, -, -, key, hkey, _, hsignature, _,
    hfiles, hartifacts⟩ := h
  exact ⟨entries, key, hentries, hkey, hsignature, hfiles, hartifacts⟩

end TraceFence
