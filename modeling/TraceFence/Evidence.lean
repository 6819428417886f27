import TraceFence.Lib.Checked
import TraceFence.Lib.FileTree
import TraceFence.Lib.JsonText

/-!
# Evidence bundles

`write_evidence_bundle` and `resolve_evidence_path`: a bundle is written as eleven artifacts, a
signed manifest of their digests and a signed pointer to the manifest, and read back with every
check. Hashes, the texts of floats and dates, and what the writer reads of Git are parameters.

## Main definitions

* `EvidenceRuntime` — what is used of the language's libraries
* `writeEvidenceBundle` — the writer
* `verifyManifest`, `resolveEvidencePath` — the reader
-/

namespace TraceFence

open Checked
open JsonValue (dict? text?)

/-! ### Surroundings -/

/-- An `EvidenceIntegrityError`, or another exception. -/
inductive EvidenceFailure
  | integrity (message : String)
  | raised (exception : String)
  deriving DecidableEq, Repr

/-- What is used of the libraries. Times are in microseconds. -/
structure EvidenceRuntime where
  floats : JsonText.Floats
  /-- `hashlib.sha256(...).hexdigest()`. -/
  sha256 : ByteArray → String
  /-- `hmac.new(key, message, hashlib.sha256).hexdigest()`. -/
  hmacSha256 : ByteArray → ByteArray → String
  str : JsonValue → String
  isoformat : ℤ → String
  /-- `datetime.fromisoformat`: the time, and whether it has a time zone. -/
  fromisoformat : String → Option (ℤ × Bool)
  /-- `strftime("%Y-%m-%dT%H%M%S.%fZ")`. -/
  strftime : ℤ → String

/-- `settings` and the version of the application. -/
structure EvidenceSettings where
  evidenceSigningKey : String
  applicationVersion : String

/-- `SCHEMA_VERSION`. -/
def schemaVersion : ℤ := 18

/-- `_git_metadata`. -/
structure GitMetadata where
  commit : Option String
  dirty : Option Bool

/-- The keyword arguments of the reader. -/
structure EvidenceOptions where
  allowLegacy : Bool := false
  signingKey : Option String := none
  expectedCommit : Option String := none
  maxAgeSeconds : Option ℤ := none
  expectedLiveApiUrl : Option String := none

variable (rt : EvidenceRuntime) (cfg : EvidenceSettings)

/-! ### Bytes and texts -/

/-- `canonical_json_bytes`. An integer with too many digits raises. -/
def canonicalJsonBytes (value : JsonValue) : Except EvidenceFailure ByteArray := do
  let text ← require (JsonText.dumps rt.floats value) (.raised "ValueError")
  return (String.ofList text).toUTF8

/-- `canonical_json_bytes(value) + b"\n"`. -/
def canonicalJsonLine (value : JsonValue) : Except EvidenceFailure ByteArray := do
  let text ← require (JsonText.dumps rt.floats value) (.raised "ValueError")
  return (String.ofList (text ++ ['\n'])).toUTF8

/-- Universal newlines. -/
def translateNewlines : List Char → List Char
  | '\r' :: '\n' :: rest => '\n' :: translateNewlines rest
  | '\r' :: rest => '\n' :: translateNewlines rest
  | c :: rest => c :: translateNewlines rest
  | [] => []

/-- `path.read_text(encoding="utf-8")`. -/
def readText (fs : FileTree) (path : Location) : Except EvidenceFailure (List Char) := do
  let content ← require (fs.file? path) (.raised "OSError")
  let text ← require (String.fromUTF8? content) (.raised "UnicodeDecodeError")
  return translateNewlines text.toList

/-- `json.loads(path.read_text(encoding="utf-8"))`. -/
def readJson (fs : FileTree) (path : Location) : Except EvidenceFailure JsonValue := do
  let text ← readText fs path
  require (JsonText.loads rt.floats text) (.raised "JSONDecodeError")

/-- `sha256_file`. -/
def sha256File (fs : FileTree) (path : Location) : Except EvidenceFailure String := do
  let content ← require (fs.file? path) (.raised "OSError")
  return rt.sha256 content

/-- The names of a relative path. -/
def pathParts (path : String) : List String :=
  ((path.toList.splitOn '/').map String.ofList).filter fun name => name ≠ "" ∧ name ≠ "."

/-- `base / path`: an absolute path replaces the base. -/
def joinPath (base : Location) (path : String) : Location :=
  if path.toList.head? = some '/' then pathParts path else base ++ pathParts path

/-- `Path(path).name`. -/
def pathName (path : String) : String := (pathParts path).getLast?.getD ""

/-- `url.rstrip("/")`. -/
def stripSlashes (url : String) : String :=
  String.ofList ((url.toList.reverse.dropWhile (· = '/')).reverse)

/-! ### Keys and signatures -/

/-- `_evidence_key`. -/
def evidenceKey (explicit : Option String) : Except EvidenceFailure ByteArray := do
  let value := match explicit with
    | some key => if key = "" then cfg.evidenceSigningKey else key
    | none => cfg.evidenceSigningKey
  ensure (32 ≤ value.length) (.integrity
    ("Evidence signing requires an independent TRACEFENCE_EVIDENCE_SIGNING_KEY " ++
      "of at least 32 characters"))
  return value.toUTF8

/-- The entries of an object without its signature. -/
def unsigned (entries : List (String × JsonValue)) : JsonValue :=
  .dict (entries.filter fun entry => entry.1 ≠ "signature")

/-- `_manifest_signature` and `_pointer_signature`. -/
def documentSignature (entries : List (String × JsonValue)) (key : ByteArray) :
    Except EvidenceFailure String := do
  let message ← canonicalJsonBytes rt (unsigned entries)
  return rt.hmacSha256 key message

/-- `sha256_bytes(key)[:16]`. -/
def keyId (key : ByteArray) : String := String.ofList ((rt.sha256 key).toList.take 16)

/-- An object with its signature. -/
def signDocument (entries : List (String × JsonValue)) (key : ByteArray) :
    Except EvidenceFailure JsonValue := do
  let value ← documentSignature rt entries key
  return .dict (entries ++ [("signature", .dict [("algorithm", .str "HMAC-SHA256"),
    ("key_id", .str (keyId rt key)), ("value", .str value)])])

/-- `value.get(name)`. -/
def field (value : JsonValue) (name : String) : JsonValue := (value.get? name).getD .null

/-- The entries of an object. Any other value has no `get`. -/
def requireDict (value : JsonValue) : Except EvidenceFailure (List (String × JsonValue)) :=
  require (dict? value) (.raised "AttributeError")

/-- Whether a document has a signature of the only kind there is. `what` is the document. -/
def checkAlgorithm (what : String) (entries : List (String × JsonValue)) :
    Except EvidenceFailure Unit :=
  ensure (text? (field (field (.dict entries) "signature") "algorithm") = some "HMAC-SHA256")
    (.integrity s!"Evidence {what} signature is missing or unsupported")

/-- Whether the signature of a document is the one that the key gives. -/
def checkSignature (what : String) (entries : List (String × JsonValue)) (key : ByteArray) :
    Except EvidenceFailure Unit := do
  let signature := field (.dict entries) "signature"
  ensure (text? (field signature "key_id") = some (keyId rt key))
    (.integrity s!"Evidence {what} was signed by a different key")
  let expected ← documentSignature rt entries key
  let supplied ← require (text? (field signature "value"))
    (.integrity s!"Evidence {what} signature is invalid")
  -- texts are compared in constant time only if they are ASCII
  ensure ((supplied.toList.all fun c => c.toNat < 128) = true) (.raised "TypeError")
  ensure (supplied = expected) (.integrity s!"Evidence {what} signature is invalid")

/-! ### Writing -/

/-- `REQUIRED_ARTIFACTS`. -/
def requiredArtifacts : List String :=
  ["actions.json", "bundle.json", "command.json", "graph.json", "proof.json", "recovery.json",
    "run.json", "services.json", "sibling-check.json", "violations.json", "worker-output.txt"]

/-- `_BUNDLE_ARTIFACTS`. -/
def bundleArtifacts : List (String × String) :=
  [("actions.json", "actions"), ("command.json", "command"), ("graph.json", "graph"),
    ("proof.json", "proof"), ("recovery.json", "recovery"), ("run.json", "run"),
    ("services.json", "services"), ("sibling-check.json", "sibling_check"),
    ("violations.json", "violations")]

/-- `validate_evidence_generation`: the commit and the key. -/
def validateEvidenceGeneration (git : GitMetadata) (signingKey : Option String) :
    Except EvidenceFailure (String × ByteArray) := do
  let key ← evidenceKey cfg signingKey
  let commit ← require (git.commit.filter (· ≠ ""))
    (.integrity "Evidence generation requires a Git repository with a committed HEAD")
  ensure (git.dirty = some false)
    (.integrity ("Evidence generation requires a clean Git worktree; " ++
      "commit or discard changes first"))
  return (commit, key)

/-- `value[key]`. -/
def requireKey (value : JsonValue) (key : String) : Except EvidenceFailure JsonValue :=
  match value with
  | .dict entries => require (entries.lookup key) (.raised "KeyError")
  | _ => .error (.raised "TypeError")

/-- The names a bundle directory may have: a number is added until one is free. -/
def candidate (name : String) : ℕ → String
  | 0 => name
  | suffix + 1 => s!"{name}-{suffix + 1}"

/-- The first free name. Of one name more than there are nodes one is free. -/
def freshName (fs : FileTree) (outputDir : Location) (name : String) : Option String :=
  ((List.range (fs.nodes.length + 1)).map (candidate name)).find? fun name =>
    !fs.isThere (outputDir ++ [name])

/-- `bundle_dir.mkdir(parents=True, exist_ok=False)`. -/
def makeBundleDirectory (fs : FileTree) (outputDir : Location) (name : String) :
    Except EvidenceFailure FileTree := do
  let fs ← require (fs.makeDirectories [] outputDir) (.raised "OSError")
  ensure ((fs.node (fs.resolve outputDir ++ [name])).isNone) (.raised "FileExistsError")
  return fs.put (fs.resolve outputDir ++ [name]) .directory

/-- `_atomic_private_write(dir / name, content)`: the file takes the place of what has its name. -/
def atomicPrivateWrite (fs : FileTree) (dir : Location) (name : String) (content : ByteArray) :
    Except EvidenceFailure FileTree := do
  let fs ← require (fs.makeDirectories [] dir) (.raised "OSError")
  match fs.node (fs.resolve dir ++ [name]) with
  | some .directory => .error (.raised "IsADirectoryError")
  | _ => return fs.put (fs.resolve dir ++ [name]) (.file content)

/-- The artifacts that are JSON documents. -/
def artifacts (bundle : List (String × JsonValue)) :
    Except EvidenceFailure (List (String × JsonValue)) := do
  return [("run.json", ← requireKey (.dict bundle) "run"),
    ("command.json", ← requireKey (.dict bundle) "command"),
    ("recovery.json", ← requireKey (.dict bundle) "recovery"),
    ("sibling-check.json", ← requireKey (.dict bundle) "sibling_check"),
    ("proof.json", ← requireKey (.dict bundle) "proof"),
    ("graph.json", ← requireKey (.dict bundle) "graph"),
    ("actions.json", ← requireKey (.dict bundle) "actions"),
    ("services.json", ← requireKey (.dict bundle) "services"),
    ("violations.json", (bundle.lookup "violations").getD (.list [])),
    ("bundle.json", .dict bundle)]

/-- `str(bundle.get("worker_output", ""))`. -/
def workerOutput (bundle : List (String × JsonValue)) : String :=
  rt.str ((bundle.lookup "worker_output").getD (.str ""))

/-- `live_api_url.rstrip("/") if live_api_url else None`. -/
def liveApi : Option String → JsonValue
  | some url => if url = "" then .null else .str (stripSlashes url)
  | none => .null

/-- The manifest, without its signature. -/
def manifestEntries (now : ℤ) (liveApiUrl : Option String) (runId commandId : JsonValue)
    (commit : String) (files : List (String × JsonValue)) : List (String × JsonValue) :=
  [("manifest_version", .int 2), ("generated_at", .str (rt.isoformat now)),
    ("application_version", .str cfg.applicationVersion), ("schema_version", .int schemaVersion),
    ("live_api_url", liveApi liveApiUrl), ("run_id", runId), ("command_id", commandId),
    ("git", .dict [("commit", .str commit), ("dirty", .bool false)]), ("files", .dict files)]

/-- The pointer, without its signature. -/
def pointerEntries (name manifestSha256 : String) (bundleSha256 : JsonValue) :
    List (String × JsonValue) :=
  [("pointer_version", .int 2), ("bundle_dir", .str name), ("manifest_sha256", .str manifestSha256),
    ("bundle_sha256", bundleSha256)]

/-- `write_evidence_bundle`: the files, and the location of the pointer. -/
def writeEvidenceBundle (fs : FileTree) (git : GitMetadata) (now : ℤ) (outputDir : Location)
    (bundle : List (String × JsonValue)) (signingKey liveApiUrl : Option String) :
    Except EvidenceFailure (FileTree × Location) := do
  let (commit, key) ← validateEvidenceGeneration cfg git signingKey
  let name ← require (freshName fs outputDir (rt.strftime now)) (.raised "OSError")
  let bundleDir := outputDir ++ [name]
  let fs ← makeBundleDirectory fs outputDir name
  let documents ← artifacts bundle
  let fs ← documents.foldlM (fun fs document => do
    let content ← canonicalJsonLine rt document.2
    atomicPrivateWrite fs bundleDir document.1 content) fs
  let fs ← atomicPrivateWrite fs bundleDir "worker-output.txt" (workerOutput rt bundle).toUTF8
  let runId ← requireKey (← requireKey (.dict bundle) "run") "run_id"
  let commandId ← requireKey (← requireKey (.dict bundle) "command") "command_id"
  let files ← ((fs.fileNames (fs.resolve bundleDir)).insertionSort (· ≤ ·)).mapM fun name => do
    let digest ← sha256File rt fs (bundleDir ++ [name])
    return (name, JsonValue.str digest)
  let manifest ← signDocument rt
    (manifestEntries rt cfg now liveApiUrl runId commandId commit files) key
  let fs ← atomicPrivateWrite fs bundleDir "manifest.json" (← canonicalJsonLine rt manifest)
  let manifestSha256 ← sha256File rt fs (bundleDir ++ ["manifest.json"])
  let bundleSha256 ← requireKey (.dict files) "bundle.json"
  let pointer ← signDocument rt (pointerEntries name manifestSha256 bundleSha256) key
  let fs ← atomicPrivateWrite fs outputDir "latest.json" (← canonicalJsonLine rt pointer)
  return (fs, outputDir ++ ["latest.json"])

/-! ### Reading -/

/-- `datetime.fromisoformat(raw.replace("Z", "+00:00"))`. -/
def parseTime (raw : String) : Option (ℤ × Bool) :=
  rt.fromisoformat (String.ofList (raw.toList.flatMap fun c => if c = 'Z' then "+00:00".toList else [c]))

/-- When a manifest says it was generated. -/
def checkAge (manifest : List (String × JsonValue)) (now : ℤ) (maxAgeSeconds : Option ℤ) :
    Except EvidenceFailure Unit := do
  let raw ← require (text? (field (.dict manifest) "generated_at"))
    (.integrity "Evidence manifest generation time is missing")
  let (generatedAt, aware) ← require (parseTime rt raw)
    (.integrity "Evidence manifest generation time is invalid")
  ensure (aware = true) (.integrity "Evidence manifest generation time must include a timezone")
  ensure (generatedAt ≤ now + 300000000)
    (.integrity "Evidence manifest generation time is in the future")
  match maxAgeSeconds with
  | some seconds =>
    ensure (0 < seconds) (.integrity "Evidence maximum age must be positive")
    ensure (now - generatedAt ≤ seconds * 1000000)
      (.integrity "Evidence manifest is older than the allowed maximum age")
  | none => return ()

/-- The state of the repository a manifest names. -/
def checkGit (manifest : List (String × JsonValue)) (expectedCommit : Option String) :
    Except EvidenceFailure Unit := do
  let git := field (.dict manifest) "git"
  ensure ((dict? git).isSome) (.integrity "Evidence manifest Git metadata is missing")
  let commit ← require ((text? (field git "commit")).filter (· ≠ ""))
    (.integrity "Evidence manifest has no Git commit")
  ensure (field git "dirty" matches .bool false)
    (.integrity "Evidence was generated from a dirty or unknown Git tree")
  match expectedCommit with
  | some expected =>
    ensure (commit = expected)
      (.integrity "Evidence Git commit does not match the expected release commit")
  | none => return ()

/-- One entry of the digest map. -/
def checkFile (fs : FileTree) (bundleDir : Location) (entry : String × JsonValue) :
    Except EvidenceFailure Unit := do
  let (filename, expected) := entry
  ensure (pathName filename = filename)
    (.integrity "Evidence manifest contains an unsafe filename")
  let path := joinPath bundleDir filename
  ensure ((fs.file? path).isSome) (.integrity s!"Evidence artifact is missing: {filename}")
  let actual ← sha256File rt fs path
  ensure (text? expected = some actual)
    (.integrity s!"Evidence artifact digest mismatch: {filename}")

/-- The digest map. -/
def checkFiles (fs : FileTree) (bundleDir : Location) (manifest : List (String × JsonValue)) :
    Except EvidenceFailure Unit := do
  let files ← require (dict? (field (.dict manifest) "files"))
    (.integrity "Evidence manifest has no file digest map")
  ensure ("bundle.json" ∈ files.map Prod.fst)
    (.integrity "Evidence manifest has no file digest map")
  ensure (files.map Prod.fst ⊆ requiredArtifacts ∧ requiredArtifacts ⊆ files.map Prod.fst)
    (.integrity "Evidence manifest does not contain the complete fixed artifact set")
  files.forM (checkFile rt fs bundleDir)

/-- One derived artifact. -/
def checkArtifact (fs : FileTree) (bundleDir : Location) (bundle : List (String × JsonValue))
    (artifact : String × String) : Except EvidenceFailure Unit := do
  let (filename, key) := artifact
  let value ← readJson rt fs (bundleDir ++ [filename])
  let expected := (bundle.lookup key).getD (if key = "violations" then .list [] else .null)
  ensure (value.eq expected = true)
    (.integrity s!"Evidence artifact {filename} does not match bundle.json")

/-- `bundle.get(what, {}).get(name) != manifest.get(name)`. -/
def checkIdentity (manifest bundle : List (String × JsonValue)) (what name message : String) :
    Except EvidenceFailure Unit := do
  let part ← requireDict ((bundle.lookup what).getD (.dict []))
  ensure ((field (.dict part) name).eq (field (.dict manifest) name) = true) (.integrity message)

/-- The artifacts against the bundle. -/
def checkArtifacts (fs : FileTree) (bundleDir : Location) (manifest : List (String × JsonValue)) :
    Except EvidenceFailure Unit := do
  let bundle ← requireDict (← readJson rt fs (bundleDir ++ ["bundle.json"]))
  bundleArtifacts.forM (checkArtifact rt fs bundleDir bundle)
  let output ← readText fs (bundleDir ++ ["worker-output.txt"])
  ensure (output = (workerOutput rt bundle).toList)
    (.integrity "Evidence artifact worker-output.txt does not match bundle.json")
  checkIdentity manifest bundle "run" "run_id" "Manifest run ID does not match bundle"
  checkIdentity manifest bundle "command" "command_id" "Manifest command ID does not match bundle"

/-- `verify_manifest`. -/
def verifyManifest (fs : FileTree) (now : ℤ) (bundleDir : Location) (value : JsonValue)
    (options : EvidenceOptions) : Except EvidenceFailure Unit := do
  let manifest ← requireDict value
  ensure ((field value "manifest_version").eq (.int 2) = true)
    (.integrity "Unsupported or unsigned evidence manifest version")
  ensure ((field value "schema_version").eq (.int schemaVersion) = true)
    (.integrity "Evidence schema version does not match the running application")
  ensure (text? (field value "application_version") = some cfg.applicationVersion)
    (.integrity "Evidence application version does not match the running application")
  ensure (∀ url ∈ options.expectedLiveApiUrl,
      text? (field value "live_api_url") = some (stripSlashes url))
    (.integrity "Evidence live API does not match the authenticated verification target")
  checkAge rt manifest now options.maxAgeSeconds
  checkGit manifest options.expectedCommit
  checkAlgorithm "manifest" manifest
  let key ← evidenceKey cfg options.signingKey
  checkSignature rt "manifest" manifest key
  checkFiles rt fs bundleDir manifest
  checkArtifacts rt fs bundleDir manifest

/-- The pointer a value is, if it is one. -/
def pointer? (value : JsonValue) : Option (List (String × JsonValue)) :=
  (dict? value).filter fun _ => (field value "pointer_version").eq (.int 2)

/-- `resolve_evidence_path`. Paths are absolute. -/
def resolveEvidencePath (fs : FileTree) (now : ℤ) (path : Location) (options : EvidenceOptions) :
    Except EvidenceFailure (Location × Option JsonValue) := do
  let value ← readJson rt fs path
  match pointer? value with
  | some pointer =>
    let key ← evidenceKey cfg options.signingKey
    checkAlgorithm "pointer" pointer
    checkSignature rt "pointer" pointer key
    let name ← require ((text? (field value "bundle_dir")).filter (· ≠ ""))
      (.integrity "Evidence pointer has no bundle directory")
    let bundleDir := fs.resolve (joinPath path.dropLast name)
    let root := fs.resolve path.dropLast
    ensure (root <+: bundleDir ∧ root ≠ bundleDir)
      (.integrity "Evidence pointer escapes its root directory")
    let manifestPath := bundleDir ++ ["manifest.json"]
    ensure ((fs.file? manifestPath).isSome) (.integrity "Evidence manifest is missing")
    let digest ← sha256File rt fs manifestPath
    ensure (text? (field value "manifest_sha256") = some digest)
      (.integrity "Evidence manifest digest does not match pointer")
    let manifest ← readJson rt fs manifestPath
    verifyManifest rt cfg fs now bundleDir manifest options
    let bundlePath := bundleDir ++ ["bundle.json"]
    let digest ← sha256File rt fs bundlePath
    ensure (text? (field value "bundle_sha256") = some digest)
      (.integrity "Evidence bundle digest does not match pointer")
    return (bundlePath, some manifest)
  | none =>
    ensure (options.allowLegacy = true)
      (.integrity ("Unsigned legacy evidence is not accepted; " ++
        "provide a signed evidence/latest.json pointer"))
    return (path, none)

end TraceFence
