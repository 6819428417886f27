import TraceFence.Lib.JsonRoundTrip
import TraceFence.Safety.EvidenceChecks

/-!
# Evidence that is written and read back

What `write_evidence_bundle` leaves in the output directory, and when `resolve_evidence_path`
accepts it. Texts are read with universal newlines, and the output of the worker is the only text
that is not JSON.

## Main definitions

* `EvidenceRuntime.Lawful` — what is relied on of the libraries
* `Writable` — where evidence can be written
* `Complete` — a bundle with all that the writer takes from it

## Main results

* `evidence_round_trip` — when a bundle that is written is read back
-/

namespace TraceFence

open Checked
open JsonValue (dict? text? dict?_eq_some text?_eq_some)

/-! ### Texts -/

theorem translateNewlines_of_notMem {cs : List Char} (h : '\r' ∉ cs) :
    translateNewlines cs = cs := by
  induction cs using translateNewlines.induct with
  | case1 rest => exact absurd (List.mem_cons_self ..) h
  | case2 rest => exact absurd (List.mem_cons_self ..) h
  | case3 c rest hpair hreturn ih =>
    rw [translateNewlines, ih fun hrest => h (List.mem_cons_of_mem _ hrest)]
    · exact hpair
    · exact hreturn
  | case4 => rfl

theorem notMem_translateNewlines (cs : List Char) : '\r' ∉ translateNewlines cs := by
  induction cs using translateNewlines.induct with
  | case1 rest ih =>
    rw [translateNewlines, List.mem_cons, not_or]
    exact ⟨by decide, ih⟩
  | case2 rest hpair ih =>
    rw [translateNewlines, List.mem_cons, not_or]
    · exact ⟨by decide, ih⟩
    · exact hpair
  | case3 c rest hpair hreturn ih =>
    rw [translateNewlines, List.mem_cons, not_or]
    · refine ⟨?_, ih⟩
      rintro rfl
      exact hreturn rfl
    · exact hpair
    · exact hreturn
  | case4 => exact List.not_mem_nil

/-- Only carriage returns are lost. -/
theorem translateNewlines_eq_self {cs : List Char} : translateNewlines cs = cs ↔ '\r' ∉ cs :=
  ⟨fun h => h ▸ notMem_translateNewlines cs, translateNewlines_of_notMem⟩

theorem fromUTF8?_toUTF8 (s : String) : String.fromUTF8? s.toUTF8 = some s := by
  have hvalid : s.toUTF8.IsValidUTF8 := s.isValidUTF8
  rw [String.fromUTF8?, dif_pos hvalid]
  rfl

variable {rt : EvidenceRuntime} {cfg : EvidenceSettings} {fs fs' : FileTree} {path : Location}
  {v : JsonValue} {content : ByteArray}

theorem readText_eq {text : List Char} (h : fs.file? path = some (String.ofList text).toUTF8) :
    readText fs path = .ok (translateNewlines text) := by
  rw [readText, h]
  change (require (String.fromUTF8? (String.ofList text).toUTF8) _ >>= _) = _
  rw [fromUTF8?_toUTF8, ← String.toList_ofList (l := text)]
  simp [require, bind, Except.bind, pure, Except.pure]

/-- A document that was written is read back, with its keys in order. -/
theorem readJson_eq (hfloats : rt.floats.Lawful) (hv : v.Proper)
    (h : canonicalJsonLine rt v = .ok content) (hfile : fs.file? path = some content) :
    readJson rt fs path = .ok v.sortKeys := by
  unfold canonicalJsonLine at h
  simp only [bind_eq_ok, require_eq_ok, pure_eq_ok] at h
  obtain ⟨text, htext, rfl⟩ := h
  have hread := JsonText.loads_dumps hfloats hv htext
  have hprintable : JsonText.Printable text := by
    unfold JsonText.dumps at htext
    split at htext
    · obtain rfl := Option.some.inj htext
      exact JsonText.printable_render hfloats _
    · cases htext
  have hreturn : '\r' ∉ text ++ ['\n'] := by
    rw [List.mem_append, not_or]
    exact ⟨fun hmem => absurd (hprintable _ hmem) (by decide), by decide⟩
  rw [readJson, readText_eq hfile, translateNewlines_of_notMem hreturn]
  change require (JsonText.loads rt.floats (text ++ ['\n'])) _ = _
  rw [hread]
  rfl

/-! ### Signatures -/

theorem field_sortKeys (hv : v.Proper) (name : String) :
    field v.sortKeys name = (field v name).sortKeys := by
  rw [field, field, JsonValue.get?_sortKeys hv]
  cases v.get? name <;> rfl

variable {entries : List (String × JsonValue)} {key : ByteArray} {document : JsonValue}

/-- The order of its keys does not change what a document's signature is of. -/
theorem dumps_unsigned_sorted (floats : JsonText.Floats) (h : (JsonValue.dict entries).Proper) :
    JsonText.dumps floats
        (unsigned (JsonValue.sortEntries (entries.map fun e => (e.1, e.2.sortKeys)))) =
      JsonText.dumps floats (unsigned entries) := by
  have hsame := JsonValue.sortKeys_filter h fun name => decide (name ≠ "signature")
  have hfits := JsonText.fits_sortKeys
    (unsigned (JsonValue.sortEntries (entries.map fun e => (e.1, e.2.sortKeys))))
  have hfits' := JsonText.fits_sortKeys (unsigned entries)
  unfold unsigned at hfits hfits' ⊢
  rw [JsonText.dumps, JsonText.dumps, ← hfits, ← hfits', hsame]

theorem unsigned_concat (signature : JsonValue) :
    unsigned (entries ++ [("signature", signature)]) = unsigned entries := by
  rw [unsigned, unsigned, List.filter_append]
  simp

/-- The signature that a document is given. -/
def signatureOf (rt : EvidenceRuntime) (key message : ByteArray) : JsonValue :=
  .dict [("algorithm", .str "HMAC-SHA256"), ("key_id", .str (keyId rt key)),
    ("value", .str (rt.hmacSha256 key message))]

theorem proper_signatureOf (key message : ByteArray) : (signatureOf rt key message).Proper := by
  have hnodup : ["algorithm", "key_id", "value"].Nodup := by decide
  refine .dict hnodup fun e he => ?_
  simp only [List.mem_cons, List.not_mem_nil, or_false] at he
  rcases he with rfl | rfl | rfl
  · exact .str _ trivial
  · exact .str _ trivial
  · exact .str _ trivial

/-- A document with its signature. -/
structure SignedDocument (rt : EvidenceRuntime) (entries : List (String × JsonValue))
    (key : ByteArray) (document : JsonValue) : Prop where
  proper : document.Proper
  fields : ∀ name, name ≠ "signature" → field document name = field (.dict entries) name
  accepted : ∃ sorted, document.sortKeys = .dict sorted ∧
    ∀ what, checkAlgorithm what sorted = .ok () ∧ checkSignature rt what sorted key = .ok ()

/-- What the writer signs the reader accepts. -/
theorem signedDocument
    (hhex : ∀ message, ∀ c ∈ (rt.hmacSha256 key message).toList, c.toNat < 128)
    (hentries : (JsonValue.dict entries).Proper) (hkeys : "signature" ∉ entries.map Prod.fst)
    (h : signDocument rt entries key = .ok document) : SignedDocument rt entries key document := by
  unfold signDocument documentSignature at h
  simp only [bind_eq_ok, pure_eq_ok] at h
  obtain ⟨-, ⟨message, hmessage, rfl⟩, rfl⟩ := h
  change SignedDocument rt entries key (.dict (entries ++ [("signature", signatureOf rt key message)]))
  have hproper : (JsonValue.dict (entries ++ [("signature", signatureOf rt key message)])).Proper := by
    refine .dict ?_ fun e he => ?_
    · change ((entries ++ [("signature", signatureOf rt key message)]).map Prod.fst).Nodup
      rw [List.map_append]
      exact hentries.nodup.append (List.nodup_singleton _) (by simpa using hkeys)
    · rcases List.mem_append.mp he with he | he
      · exact hentries.of_mem he
      · obtain rfl := List.mem_singleton.mp he
        exact proper_signatureOf key message
  have hfind : field (.dict (entries ++ [("signature", signatureOf rt key message)])) "signature" =
      signatureOf rt key message := by
    rw [field, JsonValue.get?_dict,
      JsonValue.lookup_of_mem hproper.nodup (List.mem_append_right _ (List.mem_singleton_self _))]
    rfl
  refine ⟨hproper, fun name hname => ?_, ?_⟩
  · rw [field, field, JsonValue.get?_dict, JsonValue.get?_dict, List.lookup_append]
    have hother : [("signature", signatureOf rt key message)].lookup name = none := by
      rw [List.lookup_cons, beq_false_of_ne hname]
      rfl
    rw [hother, Option.or_none]
  · refine ⟨_, JsonValue.sortKeys_dict, fun what => ?_⟩
    have hsignature := field_sortKeys hproper "signature"
    rw [hfind, JsonValue.sortKeys_dict] at hsignature
    have hpart (name : String) : field (field (.dict (JsonValue.sortEntries
        ((entries ++ [("signature", signatureOf rt key message)]).map fun e =>
          (e.1, e.2.sortKeys)))) "signature") name =
        (field (signatureOf rt key message) name).sortKeys := by
      rw [hsignature, field_sortKeys (proper_signatureOf key message)]
    have hexpected : documentSignature rt (JsonValue.sortEntries
        ((entries ++ [("signature", signatureOf rt key message)]).map fun e =>
          (e.1, e.2.sortKeys))) key = .ok (rt.hmacSha256 key message) := by
      have hsame : canonicalJsonBytes rt (unsigned (JsonValue.sortEntries
          ((entries ++ [("signature", signatureOf rt key message)]).map fun e =>
            (e.1, e.2.sortKeys)))) = .ok message := by
        rw [canonicalJsonBytes, dumps_unsigned_sorted _ hproper, unsigned_concat]
        exact hmessage
      rw [documentSignature, hsame]
      rfl
    constructor
    · unfold checkAlgorithm
      rw [hpart]
      rfl
    · unfold checkSignature
      simp only [bind_eq_ok, ensure_eq_ok, require_eq_ok, hpart, hexpected]
      exact ⟨(), rfl, _, rfl, _, rfl, (),
        List.all_eq_true.mpr fun c hc => decide_eq_true (hhex message c hc), rfl⟩

theorem canonicalJsonBytes_of_fits (h : JsonText.fits v = true) :
    ∃ content, canonicalJsonBytes rt v = .ok content := by
  rw [canonicalJsonBytes, JsonText.dumps, if_pos h]
  exact ⟨_, rfl⟩

theorem canonicalJsonLine_of_fits (h : JsonText.fits v = true) :
    ∃ content, canonicalJsonLine rt v = .ok content := by
  rw [canonicalJsonLine, JsonText.dumps, if_pos h]
  exact ⟨_, rfl⟩

/-- A document that can be written can be signed, and then written. -/
theorem signDocument_of_fits (h : JsonText.fits (.dict entries) = true) :
    ∃ document, signDocument rt entries key = .ok document ∧ JsonText.fits document = true := by
  rw [JsonText.fits_dict] at h
  obtain ⟨message, hmessage⟩ := @canonicalJsonBytes_of_fits rt (unsigned entries)
    (JsonText.fits_dict.mpr fun e he => h e (List.mem_of_mem_filter he))
  refine ⟨.dict (entries ++ [("signature", signatureOf rt key message)]), ?_, ?_⟩
  · rw [signDocument, documentSignature, hmessage]
    rfl
  · rw [JsonText.fits_dict]
    intro e he
    rcases List.mem_append.mp he with he | he
    · exact h e he
    · obtain rfl := List.mem_singleton.mp he
      rfl

/-! ### Names -/

/-- A name that starts with a digit and names one thing. -/
def PlainName (name : String) : Prop :=
  '/' ∉ name.toList ∧ ∃ c, name.toList.head? = some c ∧ c.isDigit = true

theorem PlainName.head_ne {name : String} (h : PlainName name) {other : String}
    (hother : other.toList.head?.any Char.isDigit = false) : name ≠ other := by
  rintro rfl
  obtain ⟨-, c, hc, hdigit⟩ := h
  rw [hc, Option.any_some, hdigit] at hother
  cases hother

/-- A plain name is one name of a path. -/
theorem PlainName.joinPath {name : String} (h : PlainName name) (base : Location) :
    joinPath base name = base ++ [name] := by
  obtain ⟨hslash, c, hc, hdigit⟩ := id h
  have hhead : name.toList.head? ≠ some '/' := by
    rw [hc]
    rintro heq
    obtain rfl := Option.some.inj heq
    cases hdigit
  have hsplit : name.toList.splitOn '/' = [name.toList] := by
    refine List.splitOnP_eq_singleton fun c hc => beq_false_of_ne ?_
    rintro rfl
    exact hslash hc
  have hkeep : name ≠ "" ∧ name ≠ "." := ⟨h.head_ne (by simp), h.head_ne (by decide)⟩
  rw [TraceFence.joinPath, if_neg hhead, pathParts, hsplit, List.map_singleton, String.ofList_toList,
    List.filter_singleton, decide_eq_true hkeep]
  rfl

theorem toList_candidate (name : String) (n : ℕ) :
    (candidate name (n + 1)).toList = name.toList ++ '-' :: Nat.toDigits 10 (n + 1) := by
  change ((name ++ "-") ++ Nat.repr (n + 1)).toList = _
  rw [String.toList_append, String.toList_append, Nat.repr, String.toList_ofList,
    String.toList_ofList, List.append_assoc]
  rfl

theorem plainName_candidate {name : String} (h : PlainName name) (n : ℕ) :
    PlainName (candidate name n) := by
  cases n with
  | zero => exact h
  | succ n =>
    obtain ⟨hslash, c, hc, hdigit⟩ := h
    refine ⟨?_, c, ?_, hdigit⟩
    · rw [toList_candidate, List.mem_append, List.mem_cons, not_or, not_or]
      refine ⟨hslash, by decide, fun hmem => ?_⟩
      exact absurd (Nat.isDigit_of_mem_toDigits (by omega) (by omega) hmem) (by decide)
    · rw [toList_candidate, List.head?_append, hc]
      rfl

theorem candidate_injective (name : String) : Function.Injective (candidate name) := by
  intro m n h
  have hlist := congrArg String.toList h
  cases m with
  | zero =>
    cases n with
    | zero => rfl
    | succ n =>
      rw [toList_candidate] at hlist
      have hlength := congrArg List.length hlist
      simp [candidate] at hlength
  | succ m =>
    cases n with
    | zero =>
      rw [toList_candidate] at hlist
      have hlength := congrArg List.length hlist
      simp [candidate] at hlength
    | succ n =>
      rw [toList_candidate, toList_candidate] at hlist
      have hdigits := (List.cons.inj (List.append_cancel_left hlist)).2
      rw [← @Nat.ofDigitChars_ten_toDigits (m + 1), hdigits, Nat.ofDigitChars_ten_toDigits]

/-! ### The bundle directory -/

/-- The line that a document is written as, if it fits. -/
def line (rt : EvidenceRuntime) (v : JsonValue) : ByteArray :=
  ((canonicalJsonLine rt v).toOption).getD ByteArray.empty

/-- A file can be written in a directory, but not in the place of a directory. -/
theorem atomicPrivateWrite_eq {dir : Location} {file : String} (hdir : fs.Passable dir)
    (hnode : fs.node (fs.resolve dir ++ [file]) ≠ some .directory) :
    atomicPrivateWrite fs dir file content =
      .ok (fs.put (fs.resolve dir ++ [file]) (.file content)) := by
  have hmake : fs.makeDirectories [] dir = some fs := FileTree.makeDirectories_of_passable hdir
  rw [atomicPrivateWrite, hmake]
  simp only [require, bind, Except.bind]
  generalize fs.node (fs.resolve dir ++ [file]) = node at hnode ⊢
  rcases node with _ | ⟨_ | _ | _⟩
  · rfl
  · rfl
  · exact absurd rfl hnode
  · rfl

/-- A bundle directory while it is being filled. `root` is where the output directory is, `name` the
name of the bundle directory and `files` are the files that it has. -/
structure Staged (outputDir root : Location) (name : String) (t : FileTree)
    (files : List (String × ByteArray)) : Prop where
  resolved : t.resolve outputDir = root
  physical : t.Physical (root ++ [name])
  passable : t.Passable (outputDir ++ [name])
  content : ∀ file, t.node (root ++ [name] ++ [file]) = (files.lookup file).map .file
  latest : t.node (root ++ ["latest.json"]) ≠ some .directory
  unlinked : t.link? (root ++ ["latest.json"]) = none

namespace Staged

variable {outputDir root : Location} {name : String} {t : FileTree}
  {files : List (String × ByteArray)}

theorem link?_eq_none (h : Staged outputDir root name t files) (file : String) :
    t.link? (root ++ [name] ++ [file]) = none := by
  rw [FileTree.link?, h.content]
  cases files.lookup file <;> rfl

theorem resolve_eq (h : Staged outputDir root name t files) :
    t.resolve (outputDir ++ [name]) = root ++ [name] := by
  obtain ⟨hname, hlink⟩ := h.physical root name List.prefix_rfl
  rw [FileTree.resolve_concat, h.resolved, FileTree.step, if_neg hname, hlink]
  rfl

/-- What is written is there, under the path of the output directory and where that leads to. -/
theorem file?_eq (h : Staged outputDir root name t files) {file : String} (hfile : file ≠ "..") :
    t.file? (outputDir ++ [name] ++ [file]) = files.lookup file ∧
      t.file? (root ++ [name] ++ [file]) = files.lookup file := by
  have hstep : t.step (root ++ [name]) file = root ++ [name] ++ [file] := by
    rw [FileTree.step, if_neg hfile, h.link?_eq_none, Option.getD_none]
  constructor
  · refine FileTree.file?_of_node ?_
    rw [FileTree.resolve_concat, h.resolve_eq, hstep]
    exact h.content file
  · refine FileTree.file?_of_node ?_
    rw [FileTree.resolve_concat, FileTree.resolve_physical h.physical, hstep]
    exact h.content file

/-- Writing a file. -/
theorem write (h : Staged outputDir root name t files) (file : String) (content : ByteArray) :
    ∃ t', atomicPrivateWrite t (outputDir ++ [name]) file content = .ok t' ∧
      Staged outputDir root name t' ((file, content) :: files) := by
  have hdirectory : t.node (root ++ [name] ++ [file]) ≠ some .directory := by
    rw [h.content]
    cases files.lookup file <;> simp
  have hlink : (t.put (root ++ [name] ++ [file]) (.file content)).link? = t.link? :=
    FileTree.link?_put (h.link?_eq_none file) (by simp)
  have hlatest : root ++ ["latest.json"] ≠ root ++ [name] ++ [file] := by
    rw [List.append_assoc]
    intro heq
    have hlength := congrArg List.length (List.append_cancel_left heq)
    simp at hlength
  refine ⟨t.put (root ++ [name] ++ [file]) (.file content), ?_,
    (FileTree.resolve_congr hlink ▸ h.resolved), h.physical.congr hlink,
    h.passable.put hlink hdirectory, fun file' => ?_, ?_, ?_⟩
  · rw [← h.resolve_eq] at hdirectory ⊢
    exact atomicPrivateWrite_eq h.passable hdirectory
  · rw [FileTree.node_put, h.content, List.lookup_cons]
    by_cases hsame : file' = file
    · rw [if_pos (by rw [hsame]), beq_iff_eq.mpr hsame]
      rfl
    · rw [if_neg (by simpa using hsame), beq_false_of_ne hsame]
  · rw [FileTree.node_put, if_neg hlatest]
    exact h.latest
  · rw [hlink]
    exact h.unlinked

/-- Writing the pointer leaves the bundle directory alone. -/
theorem publish (h : Staged outputDir root name t files) (content : ByteArray) : ∃ t', atomicPrivateWrite t outputDir "latest.json" content = .ok t' ∧
      Staged outputDir root name t' files ∧
      t'.file? (outputDir ++ ["latest.json"]) = some content := by
  have hlink : (t.put (root ++ ["latest.json"]) (.file content)).link? = t.link? :=
    FileTree.link?_put h.unlinked (by simp)
  have hother (file : String) : root ++ [name] ++ [file] ≠ root ++ ["latest.json"] := by
    rw [List.append_assoc]
    intro heq
    have hlength := congrArg List.length (List.append_cancel_left heq)
    simp at hlength
  have hresolved : (t.put (root ++ ["latest.json"]) (.file content)).resolve outputDir = root :=
    FileTree.resolve_congr hlink ▸ h.resolved
  refine ⟨t.put (root ++ ["latest.json"]) (.file content), ?_, ⟨hresolved, h.physical.congr hlink,
    h.passable.put hlink h.latest, fun file => ?_, ?_, ?_⟩, ?_⟩
  · have hlatest := h.latest
    rw [← h.resolved] at hlatest ⊢
    exact atomicPrivateWrite_eq (fun before hbefore =>
      h.passable before (hbefore.trans (List.prefix_append _ _))) hlatest
  · rw [FileTree.node_put, if_neg (hother file), h.content]
  · rw [FileTree.node_put, if_pos rfl]
    simp
  · rw [hlink]
    exact h.unlinked
  · have hstep : FileTree.step (t.put (root ++ ["latest.json"]) (.file content)) root "latest.json" =
        root ++ ["latest.json"] := by
      rw [FileTree.step, if_neg (by decide), hlink, h.unlinked]
      rfl
    rw [FileTree.file?, FileTree.resolve_concat, hresolved, hstep, FileTree.node_put, if_pos rfl]

/-- The line of a document, which has one if it fits. -/
theorem canonicalJsonLine_eq (h : JsonText.fits v = true) :
    canonicalJsonLine rt v = .ok (line rt v) := by
  obtain ⟨content, hcontent⟩ := @canonicalJsonLine_of_fits rt v h
  rw [line, hcontent]
  rfl

/-- Writing documents. -/
theorem write_documents {documents : List (String × JsonValue)}
    (h : Staged outputDir root name t files)
    (hfits : ∀ document ∈ documents, JsonText.fits document.2 = true) :
    ∃ t', documents.foldlM (fun fs document => do
        let content ← canonicalJsonLine rt document.2
        atomicPrivateWrite fs (outputDir ++ [name]) document.1 content) t = .ok t' ∧
      Staged outputDir root name t'
        ((documents.map fun document => (document.1, line rt document.2)).reverse ++ files) := by
  induction documents generalizing t files with
  | nil => exact ⟨t, rfl, h⟩
  | cons document documents ih =>
    obtain ⟨hdocument, hdocuments⟩ := List.forall_mem_cons.mp hfits
    obtain ⟨next, hwrite, hnext⟩ := h.write document.1 (line rt document.2)
    obtain ⟨last, hrest, hlast⟩ := ih hnext hdocuments
    refine ⟨last, ?_, ?_⟩
    · rw [List.foldlM_cons, canonicalJsonLine_eq hdocument]
      change (atomicPrivateWrite t (outputDir ++ [name]) document.1 (line rt document.2) >>= _) = _
      rw [hwrite]
      exact hrest
    · rw [List.map_cons, List.reverse_cons, List.append_assoc]
      exact hlast

end Staged

/-- Where evidence can be written: an output directory that is there or can be made, in which
`latest.json` is a file, if it is there. -/
structure Writable (fs : FileTree) (outputDir : Location) : Prop where
  sound : fs.Sound
  straight : ".." ∉ outputDir
  made : (fs.makeDirectories [] outputDir).isSome
  latest : ∀ node, fs.node (fs.resolve outputDir ++ ["latest.json"]) = some node →
    ∃ content, node = .file content

theorem freshName_isSome {plain : String} (h : fs.Sound) (hplain : PlainName plain)
    (outputDir : Location) : ∃ name, freshName fs outputDir plain = some name ∧
      PlainName name ∧ fs.node (fs.resolve outputDir ++ [name]) = none := by
  have hback (n : ℕ) : candidate plain n ≠ ".." :=
    (plainName_candidate hplain n).head_ne (by decide)
  obtain ⟨n, hn, hfree⟩ := FileTree.exists_free h (candidate_injective plain) hback outputDir
  have hsome : (freshName fs outputDir plain).isSome := by
    rw [freshName, List.find?_isSome]
    refine ⟨_, List.mem_map_of_mem (List.mem_range.mpr hn), ?_⟩
    rw [hfree]
    rfl
  obtain ⟨name, hname⟩ := Option.isSome_iff_exists.mp hsome
  have hthere := List.find?_some hname
  obtain ⟨k, -, rfl⟩ := List.mem_map.mp (List.mem_of_find?_eq_some hname)
  refine ⟨_, hname, plainName_candidate hplain k, ?_⟩
  rw [FileTree.isThere_concat h (hback k), Bool.not_eq_true', Option.isSome_eq_false_iff,
    Option.isNone_iff_eq_none] at hthere
  exact hthere

/-- The writer finds a name and makes an empty bundle directory. -/
theorem exists_staged {outputDir : Location} {plain : String} (h : Writable fs outputDir)
    (hplain : PlainName plain) : ∃ name t, freshName fs outputDir plain = some name ∧
      PlainName name ∧ makeBundleDirectory fs outputDir name = .ok t ∧
      Staged outputDir (fs.resolve outputDir) name t [] := by
  obtain ⟨name, hfresh, hname, hfree⟩ := freshName_isSome h.sound hplain outputDir
  obtain ⟨made, hmade⟩ := Option.isSome_iff_exists.mp h.made
  obtain ⟨hsound, hpassable, hlinks, hnodes⟩ :=
    FileTree.makeDirectories_spec h.sound .nil h.straight hmade
  rw [List.nil_append] at hpassable hnodes
  -- nothing is made below where the output directory is
  have hsame (file : String) : made.node (fs.resolve outputDir ++ [file]) =
      fs.node (fs.resolve outputDir ++ [file]) := by
    rcases hnodes (fs.resolve outputDir ++ [file]) with hsame | ⟨-, -, hprefix⟩
    · exact hsame
    · have hlength := hprefix.length_le
      simp at hlength
  have hnone : made.node (fs.resolve outputDir ++ [name]) = none := (hsame name).trans hfree
  have hresolve := FileTree.resolve_congr hlinks
  have hlink := FileTree.link?_put_directory hnone
  have hname' : name ≠ ".." := hname.head_ne (by decide)
  have hlatest : name ≠ "latest.json" := hname.head_ne (by decide)
  have hphysical : made.Physical (fs.resolve outputDir ++ [name]) :=
    ((FileTree.physical_resolve h.sound outputDir).congr hlinks).concat hname'
      (FileTree.link?_of_none hnone)
  have hdirectory : (made.put (fs.resolve outputDir ++ [name]) .directory).resolve
      (outputDir ++ [name]) = fs.resolve outputDir ++ [name] := by
    rw [FileTree.resolve_concat, FileTree.resolve_congr hlink, hresolve, FileTree.step,
      if_neg hname', hlink, FileTree.link?_of_none hnone]
    rfl
  refine ⟨name, made.put (fs.resolve outputDir ++ [name]) .directory, hfresh, hname, ?_, ?_, ?_, ?_,
    fun file => ?_, ?_, ?_⟩
  · rw [makeBundleDirectory, hmade]
    change (ensure ((made.node (made.resolve outputDir ++ [name])).isNone) _ >>= _) = _
    rw [hresolve, hnone]
    rfl
  · rw [FileTree.resolve_congr hlink, hresolve]
  · exact hphysical.congr hlink
  · refine (hpassable.put hlink (by rw [hnone]; simp)).concat ?_
    rw [hdirectory, FileTree.node_put, if_pos rfl]
  · rw [FileTree.node_put, if_neg (by simp), hsound.none_below hnone]
    rfl
  · rw [FileTree.node_put, if_neg (by simpa using Ne.symm hlatest), hsame]
    intro heq
    obtain ⟨content, hcontent⟩ := h.latest _ heq
    cases hcontent
  · rw [hlink, FileTree.link?, hsame]
    cases hnode : fs.node (fs.resolve outputDir ++ ["latest.json"]) with
    | none => rfl
    | some node =>
      obtain ⟨content, rfl⟩ := h.latest node hnode
      rfl

/-! ### Bundles -/

/-- A bundle with all that the writer takes from it. `text` is the output of the worker. -/
structure Complete (bundle : List (String × JsonValue)) (text : String) : Prop where
  proper : (JsonValue.dict bundle).Proper
  required : ∀ key ∈ ["run", "command", "recovery", "sibling_check", "proof", "graph", "actions",
    "services"], (bundle.lookup key).isSome
  run : ∃ run id, bundle.lookup "run" = some (.dict run) ∧ run.lookup "run_id" = some id
  command : ∃ command id, bundle.lookup "command" = some (.dict command) ∧
    command.lookup "command_id" = some id
  output : bundle.lookup "worker_output" = some (.str text) ∨
    bundle.lookup "worker_output" = none ∧ text = ""

/-- What is relied on of the libraries, at the time of a bundle. -/
structure EvidenceRuntime.Lawful (rt : EvidenceRuntime) (now : ℤ) : Prop where
  floats : rt.floats.Lawful
  str : ∀ text, rt.str (.str text) = text
  isoformat : rt.fromisoformat (rt.isoformat now) = some (now, true)
  offset : 'Z' ∉ (rt.isoformat now).toList
  strftime : PlainName (rt.strftime now)
  hexdigest : ∀ key message, ∀ c ∈ (rt.hmacSha256 key message).toList, c.toNat < 128

variable {bundle : List (String × JsonValue)} {text : String}

/-- What a derived artifact is a copy of. -/
def derivedValue (bundle : List (String × JsonValue)) (key : String) : JsonValue :=
  (bundle.lookup key).getD (if key = "violations" then .list [] else .null)

/-- The documents of a complete bundle. -/
theorem artifacts_eq (h : Complete bundle text) : ∃ documents, artifacts bundle = .ok documents ∧
    documents.map Prod.fst = ["run.json", "command.json", "recovery.json", "sibling-check.json",
      "proof.json", "graph.json", "actions.json", "services.json", "violations.json",
      "bundle.json"] ∧
    ("bundle.json", .dict bundle) ∈ documents ∧
    (∀ artifact ∈ bundleArtifacts, (artifact.1, derivedValue bundle artifact.2) ∈ documents) ∧
    ∀ document ∈ documents, document.2 = .dict bundle ∨ document.2 = .list [] ∨
      ∃ key, bundle.lookup key = some document.2 := by
  have hfound (key : String) (hkey : key ∈ ["run", "command", "recovery", "sibling_check", "proof",
      "graph", "actions", "services"]) : ∃ value, bundle.lookup key = some value :=
    Option.isSome_iff_exists.mp (h.required key hkey)
  obtain ⟨run, hrun⟩ := hfound "run" (by decide)
  obtain ⟨command, hcommand⟩ := hfound "command" (by decide)
  obtain ⟨recovery, hrecovery⟩ := hfound "recovery" (by decide)
  obtain ⟨sibling, hsibling⟩ := hfound "sibling_check" (by decide)
  obtain ⟨proof, hproof⟩ := hfound "proof" (by decide)
  obtain ⟨graph, hgraph⟩ := hfound "graph" (by decide)
  obtain ⟨actions, hactions⟩ := hfound "actions" (by decide)
  obtain ⟨services, hservices⟩ := hfound "services" (by decide)
  refine ⟨[("run.json", run), ("command.json", command), ("recovery.json", recovery),
    ("sibling-check.json", sibling), ("proof.json", proof), ("graph.json", graph),
    ("actions.json", actions), ("services.json", services),
    ("violations.json", (bundle.lookup "violations").getD (.list [])),
    ("bundle.json", .dict bundle)], ?_, rfl, by simp, ?_, ?_⟩
  · simp [artifacts, requireKey, hrun, hcommand, hrecovery, hsibling, hproof, hgraph, hactions,
      hservices, require, bind, Except.bind, pure, Except.pure]
  · simp [bundleArtifacts, derivedValue, hrun, hcommand, hrecovery, hsibling, hproof, hgraph,
      hactions, hservices]
  · intro document hdocument
    simp only [List.mem_cons, List.not_mem_nil, or_false] at hdocument
    rcases hdocument with rfl | rfl | rfl | rfl | rfl | rfl | rfl | rfl | rfl | rfl
    · exact .inr (.inr ⟨_, hrun⟩)
    · exact .inr (.inr ⟨_, hcommand⟩)
    · exact .inr (.inr ⟨_, hrecovery⟩)
    · exact .inr (.inr ⟨_, hsibling⟩)
    · exact .inr (.inr ⟨_, hproof⟩)
    · exact .inr (.inr ⟨_, hgraph⟩)
    · exact .inr (.inr ⟨_, hactions⟩)
    · exact .inr (.inr ⟨_, hservices⟩)
    · cases hviolations : bundle.lookup "violations" with
      | none => exact .inr (.inl rfl)
      | some value => exact .inr (.inr ⟨_, hviolations⟩)
    · exact .inl rfl

/-- The parts of a bundle are values of the language, which fit if the bundle does. -/
theorem Complete.part {value : JsonValue} (h : Complete bundle text)
    (hvalue : value = .dict bundle ∨ value = .list [] ∨ ∃ key, bundle.lookup key = some value) :
    value.Proper ∧ (JsonText.fits (.dict bundle) = true → JsonText.fits value = true) := by
  rcases hvalue with rfl | rfl | ⟨key, hlookup⟩
  · exact ⟨h.proper, id⟩
  · exact ⟨.list trivial fun v hv => absurd hv List.not_mem_nil, fun _ => rfl⟩
  · exact ⟨h.proper.of_lookup hlookup,
      fun hfits => JsonText.fits_dict.mp hfits _ (JsonValue.mem_of_lookup hlookup)⟩

/-! ### The writer -/

section Writer

variable {outputDir root : Location} {name : String} {t : FileTree}
  {files : List (String × ByteArray)}

/-- The files of a bundle directory, in order. -/
theorem Staged.fileNames (h : Staged outputDir root name t files)
    (hkeys : (files.map Prod.fst).Perm requiredArtifacts) :
    (t.fileNames (t.resolve (outputDir ++ [name]))).insertionSort (· ≤ ·) = requiredArtifacts := by
  have hmem (file : String) : file ∈ t.fileNames (root ++ [name]) ↔ file ∈ requiredArtifacts := by
    have hthere : (t.node (root ++ [name] ++ [file])).isSome ↔ file ∈ requiredArtifacts := by
      rw [h.content, Option.isSome_map, List.lookup_isSome_iff, ← hkeys.mem_iff, List.mem_map]
      exact exists_congr fun e => and_congr_right fun _ => by rw [beq_iff_eq, eq_comm]
    rw [FileTree.mem_fileNames, hthere, and_iff_right_iff_imp]
    intro hrequired
    have hback : file ≠ ".." := by
      rintro rfl
      exact absurd hrequired (by decide)
    rw [(h.file?_eq hback).2]
    rw [h.content, Option.isSome_map] at hthere
    exact hthere.mpr hrequired
  have hnodup : (t.fileNames (root ++ [name])).Nodup := List.nodup_dedup _
  have hperm : (t.fileNames (root ++ [name])).Perm requiredArtifacts :=
    (List.perm_ext_iff_of_nodup hnodup (by decide)).mpr hmem
  rw [h.resolve_eq]
  refine List.Perm.eq_of_pairwise (fun a b _ _ hab hba => le_antisymm hab hba)
    (List.pairwise_insertionSort _ _) ?_ ((List.perm_insertionSort _ _).trans hperm)
  decide

/-- The digests of files. -/
def digests (rt : EvidenceRuntime) (files : List (String × ByteArray)) :
    List (String × JsonValue) :=
  requiredArtifacts.map fun name =>
    (name, .str (rt.sha256 ((files.lookup name).getD ByteArray.empty)))

/-- The digest map of a bundle directory. -/
theorem Staged.digests (h : Staged outputDir root name t files)
    (hkeys : (files.map Prod.fst).Perm requiredArtifacts) :
    ((t.fileNames (t.resolve (outputDir ++ [name]))).insertionSort (· ≤ ·)).mapM (fun file => do
      let digest ← sha256File rt t (outputDir ++ [name] ++ [file])
      return (file, JsonValue.str digest)) = .ok (TraceFence.digests rt files) := by
  rw [h.fileNames hkeys]
  refine mapM_eq_map fun file hfile => ?_
  have hback : file ≠ ".." := by
    rintro rfl
    exact absurd hfile (by decide)
  have hsome : (files.lookup file).isSome := by
    rw [List.lookup_isSome_iff]
    obtain ⟨e, he, heq⟩ := List.mem_map.mp (hkeys.mem_iff.mpr hfile)
    exact ⟨e, he, beq_iff_eq.mpr heq.symm⟩
  obtain ⟨content, hcontent⟩ := Option.isSome_iff_exists.mp hsome
  rw [sha256File, (h.file?_eq hback).1, hcontent]
  rfl

theorem keys_digests : (TraceFence.digests rt files).map Prod.fst = requiredArtifacts := by
  rw [TraceFence.digests, List.map_map]
  exact List.map_id _

theorem proper_digests : (JsonValue.dict (TraceFence.digests rt files)).Proper := by
  refine .dict ?_ fun e he => ?_
  · change ((TraceFence.digests rt files).map Prod.fst).Nodup
    rw [keys_digests]
    decide
  · obtain ⟨name, -, rfl⟩ := List.mem_map.mp he
    exact .str _ trivial

theorem fits_digests : JsonText.fits (.dict (TraceFence.digests rt files)) = true := by
  rw [JsonText.fits_dict]
  intro e he
  obtain ⟨name, -, rfl⟩ := List.mem_map.mp he
  rfl

theorem proper_git (commit : String) :
    (JsonValue.dict [("commit", .str commit), ("dirty", .bool false)]).Proper := by
  have hnodup : ["commit", "dirty"].Nodup := by decide
  refine .dict hnodup fun e he => ?_
  simp only [List.mem_cons, List.not_mem_nil, or_false] at he
  rcases he with rfl | rfl
  · exact .str _ trivial
  · exact .bool _ trivial

/-- A manifest is a value of the language, which fits if what is taken from the bundle does. -/
theorem manifestEntries_spec {now : ℤ} {url : Option String} {runId commandId : JsonValue}
    {commit : String} (hrun : runId.Proper) (hcommand : commandId.Proper) :
    (JsonValue.dict (manifestEntries rt cfg now url runId commandId commit
      (TraceFence.digests rt files))).Proper ∧
    (JsonText.fits runId = true → JsonText.fits commandId = true →
      JsonText.fits (.dict (manifestEntries rt cfg now url runId commandId commit
        (TraceFence.digests rt files))) = true) := by
  have hurl : (liveApi url).Proper ∧ JsonText.fits (liveApi url) = true := by
    unfold liveApi
    split
    · split
      · exact ⟨.null trivial, rfl⟩
      · exact ⟨.str _ trivial, rfl⟩
    · exact ⟨.null trivial, rfl⟩
  constructor
  · have hnodup : ["manifest_version", "generated_at", "application_version", "schema_version",
        "live_api_url", "run_id", "command_id", "git", "files"].Nodup := by decide
    refine .dict hnodup fun e he => ?_
    simp only [manifestEntries, List.mem_cons, List.not_mem_nil, or_false] at he
    rcases he with rfl | rfl | rfl | rfl | rfl | rfl | rfl | rfl | rfl
    · exact .int _ trivial
    · exact .str _ trivial
    · exact .str _ trivial
    · exact .int _ trivial
    · exact hurl.1
    · exact hrun
    · exact hcommand
    · exact proper_git commit
    · exact proper_digests
  · intro hfitsRun hfitsCommand
    rw [JsonText.fits_dict]
    intro e he
    simp only [manifestEntries, List.mem_cons, List.not_mem_nil, or_false] at he
    rcases he with rfl | rfl | rfl | rfl | rfl | rfl | rfl | rfl | rfl
    · exact (by decide : JsonText.fits (.int 2) = true)
    · rfl
    · rfl
    · exact (by decide : JsonText.fits (.int 18) = true)
    · exact hurl.2
    · exact hfitsRun
    · exact hfitsCommand
    · rfl
    · exact fits_digests

theorem proper_pointerEntries (name manifestSha256 bundleSha256 : String) :
    (JsonValue.dict (pointerEntries name manifestSha256 (.str bundleSha256))).Proper := by
  have hnodup : ["pointer_version", "bundle_dir", "manifest_sha256", "bundle_sha256"].Nodup := by
    decide
  refine .dict hnodup fun e he => ?_
  simp only [pointerEntries, List.mem_cons, List.not_mem_nil, or_false] at he
  rcases he with rfl | rfl | rfl | rfl
  · exact .int _ trivial
  · exact .str _ trivial
  · exact .str _ trivial
  · exact .str _ trivial

/-- What the writer leaves: the files of the bundle directory, a signed manifest of their digests
and a signed pointer to the manifest. -/
structure Published (rt : EvidenceRuntime) (cfg : EvidenceSettings) (key : ByteArray) (now : ℤ)
    (commit : String) (bundle : List (String × JsonValue)) (outputDir root : Location)
    (name : String) (t : FileTree) (files : List (String × ByteArray))
    (manifest pointer : JsonValue) : Prop where
  plain : PlainName name
  staged : Staged outputDir root name t files
  latest : t.file? (outputDir ++ ["latest.json"]) = some (line rt pointer)
  manifest_file : files.lookup "manifest.json" = some (line rt manifest)
  output_file : files.lookup "worker-output.txt" = some (workerOutput rt bundle).toUTF8
  bundle_file : files.lookup "bundle.json" = some (line rt (.dict bundle))
  derived_file : ∀ artifact ∈ bundleArtifacts,
    files.lookup artifact.1 = some (line rt (derivedValue bundle artifact.2))
  there : ∀ name ∈ requiredArtifacts, (files.lookup name).isSome
  manifest_fits : JsonText.fits manifest = true
  pointer_fits : JsonText.fits pointer = true
  manifest_signed : ∃ url run runId command commandId, bundle.lookup "run" = some (.dict run) ∧
    run.lookup "run_id" = some runId ∧ bundle.lookup "command" = some (.dict command) ∧
    command.lookup "command_id" = some commandId ∧
    SignedDocument rt (manifestEntries rt cfg now url runId commandId commit
      (TraceFence.digests rt files)) key manifest
  pointer_signed : SignedDocument rt (pointerEntries name (rt.sha256 (line rt manifest))
    (.str (rt.sha256 (line rt (.dict bundle))))) key pointer

/-- The artifacts are written, each under its name. -/
theorem Staged.fill {documents : List (String × JsonValue)} (h : Staged outputDir root name t [])
    (hnames : documents.map Prod.fst = ["run.json", "command.json", "recovery.json",
      "sibling-check.json", "proof.json", "graph.json", "actions.json", "services.json",
      "violations.json", "bundle.json"])
    (hfits : ∀ document ∈ documents, JsonText.fits document.2 = true) (output : ByteArray) :
    ∃ filled complete files, documents.foldlM (fun fs document => do
        let content ← canonicalJsonLine rt document.2
        atomicPrivateWrite fs (outputDir ++ [name]) document.1 content) t = .ok filled ∧
      atomicPrivateWrite filled (outputDir ++ [name]) "worker-output.txt" output = .ok complete ∧
      Staged outputDir root name complete files ∧
      (files.map Prod.fst).Perm requiredArtifacts ∧
      files.lookup "worker-output.txt" = some output ∧
      ∀ document ∈ documents, files.lookup document.1 = some (line rt document.2) := by
  obtain ⟨filled, hfilled, hstaged⟩ := @Staged.write_documents rt _ _ _ _ _ documents h hfits
  obtain ⟨complete, hcomplete, hstaged⟩ := hstaged.write "worker-output.txt" output
  rw [List.append_nil] at hstaged
  have hkeys : ((("worker-output.txt", output) ::
      (documents.map fun document => (document.1, line rt document.2)).reverse).map Prod.fst) =
        "worker-output.txt" :: (documents.map Prod.fst).reverse := by
    rw [List.map_cons, List.map_reverse, List.map_map]
    rfl
  rw [hnames] at hkeys
  refine ⟨filled, complete, _, hfilled, hcomplete, hstaged, by rw [hkeys]; decide,
    List.lookup_cons_self, fun document hdocument => ?_⟩
  refine JsonValue.lookup_of_mem (by rw [hkeys]; decide) (List.mem_cons_of_mem _ ?_)
  exact List.mem_reverse.mpr (List.mem_map.mpr ⟨document, hdocument, rfl⟩)

/-- The manifest is not among the files it lists. -/
theorem digests_cons (content : ByteArray) :
    TraceFence.digests rt (("manifest.json", content) :: files) = TraceFence.digests rt files := by
  refine List.map_congr_left fun name hname => ?_
  have hne : name ≠ "manifest.json" := by
    rintro rfl
    exact absurd hname (by decide)
  rw [List.lookup_cons, beq_false_of_ne hne]

theorem lookup_digests {name : String} (hname : name ∈ requiredArtifacts) {content : ByteArray}
    (h : files.lookup name = some content) :
    (TraceFence.digests rt files).lookup name = some (.str (rt.sha256 content)) := by
  refine JsonValue.lookup_of_mem (proper_digests.nodup) (List.mem_map.mpr ⟨name, hname, ?_⟩)
  rw [h]
  rfl

/-- **The writer succeeds** for a complete bundle that fits. -/
theorem exists_published {now : ℤ} {commit : String} {signingKey : Option String}
    (hrt : rt.Lawful now) (hkey : evidenceKey cfg signingKey = .ok key) (hcommit : commit ≠ "")
    (hfs : Writable fs outputDir) (hbundle : Complete bundle text)
    (hfits : JsonText.fits (.dict bundle) = true) (url : Option String) :
    ∃ t name files manifest pointer,
      writeEvidenceBundle rt cfg fs ⟨some commit, some false⟩ now outputDir bundle signingKey url =
        .ok (t, outputDir ++ ["latest.json"]) ∧
      Published rt cfg key now commit bundle outputDir (fs.resolve outputDir) name t files manifest
        pointer := by
  obtain ⟨name, made, hfresh, hname, hmade, hstaged⟩ := exists_staged hfs hrt.strftime
  obtain ⟨documents, hdocuments, hnames, hself, hderived, hparts⟩ := artifacts_eq hbundle
  obtain ⟨run, runId, hrun, hrunId⟩ := hbundle.run
  obtain ⟨command, commandId, hcommand, hcommandId⟩ := hbundle.command
  obtain ⟨filled, complete, files, hfilled, hcomplete, hstaged, hkeys, houtput, hlookup⟩ :=
    @Staged.fill rt _ _ _ _ documents hstaged hnames
      (fun document hdocument => (hbundle.part (hparts document hdocument)).2 hfits)
      (workerOutput rt bundle).toUTF8
  -- the manifest
  have hrunPart := hbundle.part (.inr (.inr ⟨"run", hrun⟩))
  have hcommandPart := hbundle.part (.inr (.inr ⟨"command", hcommand⟩))
  obtain ⟨hmanifestProper, hmanifestFits⟩ := @manifestEntries_spec rt cfg files now url runId
    commandId commit (hrunPart.1.of_lookup hrunId) (hcommandPart.1.of_lookup hcommandId)
  obtain ⟨manifest, hmanifest, hfitsManifest⟩ := @signDocument_of_fits rt _ key (hmanifestFits
    (JsonText.fits_dict.mp (hrunPart.2 hfits) _ (JsonValue.mem_of_lookup hrunId))
    (JsonText.fits_dict.mp (hcommandPart.2 hfits) _ (JsonValue.mem_of_lookup hcommandId)))
  obtain ⟨listed, hlisted, hstaged'⟩ := hstaged.write "manifest.json" (line rt manifest)
  -- the pointer
  have hbundleFile := hlookup _ hself
  obtain ⟨pointer, hpointer, hfitsPointer⟩ := @signDocument_of_fits rt
    (pointerEntries name (rt.sha256 (line rt manifest)) (.str (rt.sha256 (line rt (.dict bundle)))))
    key rfl
  obtain ⟨published, hpublished, hstaged'', hlatest⟩ := hstaged'.publish (line rt pointer)
  refine ⟨published, name, ("manifest.json", line rt manifest) :: files, manifest, pointer, ?_, ?_⟩
  · have hback : "manifest.json" ≠ ".." := by decide
    have hmanifestFile := (hstaged'.file?_eq hback).1
    rw [List.lookup_cons_self] at hmanifestFile
    have hvalid : validateEvidenceGeneration cfg ⟨some commit, some false⟩ signingKey =
        .ok (commit, key) := by
      rw [validateEvidenceGeneration, hkey]
      simp [Option.filter, hcommit, require, ensure, bind, Except.bind, pure, Except.pure]
    have hrunKey : requireKey (.dict bundle) "run" = .ok (.dict run) := by
      rw [requireKey, hrun]
      rfl
    have hcommandKey : requireKey (.dict bundle) "command" = .ok (.dict command) := by
      rw [requireKey, hcommand]
      rfl
    have hbundleKey : requireKey (.dict (TraceFence.digests rt files)) "bundle.json" =
        .ok (.str (rt.sha256 (line rt (.dict bundle)))) := by
      have hrequired : "bundle.json" ∈ requiredArtifacts := by decide
      rw [requireKey, lookup_digests hrequired hbundleFile]
      rfl
    unfold writeEvidenceBundle
    rw [bind_eq_ok]
    refine ⟨(commit, key), hvalid, ?_⟩
    simp only [bind_eq_ok, require_eq_ok, pure_eq_ok]
    refine ⟨name, hfresh, made, hmade, documents, hdocuments, filled, hfilled, complete, hcomplete,
      .dict run, hrunKey, runId, ?_, .dict command, hcommandKey, commandId, ?_,
      TraceFence.digests rt files, hstaged.digests hkeys, manifest, hmanifest, line rt manifest,
      Staged.canonicalJsonLine_eq hfitsManifest, listed, hlisted, rt.sha256 (line rt manifest), ?_,
      _, hbundleKey, pointer, hpointer, line rt pointer, Staged.canonicalJsonLine_eq hfitsPointer,
      published, hpublished, rfl⟩
    · rw [requireKey, hrunId]
      rfl
    · rw [requireKey, hcommandId]
      rfl
    · rw [sha256File, hmanifestFile]
      rfl
  · have hother {file : String} (hfile : file ≠ "manifest.json") :
        (("manifest.json", line rt manifest) :: files).lookup file = files.lookup file := by
      rw [List.lookup_cons, beq_false_of_ne hfile]
    refine ⟨hname, hstaged'', hlatest, List.lookup_cons_self, ?_, ?_, ?_, ?_, hfitsManifest,
      hfitsPointer, ⟨url, run, runId, command, commandId, hrun, hrunId, hcommand, hcommandId, ?_⟩, ?_⟩
    · rw [hother (by decide)]
      exact houtput
    · rw [hother (by decide)]
      exact hbundleFile
    · intro artifact hartifact
      have hne : ∀ artifact ∈ bundleArtifacts, artifact.1 ≠ "manifest.json" := by decide
      rw [hother (hne artifact hartifact)]
      exact hlookup _ (hderived artifact hartifact)
    · intro file hfile
      have hne : ∀ file ∈ requiredArtifacts, file ≠ "manifest.json" := by decide
      rw [hother (hne file hfile), List.lookup_isSome_iff]
      obtain ⟨e, he, heq⟩ := List.mem_map.mp (hkeys.mem_iff.mpr hfile)
      exact ⟨e, he, beq_iff_eq.mpr heq.symm⟩
    · rw [digests_cons]
      exact signedDocument (hrt.hexdigest key) hmanifestProper (by simp [manifestEntries]) hmanifest
    · exact signedDocument (hrt.hexdigest key) (proper_pointerEntries _ _ _)
        (by simp [pointerEntries]) hpointer

end Writer

/-! ### The reader -/

namespace Published

variable {outputDir root : Location} {name : String} {t : FileTree}
  {files : List (String × ByteArray)} {now later : ℤ} {commit : String} {manifest pointer : JsonValue}

/-- A document of the bundle directory is read back. -/
theorem read (h : Published rt cfg key now commit bundle outputDir root name t files manifest pointer)
    (hrt : rt.Lawful now) {file : String} (hfile : file ≠ "..") (hv : v.Proper)
    (hfits : JsonText.fits v = true) (hlookup : files.lookup file = some (line rt v)) :
    readJson rt t (root ++ [name] ++ [file]) = .ok v.sortKeys := by
  refine readJson_eq hrt.floats hv (Staged.canonicalJsonLine_eq hfits) ?_
  rw [(h.staged.file?_eq hfile).2, hlookup]

/-- A manifest that was just written is not from the future. -/
theorem checkAge_eq {sorted : List (String × JsonValue)} {url : Option String}
    {runId commandId : JsonValue} (hrt : rt.Lawful now) (hlater : now ≤ later)
    (hfield : field (.dict sorted) "generated_at" = (field (.dict (manifestEntries rt cfg now url
      runId commandId commit (TraceFence.digests rt files))) "generated_at").sortKeys) :
    checkAge rt sorted later none = .ok () := by
  have hraw : text? (field (.dict sorted) "generated_at") = some (rt.isoformat now) := by
    rw [hfield]
    rfl
  have hplain : (rt.isoformat now).toList.flatMap
      (fun c => if c = 'Z' then "+00:00".toList else [c]) = (rt.isoformat now).toList := by
    refine (List.flatMap_congr fun c hc => if_neg ?_).trans (List.flatMap_singleton' _)
    rintro rfl
    exact hrt.offset hc
  have htime : parseTime rt (rt.isoformat now) = some (now, true) := by
    rw [parseTime, hplain, String.ofList_toList, hrt.isoformat]
  have hpast : now ≤ later + 300000000 := by omega
  simp [checkAge, hraw, htime, hpast, require, ensure, bind, Except.bind, pure, Except.pure]

theorem checkGit_eq {sorted : List (String × JsonValue)} {url : Option String}
    {runId commandId : JsonValue} (hcommit : commit ≠ "")
    (hfield : field (.dict sorted) "git" = (field (.dict (manifestEntries rt cfg now url
      runId commandId commit (TraceFence.digests rt files))) "git").sortKeys) :
    checkGit sorted none = .ok () := by
  have hgit : field (.dict sorted) "git" =
      (JsonValue.dict [("commit", .str commit), ("dirty", .bool false)]).sortKeys := hfield
  have hdict : (dict? (field (.dict sorted) "git")).isSome = true := by
    rw [hgit, JsonValue.sortKeys_dict]
    rfl
  have hcommitField : text? (field (field (.dict sorted) "git") "commit") = some commit := by
    rw [hgit, field_sortKeys (proper_git commit)]
    rfl
  have hdirty : field (field (.dict sorted) "git") "dirty" = .bool false := by
    rw [hgit, field_sortKeys (proper_git commit)]
    rfl
  simp [checkGit, hdict, hcommitField, hdirty, hcommit, Option.filter, require, ensure, bind,
    Except.bind, pure, Except.pure]

/-- Every file has the digest that the manifest lists. -/
theorem checkFiles_eq {sorted : List (String × JsonValue)} {url : Option String}
    {runId commandId : JsonValue}
    (h : Published rt cfg key now commit bundle outputDir root name t files manifest pointer)
    (hfield : field (.dict sorted) "files" = (field (.dict (manifestEntries rt cfg now url
      runId commandId commit (TraceFence.digests rt files))) "files").sortKeys) :
    checkFiles rt t (root ++ [name]) sorted = .ok () := by
  have hfiles : field (.dict sorted) "files" =
      (JsonValue.dict (TraceFence.digests rt files)).sortKeys := hfield
  rw [JsonValue.sortKeys_dict] at hfiles
  have hperm := JsonValue.perm_sortEntries
    ((TraceFence.digests rt files).map fun e => (e.1, e.2.sortKeys))
  have hkeys : (JsonValue.sortEntries ((TraceFence.digests rt files).map fun e =>
      (e.1, e.2.sortKeys))).map Prod.fst |>.Perm requiredArtifacts := by
    have hmap := hperm.map Prod.fst
    rw [JsonValue.keys_sortParts, keys_digests] at hmap
    exact hmap
  have hbundle : "bundle.json" ∈ requiredArtifacts := by decide
  unfold checkFiles
  simp only [bind_eq_ok, ensure_eq_ok, require_eq_ok, forM_eq_ok, dict?_eq_some]
  refine ⟨_, hfiles, (), hkeys.mem_iff.mpr hbundle, (), ⟨hkeys.subset, hkeys.symm.subset⟩,
    fun e he => ?_⟩
  have hrequired : e.1 ∈ requiredArtifacts :=
    hkeys.mem_iff.mp (List.mem_map_of_mem he)
  obtain ⟨e', he', rfl⟩ := List.mem_map.mp (hperm.mem_iff.mp he)
  obtain ⟨file, -, rfl⟩ := List.mem_map.mp he'
  obtain ⟨content, hcontent⟩ := Option.isSome_iff_exists.mp (h.there file hrequired)
  have hplain : ∀ name ∈ requiredArtifacts, name ≠ ".." ∧ pathName name = name := by decide
  obtain ⟨hback, hsafe⟩ := hplain file hrequired
  have hthere : t.file? (joinPath (root ++ [name]) file) = some content := by
    rw [joinPath_artifact hrequired, (h.staged.file?_eq hback).2, hcontent]
  have hdigest : sha256File rt t (joinPath (root ++ [name]) file) = .ok (rt.sha256 content) := by
    rw [sha256File, hthere]
    rfl
  unfold checkFile
  simp only [bind_eq_ok, ensure_eq_ok]
  refine ⟨(), hsafe, (), by rw [hthere]; rfl, _, hdigest, ?_⟩
  rw [hcontent]
  rfl

/-- The value of a key of the bundle that is read back. -/
theorem lookup_sorted (hbundle : (JsonValue.dict bundle).Proper)
    {sorted : List (String × JsonValue)} (hsorted : (JsonValue.dict bundle).sortKeys = .dict sorted)
    (part : String) : sorted.lookup part = (bundle.lookup part).map JsonValue.sortKeys := by
  have hget := JsonValue.get?_sortKeys hbundle part
  rwa [hsorted] at hget

/-- A derived artifact is a value of the language, which fits if the bundle does. -/
theorem derived_spec (hbundle : Complete bundle text) (part : String) :
    (derivedValue bundle part).Proper ∧
      (JsonText.fits (.dict bundle) = true → JsonText.fits (derivedValue bundle part) = true) := by
  unfold derivedValue
  cases hlookup : bundle.lookup part with
  | some value => exact hbundle.part (.inr (.inr ⟨part, hlookup⟩))
  | none =>
    rw [Option.getD_none]
    split
    · exact hbundle.part (.inr (.inl rfl))
    · exact ⟨.null trivial, fun _ => rfl⟩

theorem workerOutput_eq (hrt : rt.Lawful now) (hbundle : Complete bundle text) :
    workerOutput rt bundle = text := by
  rw [workerOutput]
  rcases hbundle.output with hsome | ⟨hnone, rfl⟩
  · rw [hsome, Option.getD_some, hrt.str]
  · rw [hnone, Option.getD_none, hrt.str]

/-- What the reader of the worker's output compares. -/
theorem readOutput
    (h : Published rt cfg key now commit bundle outputDir root name t files manifest pointer)
    (hrt : rt.Lawful now) (hbundle : Complete bundle text) :
    readText t (root ++ [name] ++ ["worker-output.txt"]) = .ok (translateNewlines text.toList) := by
  have hback : "worker-output.txt" ≠ ".." := by decide
  refine readText_eq ?_
  rw [(h.staged.file?_eq hback).2, h.output_file, workerOutput_eq hrt hbundle, String.ofList_toList]

theorem workerOutput_sorted (hrt : rt.Lawful now) (hbundle : Complete bundle text)
    {sorted : List (String × JsonValue)}
    (hsorted : (JsonValue.dict bundle).sortKeys = .dict sorted) : workerOutput rt sorted = text := by
  rw [workerOutput, lookup_sorted hbundle.proper hsorted]
  rcases hbundle.output with hsome | ⟨hnone, rfl⟩
  · rw [hsome, Option.map_some, Option.getD_some]
    exact hrt.str text
  · rw [hnone, Option.map_none, Option.getD_none, hrt.str]

/-- An identity of the manifest is that of the bundle. -/
theorem checkIdentity_eq {sorted read part : List (String × JsonValue)} {what entry message : String}
    {id : JsonValue} (hbundle : (JsonValue.dict bundle).Proper)
    (hread : (JsonValue.dict bundle).sortKeys = .dict read)
    (hpart : bundle.lookup what = some (.dict part)) (hid : part.lookup entry = some id)
    (hfield : field (.dict sorted) entry = id.sortKeys) :
    checkIdentity sorted read what entry message = .ok () := by
  have hproper : (JsonValue.dict part).Proper := hbundle.of_lookup hpart
  have hsame := field_sortKeys hproper entry
  rw [JsonValue.sortKeys_dict] at hsame
  have hfound : field (.dict part) entry = id := by
    rw [field, JsonValue.get?_dict, hid]
    rfl
  unfold checkIdentity requireDict
  simp only [bind_eq_ok, ensure_eq_ok, require_eq_ok, dict?_eq_some]
  refine ⟨JsonValue.sortEntries (part.map fun e => (e.1, e.2.sortKeys)), ?_, ?_⟩
  · rw [lookup_sorted hbundle hread, hpart, Option.map_some, Option.getD_some,
      JsonValue.sortKeys_dict]
  · rw [hsame, hfound, hfield]
    exact JsonValue.eq_self (hproper.of_lookup hid).sortKeys

/-- The artifacts agree, if nothing is lost of the worker's output. -/
theorem checkArtifacts_eq {sorted : List (String × JsonValue)} {run command : List (String × JsonValue)}
    {runId commandId : JsonValue}
    (h : Published rt cfg key now commit bundle outputDir root name t files manifest pointer)
    (hrt : rt.Lawful now) (hbundle : Complete bundle text)
    (hfits : JsonText.fits (.dict bundle) = true) (hreturn : '\r' ∉ text.toList)
    (hrun : bundle.lookup "run" = some (.dict run)) (hrunId : run.lookup "run_id" = some runId)
    (hcommand : bundle.lookup "command" = some (.dict command))
    (hcommandId : command.lookup "command_id" = some commandId)
    (hfieldRun : field (.dict sorted) "run_id" = runId.sortKeys)
    (hfieldCommand : field (.dict sorted) "command_id" = commandId.sortKeys) :
    checkArtifacts rt t (root ++ [name]) sorted = .ok () := by
  have hread := h.read hrt (by decide) hbundle.proper hfits h.bundle_file
  have hsorted : (JsonValue.dict bundle).sortKeys = .dict _ := JsonValue.sortKeys_dict
  unfold checkArtifacts requireDict
  simp only [bind_eq_ok, ensure_eq_ok, require_eq_ok, forM_eq_ok, dict?_eq_some]
  refine ⟨_, hread, _, hsorted, (), fun artifact hartifact => ?_, _, h.readOutput hrt hbundle, (), ?_,
    (), checkIdentity_eq hbundle.proper hsorted hrun hrunId hfieldRun,
    checkIdentity_eq hbundle.proper hsorted hcommand hcommandId hfieldCommand⟩
  · obtain ⟨hproper, hpartFits⟩ := derived_spec hbundle artifact.2
    have hback : ∀ artifact ∈ bundleArtifacts, artifact.1 ≠ ".." := by decide
    have hvalue := h.read hrt (hback artifact hartifact) hproper (hpartFits hfits)
      (h.derived_file artifact hartifact)
    have hexpected : ((JsonValue.sortEntries (bundle.map fun e => (e.1, e.2.sortKeys))).lookup
        artifact.2).getD (if artifact.2 = "violations" then .list [] else .null) =
          (derivedValue bundle artifact.2).sortKeys := by
      rw [lookup_sorted hbundle.proper hsorted, derivedValue]
      cases bundle.lookup artifact.2 with
      | some value => rfl
      | none =>
        rw [Option.map_none, Option.getD_none]
        split <;> rfl
    unfold checkArtifact
    simp only [bind_eq_ok, ensure_eq_ok]
    refine ⟨_, hvalue, ?_⟩
    rw [hexpected]
    exact JsonValue.eq_self hproper.sortKeys
  · rw [translateNewlines_of_notMem hreturn, workerOutput_sorted hrt hbundle hsorted]

/-- The reader finds the pointer that was written. -/
theorem read_pointer
    (h : Published rt cfg key now commit bundle outputDir root name t files manifest pointer)
    (hrt : rt.Lawful now) :
    readJson rt t (outputDir ++ ["latest.json"]) = .ok pointer.sortKeys ∧
      ∃ sorted, pointer.sortKeys = .dict sorted ∧ pointer? pointer.sortKeys = some sorted ∧
        checkAlgorithm "pointer" sorted = .ok () ∧
        checkSignature rt "pointer" sorted key = .ok () := by
  have hsigned := h.pointer_signed
  obtain ⟨sorted, hsorted, haccepted⟩ := hsigned.accepted
  obtain ⟨halgorithm, hsignature⟩ := haccepted "pointer"
  refine ⟨readJson_eq hrt.floats hsigned.proper (Staged.canonicalJsonLine_eq h.pointer_fits) h.latest,
    sorted, hsorted, ?_, halgorithm, hsignature⟩
  have hversion : field pointer.sortKeys "pointer_version" = .int 2 := by
    rw [field_sortKeys hsigned.proper, hsigned.fields _ (by decide)]
    rfl
  rw [pointer?, Option.filter_eq_some_iff, dict?_eq_some, hversion]
  exact ⟨hsorted, JsonValue.eq_self (.int 2 trivial)⟩

theorem bundleDirectory_eq
    (h : Published rt cfg key now commit bundle outputDir root name t files manifest pointer) :
    bundleDirectory t (outputDir ++ ["latest.json"]) pointer.sortKeys = root ++ [name] := by
  have hname : field pointer.sortKeys "bundle_dir" = .str name := by
    rw [field_sortKeys h.pointer_signed.proper, h.pointer_signed.fields _ (by decide)]
    rfl
  rw [bundleDirectory, hname, text?, Option.getD_some, List.dropLast_concat, h.plain.joinPath,
    h.staged.resolve_eq]

theorem verifyManifest_eq {signingKey : Option String}
    (h : Published rt cfg key now commit bundle outputDir root name t files manifest pointer)
    (hrt : rt.Lawful now) (hkey : evidenceKey cfg signingKey = .ok key) (hcommit : commit ≠ "")
    (hlater : now ≤ later) (hbundle : Complete bundle text)
    (hfits : JsonText.fits (.dict bundle) = true) (hreturn : '\r' ∉ text.toList) :
    verifyManifest rt cfg t later (root ++ [name]) manifest.sortKeys { signingKey := signingKey } =
      .ok () := by
  obtain ⟨url, run, runId, command, commandId, hrun, hrunId, hcommand, hcommandId, hsigned⟩ :=
    h.manifest_signed
  obtain ⟨sorted, hsorted, haccepted⟩ := hsigned.accepted
  obtain ⟨halgorithm, hsignature⟩ := haccepted "manifest"
  have hfield (part : String) (hpart : part ≠ "signature") : field (.dict sorted) part =
      (field (.dict (manifestEntries rt cfg now url runId commandId commit
        (TraceFence.digests rt files))) part).sortKeys := by
    rw [← hsorted, field_sortKeys hsigned.proper, hsigned.fields part hpart]
  have hversion : field (.dict sorted) "manifest_version" = .int 2 := hfield _ (by decide)
  have hschema : field (.dict sorted) "schema_version" = .int schemaVersion := hfield _ (by decide)
  have happlication : field (.dict sorted) "application_version" = .str cfg.applicationVersion :=
    hfield _ (by decide)
  rw [hsorted]
  unfold verifyManifest requireDict
  simp only [bind_eq_ok, ensure_eq_ok, require_eq_ok, dict?_eq_some, hversion, hschema,
    happlication, text?_eq_some]
  refine ⟨sorted, rfl, (), JsonValue.eq_self (.int 2 trivial), (),
    JsonValue.eq_self (.int schemaVersion trivial), (), trivial, (), by simp, (),
    checkAge_eq hrt hlater (hfield _ (by decide)), (), checkGit_eq hcommit (hfield _ (by decide)),
    (), halgorithm, key, hkey, (), hsignature, (), h.checkFiles_eq (hfield _ (by decide)), ?_⟩
  exact h.checkArtifacts_eq hrt hbundle hfits hreturn hrun hrunId hcommand hcommandId
    (hfield _ (by decide)) (hfield _ (by decide))

/-- **What was written is accepted**, if nothing is lost of the worker's output. -/
theorem resolve_eq {signingKey : Option String}
    (h : Published rt cfg key now commit bundle outputDir root name t files manifest pointer)
    (hrt : rt.Lawful now) (hkey : evidenceKey cfg signingKey = .ok key) (hcommit : commit ≠ "")
    (hlater : now ≤ later) (hbundle : Complete bundle text)
    (hfits : JsonText.fits (.dict bundle) = true) (hreturn : '\r' ∉ text.toList) :
    resolveEvidencePath rt cfg t later (outputDir ++ ["latest.json"])
      { signingKey := signingKey } = .ok (root ++ [name] ++ ["bundle.json"], some manifest.sortKeys) := by
  obtain ⟨hread, sorted, hsorted, hpointer, halgorithm, hsignature⟩ := h.read_pointer hrt
  have hfield (part : String) (hpart : part ≠ "signature") : field pointer.sortKeys part =
      (field (.dict (pointerEntries name (rt.sha256 (line rt manifest))
        (.str (rt.sha256 (line rt (.dict bundle)))))) part).sortKeys := by
    rw [field_sortKeys h.pointer_signed.proper, h.pointer_signed.fields part hpart]
  have hname : field pointer.sortKeys "bundle_dir" = .str name := hfield _ (by decide)
  have hmanifestDigest : field pointer.sortKeys "manifest_sha256" =
      .str (rt.sha256 (line rt manifest)) := hfield _ (by decide)
  have hbundleDigest : field pointer.sortKeys "bundle_sha256" =
      .str (rt.sha256 (line rt (.dict bundle))) := hfield _ (by decide)
  have hdirectory : t.resolve (joinPath outputDir name) = root ++ [name] := by
    rw [h.plain.joinPath, h.staged.resolve_eq]
  have hmanifestFile := (h.staged.file?_eq (by decide : "manifest.json" ≠ "..")).2
  have hbundleFile := (h.staged.file?_eq (by decide : "bundle.json" ≠ "..")).2
  rw [h.manifest_file] at hmanifestFile
  rw [h.bundle_file] at hbundleFile
  have hmanifest : ∃ entries, SignedDocument rt entries key manifest := by
    obtain ⟨url, run, runId, command, commandId, -, -, -, -, hsigned⟩ := h.manifest_signed
    exact ⟨_, hsigned⟩
  obtain ⟨entries, hsigned⟩ := hmanifest
  unfold resolveEvidencePath
  rw [hread]
  simp only [bind_eq_ok, Except.ok.injEq, exists_eq_left', hpointer, ensure_eq_ok, require_eq_ok,
    pure_eq_ok, text?_eq_some, Option.filter_eq_some_iff, List.dropLast_concat]
  refine ⟨key, hkey, (), halgorithm, (), hsignature, name,
    ⟨hname, decide_eq_true (h.plain.head_ne (by simp))⟩, ?_⟩
  rw [hdirectory, h.staged.resolved]
  refine ⟨(), ⟨List.prefix_append _ _, by simp⟩, (), by rw [hmanifestFile]; rfl,
    rt.sha256 (line rt manifest), ?_, (), hmanifestDigest, manifest.sortKeys,
    h.read hrt (by decide) hsigned.proper h.manifest_fits h.manifest_file, (),
    h.verifyManifest_eq hrt hkey hcommit hlater hbundle hfits hreturn,
    rt.sha256 (line rt (.dict bundle)), ?_, (), hbundleDigest, rfl⟩
  · rw [sha256File, hmanifestFile]
    rfl
  · rw [sha256File, hbundleFile]
    rfl

/-- What is accepted has lost nothing of the worker's output. -/
theorem notMem_of_resolve {options : EvidenceOptions} {result : Location × Option JsonValue}
    (h : Published rt cfg key now commit bundle outputDir root name t files manifest pointer)
    (hrt : rt.Lawful now) (hbundle : Complete bundle text)
    (hfits : JsonText.fits (.dict bundle) = true)
    (hresolve : resolveEvidencePath rt cfg t later (outputDir ++ ["latest.json"]) options =
      .ok result) : '\r' ∉ text.toList := by
  obtain ⟨hread, sorted, -, hpointer, -⟩ := h.read_pointer hrt
  obtain ⟨-, value, -, -, -, -, -, -, hverify, -⟩ := resolveEvidencePath_eq_ok hread hpointer hresolve
  rw [h.bundleDirectory_eq] at hverify
  obtain ⟨entries, -, -, -, -, -, hartifacts⟩ := verifyManifest_eq_ok hverify
  obtain ⟨found, hfound, -, houtput⟩ := derived_of_checkArtifacts hartifacts
  have hbundleRead := h.read hrt (by decide) hbundle.proper hfits h.bundle_file
  rw [hfound] at hbundleRead
  have hsorted := Except.ok.inj hbundleRead
  rw [h.readOutput hrt hbundle, workerOutput_sorted hrt hbundle hsorted.symm] at houtput
  exact translateNewlines_eq_self.mp (Except.ok.inj houtput)

end Published

/-- The writer fails for a bundle that does not fit. -/
theorem fits_of_writeEvidenceBundle {git : GitMetadata} {now : ℤ} {outputDir : Location}
    {signingKey url : Option String} {result : FileTree × Location}
    (h : writeEvidenceBundle rt cfg fs git now outputDir bundle signingKey url = .ok result)
    (hbundle : Complete bundle text) : JsonText.fits (.dict bundle) = true := by
  obtain ⟨documents, hdocuments, -, hself, -⟩ := artifacts_eq hbundle
  have hwritten {name : String} {t t' : FileTree} (hloop : documents.foldlM (fun fs document => do
      let content ← canonicalJsonLine rt document.2
      atomicPrivateWrite fs (outputDir ++ [name]) document.1 content) t = .ok t') :
      ∀ document ∈ documents, ∃ content, canonicalJsonLine rt document.2 = .ok content := by
    clear hdocuments hself
    induction documents generalizing t with
    | nil => exact fun document hdocument => absurd hdocument List.not_mem_nil
    | cons document documents ih =>
      simp only [List.foldlM_cons, bind_eq_ok] at hloop
      obtain ⟨next, ⟨content, hcontent, -⟩, hrest⟩ := hloop
      exact List.forall_mem_cons.mpr ⟨⟨content, hcontent⟩, ih hrest⟩
  unfold writeEvidenceBundle at h
  simp only [bind_eq_ok, require_eq_ok] at h
  obtain ⟨-, -, name, -, made, -, found, hfound, filled, hfilled, -⟩ := h
  obtain rfl := Except.ok.inj (hdocuments.symm.trans hfound)
  obtain ⟨content, hcontent⟩ := hwritten hfilled _ hself
  unfold canonicalJsonLine JsonText.dumps at hcontent
  simp only [bind_eq_ok, require_eq_ok] at hcontent
  obtain ⟨text, htext, -⟩ := hcontent
  split at htext
  · next hfits => exact hfits
  · cases htext

/-! ### A bundle -/

/-- Floats by their bits. -/
def sampleFloats : JsonText.Floats where
  repr x := Nat.toDigits 10 x.bits.toNat ++ ['.', '0']
  parse cs := ⟨BitVec.ofNat 64 (Nat.ofDigitChars 10 (cs.takeWhile Char.isDigit) 0)⟩

theorem sampleFloats_lawful : sampleFloats.Lawful := by
  have hdigits (n : ℕ) : ∀ c ∈ Nat.toDigits 10 n, c.isDigit = true :=
    fun c hc => Nat.isDigit_of_mem_toDigits (by omega) (by omega) hc
  constructor
  · intro x _
    have hwhole := (JsonText.wellFormed_toDigits false x.bits.toNat).whole
    refine ⟨⟨false, Nat.toDigits 10 x.bits.toNat, ['0'], []⟩, ⟨hwhole, by simp, .inl rfl⟩, .inl ?_, ?_⟩
    · simp
    · simp [sampleFloats, JsonText.NumberText.chars, JsonText.NumberText.unsigned]
  · intro x _
    have hwhole : (Nat.toDigits 10 x.bits.toNat ++ ['.', '0']).takeWhile Char.isDigit =
        Nat.toDigits 10 x.bits.toNat := by
      rw [List.takeWhile_append_of_pos (hdigits _)]
      simp
    change Binary64.mk (BitVec.ofNat 64 (Nat.ofDigitChars 10
      ((Nat.toDigits 10 x.bits.toNat ++ ['.', '0']).takeWhile Char.isDigit) 0)) = x
    rw [hwhole, Nat.ofDigitChars_ten_toDigits, BitVec.ofNat_toNat, BitVec.setWidth_eq]

/-- One character for each byte, which loses nothing. -/
def byteText (content : ByteArray) : String :=
  String.ofList (content.data.toList.map fun byte => Char.ofNat byte.toNat)

theorem byteText_injective : Function.Injective byteText := by
  intro content content' h
  have hbyte : Function.Injective fun byte : UInt8 => Char.ofNat byte.toNat := by
    intro byte byte' heq
    have hsmall (n : ℕ) (hn : n < 256) : (Char.ofNat n).toNat = n := by
      have hvalid : n.isValidChar := .inl (by omega)
      rw [Char.ofNat, dif_pos hvalid]
      rfl
    have hnat := congrArg Char.toNat heq
    dsimp only at hnat
    rw [hsmall _ byte.toNat_lt, hsmall _ byte'.toNat_lt] at hnat
    exact UInt8.toNat_inj.mp hnat
  have hlist := List.map_injective_iff.mpr hbyte (String.ofList_injective h)
  exact ByteArray.ext (Array.toList_inj.mp hlist)

/-- Two characters for each byte. -/
def hexText (content : ByteArray) : String :=
  String.ofList (content.data.toList.flatMap fun byte =>
    [JsonText.hexDigit (byte.toNat / 16), JsonText.hexDigit (byte.toNat % 16)])

theorem hexText_ascii (content : ByteArray) : ∀ c ∈ (hexText content).toList, c.toNat < 128 := by
  intro c hc
  have hsmall : ∀ n < 16, (JsonText.hexDigit n).toNat < 128 := by decide
  rw [hexText, String.toList_ofList] at hc
  obtain ⟨byte, -, hbyte⟩ := List.mem_flatMap.mp hc
  have hlt : byte.toNat < 256 := byte.toNat_lt
  simp only [List.mem_cons, List.not_mem_nil, or_false] at hbyte
  rcases hbyte with rfl | rfl
  · exact hsmall _ (by omega)
  · exact hsmall _ (by omega)

/-- Libraries at the beginning of time. -/
def sampleRuntime : EvidenceRuntime where
  floats := sampleFloats
  sha256 := byteText
  hmacSha256 key message := hexText (key ++ message)
  str value := (text? value).getD ""
  isoformat _ := "1970-01-01T00:00:00+00:00"
  fromisoformat raw := if raw = "1970-01-01T00:00:00+00:00" then some (0, true) else none
  strftime _ := "1970-01-01T000000.000000Z"

theorem sampleRuntime_lawful : sampleRuntime.Lawful 0 := by
  refine ⟨sampleFloats_lawful, fun _ => rfl, rfl, ?_, ?_, fun _ _ => hexText_ascii _⟩
  · exact (by decide : 'Z' ∉ "1970-01-01T00:00:00+00:00".toList)
  · exact ⟨(by decide : '/' ∉ "1970-01-01T000000.000000Z".toList), '1', rfl, rfl⟩

def sampleSettings : EvidenceSettings where
  evidenceSigningKey := "0123456789abcdef0123456789abcdef"
  applicationVersion := "1.0.0"

/-- An empty disk. -/
def sampleDisk : FileTree := ⟨[([], .directory)]⟩

theorem writable_sampleDisk : Writable sampleDisk ["evidence"] := by
  have hnode (l : Location) (hl : l ≠ []) : sampleDisk.node l = none := by
    rw [FileTree.node, sampleDisk, List.lookup_cons, beq_false_of_ne hl]
    rfl
  have hlink (l : Location) : sampleDisk.link? l = none := by
    by_cases hl : l = []
    · rw [hl]
      rfl
    · exact FileTree.link?_of_none (hnode l hl)
  refine ⟨⟨rfl, fun l target h => ?_, fun l target h => ?_, fun l name node h => ?_⟩, by decide, rfl,
    fun node h => ?_⟩
  · rw [hlink] at h
    cases h
  · rw [hlink] at h
    cases h
  · rw [hnode _ (by simp)] at h
    cases h
  · rw [hnode _ (by simp)] at h
    cases h

/-- A bundle with an output of the worker. -/
def sampleBundle (text : String) : List (String × JsonValue) :=
  [("run", .dict [("run_id", .str "run-1")]), ("command", .dict [("command_id", .str "command-1")]),
    ("recovery", .null), ("sibling_check", .bool true), ("proof", .null), ("graph", .list []),
    ("actions", .list []), ("services", .int (-20)), ("worker_output", .str text)]

theorem complete_sampleBundle (text : String) : Complete (sampleBundle text) text := by
  have hsingle (key value : String) : (JsonValue.dict [(key, .str value)]).Proper := by
    refine .dict (List.nodup_singleton key) fun e he => ?_
    obtain rfl := List.mem_singleton.mp he
    exact .str _ trivial
  have hempty : (JsonValue.list []).Proper := .list trivial fun v hv => absurd hv List.not_mem_nil
  have hnodup : ["run", "command", "recovery", "sibling_check", "proof", "graph", "actions",
    "services", "worker_output"].Nodup := by decide
  refine ⟨.dict hnodup fun e he => ?_, ?_, ⟨_, _, rfl, rfl⟩, ⟨_, _, rfl, rfl⟩, .inl rfl⟩
  · simp only [sampleBundle, List.mem_cons, List.not_mem_nil, or_false] at he
    rcases he with rfl | rfl | rfl | rfl | rfl | rfl | rfl | rfl | rfl
    · exact hsingle _ _
    · exact hsingle _ _
    · exact .null trivial
    · exact .bool _ trivial
    · exact .null trivial
    · exact hempty
    · exact hempty
    · exact .int _ trivial
    · exact .str _ trivial
  · intro key hkey
    simp only [List.mem_cons, List.not_mem_nil, or_false] at hkey
    rcases hkey with rfl | rfl | rfl | rfl | rfl | rfl | rfl | rfl <;> rfl

theorem fits_sampleBundle (text : String) : JsonText.fits (.dict (sampleBundle text)) = true := by
  rw [JsonText.fits_dict]
  intro e he
  simp only [sampleBundle, List.mem_cons, List.not_mem_nil, or_false] at he
  rcases he with rfl | rfl | rfl | rfl | rfl | rfl | rfl | rfl | rfl <;> rfl

theorem evidenceKey_sample : evidenceKey sampleSettings none =
    .ok "0123456789abcdef0123456789abcdef".toUTF8 := by
  have hlength : 32 ≤ "0123456789abcdef0123456789abcdef".length := by decide
  rw [evidenceKey]
  change (ensure (32 ≤ "0123456789abcdef0123456789abcdef".length) _ >>= _) = _
  rw [ensure, if_pos hlength]
  rfl

/-- **Evidence is read back** as it was written exactly if no carriage return is in the worker's
output, which would be lost when it is read, and no integer of the bundle has too many digits to be
written. -/
theorem evidence_round_trip {now later : ℤ} {commit : String} {outputDir : Location}
    {signingKey : Option String} (url : Option String) (hrt : rt.Lawful now)
    (hkey : evidenceKey cfg signingKey = .ok key) (hcommit : commit ≠ "") (hlater : now ≤ later)
    (hfs : Writable fs outputDir) (hbundle : Complete bundle text) :
    (∃ fs' latest path document value,
      writeEvidenceBundle rt cfg fs ⟨some commit, some false⟩ now outputDir bundle signingKey url =
        .ok (fs', latest) ∧
      resolveEvidencePath rt cfg fs' later latest { signingKey := signingKey } =
        .ok (path, document) ∧
      readJson rt fs' path = .ok value ∧ value.eq (.dict bundle) = true) ↔
    '\r' ∉ text.toList ∧ JsonText.fits (.dict bundle) = true := by
  constructor
  · rintro ⟨fs', latest, path, document, value, hwrite, hresolve, -, -⟩
    have hfits := fits_of_writeEvidenceBundle hwrite hbundle
    obtain ⟨t, name, files, manifest, pointer, hwrite', hpublished⟩ :=
      exists_published hrt hkey hcommit hfs hbundle hfits url
    obtain ⟨rfl, rfl⟩ := Prod.mk.inj (Except.ok.inj (hwrite.symm.trans hwrite'))
    exact ⟨hpublished.notMem_of_resolve hrt hbundle hfits hresolve, hfits⟩
  · rintro ⟨hreturn, hfits⟩
    obtain ⟨t, name, files, manifest, pointer, hwrite, hpublished⟩ :=
      exists_published hrt hkey hcommit hfs hbundle hfits url
    exact ⟨t, _, _, _, _, hwrite,
      hpublished.resolve_eq hrt hkey hcommit hlater hbundle hfits hreturn,
      hpublished.read hrt (by decide) hbundle.proper hfits hpublished.bundle_file,
      JsonValue.eq_sortKeys hbundle.proper⟩

theorem evidence_round_trip_sample :
    ∃ fs' latest path document value,
      writeEvidenceBundle sampleRuntime sampleSettings sampleDisk ⟨some "c0ffee", some false⟩ 0
        ["evidence"] (sampleBundle "two\nlines") none none = .ok (fs', latest) ∧
      resolveEvidencePath sampleRuntime sampleSettings fs' 0 latest {} = .ok (path, document) ∧
      readJson sampleRuntime fs' path = .ok value ∧
      value.eq (.dict (sampleBundle "two\nlines")) = true :=
  (evidence_round_trip none sampleRuntime_lawful evidenceKey_sample (by decide) le_rfl
    writable_sampleDisk (complete_sampleBundle "two\nlines")).mpr
      ⟨by decide, fits_sampleBundle "two\nlines"⟩

/-- An output of the worker with a carriage return is not read back: the writer succeeds, and the
reader rejects what it wrote. -/
theorem evidence_round_trip_fails :
    Complete (sampleBundle "a\rb") "a\rb" ∧
      ∃ fs', writeEvidenceBundle sampleRuntime sampleSettings sampleDisk ⟨some "c0ffee", some false⟩
          0 ["evidence"] (sampleBundle "a\rb") none none = .ok (fs', ["evidence", "latest.json"]) ∧
        ∀ result, resolveEvidencePath sampleRuntime sampleSettings fs' 0
          ["evidence", "latest.json"] {} ≠ .ok result := by
  have hbundle := complete_sampleBundle "a\rb"
  have hfits := fits_sampleBundle "a\rb"
  obtain ⟨t, name, files, manifest, pointer, hwrite, hpublished⟩ :=
    exists_published sampleRuntime_lawful evidenceKey_sample (by decide : "c0ffee" ≠ "")
      writable_sampleDisk hbundle hfits none
  refine ⟨hbundle, t, hwrite, fun result hresolve => ?_⟩
  exact hpublished.notMem_of_resolve sampleRuntime_lawful hbundle hfits hresolve (by decide)

end TraceFence
