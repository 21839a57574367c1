import Quantbot.Paper.Funding.Bundle
import Quantbot.Util.MapM

/-!
When the bundle of one snapshot leaves alone what is found for another.
-/

namespace Quantbot
namespace FundingBundle

/--
The payload, the reasons and the source digests that are returned.
-/
def Resolution.captured (r : Resolution) : Option JsonObject × List String × Option JsonValue :=
  (r.payload, r.reasons, r.identity.map Identity.originalSourceDigests)

section verdict

/--
A payload with the reasons against it.
-/
def checked (payload : JsonObject) : Except PyError (JsonObject × List String) :=
  (checkReasons payload).map (fun reasons => (payload, reasons))

/--
What a file settles, unless it is left for the next one.
-/
def verdict (expected : Option String) (file : BundleFile)
    : Option (Except PyError (JsonObject × List String)) :=
  match sight expected file with
  | .corrupt => none
  | .other => none
  | .raises e => some (.error e)
  | .bound payload => some (checked payload)

def corrupt : BundleFile → Bool
  | .unreadable => true
  | .malformed => true
  | .escapes _ => false
  | .json doc => (validateBundleStructure doc.value).isNone

def firstVerdict (expected : Option String) (files : List (String × BundleFile))
    : Option (Except PyError (JsonObject × List String)) :=
  files.findSome? (fun f => verdict expected f.2)

def anyCorrupt (files : List (String × BundleFile)) : Bool :=
  files.any (fun f => corrupt f.2)

def conclusion (corruptSeen : Bool)
    : Option (Except PyError (JsonObject × List String))
      → Except PyError (Option JsonObject × List String × Option JsonValue)
  | none => .ok (none, [if corruptSeen then reasonCorrupt else reasonMissing], none)
  | some (.error e) => .error e
  | some (.ok (payload, reasons)) =>
    .ok (some payload, reasons, some (orEmpty (get payload "original_source_digests")))

theorem sight_corrupt_iff {expected : Option String} {file : BundleFile}
    : sight expected file = .corrupt ↔ corrupt file = true := by
  cases file with
  | unreadable => exact iff_of_true rfl rfl
  | malformed => exact iff_of_true rfl rfl
  | escapes e => exact iff_of_false (fun h => by cases h) Bool.false_ne_true
  | json doc =>
    simp only [sight, corrupt]
    cases validateBundleStructure doc.value with
    | none => simp only [Option.isNone_none]
    | some payload =>
      simp only [Option.isNone_some, Bool.false_eq_true, iff_false]
      split_ifs <;> exact fun h => by cases h

theorem captured_resolveFiles (expected : Option String) (seen : Bool)
    (files : List (String × BundleFile))
    : (resolveFiles expected seen files).map Resolution.captured
        = conclusion (seen || anyCorrupt files) (firstVerdict expected files) := by
  induction files generalizing seen with
  | nil =>
    rw [anyCorrupt, List.any_nil, Bool.or_false]
    rfl
  | cons f files ih =>
    obtain ⟨name, file⟩ := f
    have hcorrupt : sight expected file = .corrupt ↔ corrupt file = true := sight_corrupt_iff
    simp only [resolveFiles, firstVerdict, anyCorrupt, List.findSome?_cons, List.any_cons, verdict]
    cases hsight : sight expected file with
    | corrupt =>
      rw [ih, hcorrupt.mp hsight, Bool.true_or, Bool.true_or, Bool.or_true]
      rfl
    | other =>
      have hsound : corrupt file = false := by
        rw [← Bool.not_eq_true, ← hcorrupt, hsight]
        exact fun h => by cases h
      rw [ih, hsound, Bool.false_or]
      rfl
    | raises e => rfl
    | bound payload =>
      simp only [checked]
      cases checkReasons payload <;> rfl

theorem reasonCorrupt_ne : reasonCorrupt ≠ reasonMissing := by
  decide

theorem conclusion_inj {seen seen' : Bool}
    {v v' : Option (Except PyError (JsonObject × List String))}
    : conclusion seen v = conclusion seen' v' ↔ v = v' ∧ (v = none → seen = seen') := by
  match v, v' with
  | none, none =>
    simp only [conclusion, Except.ok.injEq, Prod.mk.injEq, List.cons.injEq, true_and, and_true,
      forall_const]
    cases seen <;> cases seen' <;> simp [reasonCorrupt_ne, reasonCorrupt_ne.symm]
  | none, some (.error e) => simp [conclusion]
  | none, some (.ok p) => simp [conclusion]
  | some (.error e), none => simp [conclusion]
  | some (.ok p), none => simp [conclusion]
  | some (.error e), some (.error e') => simp [conclusion]
  | some (.error e), some (.ok p) => simp [conclusion]
  | some (.ok p), some (.error e) => simp [conclusion]
  | some (.ok (p, r)), some (.ok (p', r')) =>
    simp only [conclusion, Except.ok.injEq, Prod.mk.injEq, Option.some.injEq, reduceCtorEq,
      false_implies, and_true]
    constructor
    . rintro ⟨rfl, rfl, -⟩
      exact ⟨rfl, rfl⟩
    . rintro ⟨rfl, rfl⟩
      exact ⟨rfl, rfl, rfl⟩

end verdict

/--
A snapshot with its payload and the digest of the source files in it.
-/
structure SnapshotEnvelope where
  fields : JsonObject
  payload : JsonObject
  sourceBundleSha256 : String
  hasPayload : get fields "snapshot_payload" = .obj payload
  hasDigest : get payload "source_bundle_sha256" = .str sourceBundleSha256

section emit

variable (repr : JsonValue → String)

/--
The bundle of a snapshot is built and written.
-/
def emit (dir : Directory) (envelope : SnapshotEnvelope) : Except BundleError Directory := do
  let bundle ← (build repr envelope.fields).mapError .raised
  write dir bundle

def SnapshotEnvelope.symbols (envelope : SnapshotEnvelope) : List JsonValue :=
  (listOr (get envelope.payload "symbols_covered")).toOption.getD []

def SnapshotEnvelope.bundlePayload (envelope : SnapshotEnvelope) : JsonObject :=
  FundingBundle.bundlePayload repr envelope.fields envelope.payload envelope.symbols

/--
The payload as it is read back.
-/
def SnapshotEnvelope.frozen (envelope : SnapshotEnvelope) : JsonObject :=
  (JsonValue.sortFields (envelope.bundlePayload repr)).insertionSort JsonValue.keyLe

def SnapshotEnvelope.filename (envelope : SnapshotEnvelope) : String :=
  bundleFilename (FundingBundle.sourceBundleSha256 repr envelope.payload)

def SnapshotEnvelope.file (envelope : SnapshotEnvelope) : BundleFile :=
  .json (JsonValue.obj (bundle (envelope.bundlePayload repr))).document

def filesBefore (dir : Directory) (name : String) : List (String × BundleFile) :=
  (entriesBefore dir.entries name).filter (fun f => isBundleName f.1)

def fileAt (dir : Directory) (name : String) : List (String × BundleFile) :=
  entryAt dir.entries name

def filesAfter (dir : Directory) (name : String) : List (String × BundleFile) :=
  (entriesAfter dir.entries name).filter (fun f => isBundleName f.1)

/--
An earlier file already settles what is found, or the bundle is the one that is found, or it
belongs to another snapshot and takes the place of a file that made no difference.
-/
def Undisturbed (dir : Directory) (A B : SnapshotEnvelope) : Prop :=
  let expected := some A.sourceBundleSha256
  let before := filesBefore dir (B.filename repr)
  let after := filesAfter dir (B.filename repr)
  firstVerdict expected before ≠ none
    ∨ A.sourceBundleSha256 = B.sourceBundleSha256
      ∧ firstVerdict expected (fileAt dir (B.filename repr) ++ after) = some (checked (B.frozen repr))
    ∨ A.sourceBundleSha256 ≠ B.sourceBundleSha256
      ∧ ∀ file, dir.entries[B.filename repr]? = some file →
        (verdict expected file ≠ none → firstVerdict expected after = verdict expected file)
          ∧ (corrupt file = true →
              firstVerdict expected after ≠ none ∨ anyCorrupt (before ++ after) = true)

theorem isBundleName_bundleFilename (sha : String) : isBundleName (bundleFilename sha) = true := by
  have hprefix : filenamePrefix.toList.isPrefixOf? (bundleFilename sha).toList
      = some (sha.toList ++ ".json".toList) := by
    rw [bundleFilename, String.toList_append, String.toList_append, List.append_assoc]
    simp
  rw [isBundleName, hprefix]
  exact decide_eq_true (List.suffix_append _ _)

theorem bundleFiles_eq (dir : Directory) (B : SnapshotEnvelope)
    : bundleFiles dir
        = filesBefore dir (B.filename repr)
          ++ (fileAt dir (B.filename repr) ++ filesAfter dir (B.filename repr)) := by
  have hat : (entryAt dir.entries (B.filename repr)).filter (fun f => isBundleName f.1)
      = entryAt dir.entries (B.filename repr) := by
    rw [List.filter_eq_self]
    intro f hf
    rw [entryAt, Option.mem_toList, Option.map_eq_some_iff] at hf
    obtain ⟨v, -, rfl⟩ := hf
    exact isBundleName_bundleFilename _
  rw [bundleFiles, toList_eq_around dir.entries (B.filename repr), List.filter_append,
    List.filter_append, hat]
  rfl

theorem bundleFiles_insert (dir : Directory) (B : SnapshotEnvelope) (file : BundleFile)
    : bundleFiles (some (dir.entries.insert (B.filename repr) file))
        = filesBefore dir (B.filename repr)
          ++ (B.filename repr, file) :: filesAfter dir (B.filename repr) := by
  have hname : isBundleName (B.filename repr) = true := isBundleName_bundleFilename _
  rw [bundleFiles, Directory.entries, Option.getD_some, toList_insert_around, List.filter_append,
    List.filter_cons, if_pos hname]
  rfl

section written

variable {repr}

theorem nodup_bundlePayload (envelope payload : JsonObject) (symbols : List JsonValue)
    : ((FundingBundle.bundlePayload repr envelope payload symbols).map Prod.fst).Nodup := by
  simp only [FundingBundle.bundlePayload, List.map_cons, List.map_nil]
  decide

theorem nodup_bundle (payload : JsonObject) : ((bundle payload).map Prod.fst).Nodup := by
  simp only [bundle, List.map_cons, List.map_nil]
  decide

theorem get_frozen (B : SnapshotEnvelope) (key : String)
    : get (B.frozen repr) key = (get (B.bundlePayload repr) key).sortKeys := by
  have hnodup : ((B.bundlePayload repr).map Prod.fst).Nodup := nodup_bundlePayload _ _ _
  rw [get, SnapshotEnvelope.frozen, JsonValue.lookup_insertionSort_sortFields hnodup, get]
  cases (B.bundlePayload repr).lookup key <;> rfl

theorem document_bundle (payload : JsonObject)
    : (JsonValue.obj (bundle payload)).document.value
        = .obj [
            ("bundle_payload",
              .obj ((JsonValue.sortFields payload).insertionSort JsonValue.keyLe)),
            ("schema_version", .str schemaV1)
          ] := by
  have hperm : ((bundle payload).map Prod.fst).Perm ["bundle_payload", "schema_version"] :=
    List.Perm.swap _ _ []
  exact JsonValue.sortKeys_obj hperm (by decide)

/--
A written bundle is well formed.
-/
theorem validateBundleStructure_file (B : SnapshotEnvelope)
    : validateBundleStructure (JsonValue.obj (bundle (B.bundlePayload repr))).document.value
        = some (B.frozen repr) := by
  have hrows : get (B.frozen repr) "canonical_rows"
      = (objects (frozenCanonicalRows repr B.payload)).sortKeys := get_frozen B _
  have hsha : get (B.frozen repr) "source_bundle_sha256"
      = (JsonValue.str (FundingBundle.sourceBundleSha256 repr B.payload)).sortKeys := get_frozen B _
  rw [objects, JsonValue.sortKeys] at hrows
  rw [JsonValue.sortKeys] at hsha
  rw [document_bundle, ← SnapshotEnvelope.frozen]
  have hfields : get [("bundle_payload", .obj (B.frozen repr)), ("schema_version", .str schemaV1)]
      "bundle_payload" = .obj (B.frozen repr) := rfl
  have hschema : get [("bundle_payload", .obj (B.frozen repr)), ("schema_version", .str schemaV1)]
      "schema_version" = .str schemaV1 := rfl
  simp only [validateBundleStructure, hfields, hschema, hrows, hsha, if_true]

theorem sight_file (A B : SnapshotEnvelope)
    : sight (some A.sourceBundleSha256) (B.file repr)
        = if A.sourceBundleSha256 = B.sourceBundleSha256 then .bound (B.frozen repr) else .other := by
  have hbound : get (B.frozen repr) "snapshot_bundle_sha256" = .str B.sourceBundleSha256 := by
    have hget : get (B.frozen repr) "snapshot_bundle_sha256"
        = (get B.payload "source_bundle_sha256").sortKeys := get_frozen B _
    rw [hget, B.hasDigest]
    rfl
  simp only [sight, SnapshotEnvelope.file, validateBundleStructure_file, isBound, hbound,
    decide_eq_true_eq]
  simp only [eq_comm]

theorem verdict_file_same {A B : SnapshotEnvelope} (h : A.sourceBundleSha256 = B.sourceBundleSha256)
    : verdict (some A.sourceBundleSha256) (B.file repr) = some (checked (B.frozen repr)) := by
  rw [verdict, sight_file, if_pos h]

theorem verdict_file_other {A B : SnapshotEnvelope}
    (h : A.sourceBundleSha256 ≠ B.sourceBundleSha256)
    : verdict (some A.sourceBundleSha256) (B.file repr) = none := by
  rw [verdict, sight_file, if_neg h]

theorem corrupt_file (B : SnapshotEnvelope) : corrupt (B.file repr) = false := by
  simp only [SnapshotEnvelope.file, corrupt, validateBundleStructure_file, Option.isNone_some]

theorem of_emit {dir dir' : Directory} {B : SnapshotEnvelope} (h : emit repr dir B = .ok dir')
    : dir' = some (dir.entries.insert (B.filename repr) (B.file repr)) := by
  have hsha : get (B.bundlePayload repr) "source_bundle_sha256"
      = .str (FundingBundle.sourceBundleSha256 repr B.payload) := rfl
  have hpayload : get (bundle (B.bundlePayload repr)) "bundle_payload"
      = .obj (B.bundlePayload repr) := rfl
  cases hsymbols : listOr (get B.payload "symbols_covered") with
  | error e =>
    simp only [emit, build, B.hasPayload, hsymbols] at h
    cases h
  | ok symbols =>
    have hB : B.symbols = symbols := by
      rw [SnapshotEnvelope.symbols, hsymbols]
      rfl
    have hbuild : build repr B.fields = .ok (bundle (B.bundlePayload repr)) := by
      rw [build, B.hasPayload, SnapshotEnvelope.bundlePayload, hB]
      simp only [hsymbols]
      rfl
    rw [emit, hbuild] at h
    replace h : write dir (bundle (B.bundlePayload repr)) = .ok dir' := h
    simp only [write, hpayload, hsha] at h
    split at h
    . cases h
    . cases h
      rfl

theorem emit_ok {dir : Directory} {B : SnapshotEnvelope} {symbols : List JsonValue}
    (hsymbols : listOr (get B.payload "symbols_covered") = .ok symbols)
    (hfree : dir.entries[B.filename repr]? ≠ some .unreadable)
    : emit repr dir B = .ok (some (dir.entries.insert (B.filename repr) (B.file repr))) := by
  have hsha : get (B.bundlePayload repr) "source_bundle_sha256"
      = .str (FundingBundle.sourceBundleSha256 repr B.payload) := rfl
  have hpayload : get (bundle (B.bundlePayload repr)) "bundle_payload"
      = .obj (B.bundlePayload repr) := rfl
  have hB : B.symbols = symbols := by
    rw [SnapshotEnvelope.symbols, hsymbols]
    rfl
  have hbuild : build repr B.fields = .ok (bundle (B.bundlePayload repr)) := by
    rw [build, B.hasPayload, SnapshotEnvelope.bundlePayload, hB]
    simp only [hsymbols]
    rfl
  have hwrite : emit repr dir B = write dir (bundle (B.bundlePayload repr)) := by
    rw [emit, hbuild]
    rfl
  rw [hwrite]
  simp only [write, hpayload, hsha]
  split
  . next heq => exact absurd heq hfree
  . rfl

end written

section decision

variable {expected : Option String}

theorem firstVerdict_append (files files' : List (String × BundleFile))
    : firstVerdict expected (files ++ files')
        = (firstVerdict expected files).or (firstVerdict expected files') :=
  List.findSome?_append

theorem firstVerdict_cons (name : String) (file : BundleFile) (files : List (String × BundleFile))
    : firstVerdict expected ((name, file) :: files)
        = (verdict expected file).or (firstVerdict expected files) := by
  rw [firstVerdict, List.findSome?_cons]
  cases verdict expected file <;> rfl

theorem anyCorrupt_insert (before : List (String × BundleFile)) (name : String) (file : BundleFile)
    (after : List (String × BundleFile))
    : anyCorrupt (before ++ (name, file) :: after)
        = (corrupt file || anyCorrupt (before ++ after)) := by
  simp only [anyCorrupt, List.any_append, List.any_cons]
  rw [Bool.or_left_comm]

theorem not_corrupt_of_verdict {file : BundleFile} (h : verdict expected file ≠ none)
    : corrupt file = false := by
  have hsight : sight expected file = .corrupt ↔ corrupt file = true := sight_corrupt_iff
  rw [← Bool.not_eq_true, ← hsight]
  intro hcorrupt
  rw [verdict, hcorrupt] at h
  exact h rfl

/--
A file that settles nothing in the place of another, after files that settle nothing.
-/
theorem conclusion_replace_iff {before after : List (String × BundleFile)} {name : String}
    {file new : BundleFile} (hbefore : firstVerdict expected before = none)
    (hnew : verdict expected new = none) (hsound : corrupt new = false)
    : conclusion (anyCorrupt (before ++ (name, new) :: after))
          (firstVerdict expected (before ++ (name, new) :: after))
        = conclusion (anyCorrupt (before ++ (name, file) :: after))
          (firstVerdict expected (before ++ (name, file) :: after))
      ↔ (verdict expected file ≠ none → firstVerdict expected after = verdict expected file)
          ∧ (corrupt file = true →
              firstVerdict expected after ≠ none ∨ anyCorrupt (before ++ after) = true) := by
  rw [conclusion_inj]
  simp only [firstVerdict_append, firstVerdict_cons, hbefore, hnew, Option.none_or,
    anyCorrupt_insert, hsound, Bool.false_or]
  cases hfile : verdict expected file with
  | some v =>
    have hsome : verdict expected file ≠ none := by
      rw [hfile]
      simp
    have hfine := not_corrupt_of_verdict hsome
    simp only [Option.some_or, hfine, Bool.false_or, implies_true, and_true, ne_eq, reduceCtorEq,
      not_false_eq_true, forall_const, Bool.false_eq_true, false_implies]
  | none =>
    simp only [Option.none_or, true_and, ne_eq, not_true_eq_false, false_implies]
    cases firstVerdict expected after with
    | some v => simp
    | none =>
      simp only [forall_const, not_true_eq_false, false_or]
      cases corrupt file <;> cases anyCorrupt (before ++ after) <;> simp

end decision

section resolve

variable {repr}

theorem captured_resolve (dir : Directory) (expected : Option String)
    : (resolve dir expected).map Resolution.captured
        = conclusion (anyCorrupt (bundleFiles dir)) (firstVerdict expected (bundleFiles dir)) := by
  rw [resolve, captured_resolveFiles, Bool.false_or]

/--
Writing the bundle of one snapshot changes what is found for another unless it is undisturbed.
-/
theorem bundle_immutable_iff {dir dir' : Directory} {A B : SnapshotEnvelope}
    (h : emit repr dir B = .ok dir')
    : (resolve dir' (some A.sourceBundleSha256)).map Resolution.captured
          = (resolve dir (some A.sourceBundleSha256)).map Resolution.captured
        ↔ Undisturbed repr dir A B := by
  rw [of_emit h, captured_resolve, captured_resolve, bundleFiles_insert,
    bundleFiles_eq repr dir B]
  simp only [Undisturbed]
  cases hbefore : firstVerdict (some A.sourceBundleSha256) (filesBefore dir (B.filename repr)) with
  | some v =>
    refine iff_of_true ?_ (.inl (by simp))
    rw [conclusion_inj]
    simp only [firstVerdict_append, hbefore, Option.some_or, reduceCtorEq, false_implies, and_self]
  | none =>
    simp only [ne_eq, not_true_eq_false, false_or]
    by_cases hsame : A.sourceBundleSha256 = B.sourceBundleSha256
    . rw [conclusion_inj]
      rw [or_iff_left (fun h => h.1 hsame), and_iff_right hsame]
      simp only [firstVerdict_append (filesBefore dir (B.filename repr)), hbefore, Option.none_or,
        firstVerdict_cons, verdict_file_same hsame, Option.some_or, reduceCtorEq, false_implies,
        and_true]
      exact eq_comm
    . simp only [hsame, not_false_eq_true, true_and, false_and, false_or]
      cases hat : dir.entries[B.filename repr]? with
      | none =>
        refine iff_of_true ?_ (fun file hfile => by cases hfile)
        have hnone : fileAt dir (B.filename repr) = [] := by
          rw [fileAt, entryAt, hat]
          rfl
        rw [hnone, conclusion_inj, anyCorrupt_insert, corrupt_file, Bool.false_or, List.nil_append]
        simp only [firstVerdict_append, firstVerdict_cons, verdict_file_other hsame, Option.none_or,
          implies_true, and_self]
      | some file =>
        have hone : fileAt dir (B.filename repr) = [(B.filename repr, file)] := by
          rw [fileAt, entryAt, hat]
          rfl
        rw [hone, List.singleton_append,
          conclusion_replace_iff hbefore (verdict_file_other hsame) (corrupt_file B)]
        simp only [Option.some.injEq, forall_eq']

/--
A new file that belongs to another snapshot makes no difference.
-/
theorem undisturbed_of_free {dir : Directory} {A B : SnapshotEnvelope}
    (hfree : dir.entries[B.filename repr]? = none)
    (hdigest : A.sourceBundleSha256 ≠ B.sourceBundleSha256) : Undisturbed repr dir A B := by
  refine .inr (.inr ⟨hdigest, fun file hfile => ?_⟩)
  rw [hfree] at hfile
  cases hfile

/--
Snapshots with the same window records write to the same file, whatever their source files hold.
-/
theorem filename_eq {A B : SnapshotEnvelope} (h : windowRecords A.payload = windowRecords B.payload)
    : A.filename repr = B.filename repr := by
  rw [SnapshotEnvelope.filename, SnapshotEnvelope.filename, sourceBundleSha256, sourceBundleSha256,
    frozenCanonicalRows, frozenCanonicalRows, h]

/--
A bundle that lies under the name of another snapshot's is lost when that one is written.
-/
theorem lost_of_emit {dir dir' : Directory} {A B : SnapshotEnvelope}
    (h : emit repr dir B = .ok dir')
    (hat : dir.entries[B.filename repr]? = some (A.file repr))
    (hdigest : A.sourceBundleSha256 ≠ B.sourceBundleSha256)
    (hbefore : firstVerdict (some A.sourceBundleSha256) (filesBefore dir (B.filename repr)) = none)
    (hafter : firstVerdict (some A.sourceBundleSha256) (filesAfter dir (B.filename repr)) = none)
    : (resolve dir' (some A.sourceBundleSha256)).map Resolution.captured
        ≠ (resolve dir (some A.sourceBundleSha256)).map Resolution.captured := by
  have hone : fileAt dir (B.filename repr) = [(B.filename repr, A.file repr)] := by
    rw [fileAt, entryAt, hat]
    rfl
  have hfound := @verdict_file_same repr A A rfl
  rw [of_emit h, captured_resolve, captured_resolve, bundleFiles_insert, bundleFiles_eq repr dir B,
    hone, ne_eq, conclusion_inj]
  rintro ⟨heq, -⟩
  simp only [firstVerdict_append, firstVerdict_cons, hbefore, hafter, verdict_file_other hdigest,
    List.singleton_append, hfound, Option.none_or, Option.some_or, reduceCtorEq] at heq

end resolve

section grown

def exampleRecord : JsonObject := [
  ("symbol", .str "BTCUSDT"),
  ("window_start", .str "2026-01-01T00:00:00Z"),
  ("window_end", .str "2026-01-01T08:00:00Z"),
  ("required_by", .str "paper_engine_funding_interval"),
  ("accepted_source_row", .obj [
    ("source_file_path", .str "data/BTCUSDT_8h_funding.csv"),
    ("source_csv_row_index", .int 0),
    ("source_row_sha256", .str "5f0a")
  ]),
  ("raw_fundingTime_ms", .int 1767254400000),
  ("funding_rate", .str "0.0001")
]

/--
A snapshot of one window, when the source file had a digest.
-/
def exampleSnapshot (fileSha256 digest : String) : SnapshotEnvelope :=
  let payload := [
    ("required_funding_windows", .arr [.obj exampleRecord]),
    ("source_files", .arr [.obj [
      ("path", .str "data/BTCUSDT_8h_funding.csv"),
      ("full_file_sha256", .str fileSha256)
    ]]),
    ("source_bundle_sha256", .str digest)
  ]
  {
    fields := [("snapshot_payload", .obj payload)]
    payload := payload
    sourceBundleSha256 := digest
    hasPayload := rfl
    hasDigest := rfl
  }

def exampleRepr (_ : JsonValue) : String :=
  ""

def exampleDirectory : Directory :=
  some ((∅ : Std.ExtTreeMap String BundleFile).insert
    ((exampleSnapshot "a1" "a2").filename exampleRepr)
    ((exampleSnapshot "a1" "a2").file exampleRepr))

theorem filename_exampleSnapshot (fileSha256 digest fileSha256' digest' : String)
    : (exampleSnapshot fileSha256 digest).filename exampleRepr
        = (exampleSnapshot fileSha256' digest').filename exampleRepr :=
  filename_eq rfl

theorem entries_exampleDirectory (fileSha256 digest : String)
    : exampleDirectory.entries[(exampleSnapshot fileSha256 digest).filename exampleRepr]?
        = some ((exampleSnapshot "a1" "a2").file exampleRepr) := by
  rw [filename_exampleSnapshot fileSha256 digest "a1" "a2", exampleDirectory, Directory.entries,
    Option.getD_some, Std.ExtTreeMap.getElem?_insert_self]

/--
No other file is in the directory.
-/
theorem files_exampleDirectory (fileSha256 digest : String)
    : filesBefore exampleDirectory ((exampleSnapshot fileSha256 digest).filename exampleRepr) = []
      ∧ filesAfter exampleDirectory ((exampleSnapshot fileSha256 digest).filename exampleRepr) = []
    := by
  rw [filename_exampleSnapshot fileSha256 digest "a1" "a2", filesBefore, filesAfter, entriesBefore,
    entriesAfter, exampleDirectory, Directory.entries, Option.getD_some,
    filter_toList_insert _ _ (p := fun x => x < _) (lt_irrefl _),
    filter_toList_insert _ _ (p := fun x => _ < x) (lt_irrefl _)]
  exact ⟨rfl, rfl⟩

theorem emit_exampleSnapshot (fileSha256 digest : String)
    : emit exampleRepr exampleDirectory (exampleSnapshot fileSha256 digest)
        = .ok (some (exampleDirectory.entries.insert
            ((exampleSnapshot fileSha256 digest).filename exampleRepr)
            ((exampleSnapshot fileSha256 digest).file exampleRepr))) := by
  refine emit_ok (show listOr .null = .ok [] from rfl) ?_
  rw [entries_exampleDirectory]
  exact fun h => by cases h

/--
The bundle of a snapshot from before its source file grew cannot be found any more.
-/
theorem bundle_not_immutable
    : ¬∀ (repr : JsonValue → String) (dir dir' : Directory) (A B : SnapshotEnvelope),
        emit repr dir B = .ok dir'
          → (resolve dir' (some A.sourceBundleSha256)).map Resolution.captured
              = (resolve dir (some A.sourceBundleSha256)).map Resolution.captured := by
  intro h
  have hfiles := files_exampleDirectory "b1" "b2"
  refine lost_of_emit (A := exampleSnapshot "a1" "a2") (emit_exampleSnapshot "b1" "b2")
    (entries_exampleDirectory _ _) (by decide) ?_ ?_ (h _ _ _ _ _ (emit_exampleSnapshot "b1" "b2"))
  . rw [hfiles.1]
    rfl
  . rw [hfiles.2]
    rfl

theorem bundle_immutable_example
    : emit exampleRepr exampleDirectory (exampleSnapshot "b1" "b2")
        = .ok (some (exampleDirectory.entries.insert
            ((exampleSnapshot "b1" "b2").filename exampleRepr)
            ((exampleSnapshot "b1" "b2").file exampleRepr)))
      ∧ ((resolve (some (exampleDirectory.entries.insert
            ((exampleSnapshot "b1" "b2").filename exampleRepr)
            ((exampleSnapshot "b1" "b2").file exampleRepr))) (some "b2")).map Resolution.captured
          = (resolve exampleDirectory (some "b2")).map Resolution.captured
        ↔ Undisturbed exampleRepr exampleDirectory (exampleSnapshot "b1" "b2")
            (exampleSnapshot "b1" "b2")) :=
  ⟨emit_exampleSnapshot "b1" "b2",
    bundle_immutable_iff (A := exampleSnapshot "b1" "b2") (emit_exampleSnapshot "b1" "b2")⟩

end grown

end emit

end FundingBundle
end Quantbot
