import Quantbot.Paper.Timestamp.Basic
import Quantbot.Util.JsonKeys
import Quantbot.Util.OrderedMap
import Quantbot.Util.Sha256

/-!
Funding source bundles: how one is built from a snapshot, written, and found again.
-/

namespace Quantbot

/--
A value whose objects have their keys in order, as the comparison of dictionaries does not see it.
-/
structure JsonDocument where
  value : JsonValue
  ordered : value.sortKeys = value

def JsonValue.document (v : JsonValue) : JsonDocument :=
  ⟨v.sortKeys, v.sortKeys_sortKeys⟩

namespace FundingBundle

def schemaV1 : String :=
  "FUNDING_SOURCE_BUNDLE_SCHEMA_V1"

def filenamePrefix : String :=
  "funding_source_bundle_v1_"

def reasonMissing : String :=
  "funding_source_bundle_missing"

def reasonCorrupt : String :=
  "funding_source_bundle_corrupt"

def reasonHashMismatch : String :=
  "funding_source_bundle_hash_mismatch"

def reasonIncompleteWindow : String :=
  "funding_source_bundle_incomplete_window"

inductive BundleError where
  | osError
  | raised (e : PyError)

/--
`obj.get(key)`
-/
def get (obj : JsonObject) (key : String) : JsonValue :=
  (obj.lookup key).getD .null

def sha256Text (s : String) : String :=
  sha256Bytes (utf8Bytes s)

section build

-- `str` of a value that is not a string
variable (repr : JsonValue → String)

def toStr : JsonValue → String
  | .str s => s
  | v => repr v

/--
`str(obj.get(key) or "")`
-/
def text (obj : JsonObject) (key : String) : String :=
  if (get obj key).truthy then toStr repr (get obj key) else ""

def windowRecords (payload : JsonObject) : List JsonObject :=
  match get payload "required_funding_windows" with
  | .arr records => records.filterMap JsonValue.asObj
  | _ => []

def frozenRow (record : JsonObject) : Option JsonObject :=
  match get record "accepted_source_row", get record "funding_rate" with
  | .obj _, .null => none
  | .obj accepted, fundingRate =>
    some [
      ("symbol", .str (text repr record "symbol")),
      ("window_start", .str (text repr record "window_start")),
      ("window_end", .str (text repr record "window_end")),
      ("funding_rate", .str (toStr repr fundingRate)),
      ("raw_fundingTime_ms", get record "raw_fundingTime_ms"),
      ("source_file_path", .str (text repr accepted "source_file_path")),
      ("source_csv_row_index", get accepted "source_csv_row_index"),
      ("source_row_sha256", get accepted "source_row_sha256")
    ]
  | _, _ => none

def rowSortKey (row : JsonObject) : String ×ₗ String ×ₗ String :=
  toLex (text repr row "symbol", toLex (text repr row "window_start", text repr row "window_end"))

def rowLe (a b : JsonObject) : Prop :=
  rowSortKey repr a ≤ rowSortKey repr b

instance : DecidableRel (rowLe repr) :=
  fun a b => inferInstanceAs (Decidable (rowSortKey repr a ≤ rowSortKey repr b))

def frozenCanonicalRows (payload : JsonObject) : List JsonObject :=
  ((windowRecords payload).filterMap (frozenRow repr)).insertionSort (rowLe repr)

def requiredWindow (record : JsonObject) : JsonObject := [
  ("symbol", .str (text repr record "symbol")),
  ("window_start", .str (text repr record "window_start")),
  ("window_end", .str (text repr record "window_end")),
  ("required_by", .str (text repr record "required_by"))
]

def requiredWindows (payload : JsonObject) : List JsonObject :=
  (windowRecords payload).map (requiredWindow repr)

def nonemptyStr : JsonValue → Option String
  | .str s => if s = "" then none else some s
  | _ => none

def resolvedFundingSourceDir (payload : JsonObject) : Option String :=
  let provenance := do
    let provenance ← (get payload "provenance").asObj
    let resolution ← (get provenance "source_path_resolution").asObj
    nonemptyStr (get resolution "resolved_funding_source_dir")
  let metadata := do
    let metadata ← (get payload "snapshot_metadata").asObj
    nonemptyStr (get metadata "resolved_funding_source_dir")
  provenance.or metadata

def digestsByPath (payload : JsonObject) (field : String) : JsonObject :=
  let files :=
    match get payload "source_files" with
    | .arr files => files.filterMap JsonValue.asObj
    | _ => []
  files.foldl (fun out item =>
    match get item "path", get item field with
    | .str path, .str value => JsonObject.assign out path (.str value)
    | _, _ => out) []

/--
`list(v or [])`
-/
def listOr (v : JsonValue) : Except PyError (List JsonValue) :=
  if v.truthy then
    match v with
    | .arr items => .ok items
    | .str s => .ok (s.toList.map (fun c => .str (String.singleton c)))
    | .obj fields => .ok (fields.map (fun f => .str f.1))
    | _ => .error .typeError
  else
    .ok []

def countBySymbol (rows : List JsonObject) : JsonObject :=
  rows.foldl (fun counts row =>
    let symbol := text repr row "symbol"
    let count := ((counts.lookup symbol).bind JsonValue.strictInt).getD 0
    JsonObject.assign counts symbol (.int (count + 1))) []

def objects (l : List JsonObject) : JsonValue :=
  .arr (l.map .obj)

/--
The name of a bundle addresses its frozen rows only.
-/
def sourceBundleSha256 (payload : JsonObject) : String :=
  sha256Text (objects (frozenCanonicalRows repr payload)).canonicalJsonDumps

def bundlePayload (envelope payload : JsonObject) (symbols : List JsonValue) : JsonObject :=
  let rows := frozenCanonicalRows repr payload
  [
    ("source_bundle_sha256", .str (sourceBundleSha256 repr payload)),
    ("canonical_rows", objects rows),
    ("original_source_digests", .obj (digestsByPath payload "full_file_sha256")),
    ("row_subset_digests", .obj (digestsByPath payload "canonical_row_subset_sha256")),
    ("symbols", .arr symbols),
    ("row_counts", .obj [
      ("total", .int rows.length),
      ("by_symbol", .obj (countBySymbol repr rows))
    ]),
    ("evaluation_window", get payload "evaluation_window"),
    ("snapshot_scope", (payload.lookup "snapshot_scope").getD (.str "batch")),
    ("resolved_funding_source_dir", ((resolvedFundingSourceDir payload).map .str).getD .null),
    ("required_windows", objects (requiredWindows repr payload)),
    ("snapshot_bundle_sha256", get payload "source_bundle_sha256"),
    ("snapshot_sha256", get envelope "snapshot_sha256")
  ]

def bundle (bundlePayload : JsonObject) : JsonObject := [
  ("schema_version", .str schemaV1),
  ("bundle_payload", .obj bundlePayload)
]

def build (envelope : JsonObject) : Except PyError JsonObject :=
  match get envelope "snapshot_payload" with
  | .obj payload => do
    let symbols ← listOr (get payload "symbols_covered")
    .ok (bundle (bundlePayload repr envelope payload symbols))
  | _ => .error .valueError

end build

/--
What `json.loads` makes of a file: it cannot be read, it is not JSON, or it raises what is not
caught.
-/
inductive BundleFile where
  | unreadable
  | malformed
  | escapes (e : PyError)
  | json (doc : JsonDocument)

/--
The files by their names, if the directory exists.
-/
abbrev Directory := Option (Std.ExtTreeMap String BundleFile)

def Directory.entries (dir : Directory) : Std.ExtTreeMap String BundleFile :=
  dir.getD ∅

def bundleFilename (sha : String) : String :=
  filenamePrefix ++ sha ++ ".json"

/--
The digest that a built bundle stores is a word, so that its path is a file of the directory. A
directory or a protected file in its place is not written over.
-/
def write (dir : Directory) (bundle : JsonObject) : Except BundleError Directory :=
  match get bundle "bundle_payload" with
  | .obj payload =>
    match get payload "source_bundle_sha256" with
    | .str sha =>
      match dir.entries[bundleFilename sha]? with
      | some .unreadable => .error .osError
      | _ =>
        .ok (some (dir.entries.insert (bundleFilename sha) (.json (JsonValue.obj bundle).document)))
    | _ => .error (.raised .valueError)
  | _ => .error (.raised .valueError)

section resolve

def recomputeBundleSha256 (payload : JsonObject) : String :=
  match get payload "canonical_rows" with
  | .arr rows => sha256Text (JsonValue.arr rows).canonicalJsonDumps
  | _ => sha256Text (JsonValue.arr []).canonicalJsonDumps

def validateBundleStructure (v : JsonValue) : Option JsonObject :=
  match v with
  | .obj fields =>
    match get fields "schema_version", get fields "bundle_payload" with
    | .str schema, .obj payload =>
      match get payload "canonical_rows", get payload "source_bundle_sha256" with
      | .arr _, .str _ => if schema = schemaV1 then some payload else none
      | _, _ => none
    | _, _ => none
  | _ => none

/--
What a value is in a set: numbers of one value are one element, and lists and dictionaries cannot
be elements.
-/
inductive SetElement where
  | none
  | number (q : ℚ)
  | nan
  | infinity (negative : Bool)
  | str (s : String)
deriving DecidableEq

def setElement : JsonValue → Except PyError SetElement
  | .null => .ok .none
  | .bool b => .ok (.number (if b then 1 else 0))
  | .int n => .ok (.number n)
  | .float q => .ok (.number q)
  | .nan => .ok .nan
  | .infinity negative => .ok (.infinity negative)
  | .str s => .ok (.str s)
  | .arr _ => .error .typeError
  | .obj _ => .error .typeError

def windowKey (w : JsonObject) : Except PyError (SetElement × SetElement × SetElement) := do
  let symbol ← setElement (get w "symbol")
  let start ← setElement (get w "window_start")
  let stop ← setElement (get w "window_end")
  .ok (symbol, start, stop)

def windowKeys (v : JsonValue) : Except PyError (List (SetElement × SetElement × SetElement)) := do
  let items ← listOr v
  (items.filterMap JsonValue.asObj).mapM windowKey

def bundleWindowReasons (payload : JsonObject) : Except PyError (List String) := do
  let required ← windowKeys (get payload "required_windows")
  let covered ← windowKeys (get payload "canonical_rows")
  .ok (if required.all (fun k => covered.contains k) then [] else [reasonIncompleteWindow])

def orEmpty (v : JsonValue) : JsonValue :=
  if v.truthy then v else .obj []

structure Identity where
  bundlePath : String
  sourceBundleSha256 : JsonValue
  originalSourceDigests : JsonValue

structure Resolution where
  payload : Option JsonObject
  reasons : List String
  identity : Option Identity

def checkReasons (payload : JsonObject) : Except PyError (List String) := do
  let mismatch : Bool :=
    match get payload "source_bundle_sha256" with
    | .str sha => recomputeBundleSha256 payload ≠ sha
    | _ => true
  let window ← bundleWindowReasons payload
  .ok ((if mismatch then [reasonHashMismatch] else []) ++ window)

def isBound (expected : Option String) (payload : JsonObject) : Bool :=
  match expected, get payload "snapshot_bundle_sha256" with
  | none, _ => true
  | some sha, .str bound => bound = sha
  | some _, _ => false

/--
What one turn of the loop finds in a file.
-/
inductive Sight where
  | corrupt
  | other
  | raises (e : PyError)
  | bound (payload : JsonObject)

def sight (expected : Option String) : BundleFile → Sight
  | .unreadable => .corrupt
  | .malformed => .corrupt
  | .escapes e => .raises e
  | .json doc =>
    match validateBundleStructure doc.value with
    | none => .corrupt
    | some payload => if isBound expected payload then .bound payload else .other

def resolveFiles (expected : Option String) (corruptSeen : Bool)
    : List (String × BundleFile) → Except PyError Resolution
  | [] => .ok ⟨none, [if corruptSeen then reasonCorrupt else reasonMissing], none⟩
  | (name, file) :: files =>
    match sight expected file with
    | .corrupt => resolveFiles expected true files
    | .other => resolveFiles expected corruptSeen files
    | .raises e => .error e
    | .bound payload => do
      let reasons ← checkReasons payload
      .ok {
        payload := some payload
        reasons := reasons
        identity := some {
          bundlePath := name
          sourceBundleSha256 := get payload "source_bundle_sha256"
          originalSourceDigests := orEmpty (get payload "original_source_digests")
        }
      }

/--
`glob(f"{BUNDLE_FILENAME_PREFIX}*.json")`
-/
def isBundleName (name : String) : Bool :=
  match filenamePrefix.toList.isPrefixOf? name.toList with
  | some rest => decide (".json".toList <:+ rest)
  | none => false

def bundleFiles (dir : Directory) : List (String × BundleFile) :=
  dir.entries.toList.filter (fun f => isBundleName f.1)

/--
A directory that does not exist has no files.
-/
def resolve (dir : Directory) (expected : Option String) : Except PyError Resolution :=
  resolveFiles expected false (bundleFiles dir)

end resolve

end FundingBundle
end Quantbot
