import Quantbot.Sandbox.Positions
import Quantbot.Util.JsonEqual
import Quantbot.Util.JsonInduction
import Quantbot.Util.JsonRoundTrip

/-!
The receipt of a run over all the scenarios, and the verifier that replays it.
-/

namespace Quantbot

namespace Sandbox

open Json (Hooks Interpreter)

def receiptKind : String :=
  "qnty_candidate1_v1_synthetic_sandbox_receipt"

def sandboxId : String :=
  "candidate1-v1-synthetic-design-sandbox-v0"

def sandboxStatus : String :=
  "AUTHORIZED_EXPLORATORY_ENGINEERING_ONLY"

section building

/--
`(x["variant_id"], x["scenario_id"])`
-/
def resultKey (r : JsonValue) : String × String :=
  let fields := r.asObj.getD []
  ((JsonObject.str? fields "variant_id").getD "", (JsonObject.str? fields "scenario_id").getD "")

def resultLe (r r' : JsonValue) : Prop :=
  (resultKey r).1 < (resultKey r').1
    ∨ (resultKey r).1 = (resultKey r').1 ∧ (resultKey r).2 ≤ (resultKey r').2

instance : DecidableRel resultLe :=
  fun r r' => inferInstanceAs (Decidable ((resultKey r).1 < (resultKey r').1
    ∨ (resultKey r).1 = (resultKey r').1 ∧ (resultKey r).2 ≤ (resultKey r').2))

/--
The results of every variant in every scenario, by variant and scenario.
-/
def replay (bundle : Bundle) : Option (List JsonValue) := do
  let results ← (bundle.variants.flatMap (fun v => scenarios.map (fun s => (v, s)))).mapM
    (fun p => result p.1 p.2)
  return results.insertionSort resultLe

/--
The receipt without its fingerprint. Its keys are in order.
-/
def unsignedReceipt (bundle : Bundle) (rawSha bundleSha : String) (results : List JsonValue)
    : JsonObject :=
  [("accounting_contract_sha256", .str (canonicalDigest accountingContract)),
    ("all_variants_included", .bool true),
    ("canonical_bundle_sha256", .str bundleSha),
    ("edge_claim_authorized", .bool false),
    ("explored_variant_count", .int bundle.variants.length),
    ("official_v1_protocol", .bool false),
    ("raw_input_sha256", .str rawSha),
    ("real_data_accessed", .bool false),
    ("receipt_kind", .str receiptKind),
    ("results", .arr results),
    ("rule_contract_sha256", .str (canonicalDigest ruleContract)),
    ("sandbox_id", .str sandboxId),
    ("sandbox_status", .str sandboxStatus),
    ("scenario_contract_sha256", .str (canonicalDigest scenarioContract)),
    ("schema_version", .str schemaVersion),
    ("scientific_evidence", .bool false),
    ("selection_performed", .bool false),
    ("variant_bundle", bundle.toJson)]

/--
`receipt["run_fingerprint"] = _canonical_digest(receipt)`
-/
def signed (unsigned : JsonObject) : JsonObject :=
  JsonObject.assign unsigned "run_fingerprint" (.str (canonicalDigest (.obj unsigned)))

/--
`none` where the decimals of a result overflow.
-/
def buildReceipt (bundle : Bundle) (rawSha bundleSha : String) : Option JsonValue := do
  let results ← replay bundle
  return .obj (signed (unsignedReceipt bundle rawSha bundleSha results))

end building

section parsing

/--
`parse_constant` raises, and so does a key given twice.
-/
def hooks (i : Interpreter) (float : List Char → JsonValue) : Hooks SandboxError where
  pairs := fun pairs => if (pairs.map Prod.fst).Nodup then .ok pairs else .error .validation
  constant := fun _ => .error .validation
  float := float
  nesting := i.nesting

/--
What `json.loads` ended with, as the sandbox sees it. Only a `JSONDecodeError` is caught.
-/
def ofLoads : Except (Json.LoadsError SandboxError) JsonValue → Except SandboxError JsonValue
  | .ok v => .ok v
  | .error .decodeError => .error .validation
  | .error (.hook e) => .error e
  | .error .valueError => .error .valueError
  | .error .recursionError => .error .recursionError

def parseJsonBytes (i : Interpreter) (float : List Char → JsonValue) (data : Bytes)
    : Except SandboxError JsonValue :=
  match Json.decodeUtf8 data with
  | none => .error .validation
  | some text => ofLoads (Json.loads (hooks i float) text)

/--
`except SandboxValidationError`, raised again as the error of one of the subclasses.
-/
def raisedAs (e : SandboxError) {α : Type} : Except SandboxError α → Except SandboxError α
  | .error .validation => .error e
  | .error .input => .error e
  | .error .verification => .error e
  | x => x

/--
`load_bundle` on the bytes of the file: the bundle, the digest of the bytes and that of the bundle.
-/
def loadBundle (i : Interpreter) (float : List Char → JsonValue) (data : Bytes)
    : Except SandboxError (Bundle × String × String) := do
  let parsed ← raisedAs .input (parseJsonBytes i float data)
  let bundle ← raisedAs .input (validateBundle parsed)
  return (bundle, sha256Bytes data, canonicalDigest bundle.toJson)

end parsing

section verifying

def receiptKeys : List String :=
  ["accounting_contract_sha256", "all_variants_included", "canonical_bundle_sha256",
    "edge_claim_authorized", "explored_variant_count", "official_v1_protocol", "raw_input_sha256",
    "real_data_accessed", "receipt_kind", "results", "rule_contract_sha256", "run_fingerprint",
    "sandbox_id", "sandbox_status", "scenario_contract_sha256", "schema_version",
    "scientific_evidence", "selection_performed", "variant_bundle"]

def receiptShaFields : List String :=
  ["raw_input_sha256", "canonical_bundle_sha256", "scenario_contract_sha256",
    "rule_contract_sha256", "accounting_contract_sha256", "run_fingerprint"]

/--
The fields with a fixed text.
-/
def receiptTexts : List (String × String) :=
  [("schema_version", schemaVersion), ("receipt_kind", receiptKind), ("sandbox_id", sandboxId),
    ("sandbox_status", sandboxStatus)]

def receiptDenials : List String :=
  ["scientific_evidence", "edge_claim_authorized", "official_v1_protocol", "real_data_accessed",
    "selection_performed"]

def isHexSha (v : Option JsonValue) : Bool :=
  match v with
  | some (.str s) => s.toList.length = 64 && s.toList.all (fun c => c ∈ "0123456789abcdef".toList)
  | _ => false

def isText (v : Option JsonValue) (s : String) : Bool :=
  match v with
  | some (.str t) => t = s
  | _ => false

def isBool (v : Option JsonValue) (b : Bool) : Bool :=
  match v with
  | some (.bool c) => c = b
  | _ => false

/--
The checks of the fields before the embedded bundle is looked at.
-/
def headerHolds (fields : JsonObject) : Bool :=
  receiptTexts.all (fun f => isText (fields.lookup f.1) f.2)
    && receiptDenials.all (fun key => isBool (fields.lookup key) false)
    && isBool (fields.lookup "all_variants_included") true
    && receiptShaFields.all (fun key => isHexSha (fields.lookup key))

def resultHolds : JsonValue → Bool
  | .obj fields => isHexSha (fields.lookup "position_series_sha256")
  | _ => false

def resultsHold : Option JsonValue → Bool
  | some (.arr items) => items.all resultHolds
  | _ => false

/--
The checks that compare the fields with the embedded bundle, before the replay.
-/
def bundleHolds (fields : JsonObject) (bundle : Bundle) : Bool :=
  ((fields.lookup "explored_variant_count").getD .null).equalsInt bundle.variants.length
    && isText (fields.lookup "canonical_bundle_sha256") (canonicalDigest bundle.toJson)
    && isText (fields.lookup "scenario_contract_sha256") (canonicalDigest scenarioContract)
    && isText (fields.lookup "rule_contract_sha256") (canonicalDigest ruleContract)
    && isText (fields.lookup "accounting_contract_sha256") (canonicalDigest accountingContract)
    && resultsHold (fields.lookup "results")

/--
`unsigned.pop("run_fingerprint")`
-/
def unsigned (fields : JsonObject) : JsonObject :=
  fields.filter (fun f => f.1 ≠ "run_fingerprint")

def replayHolds (fields : JsonObject) (expected : List JsonValue) : Bool :=
  ((fields.lookup "results").getD .null).equals (.arr expected)
    && isText (fields.lookup "run_fingerprint") (canonicalDigest (.obj (unsigned fields)))

def rejectUnless (p : Bool) : Except SandboxError Unit :=
  if p then .ok () else .error .verification

def receiptFields (v : JsonValue) : Except SandboxError JsonObject :=
  raisedAs .verification (exactKeys v receiptKeys)

def replayed (bundle : Bundle) : Except SandboxError (List JsonValue) :=
  match replay bundle with
  | some results => .ok results
  | none => .error .decimalOverflow

def verifyReceiptBytes (i : Interpreter) (float : List Char → JsonValue) (data : Bytes)
    : Except SandboxError JsonValue := do
  let parsed ← raisedAs .verification (parseJsonBytes i float data)
  rejectUnless (data = canonicalJsonBytes parsed)
  let fields ← receiptFields parsed
  rejectUnless (headerHolds fields)
  let bundle ← raisedAs .verification
    (validateBundle ((fields.lookup "variant_bundle").getD .null))
  rejectUnless (bundleHolds fields bundle)
  let expected ← replayed bundle
  rejectUnless (replayHolds fields expected)
  return parsed

end verifying

end Sandbox

end Quantbot
