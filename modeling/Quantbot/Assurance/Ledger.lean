import Quantbot.Paper.Timestamp.Basic
import Quantbot.Util.JsonRoundTrip
import Quantbot.Util.MapM

/-!
The holdout disclosure ledger and what may be appended to it.
-/

namespace Quantbot

/--
`AssuranceValidationError`, or any other exception.
-/
inductive AssuranceError where
  | validation (message : String)
  | escaped (e : PyError)
deriving DecidableEq

namespace Assurance

def schemaVersion : String :=
  "0.1.0"

def secretKeys : List String :=
  ["token", "secret", "password", "credential", "private_key", "cookie", "authorization", "api_key"]

def forbiddenKeys : List String :=
  ["returns", "prices", "funding", "p_values", "p-values", "statistics", "performance",
    "strategy_ranking", "raw_data", "artifact_bytes", "store_roots", "store_uri", "credentials",
    "private_reasoning", "chain_of_thought", "scientific_claim", "result_payload"]

def disclosureKinds : List String :=
  ["DESIGNATED_DEVELOPMENT", "DESIGNATED_VALIDATION", "DESIGNATED_HOLDOUT",
    "VALIDATION_STATISTIC_EXPOSED", "HOLDOUT_UNSEALED", "HOLDOUT_STATISTIC_EXPOSED",
    "REGION_GLOBALLY_CONSUMED", "DESCRIPTIVE_REUSE_ONLY"]

def disclosureStatuses : List String :=
  ["RECORDED_APPEND_ONLY"]

def emptyStatus : String :=
  "SCHEMA_IMPLEMENTED_EMPTY_NO_BACKFILL"

def populatedStatus : String :=
  "APPEND_ONLY_METADATA_DISCLOSURES"

def ledgerStatuses : List String :=
  [emptyStatus, populatedStatus]

def ledgerKind : String :=
  "qnty_global_real_protocol_holdout_disclosure_ledger"

def ledgerId : String :=
  "global-real-protocol-holdout-disclosure-ledger-v001"

section fields

variable {α : Type}

def fail (message : String) : Except AssuranceError α :=
  .error (.validation message)

def ensure (p : Prop) [Decidable p] (message : String) : Except AssuranceError Unit :=
  if p then .ok () else fail message

def item (obj : JsonObject) (key : String) : Except AssuranceError JsonValue :=
  match obj.lookup key with
  | some v => .ok v
  | none => .error (.escaped .keyError)

/--
The keys of a dictionary are distinct, so equal sets of keys are permutations of each other.
-/
def keys (value : JsonValue) (expected : List String) (label : String)
    : Except AssuranceError JsonObject :=
  match value with
  | .obj fields => do
    ensure ((fields.map Prod.fst).Perm expected) s!"{label}: exact keys required"
    .ok fields
  | _ => fail s!"{label}: exact keys required"

def text (value : JsonValue) (test : String → Bool) (message : String)
    : Except AssuranceError String :=
  match value with
  | .str s => if test s then .ok s else fail message
  | _ => fail message

def str (value : JsonValue) (label : String) : Except AssuranceError String :=
  text value (fun s => s ≠ "") s!"{label}: non-empty string required"

def isSha256 (s : String) : Bool :=
  s.toList.length = 64 && s.toList.all (fun c => c ∈ "0123456789abcdef".toList)

def sha (value : JsonValue) (label : String) : Except AssuranceError String :=
  text value isSha256 s!"{label}: lowercase sha256 required"

def isLowerAlnum (c : Char) : Bool :=
  c.isLower || c.isDigit

def isIdentifier (s : String) : Bool :=
  match s.toList with
  | c :: cs => isLowerAlnum c && cs.all (fun c => isLowerAlnum c || c ∈ "._:-".toList)
  | [] => false

def identifier (value : JsonValue) (label : String) : Except AssuranceError String := do
  let s ← str value label
  text (.str s) isIdentifier s!"{label}: lowercase identifier required"

/--
The pattern of a timestamp, where each `0` stands for a digit.
-/
def timestampPattern : String :=
  "0000-00-00T00:00:00Z"

def isTimestampText (s : String) : Bool :=
  s.toList.length = timestampPattern.toList.length
    && (timestampPattern.toList.zip s.toList).all
      (fun p => if p.1 = '0' then p.2.isDigit else p.2 = p.1)

/--
A second of 60 passes the pattern and `strptime`, and is no `datetime`.
-/
def parseCanonicalUtcTimestamp (value : JsonValue) (label : String)
    : Except AssuranceError DateTime := do
  let s ← text value isTimestampText s!"{label}: canonical UTC timestamp required"
  match strptime s.toList.dropLast with
  | .ok dt => .ok dt
  | .error _ => fail s!"{label}: canonical UTC timestamp required"

def isPathChar (c : Char) : Bool :=
  c.isAlphanum || c ∈ "._-".toList

def isJsonName (segment : List Char) : Bool :=
  decide (".json".toList <:+ segment) && decide (".json".toList.length < segment.length)

def isControlReceiptPath (s : String) : Bool :=
  match "docs/control/".toList.isPrefixOf? s.toList with
  | some rest =>
    let segments := rest.splitOn '/'
    segments.all (fun segment => segment.all isPathChar && segment ≠ [] && segment ≠ ['.']
        && segment ≠ ['.', '.'])
      && (segments.getLast?.map isJsonName).getD false
  | none => false

def validateControlReceiptPath (value : JsonValue) : Except AssuranceError String :=
  text value isControlReceiptPath "source_control_receipt_path: docs/control JSON path required"

def list (value : JsonValue) (label : String) : Except AssuranceError (List JsonValue) :=
  match value with
  | .arr items => .ok items
  | _ => fail s!"{label}: list required"

end fields

section walk

/--
`key.lower()`, as far as it can be one of the words: apart from the letters A to Z only the Kelvin
sign has an ASCII letter as its lower case.
-/
def lower (key : String) : String :=
  String.ofList (key.toList.map (fun c => if c = '\u212a' then 'k' else c.toLower))

def isForbiddenKey (key : String) : Bool :=
  lower key ∈ secretKeys || lower key ∈ forbiddenKeys

def isForbiddenText (s : String) : Bool :=
  ["/", "http://", "https://", "qnty-artifact://"].any (fun p => p.toList.isPrefixOf s.toList)

/--
The first argument is the number of calls that may still be nested.
-/
def walkForbidden : ℕ → JsonValue → Except AssuranceError Unit
  | 0, _ => .error (.escaped .recursionError)
  | frames + 1, value =>
    match value with
    | .obj fields =>
      fields.forM fun f => do
        ensure (isForbiddenKey f.1 = false) s!"forbidden field: {f.1}"
        walkForbidden frames f.2
    | .arr items => items.forM (walkForbidden frames)
    | .str s =>
      ensure (isForbiddenText s = false)
        "absolute paths, store URIs, and network URLs are forbidden"
    | _ => .ok ()

end walk

section entries

def entryKeys : List String :=
  ["dataset_region_id", "disclosure_kind", "disclosure_status", "entry_id", "hypothesis_id",
    "protocol_id", "recorded_at_utc", "region_end_utc", "region_start_utc",
    "source_control_receipt_path", "source_control_receipt_sha256"]

/--
The walk through the entry starts two calls deeper than that through its ledger.
-/
def entry (frames : ℕ) (value : JsonValue) : Except AssuranceError JsonObject := do
  let data ← keys value entryKeys "ledger entry"
  let _ ← identifier (← item data "entry_id") "entry_id"
  let _ ← identifier (← item data "protocol_id") "protocol_id"
  let _ ← identifier (← item data "hypothesis_id") "hypothesis_id"
  let _ ← identifier (← item data "dataset_region_id") "dataset_region_id"
  let _ ← text (← item data "disclosure_kind") (fun s => s ∈ disclosureKinds)
    "unknown disclosure kind"
  let _ ← text (← item data "disclosure_status") (fun s => s ∈ disclosureStatuses)
    "unknown disclosure status"
  let _ ← validateControlReceiptPath (← item data "source_control_receipt_path")
  let _ ← sha (← item data "source_control_receipt_sha256") "source_control_receipt_sha256"
  let start ← parseCanonicalUtcTimestamp (← item data "region_start_utc") "region_start_utc"
  let stop ← parseCanonicalUtcTimestamp (← item data "region_end_utc") "region_end_utc"
  let _ ← parseCanonicalUtcTimestamp (← item data "recorded_at_utc") "recorded_at_utc"
  ensure (start < stop) "region boundaries must be increasing"
  walkForbidden (frames - 2) (.obj data)
  .ok data

def entryId (data : JsonObject) : Option String :=
  data.str? "entry_id"

def semanticDisclosureKey (data : JsonObject) : List (Option String) :=
  ["protocol_id", "hypothesis_id", "dataset_region_id", "region_start_utc", "region_end_utc",
    "disclosure_kind"].map data.str?

/--
The entries so far with what the loop keeps of them.
-/
structure Seen where
  items : List JsonObject
  ids : List (Option String)
  semantics : List (List (Option String))
  recordedAt : Option DateTime

def validateLedgerEntry (frames : ℕ) (seen : Seen) (value : JsonValue)
    : Except AssuranceError Seen := do
  let data ← entry frames value
  ensure (entryId data ∉ seen.ids) "duplicate entry ID"
  ensure (semanticDisclosureKey data ∉ seen.semantics) "duplicate semantic disclosure"
  let recordedAt ← parseCanonicalUtcTimestamp (← item data "recorded_at_utc") "recorded_at_utc"
  ensure (∀ previous ∈ seen.recordedAt, previous ≤ recordedAt)
    "ledger entries must be ordered by recorded_at_utc"
  .ok {
    items := seen.items ++ [data]
    ids := entryId data :: seen.ids
    semantics := semanticDisclosureKey data :: seen.semantics
    recordedAt := some recordedAt
  }

def validateLedgerEntries (frames : ℕ) (entries : List JsonValue)
    : Except AssuranceError (List JsonObject) := do
  let seen ← entries.foldlM (validateLedgerEntry frames) ⟨[], [], [], none⟩
  .ok seen.items

end entries

section ledger

def documentKeys : List String :=
  ["document_id", "document_kind", "entries", "status", "schema_version"]

structure Ledger where
  data : JsonObject
  status : String
  entries : List JsonObject

/--
`v == s`
-/
def isStr (v : JsonValue) (s : String) : Bool :=
  v.asStr = some s

def validateHoldoutDisclosureLedger (frames : ℕ) (value : JsonValue)
    : Except AssuranceError Ledger := do
  let data ← keys value documentKeys ledgerKind
  let version ← item data "schema_version"
  let kind ← item data "document_kind"
  let id ← item data "document_id"
  ensure (isStr version schemaVersion ∧ isStr kind ledgerKind ∧ isStr id ledgerId)
    s!"{ledgerKind}: identity drifted"
  let status ← text (← item data "status") (fun s => s ∈ ledgerStatuses) "unknown ledger status"
  walkForbidden frames (.obj data)
  let entries ← list (← item data "entries") "entries"
  ensure (status = emptyStatus → entries.isEmpty = true) "empty ledger status requires no entries"
  ensure (status = populatedStatus → entries.isEmpty = false)
    "populated ledger status requires entries"
  let items ← validateLedgerEntries frames entries
  .ok ⟨data, status, items⟩

variable (i : Json.Interpreter) (float : List Char → JsonValue)

/--
`json.loads(raw.decode("utf-8"))`: the last of several equal keys counts, and what it raises is not
caught.
-/
def loads (raw : Bytes) : Except AssuranceError JsonValue :=
  match Json.decodeUtf8 raw with
  | none => .error (.escaped .valueError)
  | some text =>
    match Json.loads (Json.plainHooks i float) text with
    | .ok v => .ok v
    | .error .decodeError => .error (.escaped .valueError)
    | .error (.hook e) => nomatch e
    | .error .valueError => .error (.escaped .valueError)
    | .error .recursionError => .error (.escaped .recursionError)

def canonicalJsonBytes (v : JsonValue) : Bytes :=
  utf8Bytes v.canonicalJsonDumps

/--
`load_and_validate_assurance_scaffold` with the validator of the ledger.
-/
def loadLedger (raw : Bytes) : Except AssuranceError Ledger := do
  let v ← loads i float raw
  ensure (canonicalJsonBytes v = raw) "non-canonical JSON bytes"
  validateHoldoutDisclosureLedger i.frames v

/--
An argument of any type.
-/
inductive Argument where
  | bytes (raw : Bytes)
  | other

def sameEntries (old new : List JsonObject) : Bool :=
  decide (old.length ≤ new.length)
    && (new.take old.length).map (fun e => canonicalJsonBytes (.obj e))
      = old.map (fun e => canonicalJsonBytes (.obj e))

def validateLedgerAppend (previous candidate : Argument) : Except AssuranceError Ledger :=
  match previous, candidate with
  | .bytes previous, .bytes candidate => do
    let before ← loadLedger i float previous
    let after ← loadLedger i float candidate
    ensure (sameEntries before.entries after.entries = true)
      "ledger append must preserve previous entries byte-semantically and in order"
    ensure (before.status = emptyStatus → before.entries.isEmpty = true)
      "empty ledger cannot contain prior entries"
    ensure (before.entries.length < after.entries.length → after.status = populatedStatus)
      "appended ledger must use populated status"
    .ok after
  | _, _ => fail "ledger append requires canonical JSON bytes"

end ledger

end Assurance
end Quantbot
