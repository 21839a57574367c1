import Quantbot.Paper.Timestamp.Basic
import Quantbot.Util.JsonRoundTrip
import Quantbot.Util.MapM

/-!
The deny-only control state and its validator.
-/

namespace Quantbot

/--
The exceptions of the control modules: the two of their own with a code and a path, and any other.
-/
inductive ControlError where
  | legacyAdapter (code path : String)
  | controlState (code path : String)
  | escaped (e : PyError)
deriving DecidableEq

structure ScientificState where
  hypothesisId : String
  edgeStatus : String
  liveStatus : String
  realDataAccess : String
  syntheticCalibrationExecution : String
  executionCount : ℤ
  executionBudget : ℤ

structure AdministrativeState where
  workflowStatus : String
  proposalRef : String
  supersededBy : Option String

structure RuntimeAuthorization where
  publicDataFetch : String
  h001RealDataFetch : String
  syntheticCalibration : String
  paperExecution : String
  shadowExecution : String
  liveExecution : String

structure ControlProvenance where
  sourceReceiptPath : String
  sourceReceiptSha256 : String
  sourceHeadCommit : String

structure ControlState where
  controlKind : String
  schemaVersion : String
  stateRevision : ℤ
  protocolId : String
  scientificState : ScientificState
  administrativeState : AdministrativeState
  runtimeAuthorization : RuntimeAuthorization
  provenance : ControlProvenance

/--
All six runtime actions are denied.
-/
def RuntimeAuthorization.Denied (a : RuntimeAuthorization) : Prop :=
  a = ⟨"DENIED", "DENIED", "DENIED", "DENIED", "DENIED", "DENIED"⟩

namespace ControlState

variable {α : Type}

def fail (code path : String) : Except ControlError α :=
  .error (.controlState code path)

/--
`obj[key]`
-/
def item (obj : JsonObject) (key : String) : Except ControlError JsonValue :=
  match obj.lookup key with
  | some v => .ok v
  | none => .error (.escaped .keyError)

/--
The first key that is missing, and the first that is unknown, in the order of strings.
-/
def requireExactKeys (v : JsonValue) (expected : List String) (path : String)
    : Except ControlError JsonObject :=
  match v with
  | .obj fields =>
    let keys := fields.map Prod.fst
    match (expected.filter (fun k => k ∉ keys)).insertionSort (fun k l => k ≤ l) with
    | k :: _ => fail "MISSING_FIELD" s!"{path}.{k}"
    | [] =>
      match (keys.filter (fun k => k ∉ expected)).insertionSort (fun k l => k ≤ l) with
      | k :: _ => fail "UNKNOWN_FIELD" s!"{path}.{k}"
      | [] => .ok fields
  | _ => fail "WRONG_TYPE" path

def requireStr (obj : JsonObject) (key path : String) : Except ControlError String := do
  match ← item obj key with
  | .str s => .ok s
  | _ => fail "WRONG_TYPE" s!"{path}.{key}"

/--
A string that passes a test, with the code of the error when it does not.
-/
def requireText (test : String → Bool) (code : String) (obj : JsonObject) (key path : String)
    : Except ControlError String := do
  let s ← requireStr obj key path
  if test s then .ok s else fail code s!"{path}.{key}"

def requireNonemptyStr (obj : JsonObject) (key path : String) : Except ControlError String :=
  requireText (fun s => s ≠ "") "INVALID_LITERAL" obj key path

def requireLiteral (obj : JsonObject) (key path expected : String) : Except ControlError String :=
  requireText (fun s => s = expected) "INVALID_LITERAL" obj key path

def requireInt (obj : JsonObject) (key path : String) : Except ControlError ℤ := do
  match ← item obj key with
  | .int n => .ok n
  | _ => fail "WRONG_TYPE" s!"{path}.{key}"

def requirePositiveRevision (obj : JsonObject) (key path : String) : Except ControlError ℤ := do
  let n ← requireInt obj key path
  if n ≤ 0 then fail "INVALID_REVISION" s!"{path}.{key}" else .ok n

def requireZero (obj : JsonObject) (key path : String) : Except ControlError ℤ := do
  let n ← requireInt obj key path
  if n ≠ 0 then fail "INVALID_LITERAL" s!"{path}.{key}" else .ok n

def requireOptionalStr (obj : JsonObject) (key path : String)
    : Except ControlError (Option String) := do
  match ← item obj key with
  | .null => .ok none
  | .str s => .ok (some s)
  | _ => fail "WRONG_TYPE" s!"{path}.{key}"

def isDrive (s : List Char) : Bool :=
  match s with
  | c :: ':' :: _ => c.isAlpha
  | _ => false

def isSafeRelativePath (value : String) : Bool :=
  let chars := value.toList
  value ≠ ""
    && '\\' ∉ chars
    && chars.head? ≠ some '/'
    && !isDrive chars
    && !decide ("://".toList <:+: chars)
    && chars.all (fun c => c ∉ "*?[]\x7b\x7d".toList)
    && !(chars.splitOn '/').contains ['.', '.']

def requireSafePath (obj : JsonObject) (key path : String) : Except ControlError String := do
  let s ← requireNonemptyStr obj key path
  if isSafeRelativePath s then .ok s else fail "INVALID_PATH" s!"{path}.{key}"

def lowerHex (length : ℕ) (s : String) : Bool :=
  s.toList.length = length && s.toList.all (fun c => c ∈ "0123456789abcdef".toList)

def requireSha256 (obj : JsonObject) (key path : String) : Except ControlError String :=
  requireText (lowerHex 64) "INVALID_SHA256" obj key path

def requireCommitSha (obj : JsonObject) (key path : String) : Except ControlError String :=
  requireText (lowerHex 40) "INVALID_COMMIT_SHA" obj key path

def requireSchemaVersion (obj : JsonObject) (path : String) : Except ControlError String :=
  requireText (fun s => s = "1.0.0") "UNSUPPORTED_SCHEMA_VERSION" obj "schema_version" path

def scientificKeys : List String :=
  ["hypothesis_id", "edge_status", "live_status", "real_data_access",
    "synthetic_calibration_execution", "execution_count", "execution_budget"]

def administrativeKeys : List String :=
  ["workflow_status", "proposal_ref", "superseded_by"]

def runtimeKeys : List String :=
  ["public_data_fetch", "h001_real_data_fetch", "synthetic_calibration", "paper_execution",
    "shadow_execution", "live_execution"]

def provenanceKeys : List String :=
  ["source_receipt_path", "source_receipt_sha256", "source_head_commit"]

def topKeys : List String :=
  ["control_kind", "schema_version", "state_revision", "protocol_id", "scientific_state",
    "administrative_state", "runtime_authorization", "provenance"]

def validateScientificState (v : JsonValue) (path : String)
    : Except ControlError ScientificState := do
  let obj ← requireExactKeys v scientificKeys path
  let hypothesisId ← requireLiteral obj "hypothesis_id" path "H001"
  let edgeStatus ← requireLiteral obj "edge_status" path "EDGE_UNPROVEN"
  let liveStatus ← requireLiteral obj "live_status" path "BLOCK_LIVE_INTEGRATION"
  let realDataAccess ← requireLiteral obj "real_data_access" path "FORBIDDEN"
  let syntheticCalibrationExecution ←
    requireLiteral obj "synthetic_calibration_execution" path "NOT_AUTHORIZED"
  let executionCount ← requireZero obj "execution_count" path
  let executionBudget ← requireZero obj "execution_budget" path
  .ok { hypothesisId, edgeStatus, liveStatus, realDataAccess, syntheticCalibrationExecution
        executionCount, executionBudget }

def validateAdministrativeState (v : JsonValue) (path : String)
    : Except ControlError AdministrativeState := do
  let obj ← requireExactKeys v administrativeKeys path
  let workflowStatus ← requireNonemptyStr obj "workflow_status" path
  let proposalRef ← requireSafePath obj "proposal_ref" path
  let supersededBy ← requireOptionalStr obj "superseded_by" path
  .ok { workflowStatus, proposalRef, supersededBy }

/--
The source reads the keys in the order of a set, which decides only which of several bad ones an
error names.
-/
def validateRuntimeAuthorization (v : JsonValue) (path : String)
    : Except ControlError RuntimeAuthorization := do
  let obj ← requireExactKeys v runtimeKeys path
  let publicDataFetch ← requireLiteral obj "public_data_fetch" path "DENIED"
  let h001RealDataFetch ← requireLiteral obj "h001_real_data_fetch" path "DENIED"
  let syntheticCalibration ← requireLiteral obj "synthetic_calibration" path "DENIED"
  let paperExecution ← requireLiteral obj "paper_execution" path "DENIED"
  let shadowExecution ← requireLiteral obj "shadow_execution" path "DENIED"
  let liveExecution ← requireLiteral obj "live_execution" path "DENIED"
  .ok { publicDataFetch, h001RealDataFetch, syntheticCalibration, paperExecution
        shadowExecution, liveExecution }

def validateProvenance (v : JsonValue) (path : String) : Except ControlError ControlProvenance := do
  let obj ← requireExactKeys v provenanceKeys path
  let sourceReceiptPath ← requireSafePath obj "source_receipt_path" path
  let sourceReceiptSha256 ← requireSha256 obj "source_receipt_sha256" path
  let sourceHeadCommit ← requireCommitSha obj "source_head_commit" path
  .ok { sourceReceiptPath, sourceReceiptSha256, sourceHeadCommit }

def validateRoot (v : JsonValue) : Except ControlError ControlState := do
  let obj ← requireExactKeys v topKeys "$"
  let controlKind ← requireLiteral obj "control_kind" "$" "qnty_control_state"
  let schemaVersion ← requireSchemaVersion obj "$"
  let stateRevision ← requirePositiveRevision obj "state_revision" "$"
  let protocolId ← requireNonemptyStr obj "protocol_id" "$"
  let scientificState ←
    validateScientificState (← item obj "scientific_state") "$.scientific_state"
  let administrativeState ←
    validateAdministrativeState (← item obj "administrative_state") "$.administrative_state"
  let runtimeAuthorization ←
    validateRuntimeAuthorization (← item obj "runtime_authorization") "$.runtime_authorization"
  let provenance ← validateProvenance (← item obj "provenance") "$.provenance"
  .ok { controlKind, schemaVersion, stateRevision, protocolId, scientificState
        administrativeState, runtimeAuthorization, provenance }

/--
A hook that refuses a key given twice.
-/
def noDuplicates (failure : ControlError) (pairs : JsonObject) : Except ControlError JsonObject :=
  if (pairs.map Prod.fst).Nodup then .ok pairs else .error failure

/--
`json.loads` with a hook that refuses keys given twice. `decodeError` takes the place of its own
exception.
-/
def loadsStrict (i : Json.Interpreter) (float : List Char → JsonValue)
    (duplicateKey decodeError : ControlError) (raw : Bytes) : Except ControlError JsonValue :=
  match Json.decodeUtf8 raw with
  | none => .error decodeError
  | some text =>
    match Json.loads ⟨noDuplicates duplicateKey, .ok, float, i.nesting⟩ text with
    | .ok v => .ok v
    | .error .decodeError => .error decodeError
    | .error (.hook e) => .error e
    | .error .valueError => .error (.escaped .valueError)
    | .error .recursionError => .error (.escaped .recursionError)

def loadAndValidateControlState (i : Json.Interpreter) (float : List Char → JsonValue)
    (raw : Bytes) : Except ControlError ControlState := do
  let v ← loadsStrict i float (.controlState "DUPLICATE_KEY" "$") (.controlState "INVALID_JSON" "$")
    raw
  if utf8Bytes v.canonicalJsonDumps ≠ raw then
    fail "NON_CANONICAL_JSON" "$"
  else
    validateRoot v

section clean

variable {β : Type}

/--
No exception but the control modules' own.
-/
def Clean (x : Except ControlError α) : Prop :=
  ∀ e, x ≠ .error (.escaped e)

@[simp]
theorem clean_ok (a : α) : Clean (.ok a) := by
  intro e h
  cases h

@[simp]
theorem clean_fail (code path : String) : Clean (α := α) (fail code path) := by
  intro e h
  cases h

@[simp]
theorem not_clean_escaped (e : PyError) : ¬Clean (α := α) (.error (.escaped e)) :=
  fun h => h e rfl

theorem clean_bind {x : Except ControlError α} {f : α → Except ControlError β}
    : Clean (x >>= f) ↔ Clean x ∧ ∀ a, x = .ok a → Clean (f a) := by
  cases x with
  | error e =>
    have hbind : (Except.error e >>= f) = .error e := rfl
    simp only [Clean, hbind, ne_eq, Except.error.injEq, reduceCtorEq, false_implies, implies_true,
      and_true]
  | ok a =>
    have hbind : (Except.ok a >>= f) = f a := rfl
    simp only [hbind, clean_ok, Except.ok.injEq, forall_eq', true_and]

theorem clean_of_forall {x : Except ControlError α} {f : α → Except ControlError β} (hx : Clean x)
    (hf : ∀ a, Clean (f a)) : Clean (x >>= f) :=
  clean_bind.mpr ⟨hx, fun a _ => hf a⟩

theorem clean_forM {f : β → Except ControlError Unit} {l : List β} (h : ∀ b ∈ l, Clean (f b))
    : Clean (l.forM f) := by
  induction l with
  | nil => exact clean_ok _
  | cons b l ih =>
    exact clean_of_forall (h b List.mem_cons_self)
      fun _ => ih fun c hc => h c (List.mem_cons_of_mem b hc)

/--
A loop is clean if every iteration that it gets to is.
-/
theorem clean_foldlM {f : α → β → Except ControlError α} {l : List β} {init : α}
    : Clean (l.foldlM f init) ↔
        ∀ pre b post, l = pre ++ b :: post → ∀ s, pre.foldlM f init = .ok s → Clean (f s b) := by
  induction l generalizing init with
  | nil =>
    simp only [List.nil_eq, List.append_eq_nil_iff, reduceCtorEq, and_false, false_implies,
      implies_true, iff_true]
    exact clean_ok init
  | cons c l ih =>
    rw [List.foldlM_cons, clean_bind]
    constructor
    . rintro ⟨hc, hrest⟩ pre b post heq s hpre
      cases pre with
      | nil =>
        cases heq
        cases hpre
        exact hc
      | cons d pre =>
        cases heq
        rw [List.foldlM_cons] at hpre
        obtain ⟨s', hs', hpre⟩ := bind_eq_ok.mp hpre
        exact ih.mp (hrest s' hs') pre b post rfl s hpre
    . intro h
      refine ⟨h [] c l rfl init rfl, fun s hs => ih.mpr fun pre b post heq s' hpre => ?_⟩
      apply h (c :: pre) b post (by rw [heq, List.cons_append]) s'
      rw [List.foldlM_cons]
      exact bind_eq_ok.mpr ⟨s, hs, hpre⟩

theorem clean_ite {p : Prop} [Decidable p] {x y : Except ControlError α} (hx : Clean x)
    (hy : Clean y) : Clean (if p then x else y) := by
  split
  . exact hx
  . exact hy

/--
The object has the keys.
-/
def Has (obj : JsonObject) (keys : List String) : Prop :=
  ∀ k ∈ keys, k ∈ obj.map Prod.fst

variable {obj : JsonObject} {keys : List String} {key : String}

theorem clean_item (h : Has obj keys) (hkey : key ∈ keys) : Clean (item obj key) := by
  unfold item
  split
  . exact clean_ok _
  . rename_i hlookup
    rw [List.lookup_eq_none_iff] at hlookup
    obtain ⟨f, hf, rfl⟩ := List.mem_map.mp (h key hkey)
    have hne := hlookup f hf
    simp only [bne_self_eq_false, Bool.false_eq_true] at hne

theorem clean_requireExactKeys (v : JsonValue) (expected : List String) (path : String)
    : Clean (requireExactKeys v expected path) := by
  unfold requireExactKeys
  split
  . dsimp only
    split
    . exact clean_fail _ _
    . split
      . exact clean_fail _ _
      . exact clean_ok _
  . exact clean_fail _ _

theorem has_of_requireExactKeys {v : JsonValue} {path : String}
    (h : requireExactKeys v keys path = .ok obj) : Has obj keys := by
  unfold requireExactKeys at h
  split at h
  . dsimp only at h
    split at h
    . cases h
    . rename_i hmissing
      split at h
      . cases h
      . cases h
        have hperm := List.perm_insertionSort (fun k l => k ≤ l)
          (keys.filter (fun k => k ∉ obj.map Prod.fst))
        rw [hmissing] at hperm
        have hnil := List.filter_eq_nil_iff.mp hperm.symm.eq_nil
        intro k hk
        simpa using hnil k hk
  . cases h

section fields

variable (h : Has obj keys) (path : String)

include h

theorem clean_requireStr (hkey : key ∈ keys) : Clean (requireStr obj key path) := by
  refine clean_of_forall (clean_item h hkey) fun v => ?_
  split
  . exact clean_ok _
  . exact clean_fail _ _

theorem clean_requireText {test : String → Bool} {code : String} (hkey : key ∈ keys)
    : Clean (requireText test code obj key path) :=
  clean_of_forall (clean_requireStr h path hkey) fun _ =>
    clean_ite (clean_ok _) (clean_fail _ _)

theorem clean_requireInt (hkey : key ∈ keys) : Clean (requireInt obj key path) := by
  refine clean_of_forall (clean_item h hkey) fun v => ?_
  split
  . exact clean_ok _
  . exact clean_fail _ _

theorem clean_requirePositiveRevision (hkey : key ∈ keys)
    : Clean (requirePositiveRevision obj key path) :=
  clean_of_forall (clean_requireInt h path hkey) fun _ => clean_ite (clean_fail _ _) (clean_ok _)

theorem clean_requireZero (hkey : key ∈ keys) : Clean (requireZero obj key path) :=
  clean_of_forall (clean_requireInt h path hkey) fun _ => clean_ite (clean_fail _ _) (clean_ok _)

theorem clean_requireOptionalStr (hkey : key ∈ keys)
    : Clean (requireOptionalStr obj key path) := by
  refine clean_of_forall (clean_item h hkey) fun v => ?_
  split
  . exact clean_ok _
  . exact clean_ok _
  . exact clean_fail _ _

theorem clean_requireSafePath (hkey : key ∈ keys) : Clean (requireSafePath obj key path) :=
  clean_of_forall (clean_requireText h path hkey) fun _ => clean_ite (clean_ok _) (clean_fail _ _)

end fields

theorem clean_validateScientificState (v : JsonValue) (path : String)
    : Clean (validateScientificState v path) := by
  refine clean_bind.mpr ⟨clean_requireExactKeys v _ path, fun obj hobj => ?_⟩
  have h := has_of_requireExactKeys hobj
  refine clean_of_forall (clean_requireText h path (by decide)) fun _ => ?_
  refine clean_of_forall (clean_requireText h path (by decide)) fun _ => ?_
  refine clean_of_forall (clean_requireText h path (by decide)) fun _ => ?_
  refine clean_of_forall (clean_requireText h path (by decide)) fun _ => ?_
  refine clean_of_forall (clean_requireText h path (by decide)) fun _ => ?_
  refine clean_of_forall (clean_requireZero h path (by decide)) fun _ => ?_
  exact clean_of_forall (clean_requireZero h path (by decide)) fun _ => clean_ok _

theorem clean_validateAdministrativeState (v : JsonValue) (path : String)
    : Clean (validateAdministrativeState v path) := by
  refine clean_bind.mpr ⟨clean_requireExactKeys v _ path, fun obj hobj => ?_⟩
  have h := has_of_requireExactKeys hobj
  refine clean_of_forall (clean_requireText h path (by decide)) fun _ => ?_
  refine clean_of_forall (clean_requireSafePath h path (by decide)) fun _ => ?_
  exact clean_of_forall (clean_requireOptionalStr h path (by decide)) fun _ => clean_ok _

theorem clean_validateRuntimeAuthorization (v : JsonValue) (path : String)
    : Clean (validateRuntimeAuthorization v path) := by
  refine clean_bind.mpr ⟨clean_requireExactKeys v _ path, fun obj hobj => ?_⟩
  have h := has_of_requireExactKeys hobj
  refine clean_of_forall (clean_requireText h path (by decide)) fun _ => ?_
  refine clean_of_forall (clean_requireText h path (by decide)) fun _ => ?_
  refine clean_of_forall (clean_requireText h path (by decide)) fun _ => ?_
  refine clean_of_forall (clean_requireText h path (by decide)) fun _ => ?_
  refine clean_of_forall (clean_requireText h path (by decide)) fun _ => ?_
  exact clean_of_forall (clean_requireText h path (by decide)) fun _ => clean_ok _

theorem clean_validateProvenance (v : JsonValue) (path : String)
    : Clean (validateProvenance v path) := by
  refine clean_bind.mpr ⟨clean_requireExactKeys v _ path, fun obj hobj => ?_⟩
  have h := has_of_requireExactKeys hobj
  refine clean_of_forall (clean_requireSafePath h path (by decide)) fun _ => ?_
  refine clean_of_forall (clean_requireText h path (by decide)) fun _ => ?_
  exact clean_of_forall (clean_requireText h path (by decide)) fun _ => clean_ok _

theorem clean_validateRoot (v : JsonValue) : Clean (validateRoot v) := by
  refine clean_bind.mpr ⟨clean_requireExactKeys v _ "$", fun obj hobj => ?_⟩
  have h := has_of_requireExactKeys hobj
  refine clean_of_forall (clean_requireText h "$" (by decide)) fun _ => ?_
  refine clean_of_forall (clean_requireText h "$" (by decide)) fun _ => ?_
  refine clean_of_forall (clean_requirePositiveRevision h "$" (by decide)) fun _ => ?_
  refine clean_of_forall (clean_requireText h "$" (by decide)) fun _ => ?_
  refine clean_of_forall (clean_item h (by decide)) fun _ => ?_
  refine clean_of_forall (clean_validateScientificState _ _) fun _ => ?_
  refine clean_of_forall (clean_item h (by decide)) fun _ => ?_
  refine clean_of_forall (clean_validateAdministrativeState _ _) fun _ => ?_
  refine clean_of_forall (clean_item h (by decide)) fun _ => ?_
  refine clean_of_forall (clean_validateRuntimeAuthorization _ _) fun _ => ?_
  refine clean_of_forall (clean_item h (by decide)) fun _ => ?_
  exact clean_of_forall (clean_validateProvenance _ _) fun _ => clean_ok _

end clean

theorem requireLiteral_eq {obj : JsonObject} {key path expected s : String}
    (h : requireLiteral obj key path expected = .ok s) : s = expected := by
  obtain ⟨t, -, ht⟩ := bind_eq_ok.mp h
  split at ht
  . rename_i heq
    cases ht
    exact of_decide_eq_true heq
  . cases ht

theorem denied_of_validateRuntimeAuthorization {v : JsonValue} {path : String}
    {a : RuntimeAuthorization} (h : validateRuntimeAuthorization v path = .ok a) : a.Denied := by
  obtain ⟨obj, -, h⟩ := bind_eq_ok.mp h
  obtain ⟨s1, h1, h⟩ := bind_eq_ok.mp h
  obtain ⟨s2, h2, h⟩ := bind_eq_ok.mp h
  obtain ⟨s3, h3, h⟩ := bind_eq_ok.mp h
  obtain ⟨s4, h4, h⟩ := bind_eq_ok.mp h
  obtain ⟨s5, h5, h⟩ := bind_eq_ok.mp h
  obtain ⟨s6, h6, h⟩ := bind_eq_ok.mp h
  cases h
  rw [RuntimeAuthorization.Denied, requireLiteral_eq h1, requireLiteral_eq h2, requireLiteral_eq h3,
    requireLiteral_eq h4, requireLiteral_eq h5, requireLiteral_eq h6]

/--
No document that the validator accepts authorizes a runtime action.
-/
theorem denied_of_validateRoot {v : JsonValue} {state : ControlState}
    (h : validateRoot v = .ok state) : state.runtimeAuthorization.Denied := by
  obtain ⟨obj, -, h⟩ := bind_eq_ok.mp h
  obtain ⟨controlKind, -, h⟩ := bind_eq_ok.mp h
  obtain ⟨schemaVersion, -, h⟩ := bind_eq_ok.mp h
  obtain ⟨stateRevision, -, h⟩ := bind_eq_ok.mp h
  obtain ⟨protocolId, -, h⟩ := bind_eq_ok.mp h
  obtain ⟨v1, -, h⟩ := bind_eq_ok.mp h
  obtain ⟨scientific, -, h⟩ := bind_eq_ok.mp h
  obtain ⟨v2, -, h⟩ := bind_eq_ok.mp h
  obtain ⟨administrative, -, h⟩ := bind_eq_ok.mp h
  obtain ⟨v3, -, h⟩ := bind_eq_ok.mp h
  obtain ⟨runtime, hruntime, h⟩ := bind_eq_ok.mp h
  obtain ⟨v4, -, h⟩ := bind_eq_ok.mp h
  obtain ⟨provenance, -, h⟩ := bind_eq_ok.mp h
  cases h
  exact denied_of_validateRuntimeAuthorization hruntime

theorem denied_of_loadAndValidate {i : Json.Interpreter} {float : List Char → JsonValue}
    {raw : Bytes} {state : ControlState}
    (h : loadAndValidateControlState i float raw = .ok state)
    : state.runtimeAuthorization.Denied := by
  obtain ⟨v, -, h⟩ := bind_eq_ok.mp h
  split at h
  . cases h
  . exact denied_of_validateRoot h

section reading

variable (i : Json.Interpreter) (float : List Char → JsonValue) (duplicateKey : ControlError)

/--
The reader of a document with its hooks.
-/
def strictHooks : Json.Hooks ControlError :=
  ⟨noDuplicates duplicateKey, .ok, float, i.nesting⟩

theorem readable_sortKeys {depth : ℕ} {v : JsonValue}
    (h : Json.Readable (strictHooks i float duplicateKey) depth v)
    : Json.Readable (strictHooks i float duplicateKey) depth v.sortKeys := by
  refine Json.Readable.sortKeys _ h fun l l' hl hperm => ?_
  simp only [strictHooks, noDuplicates] at hl ⊢
  split at hl
  . rename_i hnodup
    rw [if_pos (hperm.nodup_iff.mp hnodup)]
  . cases hl

/--
A document that the program writes reads back.
-/
theorem loadsStrict_canonical {depth : ℕ} {v : JsonValue} (decodeError : ControlError)
    (h : Json.Readable (strictHooks i float duplicateKey) depth v) (hdepth : depth ≤ i.nesting)
    : loadsStrict i float duplicateKey decodeError (utf8Bytes v.canonicalJsonDumps)
      = .ok v.sortKeys := by
  have hread := (readable_sortKeys i float duplicateKey h).mono _ hdepth
  have hloads := Json.loads_text (strictHooks i float duplicateKey) hread
  rw [strictHooks] at hloads
  rw [loadsStrict, Json.decodeUtf8_utf8Bytes, JsonValue.canonicalJsonDumps, String.toList_ofList]
  simp only [hloads]

end reading

end ControlState

end Quantbot
