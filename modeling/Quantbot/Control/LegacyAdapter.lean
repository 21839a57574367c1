import Quantbot.Control.Authority

/-!
The projection of the frozen legacy packet into a control state.
-/

namespace Quantbot

structure LegacyDocument where
  path : String
  raw : Bytes

namespace LegacyAdapter

def taskId : String :=
  "RECOVER_OR_RETIRE_CANDIDATE1_V0_FROZEN_INPUT"

def protocolId : String :=
  "real_btc_candidate1_train_mechanism_decomposition_v0"

def governedH001ProtocolId : String :=
  "real_btc_h001_funding_crowding_reversal_falsification_v0"

def currentReceiptIndex : ℤ :=
  34

/--
The current effective amendments by their role, with the digest of their bytes.
-/
def requiredEffectiveAmendmentRoleDigests : List (String × String) :=
  [("qnty_h001_temporal_causality_activation_amendment",
      "b60f322650c5b83500b89ad9914b50cd2eb200cbae573670d307b5a72190ee1b"),
    ("qnty_h001_synthetic_null_calibration_spec_freeze_activation_amendment",
      "3fa3d21492645baba8a1fd7fd5fbe8a601ccccec1371e5e7a81faff430c2ab48"),
    ("qnty_h001_synthetic_null_calibration_execution_governance_amendment",
      "23b98106326b655ec334e54eaf1757d24f77ab643a64efeddad7226801ad16a5"),
    ("qnty_h001_synthetic_null_calibration_numerical_conventions_amendment_governance",
      "b6309ef438129fd49218ab12a086996286b90408d2d97189a3ce8b9ed680e649"),
    ("qnty_h001_synthetic_null_calibration_rng_runtime_specification_amendment_governance",
      "da27f06effb8321da84ee9f44ff90b810e8c36491d729387b4e820e14f0d8c36"),
    ("qnty_h001_rng_runtime_specification_amendment_activation_amendment",
      "77b27c218670ca427e2f9589dba144731dd456cce56650222ebb37a3d5528c97"),
    ("qnty_h001_numerical_conventions_amendment_activation_amendment",
      "c497359a292f5a9b1333e5d881fee16c39d80f68ec1a6613f625a368532ae200")]

def requiredEffectiveAmendmentRoles : List String :=
  requiredEffectiveAmendmentRoleDigests.map Prod.fst

def engineImplementationStatusAllowedValues : List String :=
  ["IMPLEMENTED_FOR_INDEPENDENT_REVIEW_ONLY"]

def decisionKeyAllowedValues : List (String × List String) :=
  [("EDGE_STATUS", ["EDGE_UNPROVEN"]), ("LIVE_STATUS", ["BLOCK_LIVE_INTEGRATION"]),
    ("H001_EXECUTION", ["0/0"]), ("H001_REAL_DATA_ACCESS", ["FORBIDDEN"]),
    ("REAL_DATA_ACCESS", ["FORBIDDEN"]),
    ("H001_SYNTHETIC_NULL_CALIBRATION_EXECUTION", ["NOT_AUTHORIZED"]),
    ("SYNTHETIC_NULL_CALIBRATION_EXECUTION", ["NOT_AUTHORIZED"]),
    ("SYNTHETIC_CALIBRATION_EXECUTION", ["NOT_AUTHORIZED"]),
    ("SYNTHETIC_CALIBRATION_EXECUTABLE", ["FALSE", "NOT_EXECUTABLE"]),
    ("SCIENTIFIC_USE", ["NOT_AUTHORIZED"]),
    ("SCIENTIFIC_AUTHORIZATION", ["NOT_AUTHORIZED", "FALSE"]),
    ("PAPER_EXECUTION", ["DENIED", "NOT_AUTHORIZED"]),
    ("PAPER_TRADE_AUTHORIZATION", ["DENIED", "NOT_AUTHORIZED", "FALSE"]),
    ("SHADOW_EXECUTION", ["DENIED", "NOT_AUTHORIZED"]),
    ("LIVE_EXECUTION", ["DENIED", "NOT_AUTHORIZED"]),
    ("LIVE_INTEGRATION_AUTHORIZED", ["DENIED", "NOT_AUTHORIZED", "FALSE"]),
    ("RUNTIME_PERMISSION", [])]

def administrativeDecisionKeyPrefixes : List String :=
  ["NEXT_ACTIONS", "REVIEW_STATUS", "REVIEW_VERDICT"]

section fields

def ensure (p : Prop) [Decidable p] (code path : String) : Except ControlError Unit :=
  if p then .ok () else fail code path

def pathChar (c : Char) : Bool :=
  c.isAlphanum || c ∈ "._/-".toList

def isSafePath (path : String) : Bool :=
  let chars := path.toList
  path ≠ "" && chars.all pathChar && chars.head? ≠ some '/' && !(chars.splitOn '/').contains ['.', '.']

def safePath (path label : String) : Except ControlError String := do
  ensure (isSafePath path) "INVALID_LEGACY_PATH" label
  .ok path

def required (obj : JsonObject) (key path : String) : Except ControlError JsonValue :=
  match obj.lookup key with
  | some v => .ok v
  | none => fail "LEGACY_MISSING_FIELD" s!"{path}.{key}"

def requiredStr (obj : JsonObject) (key path : String) : Except ControlError String := do
  match ← required obj key path with
  | .str s => .ok s
  | _ => fail "LEGACY_WRONG_TYPE" s!"{path}.{key}"

def requiredInt (obj : JsonObject) (key path : String) : Except ControlError ℤ := do
  match ← required obj key path with
  | .int n => .ok n
  | _ => fail "LEGACY_WRONG_TYPE" s!"{path}.{key}"

def requiredList (obj : JsonObject) (key path : String)
    : Except ControlError (List JsonValue) := do
  match ← required obj key path with
  | .arr items => .ok items
  | _ => fail "LEGACY_WRONG_TYPE" s!"{path}.{key}"

def requiredDict (obj : JsonObject) (key path : String) : Except ControlError JsonObject := do
  match ← required obj key path with
  | .obj fields => .ok fields
  | _ => fail "LEGACY_WRONG_TYPE" s!"{path}.{key}"

/--
`obj.get(key) == s`
-/
def isStr (obj : JsonObject) (key s : String) : Bool :=
  obj.str? key = some s

/--
`obj.get(key) is b`
-/
def isBool (obj : JsonObject) (key : String) (b : Bool) : Bool :=
  match obj.lookup key with
  | some (.bool b') => b' = b
  | _ => false

/--
Lists and dictionaries are in no set.
-/
def hashable : JsonValue → Bool
  | .arr _ => false
  | .obj _ => false
  | _ => true

end fields

variable (i : Json.Interpreter) (float : List Char → JsonValue)

def load (document : LegacyDocument) (label : String) : Except ControlError JsonObject := do
  let _ ← safePath document.path s!"{label}.path"
  let v ← ControlState.loadsStrict i float (.legacyAdapter "DUPLICATE_LEGACY_KEY" label)
    (.legacyAdapter "INVALID_LEGACY_JSON" label) document.raw
  match v with
  | .obj fields => .ok fields
  | _ => fail "LEGACY_WRONG_TYPE" label

def checkDecisionToken (token : JsonValue) (path : String) : Except ControlError Unit :=
  match token with
  | .str s =>
    let (key, rest) := s.toList.span (fun c => c ≠ '=')
    match rest with
    | [] => .ok ()
    | _ :: value =>
      if administrativeDecisionKeyPrefixes.any (fun p => p.toList.isPrefixOf key) then
        .ok ()
      else
        match decisionKeyAllowedValues.lookup (String.ofList key) with
        | some allowed => ensure (String.ofList value ∈ allowed) "LEGACY_AUTHORITY_ESCALATION" path
        | none => .ok ()
  | _ => .ok ()

def checkDecisionTokens (decisions : Option JsonValue) (path : String)
    : Except ControlError Unit :=
  match decisions with
  | some (.arr decisions) => decisions.zipIdx.forM fun t => checkDecisionToken t.1 s!"{path}[{t.2}]"
  | _ => .ok ()

def checkNextActions (nextActions : Option JsonValue) (path : String)
    : Except ControlError Unit :=
  match nextActions with
  | none => .ok ()
  | some .null => .ok ()
  | some (.arr _) => .ok ()
  | some _ => fail "LEGACY_WRONG_TYPE" path

def checkAuthorityStructure (value : JsonObject) (path : String) : Except ControlError Unit := do
  checkBooleanAuthorityFields i.frames (.obj value) path
  checkDecisionTokens (value.lookup "decisions") s!"{path}.decisions"
  checkNextActions (value.lookup "next_actions") s!"{path}.next_actions"

/--
The values of the frozen safety state. A zero and `False` are equal.
-/
def frozenSafetyState : List (String × (JsonValue → Bool)) :=
  [("edge_status", fun v => v.asStr = some "EDGE_UNPROVEN"),
    ("live_status", fun v => v.asStr = some "BLOCK_LIVE_INTEGRATION"),
    ("decomposition_execution_count", fun v => v.equalsInt 0),
    ("scientific_use_authorized", fun v => v.equalsInt 0),
    ("paper_trade_authorized", fun v => v.equalsInt 0),
    ("live_integration_authorized", fun v => v.equalsInt 0)]

def requiredDecisions : List String :=
  ["EDGE_UNPROVEN", "BLOCK_LIVE_INTEGRATION", "H001_EXECUTION=0/0",
    "H001_REAL_DATA_ACCESS=FORBIDDEN", "H001_SYNTHETIC_NULL_CALIBRATION_EXECUTION=NOT_AUTHORIZED"]

/--
The decisions of a receipt whose safety state is the frozen one.
-/
def safeDecisions (receipt : JsonObject) : Except ControlError (List JsonValue) := do
  let safety ← requiredDict receipt "safety_state" "source_receipt"
  frozenSafetyState.forM fun f => do
    let v ← required safety f.1 "source_receipt.safety_state"
    ensure (f.2 v) "LEGACY_AUTHORITY_ESCALATION" s!"source_receipt.safety_state.{f.1}"
  requiredList receipt "decisions" "source_receipt"

def hasRequiredDecisions (decisions : List JsonValue) : Bool :=
  requiredDecisions.all fun s => decisions.any fun v => v.asStr = some s

/--
`set(decisions)` raises when an element has no hash.
-/
def decisionSet (decisions : List JsonValue) : Except ControlError (List JsonValue) :=
  if decisions.all hashable then .ok decisions else .error (.escaped .typeError)

def requireSafety (receipt : JsonObject) : Except ControlError Unit := do
  let decisions ← safeDecisions receipt
  let decisions ← decisionSet decisions
  ensure (hasRequiredDecisions decisions) "LEGACY_REQUIRED_EVIDENCE_MISSING"
    "source_receipt.decisions"
  checkAuthorityStructure i receipt "source_receipt"

def pathLe (a b : LegacyDocument) : Prop :=
  a.path ≤ b.path

instance : DecidableRel pathLe :=
  fun a b => inferInstanceAs (Decidable (a.path ≤ b.path))

def validateAmendmentsContainer (amendments : List LegacyDocument)
    : Except ControlError (List LegacyDocument) := do
  amendments.zipIdx.forM fun d =>
    ensure (isSafePath d.1.path) "INVALID_LEGACY_PATH" s!"amendments[{d.2}].path"
  ensure (amendments.map LegacyDocument.path).Nodup "DUPLICATE_AMENDMENT_PATH" "amendments"
  .ok (amendments.insertionSort pathLe)

/--
The digest of each path in the evidence of a receipt. The last one counts.
-/
def evidenceOf (receipt : JsonObject) : Except ControlError (List (String × String)) := do
  let items ← requiredList receipt "evidence" "source_receipt"
  .ok (items.reverse.filterMap fun item =>
    match item with
    | .obj fields =>
      match JsonObject.str? fields "path", JsonObject.str? fields "sha256" with
      | some path, some sha256 => some (path, sha256)
      | _, _ => none
    | _ => none)

def checkDocumentKind (documentKind : Option JsonValue) (role path : String)
    : Except ControlError Unit :=
  match documentKind with
  | none => .ok ()
  | some .null => .ok ()
  | some v => ensure (v.asStr = some role) "LEGACY_AMENDMENT_ROLE_CONFLICT" path

/--
The role of an effective amendment, with the roles and the paths that came before it.
-/
def identifyAmendment (roles : List (String × String)) (document : LegacyDocument)
    (parsed : JsonObject) : Except ControlError String := do
  match parsed.str? "amendment_kind" with
  | none => fail "LEGACY_UNKNOWN_AMENDMENT_ROLE" document.path
  | some role =>
    ensure (role ∈ requiredEffectiveAmendmentRoles) "LEGACY_UNKNOWN_AMENDMENT_ROLE" document.path
    checkDocumentKind (parsed.lookup "document_kind") role document.path
    ensure (roles.lookup role = none) "LEGACY_DUPLICATE_AMENDMENT_ROLE" document.path
    ensure (isStr parsed "governed_h001_protocol_id" governedH001ProtocolId)
      "LEGACY_IDENTITY_MISMATCH" document.path
    .ok role

def bindAmendment (evidence : List (String × String)) (document : LegacyDocument) (role : String)
    : Except ControlError Unit := do
  ensure (evidence.lookup document.path = some (sha256Bytes document.raw))
    "LEGACY_REQUIRED_EVIDENCE_MISSING" document.path
  ensure (requiredEffectiveAmendmentRoleDigests.lookup role = some (sha256Bytes document.raw))
    "LEGACY_AMENDMENT_CONTENT_MISMATCH" document.path

def validateAmendment (evidence roles : List (String × String)) (document : LegacyDocument)
    : Except ControlError (List (String × String)) := do
  let parsed ← load i float document "amendment"
  if isBool parsed "effective" true then do
    let role ← identifyAmendment roles document parsed
    checkAuthorityStructure i parsed "amendment"
    bindAmendment evidence document role
    .ok ((role, document.path) :: roles)
  else
    .ok roles

def validateAmendments (amendments : List LegacyDocument) (receipt : JsonObject)
    : Except ControlError Unit := do
  let evidence ← evidenceOf receipt
  let roles ← amendments.foldlM (validateAmendment i float evidence) []
  ensure (∀ role ∈ requiredEffectiveAmendmentRoles, role ∈ roles.map Prod.fst)
    "LEGACY_REQUIRED_EVIDENCE_MISSING" "amendments"

/--
The active task points at the receipt, and both are of the frozen task. Gives the receipt's index.
-/
def checkIdentity (activeTask : LegacyDocument) (active : JsonObject)
    (sourceReceipt : LegacyDocument) (receipt : JsonObject) (sourceHeadCommit : String)
    : Except ControlError ℤ := do
  ensure (activeTask.path = "docs/control/active_task.json") "LEGACY_UNKNOWN_DOCUMENT"
    activeTask.path
  let kind ← requiredStr active "control_kind" "active_task"
  ensure (kind = "qnty_active_task_pointer") "LEGACY_IDENTITY_MISMATCH" "active_task.control_kind"
  let task ← requiredStr active "task_id" "active_task"
  ensure (task = taskId) "LEGACY_IDENTITY_MISMATCH" "active_task"
  let protocol ← requiredStr active "protocol_id" "active_task"
  ensure (protocol = protocolId) "LEGACY_IDENTITY_MISMATCH" "active_task"
  let receiptPath ← requiredStr active "handoff_receipt_path" "active_task"
  ensure (receiptPath = sourceReceipt.path) "ACTIVE_RECEIPT_MISMATCH"
    "active_task.handoff_receipt_path"
  let receiptSha256 ← requiredStr active "handoff_receipt_sha256" "active_task"
  ensure (receiptSha256 = sha256Bytes sourceReceipt.raw) "ACTIVE_RECEIPT_MISMATCH"
    "active_task.handoff_receipt_sha256"
  ensure (ControlState.lowerHex 40 sourceHeadCommit) "LEGACY_WRONG_TYPE" "source_head_commit"
  let task ← requiredStr receipt "task_id" "source_receipt"
  ensure (task = taskId) "LEGACY_IDENTITY_MISMATCH" "source_receipt"
  let protocol ← requiredStr receipt "protocol_id" "source_receipt"
  ensure (protocol = protocolId) "LEGACY_IDENTITY_MISMATCH" "source_receipt"
  let index ← requiredInt receipt "receipt_index" "source_receipt"
  ensure (index = currentReceiptIndex) "LEGACY_REVISION_MISMATCH" "source_receipt.receipt_index"
  .ok index

/--
The binding of the engine and the path it proposes.
-/
def proposalOf (receipt : JsonObject) : Except ControlError (JsonObject × String) := do
  let binding ← requiredDict receipt "engine_implementation_binding" "source_receipt"
  let path ← requiredStr binding "engine_path" "source_receipt.engine_implementation_binding"
  let proposalRef ← safePath path "source_receipt.engine_implementation_binding.engine_path"
  .ok (binding, proposalRef)

/--
`status not in frozenset` raises when the status has no hash.
-/
def checkStatus (binding : JsonObject) : Except ControlError Unit :=
  let status := (binding.lookup "engine_implementation_status").getD .null
  if hashable status then
    ensure (∃ s ∈ engineImplementationStatusAllowedValues, status.asStr = some s)
      "LEGACY_AUTHORITY_ESCALATION"
      "source_receipt.engine_implementation_binding.engine_implementation_status"
  else
    .error (.escaped .typeError)

def checkBinding (receipt : JsonObject) : Except ControlError String := do
  let (binding, proposalRef) ← proposalOf receipt
  checkStatus binding
  ensure (isBool binding "engine_implemented" true) "LEGACY_REQUIRED_EVIDENCE_MISSING"
    "source_receipt.engine_implementation_binding"
  ensure (isBool binding "engine_executed" false ∧ isBool binding "engine_reviewed" true
      ∧ isStr binding "engine_review_verdict" "PASS"
      ∧ isBool binding "engine_wired_into_execute_calibration" false)
    "LEGACY_AUTHORITY_ESCALATION" "source_receipt.engine_implementation_binding"
  .ok proposalRef

/--
The document of the projected state. No authority is read out of the packet.
-/
def projected (index : ℤ) (proposalRef : String) (sourceReceipt : LegacyDocument)
    (sourceHeadCommit : String) : JsonValue :=
  .obj [("control_kind", .str "qnty_control_state"), ("schema_version", .str "1.0.0"),
    ("state_revision", .int (index + 1)), ("protocol_id", .str protocolId),
    ("scientific_state", .obj [("hypothesis_id", .str "H001"),
      ("edge_status", .str "EDGE_UNPROVEN"), ("live_status", .str "BLOCK_LIVE_INTEGRATION"),
      ("real_data_access", .str "FORBIDDEN"),
      ("synthetic_calibration_execution", .str "NOT_AUTHORIZED"), ("execution_count", .int 0),
      ("execution_budget", .int 0)]),
    ("administrative_state", .obj [("workflow_status", .str "REVIEW_COMPLETED"),
      ("proposal_ref", .str proposalRef), ("superseded_by", .null)]),
    ("runtime_authorization", .obj [("public_data_fetch", .str "DENIED"),
      ("h001_real_data_fetch", .str "DENIED"), ("synthetic_calibration", .str "DENIED"),
      ("paper_execution", .str "DENIED"), ("shadow_execution", .str "DENIED"),
      ("live_execution", .str "DENIED")]),
    ("provenance", .obj [("source_receipt_path", .str sourceReceipt.path),
      ("source_receipt_sha256", .str (sha256Bytes sourceReceipt.raw)),
      ("source_head_commit", .str sourceHeadCommit)])]

def projectLegacyControlState (activeTask sourceReceipt : LegacyDocument)
    (amendments : List LegacyDocument) (sourceHeadCommit : String)
    : Except ControlError ControlState := do
  let active ← load i float activeTask "active_task"
  let receipt ← load i float sourceReceipt "source_receipt"
  let amendments ← validateAmendmentsContainer amendments
  let index ← checkIdentity activeTask active sourceReceipt receipt sourceHeadCommit
  requireSafety i receipt
  validateAmendments i float amendments receipt
  let proposalRef ← checkBinding receipt
  ControlState.loadAndValidateControlState i float
    (utf8Bytes (projected index proposalRef sourceReceipt sourceHeadCommit).canonicalJsonDumps)

end LegacyAdapter

end Quantbot
