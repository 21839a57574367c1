import Quantbot.Control.State
import Quantbot.Util.JsonInduction

/-!
Control states as objects whose fields anyone may replace, and the transitions between them.
-/

namespace Quantbot

section objects

/--
The fields of a `ScientificState`. `dataclasses.replace` puts any value into a field.
-/
structure ScientificFields where
  hypothesisId : JsonValue
  edgeStatus : JsonValue
  liveStatus : JsonValue
  realDataAccess : JsonValue
  syntheticCalibrationExecution : JsonValue
  executionCount : JsonValue
  executionBudget : JsonValue

structure AdministrativeFields where
  workflowStatus : JsonValue
  proposalRef : JsonValue
  supersededBy : JsonValue

structure RuntimeFields where
  publicDataFetch : JsonValue
  h001RealDataFetch : JsonValue
  syntheticCalibration : JsonValue
  paperExecution : JsonValue
  shadowExecution : JsonValue
  liveExecution : JsonValue

structure ProvenanceFields where
  sourceReceiptPath : JsonValue
  sourceReceiptSha256 : JsonValue
  sourceHeadCommit : JsonValue

/--
A `ControlState` object. `none` stands for a part that is not of its class.
-/
structure StateObject where
  controlKind : JsonValue
  schemaVersion : JsonValue
  stateRevision : JsonValue
  protocolId : JsonValue
  scientificState : Option ScientificFields
  administrativeState : Option AdministrativeFields
  runtimeAuthorization : Option RuntimeFields
  provenance : Option ProvenanceFields

def ScientificFields.mapping (x : ScientificFields) : JsonObject :=
  [("hypothesis_id", x.hypothesisId), ("edge_status", x.edgeStatus), ("live_status", x.liveStatus),
    ("real_data_access", x.realDataAccess),
    ("synthetic_calibration_execution", x.syntheticCalibrationExecution),
    ("execution_count", x.executionCount), ("execution_budget", x.executionBudget)]

def AdministrativeFields.mapping (x : AdministrativeFields) : JsonObject :=
  [("workflow_status", x.workflowStatus), ("proposal_ref", x.proposalRef),
    ("superseded_by", x.supersededBy)]

def RuntimeFields.mapping (x : RuntimeFields) : JsonObject :=
  [("public_data_fetch", x.publicDataFetch), ("h001_real_data_fetch", x.h001RealDataFetch),
    ("synthetic_calibration", x.syntheticCalibration), ("paper_execution", x.paperExecution),
    ("shadow_execution", x.shadowExecution), ("live_execution", x.liveExecution)]

def ProvenanceFields.mapping (x : ProvenanceFields) : JsonObject :=
  [("source_receipt_path", x.sourceReceiptPath), ("source_receipt_sha256", x.sourceReceiptSha256),
    ("source_head_commit", x.sourceHeadCommit)]

/--
The mapping that a state is checked again as.
-/
def StateObject.mapping (s : StateObject) : Option JsonObject := do
  let scientific ← s.scientificState
  let administrative ← s.administrativeState
  let runtime ← s.runtimeAuthorization
  let provenance ← s.provenance
  some [("control_kind", s.controlKind), ("schema_version", s.schemaVersion),
    ("state_revision", s.stateRevision), ("protocol_id", s.protocolId),
    ("scientific_state", .obj scientific.mapping),
    ("administrative_state", .obj administrative.mapping),
    ("runtime_authorization", .obj runtime.mapping), ("provenance", .obj provenance.mapping)]

def ScientificState.fields (x : ScientificState) : ScientificFields where
  hypothesisId := .str x.hypothesisId
  edgeStatus := .str x.edgeStatus
  liveStatus := .str x.liveStatus
  realDataAccess := .str x.realDataAccess
  syntheticCalibrationExecution := .str x.syntheticCalibrationExecution
  executionCount := .int x.executionCount
  executionBudget := .int x.executionBudget

def optionalStr (s : Option String) : JsonValue :=
  s.elim .null .str

def AdministrativeState.fields (x : AdministrativeState) : AdministrativeFields where
  workflowStatus := .str x.workflowStatus
  proposalRef := .str x.proposalRef
  supersededBy := optionalStr x.supersededBy

def RuntimeAuthorization.fields (x : RuntimeAuthorization) : RuntimeFields where
  publicDataFetch := .str x.publicDataFetch
  h001RealDataFetch := .str x.h001RealDataFetch
  syntheticCalibration := .str x.syntheticCalibration
  paperExecution := .str x.paperExecution
  shadowExecution := .str x.shadowExecution
  liveExecution := .str x.liveExecution

def ControlProvenance.fields (x : ControlProvenance) : ProvenanceFields where
  sourceReceiptPath := .str x.sourceReceiptPath
  sourceReceiptSha256 := .str x.sourceReceiptSha256
  sourceHeadCommit := .str x.sourceHeadCommit

/--
A validated state as an object.
-/
def ControlState.object (s : ControlState) : StateObject where
  controlKind := .str s.controlKind
  schemaVersion := .str s.schemaVersion
  stateRevision := .int s.stateRevision
  protocolId := .str s.protocolId
  scientificState := some s.scientificState.fields
  administrativeState := some s.administrativeState.fields
  runtimeAuthorization := some s.runtimeAuthorization.fields
  provenance := some s.provenance.fields

end objects

namespace ControlState

section transitions

def revalidate (s : StateObject) : Except ControlError ControlState :=
  match s.mapping with
  | some fields => validateRoot (.obj fields)
  | none => .error (.escaped .typeError)

inductive RuntimeAction where
  | publicDataFetch
  | h001RealDataFetch
  | syntheticCalibration
  | paperExecution
  | shadowExecution
  | liveExecution

structure AuthorizationDecision where
  action : RuntimeAction
  authorized : Bool
  reason : String
  stateRevision : ℤ

def authorize (s : StateObject) (action : RuntimeAction)
    : Except ControlError AuthorizationDecision := do
  let validated ← revalidate s
  .ok { action
        authorized := false
        reason := "schema_version 1.0.0 is a deny-only bootstrap; all runtime actions are denied"
        stateRevision := validated.stateRevision }

def validateTransition (previous candidate : StateObject) : Except ControlError Unit := do
  let previous ← revalidate previous
  let candidate ← revalidate candidate
  if previous.controlKind ≠ candidate.controlKind then
    fail "IDENTITY_CHANGED" "$.control_kind"
  else if previous.schemaVersion ≠ candidate.schemaVersion then
    fail "IDENTITY_CHANGED" "$.schema_version"
  else if previous.protocolId ≠ candidate.protocolId then
    fail "IDENTITY_CHANGED" "$.protocol_id"
  else if previous.scientificState.hypothesisId ≠ candidate.scientificState.hypothesisId then
    fail "IDENTITY_CHANGED" "$.scientific_state.hypothesis_id"
  else if candidate.stateRevision ≤ previous.stateRevision then
    fail "STALE_REVISION" "$.state_revision"
  else if candidate.stateRevision ≠ previous.stateRevision + 1 then
    fail "REVISION_GAP" "$.state_revision"
  else
    .ok ()

end transitions

section inversion

variable {obj fields : JsonObject} {key path : String} {v : JsonValue}

/--
The object has the values of the fields.
-/
def Reads (obj fields : JsonObject) : Prop :=
  ∀ f ∈ fields, obj.lookup f.1 = some f.2

def SameKeys (obj : JsonObject) (keys : List String) : Prop :=
  ∀ k, k ∈ obj.map Prod.fst ↔ k ∈ keys

theorem item_ok (h : item obj key = .ok v) : obj.lookup key = some v := by
  unfold item at h
  split at h
  . cases h
    assumption
  . cases h

theorem requireStr_ok {s : String} (h : requireStr obj key path = .ok s)
    : obj.lookup key = some (.str s) := by
  obtain ⟨v, hv, h⟩ := bind_eq_ok.mp h
  split at h
  . cases h
    exact item_ok hv
  . cases h

theorem requireText_ok {test : String → Bool} {code s : String}
    (h : requireText test code obj key path = .ok s)
    : obj.lookup key = some (.str s) ∧ test s = true := by
  obtain ⟨t, ht, h⟩ := bind_eq_ok.mp h
  split at h
  . cases h
    exact ⟨requireStr_ok ht, by assumption⟩
  . cases h

theorem requireInt_ok {n : ℤ} (h : requireInt obj key path = .ok n)
    : obj.lookup key = some (.int n) := by
  obtain ⟨v, hv, h⟩ := bind_eq_ok.mp h
  split at h
  . cases h
    exact item_ok hv
  . cases h

theorem requirePositiveRevision_ok {n : ℤ} (h : requirePositiveRevision obj key path = .ok n)
    : obj.lookup key = some (.int n) := by
  obtain ⟨m, hm, h⟩ := bind_eq_ok.mp h
  split at h
  . cases h
  . cases h
    exact requireInt_ok hm

theorem requireZero_ok {n : ℤ} (h : requireZero obj key path = .ok n)
    : obj.lookup key = some (.int n) ∧ n = 0 := by
  obtain ⟨m, hm, h⟩ := bind_eq_ok.mp h
  split at h
  . cases h
  . rename_i hzero
    cases h
    exact ⟨requireInt_ok hm, not_not.mp hzero⟩

theorem requireOptionalStr_ok {s : Option String} (h : requireOptionalStr obj key path = .ok s)
    : obj.lookup key = some (optionalStr s) := by
  obtain ⟨v, hv, h⟩ := bind_eq_ok.mp h
  split at h
  . cases h
    exact item_ok hv
  . cases h
    exact item_ok hv
  . cases h

theorem requireSafePath_ok {s : String} (h : requireSafePath obj key path = .ok s)
    : obj.lookup key = some (.str s) := by
  obtain ⟨t, ht, h⟩ := bind_eq_ok.mp h
  split at h
  . cases h
    exact (requireText_ok ht).1
  . cases h

theorem insertionSort_eq_nil {l : List String} (h : l.insertionSort (fun k l => k ≤ l) = [])
    : l = [] := by
  have hperm := List.perm_insertionSort (fun k l : String => k ≤ l) l
  rw [h] at hperm
  exact hperm.symm.eq_nil

theorem requireExactKeys_ok {expected : List String} (h : requireExactKeys v expected path = .ok obj)
    : v = .obj obj ∧ SameKeys obj expected := by
  unfold requireExactKeys at h
  split at h
  . dsimp only at h
    split at h
    . cases h
    . rename_i hmissing
      split at h
      . cases h
      . rename_i hunknown
        cases h
        refine ⟨rfl, fun k => ⟨fun hk => ?_, fun hk => ?_⟩⟩
        . have hnil := List.filter_eq_nil_iff.mp (insertionSort_eq_nil hunknown) k hk
          simpa using hnil
        . have hnil := List.filter_eq_nil_iff.mp (insertionSort_eq_nil hmissing) k hk
          simpa using hnil
  . cases h

theorem validateScientificState_ok {x : ScientificState} (h : validateScientificState v path = .ok x)
    : x = ⟨"H001", "EDGE_UNPROVEN", "BLOCK_LIVE_INTEGRATION", "FORBIDDEN", "NOT_AUTHORIZED", 0, 0⟩
      ∧ ∃ obj, v = .obj obj ∧ SameKeys obj scientificKeys ∧ Reads obj x.fields.mapping := by
  obtain ⟨obj, hobj, h⟩ := bind_eq_ok.mp h
  obtain ⟨s1, h1, h⟩ := bind_eq_ok.mp h
  obtain ⟨s2, h2, h⟩ := bind_eq_ok.mp h
  obtain ⟨s3, h3, h⟩ := bind_eq_ok.mp h
  obtain ⟨s4, h4, h⟩ := bind_eq_ok.mp h
  obtain ⟨s5, h5, h⟩ := bind_eq_ok.mp h
  obtain ⟨n6, h6, h⟩ := bind_eq_ok.mp h
  obtain ⟨n7, h7, h⟩ := bind_eq_ok.mp h
  cases h
  refine ⟨?_, obj, (requireExactKeys_ok hobj).1, (requireExactKeys_ok hobj).2, ?_⟩
  . rw [requireLiteral_eq h1, requireLiteral_eq h2, requireLiteral_eq h3, requireLiteral_eq h4,
      requireLiteral_eq h5, (requireZero_ok h6).2, (requireZero_ok h7).2]
  . simp only [Reads, ScientificFields.mapping, ScientificState.fields, List.forall_mem_cons,
      List.not_mem_nil, false_implies, implies_true, and_true]
    exact ⟨(requireText_ok h1).1, (requireText_ok h2).1, (requireText_ok h3).1,
      (requireText_ok h4).1, (requireText_ok h5).1, (requireZero_ok h6).1, (requireZero_ok h7).1⟩

theorem validateAdministrativeState_ok {x : AdministrativeState}
    (h : validateAdministrativeState v path = .ok x)
    : ∃ obj, v = .obj obj ∧ SameKeys obj administrativeKeys ∧ Reads obj x.fields.mapping := by
  obtain ⟨obj, hobj, h⟩ := bind_eq_ok.mp h
  obtain ⟨s1, h1, h⟩ := bind_eq_ok.mp h
  obtain ⟨s2, h2, h⟩ := bind_eq_ok.mp h
  obtain ⟨s3, h3, h⟩ := bind_eq_ok.mp h
  cases h
  refine ⟨obj, (requireExactKeys_ok hobj).1, (requireExactKeys_ok hobj).2, ?_⟩
  simp only [Reads, AdministrativeFields.mapping, AdministrativeState.fields, List.forall_mem_cons,
    List.not_mem_nil, false_implies, implies_true, and_true]
  exact ⟨(requireText_ok h1).1, requireSafePath_ok h2, requireOptionalStr_ok h3⟩

theorem validateRuntimeAuthorization_ok {x : RuntimeAuthorization}
    (h : validateRuntimeAuthorization v path = .ok x)
    : ∃ obj, v = .obj obj ∧ SameKeys obj runtimeKeys ∧ Reads obj x.fields.mapping := by
  obtain ⟨obj, hobj, h⟩ := bind_eq_ok.mp h
  obtain ⟨s1, h1, h⟩ := bind_eq_ok.mp h
  obtain ⟨s2, h2, h⟩ := bind_eq_ok.mp h
  obtain ⟨s3, h3, h⟩ := bind_eq_ok.mp h
  obtain ⟨s4, h4, h⟩ := bind_eq_ok.mp h
  obtain ⟨s5, h5, h⟩ := bind_eq_ok.mp h
  obtain ⟨s6, h6, h⟩ := bind_eq_ok.mp h
  cases h
  refine ⟨obj, (requireExactKeys_ok hobj).1, (requireExactKeys_ok hobj).2, ?_⟩
  simp only [Reads, RuntimeFields.mapping, RuntimeAuthorization.fields, List.forall_mem_cons,
    List.not_mem_nil, false_implies, implies_true, and_true]
  exact ⟨(requireText_ok h1).1, (requireText_ok h2).1, (requireText_ok h3).1,
    (requireText_ok h4).1, (requireText_ok h5).1, (requireText_ok h6).1⟩

theorem validateProvenance_ok {x : ControlProvenance} (h : validateProvenance v path = .ok x)
    : ∃ obj, v = .obj obj ∧ SameKeys obj provenanceKeys ∧ Reads obj x.fields.mapping := by
  obtain ⟨obj, hobj, h⟩ := bind_eq_ok.mp h
  obtain ⟨s1, h1, h⟩ := bind_eq_ok.mp h
  obtain ⟨s2, h2, h⟩ := bind_eq_ok.mp h
  obtain ⟨s3, h3, h⟩ := bind_eq_ok.mp h
  cases h
  refine ⟨obj, (requireExactKeys_ok hobj).1, (requireExactKeys_ok hobj).2, ?_⟩
  simp only [Reads, ProvenanceFields.mapping, ControlProvenance.fields, List.forall_mem_cons,
    List.not_mem_nil, false_implies, implies_true, and_true]
  exact ⟨requireSafePath_ok h1, (requireText_ok h2).1, (requireText_ok h3).1⟩

/--
Where the parts of a validated document stand, and what is in them.
-/
structure Describes (fields : JsonObject) (s : ControlState) : Prop where
  keys : SameKeys fields topKeys
  words : Reads fields [("control_kind", .str s.controlKind), ("schema_version", .str s.schemaVersion),
    ("state_revision", .int s.stateRevision), ("protocol_id", .str s.protocolId)]
  scientific : ∃ obj, fields.lookup "scientific_state" = some (.obj obj)
    ∧ SameKeys obj scientificKeys ∧ Reads obj s.scientificState.fields.mapping
  administrative : ∃ obj, fields.lookup "administrative_state" = some (.obj obj)
    ∧ SameKeys obj administrativeKeys ∧ Reads obj s.administrativeState.fields.mapping
  runtime : ∃ obj, fields.lookup "runtime_authorization" = some (.obj obj)
    ∧ SameKeys obj runtimeKeys ∧ Reads obj s.runtimeAuthorization.fields.mapping
  provenance : ∃ obj, fields.lookup "provenance" = some (.obj obj)
    ∧ SameKeys obj provenanceKeys ∧ Reads obj s.provenance.fields.mapping
  literal : s.scientificState
    = ⟨"H001", "EDGE_UNPROVEN", "BLOCK_LIVE_INTEGRATION", "FORBIDDEN", "NOT_AUTHORIZED", 0, 0⟩
  denied : s.runtimeAuthorization.Denied

theorem validateRoot_ok {s : ControlState} (h : validateRoot v = .ok s)
    : ∃ fields, v = .obj fields ∧ Describes fields s := by
  have hdenied := denied_of_validateRoot h
  obtain ⟨fields, hfields, h⟩ := bind_eq_ok.mp h
  obtain ⟨kind, hkind, h⟩ := bind_eq_ok.mp h
  obtain ⟨version, hversion, h⟩ := bind_eq_ok.mp h
  obtain ⟨revision, hrevision, h⟩ := bind_eq_ok.mp h
  obtain ⟨protocol, hprotocol, h⟩ := bind_eq_ok.mp h
  obtain ⟨v1, hv1, h⟩ := bind_eq_ok.mp h
  obtain ⟨scientific, hscientific, h⟩ := bind_eq_ok.mp h
  obtain ⟨v2, hv2, h⟩ := bind_eq_ok.mp h
  obtain ⟨administrative, hadministrative, h⟩ := bind_eq_ok.mp h
  obtain ⟨v3, hv3, h⟩ := bind_eq_ok.mp h
  obtain ⟨runtime, hruntime, h⟩ := bind_eq_ok.mp h
  obtain ⟨v4, hv4, h⟩ := bind_eq_ok.mp h
  obtain ⟨provenance, hprovenance, h⟩ := bind_eq_ok.mp h
  cases h
  obtain ⟨hobj, hkeys⟩ := requireExactKeys_ok hfields
  obtain ⟨hliteral, obj1, rfl, h1⟩ := validateScientificState_ok hscientific
  obtain ⟨obj2, rfl, h2⟩ := validateAdministrativeState_ok hadministrative
  obtain ⟨obj3, rfl, h3⟩ := validateRuntimeAuthorization_ok hruntime
  obtain ⟨obj4, rfl, h4⟩ := validateProvenance_ok hprovenance
  refine ⟨fields, hobj, hkeys, ?_, ⟨obj1, item_ok hv1, h1⟩, ⟨obj2, item_ok hv2, h2⟩,
    ⟨obj3, item_ok hv3, h3⟩, ⟨obj4, item_ok hv4, h4⟩, hliteral, hdenied⟩
  simp only [Reads, List.forall_mem_cons, List.not_mem_nil, false_implies, implies_true, and_true]
  exact ⟨(requireText_ok hkind).1, (requireText_ok hversion).1, requirePositiveRevision_ok hrevision,
    (requireText_ok hprotocol).1⟩

end inversion

end ControlState

end Quantbot
