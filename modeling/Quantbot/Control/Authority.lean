import Quantbot.Control.State

/-!
The authority fields of a legacy document, and the walk that checks them at every depth.
-/

namespace Quantbot

namespace LegacyAdapter

variable {α : Type}

def fail (code path : String) : Except ControlError α :=
  .error (.legacyAdapter code path)

def authorityDenyOnlyFields : List String :=
  ["execution_authorized", "h001_holdout_execution_authorized",
    "h001_validation_execution_authorized", "live_authorization", "live_integration_authorized",
    "paper_trade_authorization", "paper_trade_authorized", "real_data_access_authorized",
    "results_exposed", "scientific_authorization", "scientific_use_authorized",
    "calibration_execution_authorized", "calibration_execution_performed",
    "calibration_engine_implemented", "live_authorization_granted",
    "paper_trade_authorization_granted", "scientific_authorization_granted"]

def authorityFieldSuffixes : List String :=
  ["_authorized", "_authorization", "_permission", "_authority", "_granted"]

def administrativeAllowBooleanFields : List String :=
  ["execution_implementation_authorized", "rng_runtime_amendment_governance_authorized"]

def administrativeStatusFields : List String :=
  ["authorization_status"]

def administrativeStatusAllowedValues : List String :=
  ["AUTHORIZED_H001_SYNTHETIC_NULL_CALIBRATION_EXECUTION_IMPLEMENTATION_FOR_INDEPENDENT_REVIEW_ONLY",
    "AUTHORIZED_H001_SYNTHETIC_NULL_CALIBRATION_NUMERICAL_CONVENTIONS_AMENDMENT_CANDIDATE_FOR_INDEPENDENT_REVIEW_ONLY",
    "AUTHORIZED_H001_SYNTHETIC_NULL_CALIBRATION_RNG_RUNTIME_SPECIFICATION_AMENDMENT_CANDIDATE_FOR_INDEPENDENT_REVIEW_ONLY"]

def stringAuthoritySafeValues : List String :=
  ["DENIED", "FORBIDDEN", "NOT_AUTHORIZED", "UNAUTHORIZED", "NONE"]

/--
`Char.toLower` changes ASCII letters only.
-/
def asciiLower (key : String) : String :=
  String.ofList (key.toList.map Char.toLower)

/--
The name of a deny-only field, or a suffix of one.
-/
def authorityName (key : String) : Bool :=
  let normalized := asciiLower key
  normalized ∈ authorityDenyOnlyFields
    || authorityFieldSuffixes.any (fun s => s.toList.isSuffixOf normalized.toList)

def administrativeBoolean (key : String) : Bool :=
  asciiLower key ∈ administrativeAllowBooleanFields

def administrativeStatus (key : String) : Bool :=
  asciiLower key ∈ administrativeStatusFields

def classifyAuthorityLeaf (key : String) (item : JsonValue) (path : String)
    : Except ControlError Unit :=
  if administrativeBoolean key then
    match item with
    | .bool _ => .ok ()
    | _ => fail "LEGACY_WRONG_TYPE" path
  else if administrativeStatus key then
    match item with
    | .str s =>
      if s ∈ administrativeStatusAllowedValues then
        .ok ()
      else
        fail "LEGACY_AUTHORITY_ESCALATION" path
    | _ => fail "LEGACY_AUTHORITY_ESCALATION" path
  else if authorityName key then
    match item with
    | .bool b => if b then fail "LEGACY_AUTHORITY_ESCALATION" path else .ok ()
    | .str s =>
      if s ∈ stringAuthoritySafeValues then .ok () else fail "LEGACY_AUTHORITY_ESCALATION" path
    | _ => fail "LEGACY_AUTHORITY_ESCALATION" path
  else
    .ok ()

/--
The first argument is the number of calls that may still be nested.
-/
def checkBooleanAuthorityFields : ℕ → JsonValue → String → Except ControlError Unit
  | 0, _, _ => .error (.escaped .recursionError)
  | frames + 1, value, path =>
    match value with
    | .obj fields =>
      fields.forM fun f => do
        classifyAuthorityLeaf f.1 f.2 s!"{path}.{f.1}"
        checkBooleanAuthorityFields frames f.2 s!"{path}.{f.1}"
    | .arr items =>
      items.zipIdx.forM fun f => checkBooleanAuthorityFields frames f.1 s!"{path}[{f.2}]"
    | _ => .ok ()

/--
A value at any depth of a document, the document itself included.
-/
inductive Within (root : JsonValue) : JsonValue → Prop where
  | root : Within root root
  | field {fields : JsonObject} {f : String × JsonValue} (h : Within root (.obj fields))
    (hf : f ∈ fields) : Within root f.2
  | item {items : List JsonValue} {v : JsonValue} (h : Within root (.arr items)) (hv : v ∈ items)
    : Within root v

/--
Every field at any depth passes a test.
-/
def EveryField (p : String → JsonValue → Prop) (root : JsonValue) : Prop :=
  ∀ fields, Within root (.obj fields) → ∀ f ∈ fields, p f.1 f.2

theorem Within.trans {root v w : JsonValue} (hv : Within root v) (hw : Within v w)
    : Within root w := by
  induction hw with
  | root => exact hv
  | field _ hf ih => exact .field ih hf
  | item _ hv ih => exact .item ih hv

theorem Within.cases_head {root w : JsonValue} (h : Within root w)
    : w = root ∨ (∃ fields f, root = .obj fields ∧ f ∈ fields ∧ Within f.2 w)
      ∨ ∃ items v, root = .arr items ∧ v ∈ items ∧ Within v w := by
  induction h with
  | root => exact .inl rfl
  | field _ hf ih =>
    rcases ih with heq | ⟨fields, g, heq, hg, hw⟩ | ⟨items, v, heq, hv, hw⟩
    . exact .inr (.inl ⟨_, _, heq.symm, hf, .root⟩)
    . exact .inr (.inl ⟨fields, g, heq, hg, .field hw hf⟩)
    . exact .inr (.inr ⟨items, v, heq, hv, .field hw hf⟩)
  | item _ hv ih =>
    rcases ih with heq | ⟨fields, g, heq, hg, hw⟩ | ⟨items, u, heq, hu, hw⟩
    . exact .inr (.inr ⟨_, _, heq.symm, hv, .root⟩)
    . exact .inr (.inl ⟨fields, g, heq, hg, .item hw hv⟩)
    . exact .inr (.inr ⟨items, u, heq, hu, .item hw hv⟩)

/--
A value that passes the walk has been classified at every depth.
-/
theorem everyField_of_check {frames : ℕ} {root : JsonValue} {path : String}
    (h : checkBooleanAuthorityFields frames root path = .ok ())
    : EveryField (fun key item => ∃ path, classifyAuthorityLeaf key item path = .ok ()) root := by
  induction frames generalizing root path with
  | zero => cases h
  | succ frames ih =>
    intro fields hwithin f hf
    rcases hwithin.cases_head with heq | ⟨fields', g, rfl, hg, hw⟩ | ⟨items, v, rfl, hv, hw⟩
    . subst heq
      obtain ⟨_, hleaf, -⟩ := bind_eq_ok.mp (forM_ok h hf)
      exact ⟨_, hleaf⟩
    . obtain ⟨_, -, hrest⟩ := bind_eq_ok.mp (forM_ok h hg)
      exact ih hrest fields hw f hf
    . obtain ⟨n, hn, rfl⟩ := List.getElem_of_mem hv
      have hmem : (items[n], n) ∈ items.zipIdx := by
        rw [List.mem_zipIdx_iff_getElem?]
        exact List.getElem?_eq_getElem hn
      exact ih (forM_ok h hmem) fields hw f hf

/--
`False`, or one of the strings that deny.
-/
def DenySafe (item : JsonValue) : Prop :=
  item = .bool false ∨ ∃ s ∈ stringAuthoritySafeValues, item = .str s

/--
A field that carries runtime authority. The administrative fields are set apart by their names.
-/
def recognised (key : String) : Bool :=
  !administrativeBoolean key && !administrativeStatus key && authorityName key

theorem denySafe_of_classify {key : String} {item : JsonValue} {path : String}
    (h : classifyAuthorityLeaf key item path = .ok ()) (hkey : recognised key = true)
    : DenySafe item := by
  simp only [recognised, Bool.and_eq_true, Bool.not_eq_true'] at hkey
  obtain ⟨⟨hboolean, hstatus⟩, hname⟩ := hkey
  simp only [classifyAuthorityLeaf, hboolean, hstatus, hname, if_true, Bool.false_eq_true,
    if_false] at h
  split at h
  . rename_i b
    cases b with
    | true => cases h
    | false => exact .inl rfl
  . rename_i s
    split at h
    . rename_i hs
      exact .inr ⟨s, hs, rfl⟩
    . cases h
  . cases h

/--
What an administrative field holds is a boolean.
-/
theorem bool_of_classify {key : String} {item : JsonValue} {path : String}
    (h : classifyAuthorityLeaf key item path = .ok ()) (hkey : administrativeBoolean key = true)
    : ∃ b, item = .bool b := by
  simp only [classifyAuthorityLeaf, hkey, if_true] at h
  split at h
  . exact ⟨_, rfl⟩
  . cases h

/--
No status field has the name of an authority field.
-/
theorem not_authorityName_of_status {key : String} (h : administrativeStatus key = true)
    : authorityName key = false := by
  simp only [administrativeStatus, administrativeStatusFields, decide_eq_true_eq,
    List.mem_singleton] at h
  simp only [authorityName, h]
  decide

end LegacyAdapter

end Quantbot
