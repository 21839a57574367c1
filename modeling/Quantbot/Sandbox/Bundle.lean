import Quantbot.Sandbox.Contract
import Quantbot.Util.JsonKeys
import Quantbot.Util.MapM

/-!
Variant bundles, and the validator that reads one out of a JSON value.
-/

namespace Quantbot

namespace Sandbox

/--
The exceptions of the sandbox: its own three, and the ones that escape them.
-/
inductive SandboxError where
  | validation
  | input
  | verification
  | valueError
  | recursionError
  | decimalOverflow
deriving DecidableEq

def bundleKind : String :=
  "qnty_candidate1_v1_synthetic_variant_bundle"

abbrev Text :=
  {s : String // s ≠ ""}

/--
A decimal string that is finite and not negative.
-/
structure Deadband where
  text : String
  value : Decimal
  parsed : Decimal.ofString text = some value
  nonnegative : value.isNegative = false

abbrev Lookback :=
  {n : ℤ // lookbackMin ≤ n ∧ n ≤ lookbackMax}

/--
A kind of rule with its parameters.
-/
inductive Rule where
  | alwaysFlat
  | alwaysLong
  | alwaysShort
  | laggedReturnSign (lookback : Lookback) (deadband : Deadband)
  | laggedReturnFade (lookback : Lookback) (deadband : Deadband)
  | fundingSignFade (deadband : Deadband)
  | fundingCrowdingReversal (lookback : Lookback) (priceDeadband fundingDeadband : Deadband)

/--
A kind of rationale. Only the last one has a source reference.
-/
inductive RationaleKind where
  | mechanicalBaseline
  | softwarePathCoverage
  | declaredArbitraryAssumption
  | genericStylizedFact (sourceReference : Text)

structure Variant where
  variantId : Text
  rule : Rule
  rationaleKind : RationaleKind
  rationale : Text

structure Bundle where
  bundleId : Text
  variants : List Variant
  nonempty : variants ≠ []
  distinct : (variants.map Variant.variantId).Nodup

section json

def Rule.kind : Rule → String
  | alwaysFlat => "ALWAYS_FLAT"
  | alwaysLong => "ALWAYS_LONG"
  | alwaysShort => "ALWAYS_SHORT"
  | laggedReturnSign _ _ => "LAGGED_RETURN_SIGN"
  | laggedReturnFade _ _ => "LAGGED_RETURN_FADE"
  | fundingSignFade _ => "FUNDING_SIGN_FADE"
  | fundingCrowdingReversal _ _ _ => "FUNDING_CROWDING_REVERSAL"

def Rule.parameters : Rule → JsonObject
  | alwaysFlat => []
  | alwaysLong => []
  | alwaysShort => []
  | laggedReturnSign lookback deadband =>
    [("deadband", .str deadband.text), ("lookback", .int lookback.1)]
  | laggedReturnFade lookback deadband =>
    [("deadband", .str deadband.text), ("lookback", .int lookback.1)]
  | fundingSignFade deadband => [("deadband", .str deadband.text)]
  | fundingCrowdingReversal lookback priceDeadband fundingDeadband =>
    [("funding_deadband", .str fundingDeadband.text), ("lookback", .int lookback.1),
      ("price_deadband", .str priceDeadband.text)]

def RationaleKind.kind : RationaleKind → String
  | mechanicalBaseline => "MECHANICAL_BASELINE"
  | softwarePathCoverage => "SOFTWARE_PATH_COVERAGE"
  | declaredArbitraryAssumption => "DECLARED_ARBITRARY_ASSUMPTION"
  | genericStylizedFact _ => "GENERIC_STYLIZED_FACT"

def RationaleKind.sourceFields : RationaleKind → JsonObject
  | genericStylizedFact sourceReference => [("source_reference", .str sourceReference.1)]
  | _ => []

/--
A variant as `dict(item)`, its keys in order.
-/
def Variant.toJson (v : Variant) : JsonValue :=
  .obj ([("parameters", .obj v.rule.parameters), ("rationale", .str v.rationale.1),
    ("rationale_kind", .str v.rationaleKind.kind), ("rule_kind", .str v.rule.kind)]
    ++ v.rationaleKind.sourceFields ++ [("variant_id", .str v.variantId.1)])

def Bundle.toJson (b : Bundle) : JsonValue :=
  .obj [("bundle_id", .str b.bundleId.1), ("bundle_kind", .str bundleKind),
    ("schema_version", .str schemaVersion), ("variants", .arr (b.variants.map Variant.toJson))]

end json

section validation

variable {α : Type}

def invalid : Except SandboxError α :=
  .error .validation

/--
A dictionary with exactly these keys. The keys of a dictionary are distinct.
-/
def exactKeys (v : JsonValue) (expected : List String) : Except SandboxError JsonObject :=
  match v with
  | .obj fields => if (fields.map Prod.fst).Perm expected then .ok fields else invalid
  | _ => invalid

def textOf (v : Option JsonValue) : Except SandboxError Text :=
  match v with
  | some (.str s) => if h : s ≠ "" then .ok ⟨s, h⟩ else invalid
  | _ => invalid

def lookbackOf (v : Option JsonValue) : Except SandboxError Lookback :=
  match v with
  | some (.int n) => if h : lookbackMin ≤ n ∧ n ≤ lookbackMax then .ok ⟨n, h⟩ else invalid
  | _ => invalid

def decimalOf (s : String) : (r : Option Decimal) → Decimal.ofString s = r
    → Except SandboxError Deadband
  | some d, h => if hd : d.isNegative = false then .ok ⟨s, d, h, hd⟩ else invalid
  | none, _ => invalid

def deadbandOf (v : Option JsonValue) : Except SandboxError Deadband :=
  match v with
  | some (.str s) => decimalOf s (Decimal.ofString s) rfl
  | _ => invalid

def ruleOf (kind : Option JsonValue) (parameters : JsonValue) : Except SandboxError Rule :=
  match kind with
  | some (.str "ALWAYS_FLAT") => do
    let _ ← exactKeys parameters []
    .ok .alwaysFlat
  | some (.str "ALWAYS_LONG") => do
    let _ ← exactKeys parameters []
    .ok .alwaysLong
  | some (.str "ALWAYS_SHORT") => do
    let _ ← exactKeys parameters []
    .ok .alwaysShort
  | some (.str "LAGGED_RETURN_SIGN") => do
    let fields ← exactKeys parameters ["deadband", "lookback"]
    let lookback ← lookbackOf (fields.lookup "lookback")
    let deadband ← deadbandOf (fields.lookup "deadband")
    .ok (.laggedReturnSign lookback deadband)
  | some (.str "LAGGED_RETURN_FADE") => do
    let fields ← exactKeys parameters ["deadband", "lookback"]
    let lookback ← lookbackOf (fields.lookup "lookback")
    let deadband ← deadbandOf (fields.lookup "deadband")
    .ok (.laggedReturnFade lookback deadband)
  | some (.str "FUNDING_SIGN_FADE") => do
    let fields ← exactKeys parameters ["deadband"]
    let deadband ← deadbandOf (fields.lookup "deadband")
    .ok (.fundingSignFade deadband)
  | some (.str "FUNDING_CROWDING_REVERSAL") => do
    let fields ← exactKeys parameters ["funding_deadband", "lookback", "price_deadband"]
    let lookback ← lookbackOf (fields.lookup "lookback")
    let priceDeadband ← deadbandOf (fields.lookup "price_deadband")
    let fundingDeadband ← deadbandOf (fields.lookup "funding_deadband")
    .ok (.fundingCrowdingReversal lookback priceDeadband fundingDeadband)
  | _ => invalid

def rationaleKindOf (kind sourceReference : Option JsonValue)
    : Except SandboxError RationaleKind :=
  match kind with
  | some (.str "MECHANICAL_BASELINE") => .ok .mechanicalBaseline
  | some (.str "SOFTWARE_PATH_COVERAGE") => .ok .softwarePathCoverage
  | some (.str "DECLARED_ARBITRARY_ASSUMPTION") => .ok .declaredArbitraryAssumption
  | some (.str "GENERIC_STYLIZED_FACT") => do
    let sourceReference ← textOf sourceReference
    .ok (.genericStylizedFact sourceReference)
  | _ => invalid

/--
A generic stylized fact has one more key.
-/
def variantKeys (rationaleKind : Option JsonValue) : List String :=
  ["parameters", "rationale", "rationale_kind", "rule_kind"]
    ++ (match rationaleKind with
      | some (.str "GENERIC_STYLIZED_FACT") => ["source_reference"]
      | _ => [])
    ++ ["variant_id"]

def validateVariant (raw : JsonValue) : Except SandboxError Variant := do
  let rationaleKind := (raw.asObj.getD []).lookup "rationale_kind"
  let item ← exactKeys raw (variantKeys rationaleKind)
  let variantId ← textOf (item.lookup "variant_id")
  let rationaleKind ← rationaleKindOf rationaleKind (item.lookup "source_reference")
  let rationale ← textOf (item.lookup "rationale")
  let rule ← ruleOf (item.lookup "rule_kind") ((item.lookup "parameters").getD .null)
  .ok { variantId, rule, rationaleKind, rationale }

/--
All failures raise the same exception, so it does not matter that the source finds a `variant_id`
that was seen before while it goes through the variants.
-/
def validateBundle (v : JsonValue) : Except SandboxError Bundle := do
  let bundle ← exactKeys v ["bundle_id", "bundle_kind", "schema_version", "variants"]
  let bundleId ← textOf (bundle.lookup "bundle_id")
  match bundle.lookup "bundle_kind", bundle.lookup "schema_version", bundle.lookup "variants" with
  | some (.str kind), some (.str version), some (.arr items) =>
    if kind = bundleKind ∧ version = schemaVersion then do
      let variants ← items.mapM validateVariant
      if h : variants ≠ [] ∧ (variants.map Variant.variantId).Nodup then
        .ok { bundleId, variants, nonempty := h.1, distinct := h.2 }
      else
        invalid
    else
      invalid
  | _, _, _ => invalid

end validation

section inversion

variable {keys : List String} {fields : JsonObject} {v : JsonValue}

theorem exactKeys_ok (h : exactKeys v keys = .ok fields)
    : v = .obj fields ∧ (fields.map Prod.fst).Perm keys := by
  unfold exactKeys at h
  split at h
  . split at h
    . cases h
      exact ⟨rfl, by assumption⟩
    . cases h
  . cases h

theorem textOf_ok {o : Option JsonValue} {t : Text} (h : textOf o = .ok t) : o = some (.str t.1) := by
  unfold textOf at h
  split at h
  . split at h
    . cases h
      rfl
    . cases h
  . cases h

theorem lookbackOf_ok {o : Option JsonValue} {n : Lookback} (h : lookbackOf o = .ok n)
    : o = some (.int n.1) := by
  unfold lookbackOf at h
  split at h
  . split at h
    . cases h
      rfl
    . cases h
  . cases h

theorem decimalOf_ok {s : String} {r : Option Decimal} {hr : Decimal.ofString s = r}
    {d : Deadband} (h : decimalOf s r hr = .ok d) : d.text = s := by
  unfold decimalOf at h
  split at h
  . split at h
    . cases h
      rfl
    . cases h
  . cases h

theorem deadbandOf_ok {o : Option JsonValue} {d : Deadband} (h : deadbandOf o = .ok d)
    : o = some (.str d.text) := by
  unfold deadbandOf at h
  split at h
  . rw [decimalOf_ok h]
  . cases h

/--
The object with the given keys and the values found at them.
-/
theorem sortKeys_of_exactKeys (h : exactKeys v keys = .ok fields)
    (hsorted : keys.Pairwise (fun k l => k < l))
    : v.sortKeys = .obj (keys.map fun k => (k, ((fields.lookup k).getD .null).sortKeys)) := by
  obtain ⟨rfl, hperm⟩ := exactKeys_ok h
  exact JsonValue.sortKeys_obj hperm hsorted

theorem ruleOf_ok {kind : Option JsonValue} {r : Rule} (h : ruleOf kind v = .ok r)
    : kind = some (.str r.kind) ∧ v.sortKeys = .obj r.parameters := by
  unfold ruleOf at h
  split at h
  . obtain ⟨fields, hfields, h⟩ := bind_eq_ok.mp h
    cases h
    exact ⟨rfl, sortKeys_of_exactKeys hfields (by decide)⟩
  . obtain ⟨fields, hfields, h⟩ := bind_eq_ok.mp h
    cases h
    exact ⟨rfl, sortKeys_of_exactKeys hfields (by decide)⟩
  . obtain ⟨fields, hfields, h⟩ := bind_eq_ok.mp h
    cases h
    exact ⟨rfl, sortKeys_of_exactKeys hfields (by decide)⟩
  . obtain ⟨fields, hfields, h⟩ := bind_eq_ok.mp h
    obtain ⟨lookback, hlookback, h⟩ := bind_eq_ok.mp h
    obtain ⟨deadband, hdeadband, h⟩ := bind_eq_ok.mp h
    cases h
    refine ⟨rfl, (sortKeys_of_exactKeys hfields (by decide)).trans ?_⟩
    simp only [List.map_cons, List.map_nil, lookbackOf_ok hlookback, deadbandOf_ok hdeadband]
    rfl
  . obtain ⟨fields, hfields, h⟩ := bind_eq_ok.mp h
    obtain ⟨lookback, hlookback, h⟩ := bind_eq_ok.mp h
    obtain ⟨deadband, hdeadband, h⟩ := bind_eq_ok.mp h
    cases h
    refine ⟨rfl, (sortKeys_of_exactKeys hfields (by decide)).trans ?_⟩
    simp only [List.map_cons, List.map_nil, lookbackOf_ok hlookback, deadbandOf_ok hdeadband]
    rfl
  . obtain ⟨fields, hfields, h⟩ := bind_eq_ok.mp h
    obtain ⟨deadband, hdeadband, h⟩ := bind_eq_ok.mp h
    cases h
    refine ⟨rfl, (sortKeys_of_exactKeys hfields (by decide)).trans ?_⟩
    simp only [List.map_cons, List.map_nil, deadbandOf_ok hdeadband]
    rfl
  . obtain ⟨fields, hfields, h⟩ := bind_eq_ok.mp h
    obtain ⟨lookback, hlookback, h⟩ := bind_eq_ok.mp h
    obtain ⟨price, hprice, h⟩ := bind_eq_ok.mp h
    obtain ⟨funding, hfunding, h⟩ := bind_eq_ok.mp h
    cases h
    refine ⟨rfl, (sortKeys_of_exactKeys hfields (by decide)).trans ?_⟩
    simp only [List.map_cons, List.map_nil, lookbackOf_ok hlookback, deadbandOf_ok hprice,
      deadbandOf_ok hfunding]
    rfl
  . cases h

theorem rationaleKindOf_ok {kind source : Option JsonValue} {r : RationaleKind}
    (h : rationaleKindOf kind source = .ok r)
    : kind = some (.str r.kind) ∧
        ((∃ t, r = .genericStylizedFact t ∧ source = some (.str t.1)) ∨
          (r.sourceFields = [] ∧ r.kind ≠ "GENERIC_STYLIZED_FACT")) := by
  unfold rationaleKindOf at h
  split at h
  . cases h
    exact ⟨rfl, .inr ⟨rfl, by decide⟩⟩
  . cases h
    exact ⟨rfl, .inr ⟨rfl, by decide⟩⟩
  . cases h
    exact ⟨rfl, .inr ⟨rfl, by decide⟩⟩
  . obtain ⟨t, ht, h⟩ := bind_eq_ok.mp h
    cases h
    exact ⟨rfl, .inl ⟨t, rfl, textOf_ok ht⟩⟩
  . cases h

theorem variantKeys_of_ne {kind : String} (h : kind ≠ "GENERIC_STYLIZED_FACT")
    : variantKeys (some (.str kind))
      = ["parameters", "rationale", "rationale_kind", "rule_kind", "variant_id"] := by
  unfold variantKeys
  split
  . rename_i heq
    cases heq
    exact absurd rfl h
  . rfl

theorem variantKeys_genericStylizedFact
    : variantKeys (some (.str "GENERIC_STYLIZED_FACT"))
      = ["parameters", "rationale", "rationale_kind", "rule_kind", "source_reference",
        "variant_id"] :=
  rfl

theorem sortKeys_of_validateVariant {variant : Variant} (h : validateVariant v = .ok variant)
    : v.sortKeys = variant.toJson := by
  obtain ⟨item, hitem, h⟩ := bind_eq_ok.mp h
  obtain ⟨variantId, hid, h⟩ := bind_eq_ok.mp h
  obtain ⟨kind, hkind, h⟩ := bind_eq_ok.mp h
  obtain ⟨rationale, hrationale, h⟩ := bind_eq_ok.mp h
  obtain ⟨rule, hrule, h⟩ := bind_eq_ok.mp h
  cases h
  obtain ⟨hkindText, hsource⟩ := rationaleKindOf_ok hkind
  obtain ⟨hruleText, hparameters⟩ := ruleOf_ok hrule
  have hobj := (exactKeys_ok hitem).1
  rw [hkindText] at hitem
  have hlookup : item.lookup "rationale_kind" = some (.str kind.kind) := by
    rw [← hkindText, hobj]
    rfl
  rcases hsource with ⟨t, rfl, htext⟩ | ⟨hfields, hne⟩
  . rw [RationaleKind.kind, variantKeys_genericStylizedFact] at hitem
    refine (sortKeys_of_exactKeys hitem (by decide)).trans ?_
    simp only [List.map_cons, List.map_nil, hparameters, hlookup, hruleText, textOf_ok hid,
      textOf_ok hrationale, htext]
    rfl
  . rw [variantKeys_of_ne hne] at hitem
    refine (sortKeys_of_exactKeys hitem (by decide)).trans ?_
    simp only [List.map_cons, List.map_nil, hparameters, hlookup, hruleText, textOf_ok hid,
      textOf_ok hrationale, Variant.toJson, hfields]
    rfl

theorem sortItems_of_validate {items : List JsonValue} {variants : List Variant}
    (h : items.mapM validateVariant = .ok variants)
    : JsonValue.sortItems items = variants.map Variant.toJson := by
  rw [JsonValue.sortItems_eq_map]
  have hall := mapM_eq_ok h
  exact (forall₂_map_eq JsonValue.sortKeys Variant.toJson hall
    fun v variant hv => sortKeys_of_validateVariant hv).symm

/--
A value that validates is the bundle it validates to, up to the order of its keys.
-/
theorem sortKeys_of_validateBundle {b : Bundle} (h : validateBundle v = .ok b)
    : v.sortKeys = b.toJson := by
  obtain ⟨bundle, hbundle, h⟩ := bind_eq_ok.mp h
  obtain ⟨bundleId, hid, h⟩ := bind_eq_ok.mp h
  refine (sortKeys_of_exactKeys hbundle (by decide)).trans ?_
  split at h
  . rename_i kind version items hkind hversion hvariants
    split at h
    . rename_i hconst
      obtain ⟨variants, hitems, h⟩ := bind_eq_ok.mp h
      split at h
      . cases h
        simp only [List.map_cons, List.map_nil, textOf_ok hid, hkind, hversion, hvariants,
          Option.getD_some, JsonValue.sortKeys, sortItems_of_validate hitems, hconst.1, hconst.2]
        rfl
      . cases h
    . cases h
  . cases h

end inversion

section roundTrip

theorem exactKeys_obj {fields : JsonObject} {keys : List String} (h : fields.map Prod.fst = keys)
    : exactKeys (.obj fields) keys = .ok fields :=
  if_pos (.of_eq h)

theorem textOf_str (t : Text) : textOf (some (.str t.1)) = .ok t :=
  dif_pos t.2

theorem lookbackOf_int (n : Lookback) : lookbackOf (some (.int n.1)) = .ok n :=
  dif_pos n.2

theorem decimalOf_eq (d : Deadband) {r : Option Decimal} (hr : Decimal.ofString d.text = r)
    : decimalOf d.text r hr = .ok d := by
  have hsome := d.parsed
  cases hr.symm.trans hsome
  exact dif_pos d.nonnegative

theorem deadbandOf_str (d : Deadband) : deadbandOf (some (.str d.text)) = .ok d :=
  decimalOf_eq d rfl

theorem ruleOf_parameters (r : Rule) : ruleOf (some (.str r.kind)) (.obj r.parameters) = .ok r := by
  cases r with
  | alwaysFlat => rfl
  | alwaysLong => rfl
  | alwaysShort => rfl
  | laggedReturnSign n d =>
    refine bind_eq_ok.mpr ⟨_, exactKeys_obj rfl, ?_⟩
    refine bind_eq_ok.mpr ⟨n, lookbackOf_int n, ?_⟩
    exact bind_eq_ok.mpr ⟨d, deadbandOf_str d, rfl⟩
  | laggedReturnFade n d =>
    refine bind_eq_ok.mpr ⟨_, exactKeys_obj rfl, ?_⟩
    refine bind_eq_ok.mpr ⟨n, lookbackOf_int n, ?_⟩
    exact bind_eq_ok.mpr ⟨d, deadbandOf_str d, rfl⟩
  | fundingSignFade d =>
    refine bind_eq_ok.mpr ⟨_, exactKeys_obj rfl, ?_⟩
    exact bind_eq_ok.mpr ⟨d, deadbandOf_str d, rfl⟩
  | fundingCrowdingReversal n p f =>
    refine bind_eq_ok.mpr ⟨_, exactKeys_obj rfl, ?_⟩
    refine bind_eq_ok.mpr ⟨n, lookbackOf_int n, ?_⟩
    refine bind_eq_ok.mpr ⟨p, deadbandOf_str p, ?_⟩
    exact bind_eq_ok.mpr ⟨f, deadbandOf_str f, rfl⟩

theorem validateVariant_toJson (v : Variant) : validateVariant v.toJson = .ok v := by
  obtain ⟨id, rule, kind, rationale⟩ := v
  cases kind with
  | genericStylizedFact source =>
    refine bind_eq_ok.mpr ⟨_, exactKeys_obj rfl, ?_⟩
    refine bind_eq_ok.mpr ⟨id, textOf_str id, ?_⟩
    refine bind_eq_ok.mpr ⟨.genericStylizedFact source,
      bind_eq_ok.mpr ⟨source, textOf_str source, rfl⟩, ?_⟩
    refine bind_eq_ok.mpr ⟨rationale, textOf_str rationale, ?_⟩
    exact bind_eq_ok.mpr ⟨rule, ruleOf_parameters rule, rfl⟩
  | _ =>
    refine bind_eq_ok.mpr ⟨_, exactKeys_obj rfl, ?_⟩
    refine bind_eq_ok.mpr ⟨id, textOf_str id, ?_⟩
    refine bind_eq_ok.mpr ⟨_, rfl, ?_⟩
    refine bind_eq_ok.mpr ⟨rationale, textOf_str rationale, ?_⟩
    exact bind_eq_ok.mpr ⟨rule, ruleOf_parameters rule, rfl⟩

/--
A bundle is what its value validates to.
-/
theorem validateBundle_toJson (b : Bundle) : validateBundle b.toJson = .ok b := by
  have hvariants : (b.variants.map Variant.toJson).mapM validateVariant = .ok b.variants := by
    rw [List.mapM_map]
    have hmap := mapM_ok_of_forall (f := fun v => validateVariant v.toJson) (g := id)
      (fun v (_ : v ∈ b.variants) => validateVariant_toJson v)
    rwa [List.map_id] at hmap
  refine bind_eq_ok.mpr ⟨_, exactKeys_obj rfl, ?_⟩
  refine bind_eq_ok.mpr ⟨b.bundleId, textOf_str b.bundleId, ?_⟩
  have hconst : bundleKind = bundleKind ∧ schemaVersion = schemaVersion := ⟨rfl, rfl⟩
  refine (if_pos hconst).trans ?_
  refine bind_eq_ok.mpr ⟨b.variants, hvariants, ?_⟩
  exact dif_pos ⟨b.nonempty, b.distinct⟩

theorem sortKeys_toJson (b : Bundle) : b.toJson.sortKeys = b.toJson :=
  sortKeys_of_validateBundle (validateBundle_toJson b)

end roundTrip

end Sandbox

end Quantbot
