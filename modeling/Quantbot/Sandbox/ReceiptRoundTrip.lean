import Quantbot.Sandbox.Receipt

/-!
The verifier accepts the bytes of every receipt that is built.
-/

namespace Quantbot

namespace Sandbox

open Json (Readable)

section digests

theorem isHexSha_sha256Bytes (data : Bytes) : isHexSha (some (.str (sha256Bytes data))) = true := by
  unfold isHexSha sha256Bytes
  simp only [String.toList_ofList, Sha256.length_hexdigestBytes, decide_true, Bool.true_and,
    List.all_eq_true, decide_eq_true_eq]
  intro c hc
  exact Sha256.mem_hexdigestBytes hc

theorem isHexSha_canonicalDigest (v : JsonValue)
    : isHexSha (some (.str (canonicalDigest v))) = true :=
  isHexSha_sha256Bytes (canonicalJsonBytes v)

end digests

theorem pairs_ok {i : Json.Interpreter} {float : List Char → JsonValue} {fields : JsonObject}
    (h : (fields.map Prod.fst).Nodup) : (hooks i float).pairs fields = .ok fields :=
  if_pos h

section results

variable {variant : Variant} {scenario : Scenario} {r : JsonValue}

/--
What a result looks like: its counts are counts of slots.
-/
structure ResultSpec (variant : Variant) (scenario : Scenario) (r : JsonValue) : Prop where
  eq : ∃ a costs funding net price, accounts scenario.prices scenario.funding variant.rule = some a
    ∧ r = .obj [
      ("active_slot_count", .int a.activeSlotCount),
      ("flat_slot_count", .int a.flatSlotCount),
      ("long_slot_count", .int a.longSlotCount),
      ("mean_cost_drag", .str costs),
      ("mean_funding_component", .str funding),
      ("mean_net", .str net),
      ("mean_price_component", .str price),
      ("position_series_sha256", .str (canonicalDigest (.arr (a.positions.map .int)))),
      ("scenario_id", .str scenario.scenarioId),
      ("short_slot_count", .int a.shortSlotCount),
      ("turnover_count", .int a.turnoverCount),
      ("variant_id", .str variant.variantId.1)]

theorem result_spec (h : result variant scenario = some r) : ResultSpec variant scenario r := by
  unfold result at h
  simp only [Option.bind_eq_bind, Option.bind_eq_some_iff, Option.pure_def, Option.some.injEq] at h
  obtain ⟨a, ha, costs, -, funding, -, net, -, price, -, rfl⟩ := h
  exact ⟨a, costs, funding, net, price, ha, rfl⟩

theorem ResultSpec.resultHolds (h : ResultSpec variant scenario r) : resultHolds r = true := by
  obtain ⟨a, costs, funding, net, price, -, rfl⟩ := h
  exact isHexSha_canonicalDigest _

theorem ResultSpec.sortKeys (h : ResultSpec variant scenario r) : r.sortKeys = r := by
  obtain ⟨a, costs, funding, net, price, -, rfl⟩ := h
  apply JsonValue.sortKeys_obj_eq
  . simp only [List.map_cons, List.map_nil]
    decide
  . simp [JsonValue.sortKeys]

theorem length_positions {prices funding : List Decimal} {rule : Rule} {a : Accounts}
    (h : accounts prices funding rule = some a) : a.positions.length = prices.length - 1 := by
  unfold accounts at h
  simp only [Option.bind_eq_bind, Option.bind_eq_some_iff, Option.pure_def, Option.some.injEq] at h
  obtain ⟨positions, hpositions, -, -, -, -, -, -, -, -, rfl⟩ := h
  have hlength := (mapM_eq_some hpositions).length_eq
  rw [List.length_range] at hlength
  exact hlength.symm

theorem length_prices (h : scenario ∈ scenarios) : scenario.prices.length ≤ 14 := by
  have hall : ∀ s ∈ scenarios, s.pricePath.length ≤ 14 := by decide
  simpa [Scenario.prices, Scenario.decimals] using hall scenario h

theorem ResultSpec.readable {i : Json.Interpreter} {float : List Char → JsonValue}
    (h : ResultSpec variant scenario r) (hscenario : scenario ∈ scenarios) (depth : ℕ)
    : Readable (hooks i float) (depth + 1) r := by
  obtain ⟨a, costs, funding, net, price, ha, rfl⟩ := h
  have hlength := length_positions ha
  have hprices := length_prices hscenario
  have hint {n : ℕ} (hn : n ≤ 2 * a.positions.length) : Readable (hooks i float) depth (.int n) := by
    refine .int depth n ?_
    rw [Nat.length_toDigits_le_iff (by omega) (by decide), Int.natAbs_natCast]
    have hpow : 10 ^ 2 ≤ 10 ^ Json.maxStrDigits := Nat.pow_le_pow_right (by omega) (by decide)
    omega
  have hlong : a.longSlotCount ≤ a.positions.length := List.count_le_length
  have hshort : a.shortSlotCount ≤ a.positions.length := List.count_le_length
  have hflat : a.flatSlotCount ≤ a.positions.length := List.count_le_length
  have hturnover : a.turnoverCount ≤ a.positions.length := by
    have := List.countP_le_length (p := fun t => decide (a.positions.getD t 0
      ≠ previous a.positions t)) (l := List.range a.positions.length)
    rwa [List.length_range] at this
  refine .obj depth _ (pairs_ok ?_) ?_
  . simp only [List.map_cons, List.map_nil]
    decide
  simp only [List.forall_mem_cons, List.not_mem_nil, false_implies, implies_true, and_true]
  refine ⟨hint ?_, hint (by omega), hint (by omega), .str depth _, .str depth _, .str depth _,
    .str depth _, .str depth _, .str depth _, hint (by omega), hint (by omega), .str depth _⟩
  unfold Accounts.activeSlotCount
  omega

/--
The replayed results are results of the variants in the scenarios.
-/
theorem replay_spec {bundle : Bundle} {results : List JsonValue}
    (h : replay bundle = some results)
    : ∀ r ∈ results, ∃ variant, ∃ scenario ∈ scenarios, ResultSpec variant scenario r := by
  unfold replay at h
  simp only [Option.bind_eq_bind, Option.bind_eq_some_iff, Option.pure_def, Option.some.injEq] at h
  obtain ⟨unsorted, hunsorted, rfl⟩ := h
  intro r hr
  rw [List.mem_insertionSort] at hr
  obtain ⟨p, hp, hresult⟩ := forall₂_mem_right (mapM_eq_some hunsorted) hr
  rw [List.mem_flatMap] at hp
  obtain ⟨v, -, hp⟩ := hp
  rw [List.mem_map] at hp
  obtain ⟨s, hs, rfl⟩ := hp
  exact ⟨v, s, hs, result_spec hresult⟩

end results

section bundles

variable (i : Json.Interpreter) (float : List Char → JsonValue)

theorem readable_parameters (rule : Rule) (depth : ℕ)
    : Readable (hooks i float) (depth + 1) (.obj rule.parameters) := by
  have hlookback (lookback : Lookback) : Readable (hooks i float) depth (.int lookback.1) := by
    refine .int depth _ ?_
    rw [Nat.length_toDigits_le_iff (by omega) (by decide)]
    have hpow : 10 ^ 2 ≤ 10 ^ Json.maxStrDigits := Nat.pow_le_pow_right (by omega) (by decide)
    have hrange := lookback.2
    simp only [lookbackMin, lookbackMax] at hrange
    omega
  cases rule <;> refine .obj depth _ (pairs_ok (by simp [Rule.parameters])) ?_
  all_goals simp [Rule.parameters, hlookback, Readable.str]

theorem readable_variant (v : Variant) (depth : ℕ)
    : Readable (hooks i float) (depth + 2) v.toJson := by
  have hparameters := readable_parameters i float v.rule depth
  refine .obj (depth + 1) _ (pairs_ok ?_) ?_
  . cases v.rationaleKind <;> simp [RationaleKind.sourceFields]
  . cases v.rationaleKind <;> simp [RationaleKind.sourceFields, hparameters, Readable.str]

theorem readable_bundle (bundle : Bundle) (depth : ℕ)
    : Readable (hooks i float) (depth + 4) bundle.toJson := by
  refine .obj (depth + 3) _ (pairs_ok (by simp)) ?_
  simp only [List.forall_mem_cons, List.not_mem_nil, false_implies, implies_true, and_true]
  refine ⟨.str _ _, .str _ _, .str _ _, .arr (depth + 2) _ ?_⟩
  intro v hv
  obtain ⟨variant, -, rfl⟩ := List.mem_map.mp hv
  exact readable_variant i float variant depth

end bundles

section receipts

variable {i : Json.Interpreter} {float : List Char → JsonValue} {bundle : Bundle}
  {rawSha bundleSha : String} {results : List JsonValue}

theorem map_fst_signed
    : (signed (unsignedReceipt bundle rawSha bundleSha results)).map Prod.fst
        = ["accounting_contract_sha256", "all_variants_included", "canonical_bundle_sha256",
          "edge_claim_authorized", "explored_variant_count", "official_v1_protocol",
          "raw_input_sha256", "real_data_accessed", "receipt_kind", "results",
          "rule_contract_sha256", "sandbox_id", "sandbox_status", "scenario_contract_sha256",
          "schema_version", "scientific_evidence", "selection_performed", "variant_bundle",
          "run_fingerprint"] := by
  rfl

theorem perm_receiptKeys
    : ((signed (unsignedReceipt bundle rawSha bundleSha results)).map Prod.fst).Perm
        receiptKeys := by
  rw [map_fst_signed]
  decide

theorem sorted_receiptKeys : receiptKeys.Pairwise (fun k l => k < l) := by
  decide

/--
The receipt with its keys in order.
-/
def sortedReceipt (bundle : Bundle) (rawSha bundleSha : String) (results : List JsonValue)
    : JsonObject :=
  receiptKeys.map (fun k =>
    (k, ((signed (unsignedReceipt bundle rawSha bundleSha results)).lookup k).getD .null))

theorem lookup_fixed {o : JsonObject} (h : ∀ f ∈ o, f.2.sortKeys = f.2) (k : String)
    : ((o.lookup k).getD .null).sortKeys = (o.lookup k).getD .null := by
  cases hlookup : o.lookup k with
  | none => rfl
  | some v =>
    obtain ⟨l₁, l₂, heq, -⟩ := List.lookup_eq_some_iff.mp hlookup
    exact h (k, v) (by rw [heq]; simp)

theorem signed_fixed (hresults : ∀ r ∈ results, r.sortKeys = r)
    : ∀ f ∈ signed (unsignedReceipt bundle rawSha bundleSha results), f.2.sortKeys = f.2 := by
  simp only [signed, unsignedReceipt, JsonObject.assign, String.reduceEq, if_false,
    List.forall_mem_cons, List.not_mem_nil, false_implies, implies_true, and_true,
    JsonValue.sortKeys, sortKeys_toJson, true_and]
  exact JsonValue.sortKeys_arr_eq hresults

theorem sortKeys_signed (hresults : ∀ r ∈ results, r.sortKeys = r)
    : (JsonValue.obj (signed (unsignedReceipt bundle rawSha bundleSha results))).sortKeys
        = .obj (sortedReceipt bundle rawSha bundleSha results) := by
  rw [JsonValue.sortKeys_obj perm_receiptKeys sorted_receiptKeys]
  congr 1
  apply List.map_congr_left
  intro k _
  rw [lookup_fixed (signed_fixed hresults)]

theorem headerHolds_sortedReceipt (hraw : isHexSha (some (.str rawSha)) = true)
    (hbundle : isHexSha (some (.str bundleSha)) = true)
    : headerHolds (sortedReceipt bundle rawSha bundleSha results) = true := by
  have hshas : receiptShaFields.all
      (fun key => isHexSha ((sortedReceipt bundle rawSha bundleSha results).lookup key)) = true := by
    simp only [receiptShaFields, List.all_cons, List.all_nil, Bool.and_true, Bool.and_eq_true]
    refine ⟨hraw, hbundle, isHexSha_canonicalDigest scenarioContract,
      isHexSha_canonicalDigest ruleContract, isHexSha_canonicalDigest accountingContract,
      isHexSha_canonicalDigest (.obj (unsignedReceipt bundle rawSha bundleSha results))⟩
  have htexts : receiptTexts.all
      (fun f => isText ((sortedReceipt bundle rawSha bundleSha results).lookup f.1) f.2)
        = true := by
    rfl
  have hdenials : receiptDenials.all
      (fun key => isBool ((sortedReceipt bundle rawSha bundleSha results).lookup key) false)
        = true := by
    rfl
  have hincluded : isBool ((sortedReceipt bundle rawSha bundleSha results).lookup
      "all_variants_included") true = true := by
    rfl
  unfold headerHolds
  rw [hshas, htexts, hdenials, hincluded]
  rfl

theorem bundleHolds_sortedReceipt (hresults : ∀ r ∈ results, resultHolds r = true)
    : bundleHolds (sortedReceipt bundle rawSha (canonicalDigest bundle.toJson) results) bundle
        = true := by
  have htext (s : String) : isText (some (.str s)) s = true := decide_eq_true rfl
  have heq : bundleHolds (sortedReceipt bundle rawSha (canonicalDigest bundle.toJson) results)
      bundle
      = ((JsonValue.int bundle.variants.length).equalsInt bundle.variants.length
        && isText (some (.str (canonicalDigest bundle.toJson))) (canonicalDigest bundle.toJson)
        && isText (some (.str (canonicalDigest scenarioContract))) (canonicalDigest scenarioContract)
        && isText (some (.str (canonicalDigest ruleContract))) (canonicalDigest ruleContract)
        && isText (some (.str (canonicalDigest accountingContract)))
          (canonicalDigest accountingContract)
        && results.all resultHolds) := by
    rfl
  rw [heq, List.all_eq_true.mpr hresults]
  simp [htext, JsonValue.equalsInt, JsonValue.asInt]

theorem replayHolds_sortedReceipt
    : replayHolds (sortedReceipt bundle rawSha bundleSha results) results = true := by
  have heq : replayHolds (sortedReceipt bundle rawSha bundleSha results) results
      = ((JsonValue.arr results).equals (.arr results)
        && isText (some (.str (canonicalDigest
            (.obj (unsignedReceipt bundle rawSha bundleSha results)))))
          (canonicalDigest (.obj (unsignedReceipt bundle rawSha bundleSha results)))) := by
    rfl
  rw [heq, JsonValue.equals_self]
  simp [isText]

end receipts

section checks

variable {i : Json.Interpreter} {float : List Char → JsonValue} {data : Bytes} {v : JsonValue}

theorem raisedAs_eq_ok {e : SandboxError} {α : Type} {x : Except SandboxError α} {a : α}
    : raisedAs e x = .ok a ↔ x = .ok a := by
  cases x with
  | ok b => exact .rfl
  | error e' => cases e' <;> simp [raisedAs]

theorem rejectUnless_eq_ok {p : Bool} {u : Unit}
    : rejectUnless p = .ok u ↔ p = true := by
  cases p <;> simp [rejectUnless]

/--
Every check of the verifier.
-/
def Passes (i : Json.Interpreter) (float : List Char → JsonValue) (data : Bytes) (v : JsonValue)
    : Prop :=
  parseJsonBytes i float data = .ok v ∧ data = canonicalJsonBytes v
    ∧ ∃ fields, receiptFields v = .ok fields ∧ headerHolds fields = true
    ∧ ∃ bundle, validateBundle ((fields.lookup "variant_bundle").getD .null) = .ok bundle
    ∧ bundleHolds fields bundle = true
    ∧ ∃ expected, replayed bundle = .ok expected ∧ replayHolds fields expected = true

theorem verifyReceiptBytes_eq_ok
    : verifyReceiptBytes i float data = .ok v ↔ Passes i float data v := by
  unfold verifyReceiptBytes Passes
  simp only [bind_eq_ok, raisedAs_eq_ok, rejectUnless_eq_ok, decide_eq_true_eq]
  constructor
  . rintro ⟨w, hparse, -, hbytes, fields, hfields, -, hheader, bundle, hbundle, -, hholds,
      expected, hreplayed, -, hreplay, hw⟩
    cases hw
    exact ⟨hparse, hbytes, fields, hfields, hheader, bundle, hbundle, hholds, expected,
      hreplayed, hreplay⟩
  . rintro ⟨hparse, hbytes, fields, hfields, hheader, bundle, hbundle, hholds, expected,
      hreplayed, hreplay⟩
    exact ⟨v, hparse, (), hbytes, fields, hfields, (), hheader, bundle, hbundle, (), hholds,
      expected, hreplayed, (), hreplay, rfl⟩

end checks

section accepting

variable {i : Json.Interpreter} {float : List Char → JsonValue} {bundle : Bundle}
  {rawSha : String} {results : List JsonValue}

/--
The values that the interpreter reads back: a count of variants with few enough digits.
-/
theorem readable_receipt {bundleSha : String}
    (hcount : (Nat.toDigits 10 bundle.variants.length).length ≤ Json.maxStrDigits)
    (hresults : ∀ r ∈ results, ∃ variant, ∃ scenario ∈ scenarios, ResultSpec variant scenario r)
    : Readable (hooks i float) 16
        (.obj (signed (unsignedReceipt bundle rawSha bundleSha results))) := by
  refine .obj 15 _ (pairs_ok ?_) ?_
  . rw [map_fst_signed]
    decide
  have hint : Readable (hooks i float) 15 (.int bundle.variants.length) := by
    refine .int 15 _ ?_
    rw [Int.natAbs_natCast]
    exact hcount
  have harr : Readable (hooks i float) 15 (.arr results) := by
    refine .arr 14 _ ?_
    intro r hr
    obtain ⟨variant, scenario, hscenario, hspec⟩ := hresults r hr
    exact hspec.readable hscenario 13
  have hbundle := readable_bundle i float bundle 11
  simp only [signed, unsignedReceipt, JsonObject.assign, String.reduceEq, if_false,
    List.forall_mem_cons, List.not_mem_nil, false_implies, implies_true, and_true,
    Readable.str, Readable.bool, hint, harr, hbundle]

/--
The bytes of a value read back as the value with its keys in order.
-/
theorem parseJsonBytes_canonicalJsonBytes {v : JsonValue} (h : Readable (hooks i float) 16 v)
    : parseJsonBytes i float (canonicalJsonBytes v) = .ok v.sortKeys := by
  have hsorted := (h.sortKeys (hooks i float) (by
    intro l l' hl hperm
    simp only [hooks] at hl ⊢
    split at hl
    . rename_i hnodup
      rw [if_pos (hperm.nodup_iff.mp hnodup)]
    . cases hl)).mono (hooks i float) i.room
  unfold parseJsonBytes canonicalJsonBytes
  rw [Json.decodeUtf8_utf8Bytes]
  dsimp only
  unfold JsonValue.canonicalJsonDumps
  rw [String.toList_ofList, Json.loads_text (hooks i float) hsorted]
  rfl

theorem receiptFields_sortedReceipt {bundleSha : String}
    : receiptFields (.obj (sortedReceipt bundle rawSha bundleSha results))
        = .ok (sortedReceipt bundle rawSha bundleSha results) := by
  have h : (sortedReceipt bundle rawSha bundleSha results).map Prod.fst = receiptKeys := rfl
  unfold receiptFields
  rw [exactKeys_obj h]
  rfl

theorem embedded_sortedReceipt {bundleSha : String}
    : ((sortedReceipt bundle rawSha bundleSha results).lookup "variant_bundle").getD .null
        = bundle.toJson := by
  rfl

theorem replayed_of_replay (h : replay bundle = some results)
    : replayed bundle = .ok results := by
  unfold replayed
  rw [h]

theorem canonicalJsonBytes_signed {bundleSha : String}
    (h : ∀ r ∈ results, r.sortKeys = r)
    : canonicalJsonBytes (.obj (signed (unsignedReceipt bundle rawSha bundleSha results)))
        = canonicalJsonBytes (.obj (sortedReceipt bundle rawSha bundleSha results)) := by
  unfold canonicalJsonBytes JsonValue.canonicalJsonDumps
  rw [← sortKeys_signed h, JsonValue.sortKeys_sortKeys]

/--
The receipt of a bundle passes every check.
-/
theorem passes_buildReceipt {receipt : JsonValue}
    (hcount : (Nat.toDigits 10 bundle.variants.length).length ≤ Json.maxStrDigits)
    (hraw : isHexSha (some (.str rawSha)) = true)
    (hbuild : buildReceipt bundle rawSha (canonicalDigest bundle.toJson) = some receipt)
    : Passes i float (canonicalJsonBytes receipt) receipt.sortKeys := by
  unfold buildReceipt at hbuild
  simp only [Option.bind_eq_bind, Option.bind_eq_some_iff, Option.pure_def,
    Option.some.injEq] at hbuild
  obtain ⟨results, hreplay, rfl⟩ := hbuild
  have hspecs := replay_spec hreplay
  have hfixed : ∀ r ∈ results, r.sortKeys = r := by
    intro r hr
    obtain ⟨variant, scenario, -, hspec⟩ := hspecs r hr
    exact hspec.sortKeys
  have hholds : ∀ r ∈ results, resultHolds r = true := by
    intro r hr
    obtain ⟨variant, scenario, -, hspec⟩ := hspecs r hr
    exact hspec.resultHolds
  have hreadable : Readable (hooks i float) 16 (.obj (signed
      (unsignedReceipt bundle rawSha (canonicalDigest bundle.toJson) results))) :=
    readable_receipt hcount hspecs
  have hparse := parseJsonBytes_canonicalJsonBytes hreadable
  rw [sortKeys_signed hfixed] at hparse ⊢
  have hembedded : validateBundle (((sortedReceipt bundle rawSha
      (canonicalDigest bundle.toJson) results).lookup "variant_bundle").getD .null)
        = .ok bundle := by
    rw [embedded_sortedReceipt, validateBundle_toJson]
  exact ⟨hparse, canonicalJsonBytes_signed hfixed, _,
    receiptFields_sortedReceipt,
    headerHolds_sortedReceipt hraw (isHexSha_canonicalDigest bundle.toJson), bundle, hembedded,
    bundleHolds_sortedReceipt hholds, results, replayed_of_replay hreplay,
    replayHolds_sortedReceipt⟩

/--
For every bundle whose results do not overflow, the verifier accepts the bytes of its receipt.
-/
theorem verifyReceiptBytes_buildReceipt (i : Json.Interpreter) (float : List Char → JsonValue)
    {bundle : Bundle} {rawSha : String} {receipt : JsonValue}
    (hcount : (Nat.toDigits 10 bundle.variants.length).length ≤ Json.maxStrDigits)
    (hraw : isHexSha (some (.str rawSha)) = true)
    (hbuild : buildReceipt bundle rawSha (canonicalDigest bundle.toJson) = some receipt)
    : verifyReceiptBytes i float (canonicalJsonBytes receipt) = .ok receipt.sortKeys :=
  verifyReceiptBytes_eq_ok.mpr (passes_buildReceipt hcount hraw hbuild)

def shortBundle : Bundle where
  bundleId := ⟨"baselines", by decide⟩
  variants := [⟨⟨"short", by decide⟩, .alwaysShort, .mechanicalBaseline,
    ⟨"A baseline.", by decide⟩⟩]
  nonempty := by decide
  distinct := by decide

theorem exists_shortReceipt (rawSha : String)
    : ∃ receipt, buildReceipt shortBundle rawSha (canonicalDigest shortBundle.toJson)
        = some receipt := by
  have hreplay : (replay shortBundle).isSome = true := by
    decide +kernel
  obtain ⟨results, hresults⟩ := Option.isSome_iff_exists.mp hreplay
  unfold buildReceipt
  rw [hresults]
  exact ⟨_, rfl⟩

theorem verifyReceiptBytes_shortReceipt
    : ∃ receipt, verifyReceiptBytes ⟨16, 16, le_rfl⟩ (fun _ => .null) (canonicalJsonBytes receipt)
        = .ok receipt.sortKeys := by
  obtain ⟨receipt, hbuild⟩ := exists_shortReceipt (sha256Bytes [])
  exact ⟨receipt, verifyReceiptBytes_buildReceipt _ _ (by decide +kernel)
    (isHexSha_sha256Bytes []) hbuild⟩

end accepting

end Sandbox

end Quantbot
