import Quantbot.Sandbox.ReceiptRoundTrip
import Quantbot.Util.JsonWhole

/-!
What the verifier of receipts accepts.
-/

namespace Quantbot

namespace Sandbox

open JsonValue (whole SameFields SameText)

section shape

/--
The unsigned receipt with another count and other results.
-/
def unsignedWith (bundle : Bundle) (rawSha : String) (count results : JsonValue) : JsonObject :=
  JsonObject.assign (JsonObject.assign
      (unsignedReceipt bundle rawSha (canonicalDigest bundle.toJson) [])
      "explored_variant_count" count)
    "results" results

variable {bundle : Bundle} {rawSha : String}

theorem map_fst_unsignedWith (count results : JsonValue)
    : (unsignedWith bundle rawSha count results).map Prod.fst
        = receiptKeys.filter (fun key => key ≠ "run_fingerprint") := by
  rfl

theorem map_fst_signed_unsignedWith (count results : JsonValue)
    : (signed (unsignedWith bundle rawSha count results)).map Prod.fst
        = receiptKeys.filter (fun key => key ≠ "run_fingerprint") ++ ["run_fingerprint"] := by
  rfl

theorem signed_unsignedWith (count results : JsonValue)
    : signed (unsignedWith bundle rawSha count results)
        = unsignedWith bundle rawSha count results ++ [("run_fingerprint",
            .str (canonicalDigest (.obj (unsignedWith bundle rawSha count results))))] := by
  rfl

theorem unsignedReceipt_eq (results : List JsonValue)
    : unsignedReceipt bundle rawSha (canonicalDigest bundle.toJson) results
        = unsignedWith bundle rawSha (.int bundle.variants.length) (.arr results) := by
  rfl

end shape

section texts

theorem isText_eq {o : Option JsonValue} {s : String} (h : isText o s = true) : o = some (.str s) := by
  unfold isText at h
  split at h
  . rw [of_decide_eq_true h]
  . cases h

theorem isBool_eq {o : Option JsonValue} {b : Bool} (h : isBool o b = true)
    : o = some (.bool b) := by
  unfold isBool at h
  split at h
  . rw [of_decide_eq_true h]
  . cases h

theorem isHexSha_eq {o : Option JsonValue} (h : isHexSha o = true)
    : ∃ s, o = some (.str s) ∧ isHexSha (some (.str s)) = true := by
  unfold isHexSha at h
  split at h
  . rename_i s
    exact ⟨s, rfl, h⟩
  . cases h

end texts

section fields

variable {fields : JsonObject} {bundle : Bundle}

/--
What the checks of an accepted receipt say about its fields.
-/
structure Accepted (fields : JsonObject) (bundle : Bundle) (rawSha : String) : Prop where
  texts : ∀ f ∈ receiptTexts, fields.lookup f.1 = some (.str f.2)
  denials : ∀ key ∈ receiptDenials, fields.lookup key = some (.bool false)
  included : fields.lookup "all_variants_included" = some (.bool true)
  raw : fields.lookup "raw_input_sha256" = some (.str rawSha)
  canonical : fields.lookup "canonical_bundle_sha256" = some (.str (canonicalDigest bundle.toJson))
  scenario : fields.lookup "scenario_contract_sha256"
    = some (.str (canonicalDigest scenarioContract))
  rule : fields.lookup "rule_contract_sha256" = some (.str (canonicalDigest ruleContract))
  accounting : fields.lookup "accounting_contract_sha256"
    = some (.str (canonicalDigest accountingContract))
  embedded : ((fields.lookup "variant_bundle").getD .null).sortKeys = bundle.toJson

theorem accepted_of_checks (hheader : headerHolds fields = true)
    (hbundle : validateBundle ((fields.lookup "variant_bundle").getD .null) = .ok bundle)
    (hholds : bundleHolds fields bundle = true)
    : ∃ rawSha, isHexSha (some (.str rawSha)) = true ∧ Accepted fields bundle rawSha := by
  simp only [headerHolds, Bool.and_eq_true, List.all_eq_true] at hheader
  simp only [bundleHolds, Bool.and_eq_true] at hholds
  obtain ⟨⟨⟨htexts, hdenials⟩, hincluded⟩, hshas⟩ := hheader
  obtain ⟨⟨⟨⟨⟨-, hcanonical⟩, hscenario⟩, hrule⟩, haccounting⟩, -⟩ := hholds
  obtain ⟨rawSha, hraw, hhex⟩ := isHexSha_eq (hshas "raw_input_sha256" (by decide))
  exact ⟨rawSha, hhex, fun f hf => isText_eq (htexts f hf), fun key hkey => isBool_eq (hdenials key hkey),
    isBool_eq hincluded, hraw, isText_eq hcanonical, isText_eq hscenario, isText_eq hrule,
    isText_eq haccounting, sortKeys_of_validateBundle hbundle⟩

theorem lookup_unsigned {key : String} (h : key ≠ "run_fingerprint")
    : (unsigned fields).lookup key = fields.lookup key := by
  unfold unsigned
  induction fields with
  | nil => rfl
  | cons f fields ih =>
    obtain ⟨k, v⟩ := f
    by_cases hk : k = "run_fingerprint"
    . have hne : (key == k) = false := beq_eq_false_iff_ne.mpr (hk ▸ h)
      rw [List.filter_cons_of_neg (by simpa using hk), List.lookup_cons, hne, ih]
    . rw [List.filter_cons_of_pos (by simpa using hk), List.lookup_cons, List.lookup_cons, ih]

variable {rawSha : String}

/--
The field of an accepted receipt at each key but the fingerprint's.
-/
theorem Accepted.values (h : Accepted fields bundle rawSha)
    : ∀ f ∈ unsignedWith bundle rawSha ((fields.lookup "explored_variant_count").getD .null)
        ((fields.lookup "results").getD .null),
        ((fields.lookup f.1).getD .null).sortKeys = f.2.sortKeys := by
  have htexts := h.texts
  have hdenials := h.denials
  simp only [receiptTexts, receiptDenials, List.forall_mem_cons, List.not_mem_nil, false_implies,
    implies_true, and_true] at htexts hdenials
  simp only [unsignedWith, unsignedReceipt, JsonObject.assign, String.reduceEq, if_false, if_true,
    List.forall_mem_cons, List.not_mem_nil, false_implies, implies_true, and_true, h.included,
    h.raw, h.canonical, h.scenario, h.rule, h.accounting, h.embedded, htexts, hdenials,
    Option.getD_some, sortKeys_toJson]

theorem nodup_receiptKeys : receiptKeys.Nodup := by
  decide

/--
An accepted receipt without its fingerprint.
-/
theorem Accepted.sortKeys_unsigned (h : Accepted fields bundle rawSha)
    (hkeys : (fields.map Prod.fst).Perm receiptKeys)
    : (JsonValue.obj (unsigned fields)).sortKeys
        = (JsonValue.obj (unsignedWith bundle rawSha
            ((fields.lookup "explored_variant_count").getD .null)
            ((fields.lookup "results").getD .null))).sortKeys := by
  have hmap : (unsigned fields).map Prod.fst
      = (fields.map Prod.fst).filter (fun key => key ≠ "run_fingerprint") := by
    unfold unsigned
    rw [List.filter_map]
    rfl
  have hperm : ((unsigned fields).map Prod.fst).Perm
      (receiptKeys.filter (fun key => key ≠ "run_fingerprint")) := by
    rw [hmap]
    exact hkeys.filter _
  apply Json.sortKeys_congr
  . exact hperm.nodup_iff.mpr (nodup_receiptKeys.filter _)
  . rw [map_fst_unsignedWith]
    exact nodup_receiptKeys.filter _
  . intro k
    rw [map_fst_unsignedWith]
    exact hperm.mem_iff
  . intro f hf
    have hkey := List.mem_map_of_mem (f := Prod.fst) hf
    rw [map_fst_unsignedWith, List.mem_filter, decide_eq_true_eq] at hkey
    rw [lookup_unsigned hkey.2]
    exact h.values f hf

theorem canonicalJsonBytes_congr {v w : JsonValue} (h : v.sortKeys = w.sortKeys)
    : canonicalJsonBytes v = canonicalJsonBytes w := by
  unfold canonicalJsonBytes JsonValue.canonicalJsonDumps
  rw [h]

theorem canonicalDigest_congr {v w : JsonValue} (h : v.sortKeys = w.sortKeys)
    : canonicalDigest v = canonicalDigest w := by
  unfold canonicalDigest
  rw [canonicalJsonBytes_congr h]

/--
An accepted receipt is signed, with the count and the results that it gives.
-/
theorem Accepted.sortKeys_fields (h : Accepted fields bundle rawSha)
    (hkeys : (fields.map Prod.fst).Perm receiptKeys)
    (hfingerprint : fields.lookup "run_fingerprint"
      = some (.str (canonicalDigest (.obj (unsigned fields)))))
    : (JsonValue.obj fields).sortKeys
        = (JsonValue.obj (signed (unsignedWith bundle rawSha
            ((fields.lookup "explored_variant_count").getD .null)
            ((fields.lookup "results").getD .null)))).sortKeys := by
  have hperm : receiptKeys.Perm
      (receiptKeys.filter (fun key => key ≠ "run_fingerprint") ++ ["run_fingerprint"]) := by
    decide
  apply Json.sortKeys_congr
  . exact hkeys.nodup_iff.mpr nodup_receiptKeys
  . rw [map_fst_signed_unsignedWith]
    exact hperm.nodup_iff.mp nodup_receiptKeys
  . intro k
    rw [map_fst_signed_unsignedWith]
    exact (hkeys.trans hperm).mem_iff
  . intro f hf
    rw [signed_unsignedWith, List.mem_append, List.mem_singleton] at hf
    rcases hf with hf | rfl
    . exact h.values f hf
    . rw [hfingerprint, canonicalDigest_congr (h.sortKeys_unsigned hkeys), Option.getD_some]

end fields

section counts

/--
No boolean and no float stands for an integer in the count and the results.
-/
def wholeCounts (receipt : JsonValue) : Bool :=
  let fields := receipt.asObj.getD []
  whole ((fields.lookup "explored_variant_count").getD .null)
    && whole ((fields.lookup "results").getD .null)

theorem ResultSpec.whole {variant : Variant} {scenario : Scenario} {r : JsonValue}
    (h : ResultSpec variant scenario r) : whole r = true := by
  obtain ⟨a, costs, funding, net, price, -, rfl⟩ := h
  rfl

theorem whole_results {bundle : Bundle} {results : List JsonValue}
    (h : replay bundle = some results) : whole (.arr results) = true := by
  have hitems : ∀ {items : List JsonValue}, (∀ r ∈ items, whole r = true)
      → JsonValue.wholeItems items = true := by
    intro items hall
    induction items with
    | nil => rfl
    | cons r items ih =>
      rw [List.forall_mem_cons] at hall
      rw [JsonValue.wholeItems, hall.1, ih hall.2]
      rfl
  apply hitems
  intro r hr
  obtain ⟨variant, scenario, -, hspec⟩ := replay_spec h r hr
  exact hspec.whole

theorem eq_int_of_equalsInt {v : JsonValue} {n : ℤ} (h : v.equalsInt n = true)
    (hv : whole v = true) : v = .int n := by
  cases v with
  | int m => simpa [JsonValue.equalsInt, JsonValue.asInt] using h
  | bool b => cases hv
  | float q => cases hv
  | _ => simp [JsonValue.equalsInt, JsonValue.asInt] at h

theorem sameText_of_sameFields {keys : List String} {f g : String → JsonValue}
    (h : SameFields (keys.map (fun k => (k, f k))) (keys.map (fun k => (k, g k))))
    : ∀ k ∈ keys, SameText (f k) (g k) := by
  induction keys with
  | nil => simp
  | cons key keys ih =>
    cases h with
    | cons _ hv hl => exact List.forall_mem_cons.mpr ⟨hv, ih hl⟩

theorem sortKeys_of_sameText {l l' : JsonObject} {keys : List String}
    (hl : (l.map Prod.fst).Perm keys) (hl' : (l'.map Prod.fst).Perm keys)
    (hsorted : keys.Pairwise (fun k k' => k < k'))
    (h : SameText (JsonValue.obj l).sortKeys (JsonValue.obj l').sortKeys)
    : ∀ k ∈ keys, SameText ((l.lookup k).getD .null).sortKeys ((l'.lookup k).getD .null).sortKeys := by
  rw [JsonValue.sortKeys_obj hl hsorted, JsonValue.sortKeys_obj hl' hsorted] at h
  cases h with
  | atom hv hw htext => cases hv
  | obj hfields => exact sameText_of_sameFields hfields

theorem sortKeys_of_map_eq {l l' : JsonObject}
    (h : l.map (fun f => (f.1, f.2.sortKeys)) = l'.map (fun f => (f.1, f.2.sortKeys)))
    : (JsonValue.obj l).sortKeys = (JsonValue.obj l').sortKeys := by
  rw [JsonValue.sortKeys, JsonValue.sortKeys, JsonValue.sortFields_eq_map,
    JsonValue.sortFields_eq_map, h]

/--
The order of the keys in the results does not matter to a signed receipt.
-/
theorem sortKeys_signed_congr {bundle : Bundle} {rawSha : String} {count results results' : JsonValue}
    (h : results.sortKeys = results'.sortKeys)
    : (JsonValue.obj (signed (unsignedWith bundle rawSha count results))).sortKeys
        = (JsonValue.obj (signed (unsignedWith bundle rawSha count results'))).sortKeys := by
  have hmap : (unsignedWith bundle rawSha count results).map (fun f => (f.1, f.2.sortKeys))
      = (unsignedWith bundle rawSha count results').map (fun f => (f.1, f.2.sortKeys)) := by
    simp only [unsignedWith, unsignedReceipt, JsonObject.assign, String.reduceEq, if_false, if_true,
      List.map_cons, h]
  apply sortKeys_of_map_eq
  rw [signed_unsignedWith, signed_unsignedWith, List.map_append, List.map_append, hmap,
    canonicalDigest_congr (sortKeys_of_map_eq hmap)]

end counts

section soundness

variable {i : Json.Interpreter} {float : List Char → JsonValue} {data : Bytes} {v : JsonValue}

theorem canonicalJsonDumps_of_bytes {v w : JsonValue}
    (h : canonicalJsonBytes v = canonicalJsonBytes w)
    : v.canonicalJsonDumps = w.canonicalJsonDumps := by
  have hdecoded := congrArg Json.decodeUtf8 h
  unfold canonicalJsonBytes at hdecoded
  rw [Json.decodeUtf8_utf8Bytes, Json.decodeUtf8_utf8Bytes, Option.some.injEq] at hdecoded
  exact String.toList_inj.mp hdecoded

end soundness

end Sandbox

end Quantbot
