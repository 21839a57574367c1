import Quantbot.Sqlite.ConfigRow
import Quantbot.Util.JsonKeys

/-!
Which configs come back from the database as they went in.
-/

namespace Quantbot
namespace Sqlite

open JsonValue

section sorted

/--
The values of the contract's fields.
-/
structure ConfigValues where
  schemaVersion : JsonValue
  engineVersion : JsonValue
  baselineLabel : JsonValue
  forwardStartTs : JsonValue
  initialEquityUsd : JsonValue
  notionalUsd : JsonValue
  leverage : JsonValue
  feeModel : JsonValue
  slippageModel : JsonValue
  fillModel : JsonValue
  fundingModel : JsonValue
  signalSource : JsonValue
  freshness : JsonValue

/--
In the order of their keys.
-/
def ConfigValues.fields (c : ConfigValues) : JsonObject :=
  [("baseline_label", c.baselineLabel), ("engine_version", c.engineVersion),
    ("fee_model", c.feeModel), ("fill_model", c.fillModel),
    ("forward_start_ts", c.forwardStartTs), ("freshness", c.freshness),
    ("funding_model", c.fundingModel), ("initial_equity_usd", c.initialEquityUsd),
    ("leverage", c.leverage), ("notional_usd", c.notionalUsd),
    ("schema_version", c.schemaVersion), ("signal_source", c.signalSource),
    ("slippage_model", c.slippageModel)]

def modelValues (bps type : JsonValue) (key : String) : JsonValue :=
  .obj [(key, bps), ("type", type)]

def fundingValues (appliedAs type : JsonValue) : JsonValue :=
  .obj [("applied_as", appliedAs), ("type", type)]

def freshnessValues (barInterval heartbeat staleness : JsonValue) : JsonValue :=
  .obj [("bar_interval_hours", barInterval), ("heartbeat_max_age_hours", heartbeat),
    ("max_bar_staleness_hours", staleness)]

def builtValues (ts : String) (equity notional leverage fee slippage : ℚ) (barInterval : ℤ)
    (staleness heartbeat : ℚ) : ConfigValues where
  schemaVersion := .int schemaVersion
  engineVersion := .str expectedEngineVersion
  baselineLabel := .str Quantbot.baselineLabel
  forwardStartTs := .str ts
  initialEquityUsd := .float equity
  notionalUsd := .float notional
  leverage := .float leverage
  feeModel := modelValues (.float fee) (.str "flat_taker") "fee_bps"
  slippageModel := modelValues (.float slippage) (.str "fixed") "slippage_bps"
  fillModel := .str fillModel
  fundingModel := fundingValues (.str "cash_flow") (.str "accrual")
  signalSource := .str signalSource
  freshness := freshnessValues (.int barInterval) (.float heartbeat) (.float staleness)

theorem sortKeys_builtFields (ts : String) (equity notional leverage fee slippage : ℚ)
    (barInterval : ℤ) (staleness heartbeat : ℚ)
    : sortKeys (.obj (builtFields ts equity notional leverage fee slippage barInterval staleness
        heartbeat))
      = .obj (builtValues ts equity notional leverage fee slippage barInterval staleness
          heartbeat).fields := by
  simp [sortKeys, sortFields, builtFields, builtValues, ConfigValues.fields, modelValues, fundingValues, freshnessValues, List.insertionSort, List.orderedInsert,
    JsonValue.keyLe]

def rowValues (row : ConfigRow) : ConfigValues where
  schemaVersion := .int row.paperContractVersion
  engineVersion := .str row.paperEngineVersion
  baselineLabel := .str row.baselineLabel
  forwardStartTs := .str row.forwardStartTs
  initialEquityUsd := row.initialEquityUsd.json
  notionalUsd := row.notionalUsd.json
  leverage := row.leverage.json
  feeModel := modelValues row.feeBps.json (.str row.feeType) "fee_bps"
  slippageModel := modelValues row.slippageBps.json (.str row.slippageType) "slippage_bps"
  fillModel := .str row.fillModel
  fundingModel := fundingValues (.str row.fundingAppliedAs) (.str row.fundingType)
  signalSource := .str row.signalSource
  freshness := freshnessValues (.int row.freshnessBarIntervalHours)
    row.freshnessHeartbeatMaxAgeHours.json row.freshnessMaxBarStalenessHours.json

@[simp]
theorem sortKeys_json (x : PyFloat) : sortKeys x.json = x.json := by
  cases x <;> rfl

theorem sortKeys_rowConfig (row : ConfigRow)
    : sortKeys (.obj row.config) = .obj (rowValues row).fields := by
  simp [sortKeys, sortFields, ConfigRow.config, rowValues, ConfigValues.fields, modelValues,
    fundingValues, freshnessValues, List.insertionSort, List.orderedInsert,
    JsonValue.keyLe]

theorem hashedFields_rowConfig (row : ConfigRow) : hashedFields row.config = row.config := by
  simp [hashedFields, ConfigRow.config]

theorem nodup_fields (c : ConfigValues) : (c.fields.map Prod.fst).Nodup := by
  simp [ConfigValues.fields]

/--
The texts of the fields one by one.
-/
structure SameValues (c c' : ConfigValues) : Prop where
  schemaVersion : SameText c.schemaVersion c'.schemaVersion
  engineVersion : SameText c.engineVersion c'.engineVersion
  baselineLabel : SameText c.baselineLabel c'.baselineLabel
  forwardStartTs : SameText c.forwardStartTs c'.forwardStartTs
  initialEquityUsd : SameText c.initialEquityUsd c'.initialEquityUsd
  notionalUsd : SameText c.notionalUsd c'.notionalUsd
  leverage : SameText c.leverage c'.leverage
  feeModel : SameText c.feeModel c'.feeModel
  slippageModel : SameText c.slippageModel c'.slippageModel
  fillModel : SameText c.fillModel c'.fillModel
  fundingModel : SameText c.fundingModel c'.fundingModel
  signalSource : SameText c.signalSource c'.signalSource
  freshness : SameText c.freshness c'.freshness

theorem exists_values {l : JsonObject} {c' : ConfigValues} (h : SameFields l c'.fields)
    : ∃ c : ConfigValues, l = c.fields ∧ SameValues c c' := by
  unfold ConfigValues.fields at h
  rcases h with _ | ⟨_, hlabel, h⟩
  rcases h with _ | ⟨_, hengine, h⟩
  rcases h with _ | ⟨_, hfee, h⟩
  rcases h with _ | ⟨_, hfill, h⟩
  rcases h with _ | ⟨_, hstart, h⟩
  rcases h with _ | ⟨_, hfreshness, h⟩
  rcases h with _ | ⟨_, hfunding, h⟩
  rcases h with _ | ⟨_, hequity, h⟩
  rcases h with _ | ⟨_, hleverage, h⟩
  rcases h with _ | ⟨_, hnotional, h⟩
  rcases h with _ | ⟨_, hschema, h⟩
  rcases h with _ | ⟨_, hsignal, h⟩
  rcases h with _ | ⟨_, hslippage, h⟩
  cases h
  exact ⟨⟨_, _, _, _, _, _, _, _, _, _, _, _, _⟩, rfl, hschema, hengine, hlabel, hstart, hequity,
    hnotional, hleverage, hfee, hslippage, hfill, hfunding, hsignal, hfreshness⟩

theorem same_model {v bps type : JsonValue} {key : String}
    (h : SameText v (modelValues bps type key))
    : ∃ bps' type', v = modelValues bps' type' key ∧ SameText bps' bps ∧ SameText type' type := by
  obtain ⟨l, rfl, hl⟩ := h.fields
  rcases hl with _ | ⟨_, hbps, hl⟩
  rcases hl with _ | ⟨_, htype, hl⟩
  cases hl
  exact ⟨_, _, rfl, hbps, htype⟩

theorem same_funding {v appliedAs type : JsonValue} (h : SameText v (fundingValues appliedAs type))
    : ∃ appliedAs' type', v = fundingValues appliedAs' type' ∧ SameText appliedAs' appliedAs
      ∧ SameText type' type := by
  obtain ⟨l, rfl, hl⟩ := h.fields
  rcases hl with _ | ⟨_, happlied, hl⟩
  rcases hl with _ | ⟨_, htype, hl⟩
  cases hl
  exact ⟨_, _, rfl, happlied, htype⟩

theorem same_freshness {v barInterval heartbeat staleness : JsonValue}
    (h : SameText v (freshnessValues barInterval heartbeat staleness))
    : ∃ barInterval' heartbeat' staleness', v = freshnessValues barInterval' heartbeat' staleness'
      ∧ SameText barInterval' barInterval ∧ SameText heartbeat' heartbeat
      ∧ SameText staleness' staleness := by
  obtain ⟨l, rfl, hl⟩ := h.fields
  rcases hl with _ | ⟨_, hinterval, hl⟩
  rcases hl with _ | ⟨_, hheartbeat, hl⟩
  rcases hl with _ | ⟨_, hstaleness, hl⟩
  cases hl
  exact ⟨_, _, _, rfl, hinterval, hheartbeat, hstaleness⟩

end sorted

section fields

variable {config : JsonObject} {c : ConfigValues} {key : String} {v : JsonValue}

theorem lookup_hashedFields (h : key ≠ "config_hash")
    : (hashedFields config).lookup key = config.lookup key := by
  induction config with
  | nil => rfl
  | cons f config ih =>
    obtain ⟨k, w⟩ := f
    unfold hashedFields at ih ⊢
    rw [List.filter_cons]
    split
    . rw [List.lookup_cons, List.lookup_cons, ih]
    . rename_i hk
      have hk : k = "config_hash" := by simpa using hk
      rw [ih, List.lookup_cons, beq_eq_false_iff_ne.mpr (hk ▸ h)]

theorem lookup_field (hsorted : sortKeys (.obj (hashedFields config)) = .obj c.fields)
    (hkey : key ≠ "config_hash") (hmem : (key, v) ∈ c.fields)
    : ∃ u, config.lookup key = some u ∧ sortKeys u = v := by
  obtain ⟨fields, heq, hfields⟩ := exists_of_sortKeys_obj hsorted
  cases heq
  rw [← lookup_hashedFields hkey]
  exact lookup_of_sorted hfields (nodup_fields c) hmem

theorem sortKeys_of_lookup (hsorted : sortKeys (.obj (hashedFields config)) = .obj c.fields)
    {u : JsonValue} (hlookup : config.lookup key = some u) (hkey : key ≠ "config_hash")
    (hmem : (key, v) ∈ c.fields) : sortKeys u = v := by
  obtain ⟨u', hu', hsorted'⟩ := lookup_field hsorted hkey hmem
  rw [hlookup, Option.some.injEq] at hu'
  rw [hu', hsorted']

theorem lookup_no_field (hsorted : sortKeys (.obj (hashedFields config)) = .obj c.fields)
    (hkey : key ≠ "config_hash") (hnot : key ∉ c.fields.map Prod.fst)
    : config.lookup key = none := by
  obtain ⟨fields, heq, hfields⟩ := exists_of_sortKeys_obj hsorted
  cases heq
  rw [← lookup_hashedFields hkey]
  exact lookup_of_not_sorted hfields hnot

theorem number_cases {u : JsonValue} {q : ℚ} (h : u.number = some q)
    : (∃ n, u = .int n) ∨ u = .float q := by
  cases u with
  | int n => exact .inl ⟨n, rfl⟩
  | float q' =>
    cases h
    exact .inr rfl
  | _ => cases h

theorem text_int_ne_float (n : ℤ) (q : ℚ) : ¬SameText (.int n) (.float q) := by
  intro h
  exact Json.float_ne_int q n (String.toList_inj.mp h.text_float).symm

/--
An amount keeps its text in the row only where it is a float.
-/
theorem float_of_same {literals : Literals} {u : JsonValue} {default : ℚ} {x : PyFloat}
    (hlookup : config.lookup key = some u) (hpositive : config.isPositive key = true)
    (hcolumn : realColumn literals config key default = some x) (hsame : SameText (sortKeys u) x.json)
    : ∃ q, u = .float q ∧ x = .finite q := by
  rw [JsonObject.isPositive, hlookup, Option.any_some, isPositiveNumber] at hpositive
  obtain ⟨q, hq, _⟩ := (Option.any_eq_true _ _).mp hpositive
  rw [realColumn, hlookup, Option.getD_some] at hcolumn
  rcases number_cases hq with ⟨n, rfl⟩ | rfl
  . cases hfloat : floatOfInt n with
    | none => simp [toFloat, hfloat] at hcolumn
    | some q' =>
      simp only [toFloat, hfloat, Option.map_some, Option.bind_some, notNull,
        Option.some.injEq] at hcolumn
      subst hcolumn
      exact absurd hsame (text_int_ne_float n q')
  . simp only [toFloat, Option.bind_some, notNull, Option.some.injEq] at hcolumn
    exact ⟨q, rfl, hcolumn.symm⟩

/--
The basis points of a model keep the text of the default only where they are the default.
-/
theorem bps_of_same {model : JsonObject} {type bps : JsonValue} {n : ℕ}
    (hn : n < 10 ^ 16) (hmodel : (sortFields model).insertionSort JsonValue.keyLe = [(key, bps), ("type", type)])
    (hkey : key ≠ "type") (hnonneg : model.isNonneg key = true) (hsame : SameText bps (.float n))
    : bps = .float n := by
  have hnodup : ([(key, bps), ("type", type)].map Prod.fst).Nodup := by simp [hkey]
  obtain ⟨u, hu, hsorted⟩ := lookup_of_sorted hmodel hnodup List.mem_cons_self
  rw [JsonObject.isNonneg, hu, Option.any_some, isNonnegNumber] at hnonneg
  obtain ⟨q, hq, hpos⟩ := (Option.any_eq_true _ _).mp hnonneg
  rcases number_cases hq with ⟨k, rfl⟩ | rfl
  . rw [← hsorted] at hsame
    exact absurd hsame (text_int_ne_float k n)
  . rw [← hsorted] at hsame ⊢
    have htext := String.toList_inj.mp hsame.text_float
    rw [Json.float_eq_whole (of_decide_eq_true hpos) hn htext]
    rfl

/--
A number of hours that `int` leaves as it is: from `2 ^ 53` on every float does.
-/
def WholeHours (q : ℚ) : Prop :=
  |q| < 2 ^ 53 → q = truncate q

theorem hours_of_same {literals : Literals} {freshness : JsonObject} {u : JsonValue} {x : PyFloat}
    (hlookup : freshness.lookup key = some u) (hpositive : freshness.isPositive key = true)
    (hcolumn : toWholeReal literals u = some x) (hsame : SameText (sortKeys u) x.json)
    : ∃ q, u = .float q ∧ x = .finite q ∧ WholeHours q := by
  rw [JsonObject.isPositive, hlookup, Option.any_some, isPositiveNumber] at hpositive
  obtain ⟨q, hq, hpos⟩ := (Option.any_eq_true _ _).mp hpositive
  rcases number_cases hq with ⟨n, rfl⟩ | rfl
  . simp only [toWholeReal, Option.bind_eq_some_iff, Option.map_eq_some_iff] at hcolumn
    obtain ⟨k, _, q', _, rfl⟩ := hcolumn
    exact absurd hsame (text_int_ne_float n q')
  . have hpos : 0 < q := of_decide_eq_true hpos
    refine ⟨q, rfl, ?_⟩
    rw [toWholeReal] at hcolumn
    by_cases hlarge : 2 ^ 53 ≤ |q|
    . rw [if_pos hlarge] at hcolumn
      split at hcolumn
      . exact ⟨(Option.some.inj hcolumn).symm, fun hsmall => absurd hlarge (not_le.mpr hsmall)⟩
      . cases hcolumn
    . rw [if_neg hlarge, Option.some.injEq] at hcolumn
      subst hcolumn
      have htext := String.toList_inj.mp hsame.text_float
      obtain ⟨n, hn⟩ : ∃ n : ℕ, ⌊q⌋ = n :=
        Int.eq_ofNat_of_zero_le (Int.floor_nonneg.mpr hpos.le)
      have htruncate : truncate q = n := by rw [truncate, if_pos hpos.le, hn]
      have hle : (n : ℚ) ≤ q := by
        have := Int.floor_le q
        rwa [hn] at this
      have hlt : (n : ℚ) < 2 ^ 53 := by
        rw [abs_of_pos hpos, not_le] at hlarge
        linarith
      have hsmall : n < 10 ^ 16 := by
        have : n < 2 ^ 53 := by exact_mod_cast hlt
        omega
      rw [htruncate] at htext ⊢
      push_cast at htext ⊢
      have hwhole := Json.float_eq_whole hpos.le hsmall htext
      exact ⟨by rw [hwhole], fun _ => by rw [htruncate, hwhole]; rfl⟩

theorem interval_of_same {literals : Literals} {freshness : JsonObject} {u : JsonValue} {n : ℤ}
    (hlookup : freshness.lookup "bar_interval_hours" = some u)
    (hpositive : freshness.isPositive "bar_interval_hours" = true)
    (height : u.equalsInt 8 = true) (hcolumn : toInteger literals u = some n)
    (hsame : SameText (sortKeys u) (.int n)) : u = .int 8 ∧ n = 8 := by
  rw [JsonObject.isPositive, hlookup, Option.any_some, isPositiveNumber] at hpositive
  obtain ⟨q, hq, _⟩ := (Option.any_eq_true _ _).mp hpositive
  rcases number_cases hq with ⟨k, rfl⟩ | rfl
  . have hk : k = 8 := by simpa [equalsInt, asInt] using height
    subst hk
    rw [toInteger, if_pos (by decide), Option.some.injEq] at hcolumn
    exact ⟨rfl, hcolumn.symm⟩
  . have htext := hsame.text_int
    exact absurd (String.toList_inj.mp htext) (Json.float_ne_int q n)

end fields

section inserted

variable {literals : Literals} {defaultLabel now : String} {lane : Option LaneColumns}
variable {config : JsonObject} {row : ConfigRow}

/--
Where the columns of an inserted row come from.
-/
structure Inserted (literals : Literals) (config : JsonObject) (row : ConfigRow) : Prop where
  forwardStartTs : config.str? "forward_start_ts" = some row.forwardStartTs
  initialEquityUsd : realColumn literals config "initial_equity_usd" 10000 = some row.initialEquityUsd
  notionalUsd : realColumn literals config "notional_usd" 1000 = some row.notionalUsd
  leverage : realColumn literals config "leverage" 1 = some row.leverage
  feeBps : realColumn literals config "fee_bps" 5 = some row.feeBps
  slippageBps : realColumn literals config "slippage_bps" 5 = some row.slippageBps
  barInterval : toInteger literals ((((config.obj? "freshness").getD []).lookup
    "bar_interval_hours").getD (.int 8)) = some row.freshnessBarIntervalHours
  staleness : toWholeReal literals ((((config.obj? "freshness").getD []).lookup
    "max_bar_staleness_hours").getD (.int 24)) = some row.freshnessMaxBarStalenessHours
  heartbeat : toWholeReal literals ((((config.obj? "freshness").getD []).lookup
    "heartbeat_max_age_hours").getD (.int 24)) = some row.freshnessHeartbeatMaxAgeHours
  schemaVersion : row.paperContractVersion = (config.strictInt? "schema_version").getD 1
  engineVersion : row.paperEngineVersion = expectedEngineVersion
  feeType : row.feeType = (((config.obj? "fee_model").getD []).str? "type").getD "flat_taker"
  slippageType : row.slippageType = (((config.obj? "slippage_model").getD []).str? "type").getD "fixed"
  fundingType : row.fundingType = (((config.obj? "funding_model").getD []).str? "type").getD "accrual"
  fundingAppliedAs : row.fundingAppliedAs
    = (((config.obj? "funding_model").getD []).str? "applied_as").getD "cash_flow"
  fillModel : row.fillModel = (config.str? "fill_model").getD "next_bar_open_pessimistic"
  signalSource : row.signalSource
    = (config.str? "signal_source").getD "observation_log.json:per_bar_obs"
  configHash : row.configHash = Quantbot.configHash config

theorem inserted_of_insertedRow (h : insertedRow literals defaultLabel lane now config = some row)
    : Inserted literals config row
      ∧ row.baselineLabel = (config.str? "baseline_label").getD defaultLabel := by
  simp only [insertedRow, bind, Option.bind_eq_some_iff, pure, Option.some.injEq] at h
  obtain ⟨ts, hts, equity, hequity, notional, hnotional, leverage, hleverage, fee, hfee, slippage,
    hslippage, interval, hinterval, staleness, hstaleness, heartbeat, hheartbeat, rfl⟩ := h
  exact ⟨⟨hts, hequity, hnotional, hleverage, hfee, hslippage, hinterval, hstaleness, hheartbeat,
    rfl, rfl, rfl, rfl, rfl, rfl, rfl, rfl, rfl⟩, rfl⟩

end inserted

section accepted

variable {config : JsonObject}

theorem str?_eq {o : JsonObject} {key s : String} (h : o.str? key = some s)
    : o.lookup key = some (.str s) := by
  obtain ⟨v, hv, hs⟩ := Option.bind_eq_some_iff.mp h
  cases v with
  | str s' =>
    cases hs
    exact hv
  | _ => cases hs

theorem strictInt?_eq {o : JsonObject} {key : String} {n : ℤ} (h : o.strictInt? key = some n)
    : o.lookup key = some (.int n) := by
  obtain ⟨v, hv, hn⟩ := Option.bind_eq_some_iff.mp h
  cases v with
  | int n' =>
    cases hn
    exact hv
  | _ => cases hn

theorem obj?_eq {o m : JsonObject} {key : String} (h : o.obj? key = some m)
    : o.lookup key = some (.obj m) := by
  obtain ⟨v, hv, hm⟩ := Option.bind_eq_some_iff.mp h
  cases v with
  | obj m' =>
    cases hm
    exact hv
  | _ => cases hm

/--
What the contract promises field by field.
-/
structure Accepted (config : JsonObject) : Prop where
  schemaVersion : config.strictInt? "schema_version" = some schemaVersion
  baselineLabel : config.str? "baseline_label" = some baselineLabel
  freshness : ∃ freshness, config.obj? "freshness" = some freshness ∧ validFreshness freshness = true
  initialEquityUsd : config.isPositive "initial_equity_usd" = true
  notionalUsd : config.isPositive "notional_usd" = true
  leverage : config.isPositive "leverage" = true
  feeModel : ∃ model, config.obj? "fee_model" = some model
    ∧ validModel "flat_taker" "fee_bps" model = true
  slippageModel : ∃ model, config.obj? "slippage_model" = some model
    ∧ validModel "fixed" "slippage_bps" model = true
  fillModel : config.str? "fill_model" = some fillModel
  signalSource : config.str? "signal_source" = some signalSource
  fundingModel : ∃ model, config.obj? "funding_model" = some model ∧ validFundingModel model = true

theorem accepted_of_contract (h : validateConfigContract config = true) : Accepted config := by
  simp only [validateConfigContract, Bool.and_eq_true, decide_eq_true_eq, Option.any_eq_true,
    List.all_cons, List.all_nil, and_true] at h
  obtain ⟨⟨⟨⟨⟨⟨⟨⟨⟨⟨⟨_, hschema⟩, _⟩, hlabel⟩, hfreshness⟩, hequity, hnotional, hleverage⟩, hfee⟩,
    hslippage⟩, hfill⟩, hsignal⟩, hfunding⟩, _⟩ := h
  exact ⟨hschema, hlabel, hfreshness, hequity, hnotional, hleverage, hfee, hslippage, hfill, hsignal,
    hfunding⟩

theorem validModel_type {model : JsonObject} {type bps : String}
    (h : validModel type bps model = true) : model.str? "type" = some type := by
  simp only [validModel, Bool.and_eq_true, decide_eq_true_eq] at h
  exact h.1

theorem model_of_same {u v : JsonValue} {model : JsonObject} {type bps : String}
    (hmodel : u = .obj model) (hvalid : validModel type bps model = true) (hsorted : sortKeys u = v)
    (hbps : bps ≠ "type") (hsame : SameText v (modelValues (.float 5) (.str type) bps))
    : v = modelValues (.float 5) (.str type) bps := by
  obtain ⟨bps', type', rfl, hbps', htype'⟩ := same_model hsame
  cases htype'.eq_str
  subst hmodel
  obtain ⟨_, heq, hfields⟩ := exists_of_sortKeys_obj hsorted
  cases heq
  simp only [validModel, Bool.and_eq_true] at hvalid
  have hfive : SameText bps' (.float ((5 : ℕ) : ℚ)) := by simpa using hbps'
  rw [bps_of_same (by omega) hfields hbps hvalid.2 hfive]
  simp

/--
The config is, but for the order of its keys and its own hash, one that `build_config` builds with
the default fee and slippage, the bar interval of the contract and whole numbers of hours.
-/
def BuiltAtDefaults (config : JsonObject) : Prop :=
  ∃ forwardStartTs initialEquityUsd notionalUsd leverage staleness heartbeat,
    WholeHours staleness ∧ WholeHours heartbeat
      ∧ sortKeys (.obj (hashedFields config))
        = sortKeys (.obj (builtFields forwardStartTs initialEquityUsd notionalUsd leverage 5 5 8
            staleness heartbeat))

variable {literals : Literals} {defaultLabel now : String} {lane : Option LaneColumns}
variable {row : ConfigRow}

theorem amount_of_same {c : ConfigValues} {key : String} {v : JsonValue} {default : ℚ} {x : PyFloat}
    (hsorted : sortKeys (.obj (hashedFields config)) = .obj c.fields) (hkey : key ≠ "config_hash")
    (hmem : (key, v) ∈ c.fields) (hpositive : config.isPositive key = true)
    (hcolumn : realColumn literals config key default = some x) (hsame : SameText v x.json)
    : ∃ q, v = .float q := by
  obtain ⟨u, hu, rfl⟩ := lookup_field hsorted hkey hmem
  obtain ⟨q, rfl, _⟩ := float_of_same hu hpositive hcolumn hsame
  exact ⟨q, rfl⟩

theorem freshness_of_same {u v : JsonValue} {freshness : JsonObject} {n : ℤ} {staleness heartbeat : PyFloat}
    (hfreshness : u = .obj freshness) (hvalid : validFreshness freshness = true)
    (hsorted : sortKeys u = v)
    (hinterval : toInteger literals ((freshness.lookup "bar_interval_hours").getD (.int 8)) = some n)
    (hstaleness : toWholeReal literals ((freshness.lookup "max_bar_staleness_hours").getD (.int 24))
      = some staleness)
    (hheartbeat : toWholeReal literals ((freshness.lookup "heartbeat_max_age_hours").getD (.int 24))
      = some heartbeat)
    (hsame : SameText v (freshnessValues (.int n) heartbeat.json staleness.json))
    : ∃ s h, WholeHours s ∧ WholeHours h ∧ v = freshnessValues (.int 8) (.float h) (.float s) := by
  obtain ⟨interval', heartbeat', staleness', rfl, hsame₁, hsame₂, hsame₃⟩ := same_freshness hsame
  subst hfreshness
  obtain ⟨_, heq, hfields⟩ := exists_of_sortKeys_obj hsorted
  cases heq
  simp only [validFreshness, Bool.and_eq_true, requiredFreshnessFields, List.all_cons, List.all_nil,
    and_true] at hvalid
  obtain ⟨⟨⟨hpositive₁, hpositive₃, hpositive₂⟩, height⟩, _⟩ := hvalid
  have hnodup : ([("bar_interval_hours", interval'), ("heartbeat_max_age_hours", heartbeat'),
      ("max_bar_staleness_hours", staleness')].map Prod.fst).Nodup := by simp
  obtain ⟨u₁, hu₁, rfl⟩ := lookup_of_sorted hfields hnodup (List.mem_cons_self)
  obtain ⟨u₂, hu₂, rfl⟩ := lookup_of_sorted hfields hnodup
    (List.mem_cons_of_mem _ List.mem_cons_self)
  obtain ⟨u₃, hu₃, rfl⟩ := lookup_of_sorted hfields hnodup
    (List.mem_cons_of_mem _ (List.mem_cons_of_mem _ List.mem_cons_self))
  rw [hu₁, Option.getD_some] at hinterval
  rw [hu₂, Option.getD_some] at hheartbeat
  rw [hu₃, Option.getD_some] at hstaleness
  rw [hu₁, Option.any_some] at height
  obtain ⟨rfl, _⟩ := interval_of_same hu₁ hpositive₁ height hinterval hsame₁
  obtain ⟨h, rfl, _, hwhole₂⟩ := hours_of_same hu₂ hpositive₂ hheartbeat hsame₂
  obtain ⟨s, rfl, _, hwhole₃⟩ := hours_of_same hu₃ hpositive₃ hstaleness hsame₃
  exact ⟨s, h, hwhole₃, hwhole₂, rfl⟩

theorem realColumn_default {key : String} {default : ℚ} {x : PyFloat}
    (hlookup : config.lookup key = none) (hcolumn : realColumn literals config key default = some x)
    : x = .finite default := by
  rw [realColumn, hlookup] at hcolumn
  exact (Option.some.inj hcolumn).symm

theorem builtAtDefaults_of_same (haccepted : Accepted config)
    (hrow : insertedRow literals defaultLabel lane now config = some row)
    (hsame : SameText (sortKeys (.obj (hashedFields config))) (sortKeys (.obj row.config)))
    : BuiltAtDefaults config := by
  obtain ⟨hinserted, hlabel⟩ := inserted_of_insertedRow hrow
  rw [sortKeys_rowConfig] at hsame
  obtain ⟨l, hsorted, hfields⟩ := hsame.fields
  obtain ⟨c, rfl, hc⟩ := exists_values hfields
  -- the amounts
  obtain ⟨equity, hequity⟩ := amount_of_same hsorted (by decide) (by simp [ConfigValues.fields])
    haccepted.initialEquityUsd hinserted.initialEquityUsd hc.initialEquityUsd
  obtain ⟨notional, hnotional⟩ := amount_of_same hsorted (by decide) (by simp [ConfigValues.fields])
    haccepted.notionalUsd hinserted.notionalUsd hc.notionalUsd
  obtain ⟨leverage, hleverage⟩ := amount_of_same hsorted (by decide) (by simp [ConfigValues.fields])
    haccepted.leverage hinserted.leverage hc.leverage
  have hschema := sortKeys_of_lookup hsorted (strictInt?_eq haccepted.schemaVersion) (by decide)
    (by simp [ConfigValues.fields] : (_, c.schemaVersion) ∈ c.fields)
  -- the models, whose basis points are looked up beside them
  have hfee : c.feeModel = modelValues (.float 5) (.str "flat_taker") "fee_bps" := by
    obtain ⟨model, hmodel, hvalid⟩ := haccepted.feeModel
    have hu := sortKeys_of_lookup hsorted (obj?_eq hmodel) (by decide)
      (by simp [ConfigValues.fields] : (_, c.feeModel) ∈ c.fields)
    have hno : config.lookup "fee_bps" = none :=
      lookup_no_field hsorted (by decide) (by simp [ConfigValues.fields])
    have htype := hinserted.feeType
    rw [hmodel, Option.getD_some, validModel_type hvalid, Option.getD_some] at htype
    have hsameFee := hc.feeModel
    simp only [rowValues, realColumn_default hno hinserted.feeBps, htype] at hsameFee
    exact model_of_same rfl hvalid hu (by decide) hsameFee
  have hslippage : c.slippageModel = modelValues (.float 5) (.str "fixed") "slippage_bps" := by
    obtain ⟨model, hmodel, hvalid⟩ := haccepted.slippageModel
    have hu := sortKeys_of_lookup hsorted (obj?_eq hmodel) (by decide)
      (by simp [ConfigValues.fields] : (_, c.slippageModel) ∈ c.fields)
    have hno : config.lookup "slippage_bps" = none :=
      lookup_no_field hsorted (by decide) (by simp [ConfigValues.fields])
    have htype := hinserted.slippageType
    rw [hmodel, Option.getD_some, validModel_type hvalid, Option.getD_some] at htype
    have hsameSlippage := hc.slippageModel
    simp only [rowValues, realColumn_default hno hinserted.slippageBps, htype] at hsameSlippage
    exact model_of_same rfl hvalid hu (by decide) hsameSlippage
  have hfunding : c.fundingModel = fundingValues (.str "cash_flow") (.str "accrual") := by
    obtain ⟨model, hmodel, hvalid⟩ := haccepted.fundingModel
    simp only [validFundingModel, Bool.and_eq_true, decide_eq_true_eq] at hvalid
    have htype := hinserted.fundingType
    have happlied := hinserted.fundingAppliedAs
    rw [hmodel, Option.getD_some, hvalid.1.2, Option.getD_some] at htype
    rw [hmodel, Option.getD_some, hvalid.2, Option.getD_some] at happlied
    have hsameFunding := hc.fundingModel
    simp only [rowValues, htype, happlied] at hsameFunding
    obtain ⟨appliedAs', type', heq, happlied', htype'⟩ := same_funding hsameFunding
    rw [heq, happlied'.eq_str, htype'.eq_str]
  obtain ⟨staleness, heartbeat, hstaleness, hheartbeat, hfreshness⟩ : ∃ s h, WholeHours s
      ∧ WholeHours h ∧ c.freshness = freshnessValues (.int 8) (.float h) (.float s) := by
    obtain ⟨freshness, hmodel, hvalid⟩ := haccepted.freshness
    have hu := sortKeys_of_lookup hsorted (obj?_eq hmodel) (by decide)
      (by simp [ConfigValues.fields] : (_, c.freshness) ∈ c.fields)
    have hinterval := hinserted.barInterval
    have hstaleness := hinserted.staleness
    have hheartbeat := hinserted.heartbeat
    rw [hmodel, Option.getD_some] at hinterval hstaleness hheartbeat
    exact freshness_of_same rfl hvalid hu hinterval hstaleness hheartbeat hc.freshness
  -- the enumerated texts and the forward start
  have hengine := hc.engineVersion.eq_str
  have hlabelText := hc.baselineLabel.eq_str
  have hfill := hc.fillModel.eq_str
  have hsignal := hc.signalSource.eq_str
  rw [hinserted.engineVersion] at hengine
  rw [hlabel, haccepted.baselineLabel, Option.getD_some] at hlabelText
  rw [hinserted.fillModel, haccepted.fillModel, Option.getD_some] at hfill
  rw [hinserted.signalSource, haccepted.signalSource, Option.getD_some] at hsignal
  refine ⟨row.forwardStartTs, equity, notional, leverage, staleness, heartbeat, hstaleness,
    hheartbeat, ?_⟩
  rw [sortKeys_builtFields, hsorted]
  simp only [ConfigValues.fields, builtValues, hequity, hnotional, hleverage, ← hschema, hfee,
    hslippage, hfunding, hfreshness, hengine, hlabelText, hfill, hsignal,
    hc.forwardStartTs.eq_str, sortKeys]

end accepted

section built

variable {config : JsonObject} {literals : Literals} {defaultLabel now : String}
variable {lane : Option LaneColumns} {row : ConfigRow}
variable {ts : String} {equity notional leverage staleness heartbeat : ℚ}

theorem lookup_of_built {c : ConfigValues} {key : String} {v : JsonValue}
    (hsorted : sortKeys (.obj (hashedFields config)) = .obj c.fields) (hkey : key ≠ "config_hash")
    (hmem : (key, v) ∈ c.fields) (hv : ∀ u, sortKeys u = v → u = v) : config.lookup key = some v := by
  obtain ⟨u, hu, hsame⟩ := lookup_field hsorted hkey hmem
  rw [hu, hv u hsame]

theorem str?_of_lookup {o : JsonObject} {key s : String} (h : o.lookup key = some (.str s))
    : o.str? key = some s := by
  rw [JsonObject.str?, h]
  rfl

theorem obj?_of_lookup {o m : JsonObject} {key : String} (h : o.lookup key = some (.obj m))
    : o.obj? key = some m := by
  rw [JsonObject.obj?, h]
  rfl

theorem realColumn_float {key : String} {default q : ℚ} {x : PyFloat}
    (hlookup : config.lookup key = some (.float q))
    (hcolumn : realColumn literals config key default = some x) : x = .finite q := by
  rw [realColumn, hlookup] at hcolumn
  exact (Option.some.inj hcolumn).symm

/--
A model with the given values, found under its key.
-/
theorem model_of_built {c : ConfigValues} {key bps type : String} {q : ℚ}
    (hsorted : sortKeys (.obj (hashedFields config)) = .obj c.fields) (hkey : key ≠ "config_hash")
    (hbps : bps ≠ "type") (hmem : (key, modelValues (.float q) (.str type) bps) ∈ c.fields)
    : ∃ model, config.obj? key = some model ∧ model.str? "type" = some type
      ∧ model.lookup bps = some (.float q) := by
  obtain ⟨u, hu, hsame⟩ := lookup_field hsorted hkey hmem
  obtain ⟨model, rfl, hmodel⟩ := exists_of_sortKeys_obj hsame
  have hnodup : ([(bps, JsonValue.float q), ("type", .str type)].map Prod.fst).Nodup := by
    simp [hbps]
  obtain ⟨v, hv, hbpsSame⟩ := lookup_of_sorted hmodel hnodup List.mem_cons_self
  obtain ⟨w, hw, htypeSame⟩ := lookup_of_sorted hmodel hnodup
    (List.mem_cons_of_mem _ List.mem_cons_self)
  rw [eq_of_sortKeys_atom rfl hbpsSame] at hv
  rw [eq_of_sortKeys_str htypeSame] at hw
  exact ⟨model, obj?_of_lookup hu, str?_of_lookup hw, hv⟩

theorem toWholeReal_whole {q : ℚ} {x : PyFloat} (hwhole : WholeHours q)
    (h : toWholeReal literals (.float q) = some x) : x = .finite q := by
  rw [toWholeReal] at h
  by_cases hlarge : 2 ^ 53 ≤ |q|
  . rw [if_pos hlarge] at h
    split at h
    . exact (Option.some.inj h).symm
    . cases h
  . rw [if_neg hlarge, ← hwhole (not_le.mp hlarge)] at h
    exact (Option.some.inj h).symm

theorem freshness_of_built {n : ℤ}
    (hsorted : sortKeys (.obj (hashedFields config))
      = .obj (builtValues ts equity notional leverage 5 5 n staleness heartbeat).fields)
    : ∃ freshness, config.obj? "freshness" = some freshness
      ∧ freshness.lookup "bar_interval_hours" = some (.int n)
      ∧ freshness.lookup "max_bar_staleness_hours" = some (.float staleness)
      ∧ freshness.lookup "heartbeat_max_age_hours" = some (.float heartbeat) := by
  obtain ⟨u, hu, hsame⟩ := lookup_field hsorted (by decide)
    (by simp [builtValues, ConfigValues.fields]
      : ("freshness", freshnessValues (.int n) (.float heartbeat) (.float staleness)) ∈ _)
  obtain ⟨freshness, rfl, hfreshness⟩ := exists_of_sortKeys_obj hsame
  have hnodup : ([("bar_interval_hours", JsonValue.int n), ("heartbeat_max_age_hours", .float heartbeat),
      ("max_bar_staleness_hours", .float staleness)].map Prod.fst).Nodup := by simp
  obtain ⟨u₁, hu₁, hsame₁⟩ := lookup_of_sorted hfreshness hnodup List.mem_cons_self
  obtain ⟨u₂, hu₂, hsame₂⟩ := lookup_of_sorted hfreshness hnodup
    (List.mem_cons_of_mem _ List.mem_cons_self)
  obtain ⟨u₃, hu₃, hsame₃⟩ := lookup_of_sorted hfreshness hnodup
    (List.mem_cons_of_mem _ (List.mem_cons_of_mem _ List.mem_cons_self))
  rw [eq_of_sortKeys_atom rfl hsame₁] at hu₁
  rw [eq_of_sortKeys_atom rfl hsame₂] at hu₂
  rw [eq_of_sortKeys_atom rfl hsame₃] at hu₃
  exact ⟨freshness, obj?_of_lookup hu, hu₁, hu₃, hu₂⟩

/--
The row of a config built at the defaults holds that config.
-/
theorem rowValues_of_built (haccepted : Accepted config)
    (hrow : insertedRow literals defaultLabel lane now config = some row)
    (hsorted : sortKeys (.obj (hashedFields config))
      = .obj (builtValues ts equity notional leverage 5 5 8 staleness heartbeat).fields)
    (hstaleness : WholeHours staleness) (hheartbeat : WholeHours heartbeat)
    : rowValues row = builtValues ts equity notional leverage 5 5 8 staleness heartbeat := by
  obtain ⟨hinserted, hlabel⟩ := inserted_of_insertedRow hrow
  have hstart : config.lookup "forward_start_ts" = some (.str ts) :=
    lookup_of_built hsorted (by decide) (by simp [builtValues, ConfigValues.fields])
      (fun _ => eq_of_sortKeys_str)
  have hequity : config.lookup "initial_equity_usd" = some (.float equity) :=
    lookup_of_built hsorted (by decide) (by simp [builtValues, ConfigValues.fields])
      (fun _ => eq_of_sortKeys_atom rfl)
  have hnotional : config.lookup "notional_usd" = some (.float notional) :=
    lookup_of_built hsorted (by decide) (by simp [builtValues, ConfigValues.fields])
      (fun _ => eq_of_sortKeys_atom rfl)
  have hleverage : config.lookup "leverage" = some (.float leverage) :=
    lookup_of_built hsorted (by decide) (by simp [builtValues, ConfigValues.fields])
      (fun _ => eq_of_sortKeys_atom rfl)
  have hnoFee : config.lookup "fee_bps" = none :=
    lookup_no_field hsorted (by decide) (by simp [builtValues, ConfigValues.fields])
  have hnoSlippage : config.lookup "slippage_bps" = none :=
    lookup_no_field hsorted (by decide) (by simp [builtValues, ConfigValues.fields])
  obtain ⟨feeModel, hfeeModel, hfeeType, _⟩ := model_of_built hsorted (by decide) (by decide)
    (by simp [builtValues, ConfigValues.fields]
      : ("fee_model", modelValues (.float 5) (.str "flat_taker") "fee_bps") ∈ _)
  obtain ⟨slippageModel, hslippageModel, hslippageType, _⟩ := model_of_built hsorted (by decide)
    (by decide) (by simp [builtValues, ConfigValues.fields]
      : ("slippage_model", modelValues (.float 5) (.str "fixed") "slippage_bps") ∈ _)
  obtain ⟨freshness, hfreshness, hinterval, hstale, hheart⟩ := freshness_of_built hsorted
  obtain ⟨fundingModel, hfundingModel, hfunding⟩ := haccepted.fundingModel
  simp only [validFundingModel, Bool.and_eq_true, decide_eq_true_eq] at hfunding
  have hcolumns := hinserted
  cases hcolumns with
  | mk hts hequityColumn hnotionalColumn hleverageColumn hfeeColumn hslippageColumn hintervalColumn
      hstaleColumn hheartColumn hschemaColumn hengineColumn hfeeTypeColumn hslippageTypeColumn
      hfundingTypeColumn happliedColumn hfillColumn hsignalColumn _ =>
    rw [str?_of_lookup hstart, Option.some.injEq] at hts
    rw [hfreshness, Option.getD_some, hinterval, Option.getD_some, toInteger, if_pos (by decide),
      Option.some.injEq] at hintervalColumn
    rw [hfreshness, Option.getD_some, hstale, Option.getD_some] at hstaleColumn
    rw [hfreshness, Option.getD_some, hheart, Option.getD_some] at hheartColumn
    rw [haccepted.schemaVersion, Option.getD_some] at hschemaColumn
    rw [hfeeModel, Option.getD_some, hfeeType, Option.getD_some] at hfeeTypeColumn
    rw [hslippageModel, Option.getD_some, hslippageType, Option.getD_some] at hslippageTypeColumn
    rw [hfundingModel, Option.getD_some, hfunding.1.2, Option.getD_some] at hfundingTypeColumn
    rw [hfundingModel, Option.getD_some, hfunding.2, Option.getD_some] at happliedColumn
    rw [haccepted.fillModel, Option.getD_some] at hfillColumn
    rw [haccepted.signalSource, Option.getD_some] at hsignalColumn
    rw [haccepted.baselineLabel, Option.getD_some] at hlabel
    simp only [rowValues, builtValues, ← hts, ← hintervalColumn, hschemaColumn, hengineColumn,
      hfeeTypeColumn, hslippageTypeColumn, hfundingTypeColumn, happliedColumn, hfillColumn,
      hsignalColumn, hlabel, realColumn_float hequity hequityColumn,
      realColumn_float hnotional hnotionalColumn, realColumn_float hleverage hleverageColumn,
      realColumn_default hnoFee hfeeColumn, realColumn_default hnoSlippage hslippageColumn,
      toWholeReal_whole hstaleness hstaleColumn, toWholeReal_whole hheartbeat hheartColumn,
      PyFloat.json]

end built

section roundTrip

variable {config : JsonObject} {literals : Literals} {row : ConfigRow}

/--
The amounts of the run are those of the config.
-/
structure SameEconomics (config : JsonObject) (engine : EngineConfig) : Prop where
  forwardStart : config.str? "forward_start_ts" = some engine.forwardStartTs
  initialEquity : ∃ q, config.number? "initial_equity_usd" = some q
    ∧ engine.initialEquityUsd = .finite q
  notional : ∃ q, config.number? "notional_usd" = some q ∧ engine.notionalUsd = .finite q
  fee : ∃ model q, config.obj? "fee_model" = some model ∧ model.number? "fee_bps" = some q
    ∧ engine.feeBps = .finite q
  slippage : ∃ model q, config.obj? "slippage_model" = some model
    ∧ model.number? "slippage_bps" = some q ∧ engine.slippageBps = .finite q

/--
The row certifies the hash of the config it was made from and gives the run its economics.
-/
structure RoundTrips (config : JsonObject) (row : ConfigRow) : Prop where
  stored : row.configHash = configHash config
  recomputed : configHashFromRow row = row.configHash
  economics : SameEconomics config row.engineConfig

/--
The two texts do not share a digest without being the same.
-/
def NoCollision (s t : String) : Prop :=
  Sha256.hexdigest s = Sha256.hexdigest t → s = t

theorem finite_of_json {x : PyFloat} {q : ℚ} (h : x.json = .float q) : x = .finite q := by
  cases x with
  | finite q' =>
    cases h
    rfl
  | infinity negative => cases h
  | nan => cases h

theorem number?_of_lookup {o : JsonObject} {key : String} {q : ℚ}
    (h : o.lookup key = some (.float q)) : o.number? key = some q := by
  rw [JsonObject.number?, h]
  rfl

theorem roundTrips_of_built {defaultLabel now : String} {lane : Option LaneColumns}
    (haccepted : Accepted config)
    (hrow : insertedRow literals defaultLabel lane now config = some row)
    (hbuilt : BuiltAtDefaults config) : RoundTrips config row := by
  obtain ⟨ts, equity, notional, leverage, staleness, heartbeat, hstaleness, hheartbeat, hsorted⟩ :=
    hbuilt
  rw [sortKeys_builtFields] at hsorted
  have hvalues := rowValues_of_built haccepted hrow hsorted hstaleness hheartbeat
  obtain ⟨hinserted, _⟩ := inserted_of_insertedRow hrow
  constructor
  case stored => exact hinserted.configHash
  case recomputed =>
    rw [hinserted.configHash, configHashFromRow, configHash, configHash, configText, configText,
      hashedFields_rowConfig, canonicalJsonDumps, canonicalJsonDumps, sortKeys_rowConfig, hvalues,
      hsorted]
  case economics =>
    have hequity : config.lookup "initial_equity_usd" = some (.float equity) :=
      lookup_of_built hsorted (by decide) (by simp [builtValues, ConfigValues.fields])
        (fun _ => eq_of_sortKeys_atom rfl)
    have hnotional : config.lookup "notional_usd" = some (.float notional) :=
      lookup_of_built hsorted (by decide) (by simp [builtValues, ConfigValues.fields])
        (fun _ => eq_of_sortKeys_atom rfl)
    obtain ⟨feeModel, hfeeModel, _, hfee⟩ := model_of_built hsorted (by decide) (by decide)
      (by simp [builtValues, ConfigValues.fields]
        : ("fee_model", modelValues (.float 5) (.str "flat_taker") "fee_bps") ∈ _)
    obtain ⟨slippageModel, hslippageModel, _, hslippage⟩ := model_of_built hsorted (by decide)
      (by decide) (by simp [builtValues, ConfigValues.fields]
        : ("slippage_model", modelValues (.float 5) (.str "fixed") "slippage_bps") ∈ _)
    have hnoFee : config.lookup "fee_bps" = none :=
      lookup_no_field hsorted (by decide) (by simp [builtValues, ConfigValues.fields])
    have hnoSlippage : config.lookup "slippage_bps" = none :=
      lookup_no_field hsorted (by decide) (by simp [builtValues, ConfigValues.fields])
    exact {
      forwardStart := hinserted.forwardStartTs
      initialEquity := ⟨equity, number?_of_lookup hequity,
        realColumn_float hequity hinserted.initialEquityUsd⟩
      notional := ⟨notional, number?_of_lookup hnotional,
        realColumn_float hnotional hinserted.notionalUsd⟩
      fee := ⟨feeModel, 5, hfeeModel, number?_of_lookup hfee,
        realColumn_default hnoFee hinserted.feeBps⟩
      slippage := ⟨slippageModel, 5, hslippageModel, number?_of_lookup hslippage,
        realColumn_default hnoSlippage hinserted.slippageBps⟩
    }

theorem built_of_roundTrips {defaultLabel now : String} {lane : Option LaneColumns}
    (haccepted : Accepted config)
    (hrow : insertedRow literals defaultLabel lane now config = some row)
    (hfree : NoCollision (configText config) (configText row.config))
    (h : RoundTrips config row) : BuiltAtDefaults config := by
  have hdigest : Sha256.hexdigest (configText config) = Sha256.hexdigest (configText row.config) :=
    String.ofList_inj.mp (h.stored.symm.trans h.recomputed.symm)
  have htext := hfree hdigest
  have hsame := canonicalJsonDumps_inj htext
  rw [hashedFields_rowConfig] at hsame
  exact builtAtDefaults_of_same haccepted hrow hsame

/--
For every config the contract accepts and both ways to create a database: the row certifies the hash
and gives the run the economics of the config if and only if the config is built at the defaults.
-/
theorem roundTrips_iff (literals : Literals) (now : String) (config : JsonObject) (row : ConfigRow)
    (haccepted : validateConfigContract config = true)
    (hrow : initializeDatabase literals now config = some row
      ∨ ∃ identity, initializeLaneDatabase literals identity now config = some row)
    (hfree : NoCollision (configText config) (configText row.config))
    : RoundTrips config row ↔ BuiltAtDefaults config := by
  have haccepted := accepted_of_contract haccepted
  obtain ⟨defaultLabel, lane, hinserted⟩ : ∃ defaultLabel lane,
      insertedRow literals defaultLabel lane now config = some row := by
    rcases hrow with h | ⟨identity, h⟩
    . exact ⟨_, _, h⟩
    . exact ⟨_, _, h⟩
  constructor
  . exact built_of_roundTrips haccepted hinserted hfree
  . exact roundTrips_of_built haccepted hinserted

def plainLiterals : Literals where
  float := fun _ => none
  int := fun _ => none

def exampleConfig (feeBps : ℚ) : JsonObject :=
  buildConfig "2026-06-05T00:00:00" 10000 1000 1 feeBps 5 8 24 24

/--
Whatever the fee of the config, the row has the default.
-/
def exampleRow (feeBps : ℚ) : ConfigRow where
  dbSchemaVersion := 1
  paperContractVersion := 1
  paperEngineVersion := "0.3.0"
  baselineLabel := "fixed_notional_active_symbols_paper_v1"
  forwardStartTs := "2026-06-05T00:00:00"
  initialEquityUsd := .finite 10000
  notionalUsd := .finite 1000
  leverage := .finite 1
  feeType := "flat_taker"
  feeBps := .finite 5
  slippageType := "fixed"
  slippageBps := .finite 5
  fundingType := "accrual"
  fundingAppliedAs := "cash_flow"
  fillModel := "next_bar_open_pessimistic"
  signalSource := "observation_log.json:per_bar_obs"
  freshnessBarIntervalHours := 8
  freshnessMaxBarStalenessHours := .finite 24
  freshnessHeartbeatMaxAgeHours := .finite 24
  createdAt := "2026-06-01T00:00:00Z"
  configHash := configHash (exampleConfig feeBps)
  lane := none

theorem exampleConfig_accepted {feeBps : ℚ} (h : 0 ≤ feeBps)
    : validateConfigContract (exampleConfig feeBps) = true := by
  have hstart : validForwardStart "2026-06-05T00:00:00" = true := by decide +kernel
  have height : floatOfInt 8 = some 8 := by decide +kernel
  simp [validateConfigContract, exampleConfig, buildConfig, builtFields, requiredConfigFields,
    requiredFreshnessFields, validFreshness, validModel, validFundingModel, JsonObject.has,
    JsonObject.str?, JsonObject.strictInt?, JsonObject.obj?, JsonObject.isPositive,
    JsonObject.isNonneg, isPositiveNumber, isNonnegNumber, JsonValue.number, asStr, asObj, asInt,
    strictInt, equalsInt, h, hstart, height, List.lookup_cons]

theorem exampleRow_inserted (feeBps : ℚ)
    : initializeDatabase plainLiterals "2026-06-01T00:00:00Z" (exampleConfig feeBps)
      = some (exampleRow feeBps) := by
  have htruncate : truncate 24 = 24 := by decide +kernel
  simp [initializeDatabase, insertedRow, exampleRow, realColumn, exampleConfig, buildConfig,
    builtFields, JsonObject.str?, JsonObject.strictInt?, JsonObject.obj?, asStr, asObj, strictInt,
    toFloat, notNull, toInteger, toWholeReal, fitsInt64, htruncate, List.lookup_cons]
  exact ⟨rfl, rfl, rfl, rfl, rfl, rfl⟩

theorem hashedFields_buildConfig (ts : String) (equity notional leverage fee slippage : ℚ)
    (barInterval : ℤ) (staleness heartbeat : ℚ)
    : hashedFields (buildConfig ts equity notional leverage fee slippage barInterval staleness
        heartbeat)
      = builtFields ts equity notional leverage fee slippage barInterval staleness heartbeat := by
  simp [hashedFields, buildConfig, builtFields]

/--
Ten basis points of fee become five in the row.
-/
theorem fee_lost
    : validateConfigContract (exampleConfig 10) = true
      ∧ initializeDatabase plainLiterals "2026-06-01T00:00:00Z" (exampleConfig 10)
        = some (exampleRow 10)
      ∧ ¬RoundTrips (exampleConfig 10) (exampleRow 10) := by
  refine ⟨exampleConfig_accepted (by norm_num), exampleRow_inserted 10, ?_⟩
  intro h
  obtain ⟨model, q, hmodel, hq, hfee⟩ := h.economics.fee
  have hfeeModel : (exampleConfig 10).obj? "fee_model"
      = some [("type", .str "flat_taker"), ("fee_bps", .float 10)] := rfl
  rw [hfeeModel, Option.some.injEq] at hmodel
  subst hmodel
  have hten : JsonObject.number? [("type", .str "flat_taker"), ("fee_bps", .float 10)] "fee_bps"
      = some 10 := rfl
  rw [hten, Option.some.injEq] at hq
  subst hq
  exact absurd (PyFloat.finite.inj hfee) (by norm_num)

theorem exampleConfig_built : BuiltAtDefaults (exampleConfig 5) := by
  refine ⟨"2026-06-05T00:00:00", 10000, 1000, 1, 24, 24, ?_, ?_, ?_⟩
  . intro _
    decide +kernel
  . intro _
    decide +kernel
  . rw [exampleConfig, hashedFields_buildConfig]

theorem roundTrips_default
    : RoundTrips (exampleConfig 5) (exampleRow 5) := by
  have hvalues : rowValues (exampleRow 5)
      = builtValues "2026-06-05T00:00:00" 10000 1000 1 5 5 8 24 24 := rfl
  have htext : configText (exampleConfig 5) = configText (exampleRow 5).config := by
    rw [configText, configText, hashedFields_rowConfig, canonicalJsonDumps, canonicalJsonDumps,
      sortKeys_rowConfig, hvalues, exampleConfig, hashedFields_buildConfig, sortKeys_builtFields]
  exact (roundTrips_iff plainLiterals "2026-06-01T00:00:00Z" (exampleConfig 5) (exampleRow 5)
    (exampleConfig_accepted (by norm_num)) (.inl (exampleRow_inserted 5)) (fun _ => htext)).mpr
    exampleConfig_built

end roundTrip

end Sqlite
end Quantbot
