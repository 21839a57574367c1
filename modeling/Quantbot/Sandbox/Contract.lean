import Quantbot.Util.Decimal
import Quantbot.Util.JsonLoads

/-!
The contracts of the synthetic sandbox: its scenarios, its rules and its accounting.
-/

namespace Quantbot

namespace Sandbox

def schemaVersion : String :=
  "0.1.0"

def transactionCost : Decimal :=
  ⟨false, 1, -3⟩

def ruleKinds : List String :=
  ["ALWAYS_FLAT", "ALWAYS_LONG", "ALWAYS_SHORT", "LAGGED_RETURN_SIGN", "LAGGED_RETURN_FADE",
    "FUNDING_SIGN_FADE", "FUNDING_CROWDING_REVERSAL"]

def rationaleKinds : List String :=
  ["MECHANICAL_BASELINE", "SOFTWARE_PATH_COVERAGE", "DECLARED_ARBITRARY_ASSUMPTION",
    "GENERIC_STYLIZED_FACT"]

def lookbackMin : ℤ :=
  1

def lookbackMax : ℤ :=
  16

def canonicalJsonBytes (v : JsonValue) : Bytes :=
  utf8Bytes v.canonicalJsonDumps

def canonicalDigest (v : JsonValue) : String :=
  sha256Bytes (canonicalJsonBytes v)

structure Scenario where
  scenarioId : String
  description : String
  pricePath : List String
  fundingPath : List String

namespace Scenario

/--
The item that the fingerprint of a scenario is taken of.
-/
def unsigned (s : Scenario) : JsonObject :=
  [("scenario_id", .str s.scenarioId), ("description", .str s.description),
    ("observation_count", .int s.pricePath.length),
    ("price_path", .arr (s.pricePath.map .str)), ("funding_path", .arr (s.fundingPath.map .str))]

def toJson (s : Scenario) : JsonValue :=
  .obj (s.unsigned ++ [("scenario_fingerprint", .str (canonicalDigest (.obj s.unsigned)))])

/--
The numbers of a path. All of its texts are decimal.
-/
def decimals (path : List String) : List Decimal :=
  path.map fun text => (Decimal.ofString text).getD Decimal.zero

def prices (s : Scenario) : List Decimal :=
  decimals s.pricePath

def funding (s : Scenario) : List Decimal :=
  decimals s.fundingPath

end Scenario

def scenarios : List Scenario :=
  [⟨"FLAT_ZERO_FUNDING",
      "Constant dimensionless price and zero funding.",
      List.replicate 6 "1",
      List.replicate 6 "0"⟩,
    ⟨"UPTREND_ZERO_FUNDING",
      "Monotone dimensionless increase with zero funding.",
      ["1", "2", "3", "4", "5", "6"],
      List.replicate 6 "0"⟩,
    ⟨"DOWNTREND_ZERO_FUNDING",
      "Monotone dimensionless decrease with zero funding.",
      ["6", "5", "4", "3", "2", "1"],
      List.replicate 6 "0"⟩,
    ⟨"ALTERNATING_REVERSAL_ZERO_FUNDING",
      "Alternating dimensionless reversals with zero funding.",
      ["1", "2", "1", "2", "1", "2"],
      List.replicate 6 "0"⟩,
    ⟨"FLAT_POSITIVE_FUNDING",
      "Constant price with positive generic funding.",
      List.replicate 6 "1",
      List.replicate 6 "0.1"⟩,
    ⟨"FLAT_NEGATIVE_FUNDING",
      "Constant price with negative generic funding.",
      List.replicate 6 "1",
      List.replicate 6 "-0.1"⟩,
    ⟨"TREND_WITH_OPPOSING_FUNDING",
      "Increasing price with negative generic funding.",
      ["1", "2", "3", "4", "5", "6"],
      List.replicate 6 "-0.1"⟩,
    ⟨"POSITIVE_FUNDING_TREND_CONTINUES",
      "Positive funding with continuing upward price movement.",
      ["1", "2", "3", "4", "5", "6", "7", "8", "9", "10", "11", "12", "13", "14"],
      List.replicate 14 "0.2"⟩,
    ⟨"POSITIVE_FUNDING_THEN_REVERSAL_DOWN",
      "Positive funding followed by a sustained downward price reversal.",
      ["1", "2", "3", "4", "5", "4", "3", "2", "1", "0", "-1", "-2", "-3", "-4"],
      List.replicate 14 "0.2"⟩,
    ⟨"NEGATIVE_FUNDING_TREND_CONTINUES",
      "Negative funding with continuing downward price movement.",
      ["14", "13", "12", "11", "10", "9", "8", "7", "6", "5", "4", "3", "2", "1"],
      List.replicate 14 "-0.2"⟩,
    ⟨"NEGATIVE_FUNDING_THEN_REVERSAL_UP",
      "Negative funding followed by a sustained upward price reversal.",
      ["14", "13", "12", "11", "10", "11", "12", "13", "14", "15", "16", "17", "18", "19"],
      List.replicate 14 "-0.2"⟩,
    ⟨"FUNDING_FLIPS_WITHOUT_PRICE_CONFIRMATION",
      "Funding changes sign while price remains neutral.",
      List.replicate 14 "1",
      List.replicate 5 "0.2" ++ List.replicate 9 "-0.2"⟩,
    ⟨"PRICE_REVERSAL_WITHOUT_FUNDING_CROWDING",
      "Price reverses while funding remains at the neutral boundary.",
      ["1", "2", "3", "4", "5", "4", "3", "2", "1", "0", "-1", "-2", "-3", "-4"],
      List.replicate 14 "0"⟩,
    ⟨"DELAYED_REVERSAL_AFTER_CROWDING",
      "Positive funding persists before a delayed downward reversal.",
      ["1", "2", "3", "4", "5", "6", "7", "8", "9", "8", "7", "6", "5", "4"],
      List.replicate 14 "0.2"⟩,
    ⟨"FALSE_REVERSAL_THEN_CONTINUATION",
      "A brief downward move is followed by continuation of the prior trend.",
      ["1", "2", "3", "4", "5", "4", "5", "6", "7", "8", "9", "10", "11", "12"],
      List.replicate 14 "0.2"⟩]

def scenarioContract : JsonValue :=
  .obj [("schema_version", .str schemaVersion), ("scenarios", .arr (scenarios.map Scenario.toJson))]

def lookbackSchema : JsonValue :=
  .obj [("type", .str "int"), ("min", .int lookbackMin), ("max", .int lookbackMax)]

def deadbandSchema : JsonValue :=
  .obj [("type", .str "decimal_string"), ("min", .str "0"), ("finite", .bool true)]

def laggedParams : JsonValue :=
  .obj [("lookback", lookbackSchema), ("deadband", deadbandSchema)]

def ruleContract : JsonValue :=
  .obj [("schema_version", .str schemaVersion),
    ("rule_kinds", .arr (ruleKinds.map .str)),
    ("position_domain", .arr [.int (-1), .int 0, .int 1]),
    ("sign_definition", .str "sign(x) = 1 if x > 0, -1 if x < 0, 0 if x == 0"),
    ("deadband_comparison",
      .str "a decision is flat when abs(signal) <= deadband; the deadband upper bound is inclusive"),
    ("strict_activation",
      .str "FUNDING_CROWDING_REVERSAL activates only when prior_funding > funding_deadband and lagged_price_change < -price_deadband, or prior_funding < -funding_deadband and lagged_price_change > price_deadband"),
    ("information_set",
      .str "a decision at evaluated interval index t may read only observations with index strictly less than t (indices 0..t-1)"),
    ("decision_constraint", .str "indices strictly less than evaluated interval index"),
    ("parameter_schema", .obj [("ALWAYS_FLAT", .obj []), ("ALWAYS_LONG", .obj []),
      ("ALWAYS_SHORT", .obj []), ("LAGGED_RETURN_SIGN", laggedParams),
      ("LAGGED_RETURN_FADE", laggedParams),
      ("FUNDING_SIGN_FADE", .obj [("deadband", deadbandSchema)]),
      ("FUNDING_CROWDING_REVERSAL", .obj [("lookback", lookbackSchema),
      ("price_deadband", deadbandSchema), ("funding_deadband", deadbandSchema)])]),
    ("warmup", .obj [("ALWAYS_FLAT", .str "none"),
      ("ALWAYS_LONG", .str "none"),
      ("ALWAYS_SHORT", .str "none"),
      ("LAGGED_RETURN_SIGN", .str "position(t) = 0 while t <= lookback"),
      ("LAGGED_RETURN_FADE", .str "position(t) = 0 while t <= lookback"),
      ("FUNDING_SIGN_FADE", .str "position(t) = 0 while t == 0"),
      ("FUNDING_CROWDING_REVERSAL", .str "position(t) = 0 while t <= lookback")]),
    ("formulas", .obj [("ALWAYS_FLAT", .str "position(t) = 0"),
      ("ALWAYS_LONG", .str "position(t) = 1"),
      ("ALWAYS_SHORT", .str "position(t) = -1"),
      ("LAGGED_RETURN_SIGN",
        .str "d = price[t-1] - price[t-1-lookback]; position(t) = 0 if t <= lookback else (0 if abs(d) <= deadband else sign(d))"),
      ("LAGGED_RETURN_FADE",
        .str "d = price[t-1] - price[t-1-lookback]; position(t) = 0 if t <= lookback else (0 if abs(d) <= deadband else -sign(d))"),
      ("FUNDING_SIGN_FADE",
        .str "g = funding[t-1]; position(t) = 0 if t == 0 else (0 if abs(g) <= deadband else -sign(g))"),
      ("FUNDING_CROWDING_REVERSAL",
        .str "d = price[t-1] - price[t-1-lookback]; g = funding[t-1]; position(t) = 0 if t <= lookback else (-1 if g > funding_deadband and d < -price_deadband else 1 if g < -funding_deadband and d > price_deadband else 0)")])]

def accountingContract : JsonValue :=
  .obj [("schema_version", .str schemaVersion),
    ("transaction_cost", .str "0.001"),
    ("transaction_cost_rationale",
      .str "DECLARED_ARBITRARY_ASSUMPTION_FOR_MECHANICAL_PATH_COVERAGE"),
    ("evaluated_interval",
      .str "a scenario with N observations has N-1 evaluated intervals indexed t = 0..N-2; interval t spans observations t and t+1"),
    ("position_timing",
      .str "position(t) is decided before interval t using only observations with index < t and is held across the whole of interval t"),
    ("initial_position", .str "flat: position(-1) = 0 before the first evaluated interval"),
    ("price_component", .str "price_component(t) = position(t) * (price[t+1] - price[t])"),
    ("funding_component", .str "funding_component(t) = -position(t) * funding[t]"),
    ("transaction_cost_formula",
      .str "cost(t) = transaction_cost * abs(position(t) - position(t-1)) with position(-1) = 0"),
    ("net", .str "net(t) = price_component(t) + funding_component(t) - cost(t)"),
    ("turnover_definition",
      .str "turnover_count = number of evaluated intervals t where position(t) != position(t-1), with position(-1) = 0"),
    ("terminal_liquidation",
      .str "excluded: the position held over the final evaluated interval is not flattened at the end and incurs no terminal closing transaction cost"),
    ("mean_denominator",
      .str "every mean divides the summed component by the evaluated-interval count (N-1)"),
    ("active_slot_count", .str "number of evaluated intervals whose position is in \x7b-1, 1\x7d"),
    ("long_slot_count", .str "number of evaluated intervals whose position == 1"),
    ("short_slot_count", .str "number of evaluated intervals whose position == -1"),
    ("flat_slot_count", .str "number of evaluated intervals whose position == 0"),
    ("count_invariants", .arr [.str "active_slot_count == long_slot_count + short_slot_count",
        .str "active_slot_count + flat_slot_count == evaluated_interval_count"]),
    ("position_series_serialization",
      .str "position_series_sha256 = sha256(canonical_json_bytes(list_of_integer_positions))"),
    ("components", .arr [.str "active_slot_count",
        .str "long_slot_count",
        .str "short_slot_count",
        .str "flat_slot_count",
        .str "turnover_count",
        .str "mean_price_component",
        .str "mean_funding_component",
        .str "mean_cost_drag",
        .str "mean_net",
        .str "position_series_sha256"])]

end Sandbox

end Quantbot
