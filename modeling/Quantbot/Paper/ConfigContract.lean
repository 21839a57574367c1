import Quantbot.Paper.Ledger
import Quantbot.Util.JsonText
import Quantbot.Util.Round
import Quantbot.Util.Sha256

/-!
`paper_config.json` as `json.loads` gives it: its contract, its hash and `build_config`.
-/

namespace Quantbot

/--
`float(n)`: the nearest double, or an overflow.
-/
def floatOfInt (n : ℤ) : Option ℚ :=
  let e := Nat.log2 n.natAbs - 52
  let q : ℚ := roundHalfEven (n / 2 ^ e) * 2 ^ e
  if |q| < 2 ^ 1024 then some q else none

namespace JsonValue

/--
A finite number that is not a boolean. `isfinite` raises on an integer beyond the doubles.
-/
def number : JsonValue → Option ℚ
  | int n => (floatOfInt n).map (fun _ => (n : ℚ))
  | float q => some q
  | _ => none

def isPositiveNumber (v : JsonValue) : Bool :=
  v.number.any (fun q => 0 < q)

def isNonnegNumber (v : JsonValue) : Bool :=
  v.number.any (fun q => 0 ≤ q)

end JsonValue

namespace JsonObject

def has (o : JsonObject) (key : String) : Bool :=
  (o.lookup key).isSome

def obj? (o : JsonObject) (key : String) : Option JsonObject :=
  (o.lookup key).bind JsonValue.asObj

def number? (o : JsonObject) (key : String) : Option ℚ :=
  (o.lookup key).bind JsonValue.number

def isPositive (o : JsonObject) (key : String) : Bool :=
  (o.lookup key).any JsonValue.isPositiveNumber

def isNonneg (o : JsonObject) (key : String) : Bool :=
  (o.lookup key).any JsonValue.isNonnegNumber

end JsonObject

section contract

def expectedEngineVersion : String :=
  "0.3.0"

def fillModel : String :=
  "next_bar_open_pessimistic"

def signalSource : String :=
  "observation_log.json:per_bar_obs"

def requiredConfigFields : List String :=
  ["schema_version", "engine_version", "baseline_label", "forward_start_ts", "initial_equity_usd",
    "notional_usd", "leverage", "fee_model", "slippage_model", "fill_model", "funding_model",
    "signal_source", "freshness", "config_hash"]

def requiredFreshnessFields : List String :=
  ["bar_interval_hours", "max_bar_staleness_hours", "heartbeat_max_age_hours"]

def validFreshness (freshness : JsonObject) : Bool :=
  requiredFreshnessFields.all freshness.isPositive
    && (freshness.lookup "bar_interval_hours").any (fun v => v.equalsInt 8)
    && (!freshness.has "max_future_skew_hours" || freshness.isNonneg "max_future_skew_hours")

/--
A fee or slippage model of the one known type.
-/
def validModel (type bps : String) (model : JsonObject) : Bool :=
  model.str? "type" = some type && model.isNonneg bps

/--
Equality with the one allowed object.
-/
def validFundingModel (model : JsonObject) : Bool :=
  model.length = 2 && model.str? "type" = some "accrual" && model.str? "applied_as" = some "cash_flow"

def validForwardStart (ts : String) : Bool :=
  match parseBarUtc ts with
  | .error _ => false
  | .ok d => d.OnGrid 8

/--
Whether `validate_config_contract` lets the config pass.
-/
def validateConfigContract (config : JsonObject) : Bool :=
  requiredConfigFields.all config.has
    && config.strictInt? "schema_version" = some schemaVersion
    && config.str? "engine_version" = some expectedEngineVersion
    && config.str? "baseline_label" = some baselineLabel
    && (config.obj? "freshness").any validFreshness
    && ["initial_equity_usd", "notional_usd", "leverage"].all config.isPositive
    && (config.obj? "fee_model").any (validModel "flat_taker" "fee_bps")
    && (config.obj? "slippage_model").any (validModel "fixed" "slippage_bps")
    && config.str? "fill_model" = some fillModel
    && config.str? "signal_source" = some signalSource
    && (config.obj? "funding_model").any validFundingModel
    && (config.str? "forward_start_ts").any validForwardStart

end contract

section hash

def hashedFields (config : JsonObject) : JsonObject :=
  config.filter (fun f => f.1 ≠ "config_hash")

def configText (config : JsonObject) : String :=
  JsonValue.canonicalJsonDumps (.obj (hashedFields config))

/--
The hash of the config without its own `config_hash`.
-/
def configHash (config : JsonObject) : String :=
  String.ofList (Sha256.hexdigest (configText config))

/--
What `build_config` fills in before it adds the hash.
-/
def builtFields (forwardStartTs : String) (initialEquityUsd notionalUsd leverage feeBps slippageBps : ℚ)
    (barIntervalHours : ℤ) (maxBarStalenessHours heartbeatMaxAgeHours : ℚ) : JsonObject :=
  [("schema_version", .int schemaVersion),
    ("engine_version", .str expectedEngineVersion),
    ("baseline_label", .str baselineLabel),
    ("forward_start_ts", .str forwardStartTs),
    ("initial_equity_usd", .float initialEquityUsd),
    ("notional_usd", .float notionalUsd),
    ("leverage", .float leverage),
    ("fee_model", .obj [("type", .str "flat_taker"), ("fee_bps", .float feeBps)]),
    ("slippage_model", .obj [("type", .str "fixed"), ("slippage_bps", .float slippageBps)]),
    ("fill_model", .str fillModel),
    ("funding_model", .obj [("type", .str "accrual"), ("applied_as", .str "cash_flow")]),
    ("signal_source", .str signalSource),
    ("freshness", .obj [("bar_interval_hours", .int barIntervalHours),
      ("max_bar_staleness_hours", .float maxBarStalenessHours),
      ("heartbeat_max_age_hours", .float heartbeatMaxAgeHours)])]

def buildConfig (forwardStartTs : String) (initialEquityUsd notionalUsd leverage feeBps slippageBps : ℚ)
    (barIntervalHours : ℤ) (maxBarStalenessHours heartbeatMaxAgeHours : ℚ) : JsonObject :=
  let config := builtFields forwardStartTs initialEquityUsd notionalUsd leverage feeBps slippageBps
    barIntervalHours maxBarStalenessHours heartbeatMaxAgeHours
  config ++ [("config_hash", .str (configHash config))]

end hash

end Quantbot
