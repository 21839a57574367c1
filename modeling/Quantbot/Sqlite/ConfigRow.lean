import Quantbot.Paper.ConfigContract
import Quantbot.Sqlite.State

/-!
The `paper_config` row of the SQLite ledger: how the two initializers flatten a config into it, and
how the hash check and the accounting run read it back.
-/

namespace Quantbot
namespace Sqlite

/--
A float as Python and a `REAL` column have it.
-/
inductive PyFloat where
  | finite (q : ℚ)
  | infinity (negative : Bool)
  | nan
deriving DecidableEq

def PyFloat.json : PyFloat → JsonValue
  | finite q => .float q
  | infinity negative => .infinity negative
  | nan => .nan

/--
What `float` and `int` read from a text.
-/
structure Literals where
  float : String → Option PyFloat
  int : String → Option ℤ

section conversions

variable (literals : Literals)

/--
`float(v)`.
-/
def toFloat : JsonValue → Option PyFloat
  | .bool b => some (.finite (if b then 1 else 0))
  | .int n => (floatOfInt n).map .finite
  | .float q => some (.finite q)
  | .nan => some .nan
  | .infinity negative => some (.infinity negative)
  | .str s => literals.float s
  | .null => none
  | .arr _ => none
  | .obj _ => none

def fitsInt64 (n : ℤ) : Bool :=
  -2 ^ 63 ≤ n ∧ n < 2 ^ 63

/--
Towards zero.
-/
def truncate (q : ℚ) : ℤ :=
  if 0 ≤ q then ⌊q⌋ else ⌈q⌉

/--
`int(v)`, bound to an `INTEGER` column.
-/
def toInteger : JsonValue → Option ℤ
  | .bool b => some (if b then 1 else 0)
  | .int n => if fitsInt64 n then some n else none
  | .float q => if fitsInt64 (truncate q) then some (truncate q) else none
  | .str s => (literals.int s).bind (fun n => if fitsInt64 n then some n else none)
  | _ => none

/--
`int(v)`, bound to a `REAL` column.
-/
def toWholeReal : JsonValue → Option PyFloat
  | .float q =>
    -- from here on a float is a whole number and comes back as it went in
    if 2 ^ 53 ≤ |q| then
      if fitsInt64 (truncate q) then some (.finite q) else none
    else
      some (.finite (truncate q))
  | v => (toInteger literals v).bind (fun n => (floatOfInt n).map .finite)

/--
SQLite stores a NaN as NULL, which the column refuses.
-/
def notNull : PyFloat → Option PyFloat
  | .nan => none
  | x => some x

def realColumn (config : JsonObject) (key : String) (default : ℚ) : Option PyFloat :=
  (toFloat literals ((config.lookup key).getD (.float default))).bind notNull

end conversions

structure LaneColumns where
  laneId : String
  strategyId : String
  strategyVersion : String
  configHashV2 : String
deriving DecidableEq

structure ConfigRow where
  dbSchemaVersion : ℤ
  paperContractVersion : ℤ
  paperEngineVersion : String
  baselineLabel : String
  forwardStartTs : String
  initialEquityUsd : PyFloat
  notionalUsd : PyFloat
  leverage : PyFloat
  feeType : String
  feeBps : PyFloat
  slippageType : String
  slippageBps : PyFloat
  fundingType : String
  fundingAppliedAs : String
  fillModel : String
  signalSource : String
  freshnessBarIntervalHours : ℤ
  freshnessMaxBarStalenessHours : PyFloat
  freshnessHeartbeatMaxAgeHours : PyFloat
  createdAt : String
  configHash : String
  lane : Option LaneColumns
deriving DecidableEq

section insert

variable (literals : Literals)

def dbSchemaVersion : ℤ := 1

/--
The row both initializers insert. The contract has fixed the types of all fields but the fee and the
slippage, which are looked up beside their models.
-/
def insertedRow (defaultLabel : String) (lane : Option LaneColumns) (now : String)
    (config : JsonObject) : Option ConfigRow := do
  let feeModel := (config.obj? "fee_model").getD []
  let slippageModel := (config.obj? "slippage_model").getD []
  let fundingModel := (config.obj? "funding_model").getD []
  let freshness := (config.obj? "freshness").getD []
  return {
    dbSchemaVersion := dbSchemaVersion
    paperContractVersion := (config.strictInt? "schema_version").getD dbSchemaVersion
    paperEngineVersion := expectedEngineVersion
    baselineLabel := (config.str? "baseline_label").getD defaultLabel
    forwardStartTs := ← config.str? "forward_start_ts"
    initialEquityUsd := ← realColumn literals config "initial_equity_usd" 10000
    notionalUsd := ← realColumn literals config "notional_usd" 1000
    leverage := ← realColumn literals config "leverage" 1
    feeType := (feeModel.str? "type").getD "flat_taker"
    feeBps := ← realColumn literals config "fee_bps" 5
    slippageType := (slippageModel.str? "type").getD "fixed"
    slippageBps := ← realColumn literals config "slippage_bps" 5
    fundingType := (fundingModel.str? "type").getD "accrual"
    fundingAppliedAs := (fundingModel.str? "applied_as").getD "cash_flow"
    fillModel := (config.str? "fill_model").getD "next_bar_open_pessimistic"
    signalSource := (config.str? "signal_source").getD "observation_log.json:per_bar_obs"
    freshnessBarIntervalHours :=
      ← toInteger literals ((freshness.lookup "bar_interval_hours").getD (.int 8))
    freshnessMaxBarStalenessHours :=
      ← toWholeReal literals ((freshness.lookup "max_bar_staleness_hours").getD (.int 24))
    freshnessHeartbeatMaxAgeHours :=
      ← toWholeReal literals ((freshness.lookup "heartbeat_max_age_hours").getD (.int 24))
    createdAt := now
    configHash := configHash config
    lane := lane
  }

def initializeDatabase (now : String) (config : JsonObject) : Option ConfigRow :=
  insertedRow literals "paper_pnl_v1" none now config

structure LaneIdentity where
  laneId : String
  strategyId : String
  strategyVersion : String
deriving DecidableEq

def configHashV2 (accountingConfigHashV1 : String) (identity : LaneIdentity) : String :=
  String.ofList (Sha256.hexdigest (JsonValue.canonicalJsonDumps (.obj [
    ("config_hash_version", .int 2),
    ("accounting_config_hash_v1", .str accountingConfigHashV1),
    ("lane_identity", .obj [
      ("lane_id", .str identity.laneId),
      ("strategy_id", .str identity.strategyId),
      ("strategy_version", .str identity.strategyVersion)])])))

def initializeLaneDatabase (identity : LaneIdentity) (now : String) (config : JsonObject)
    : Option ConfigRow :=
  let lane := {
    laneId := identity.laneId
    strategyId := identity.strategyId
    strategyVersion := identity.strategyVersion
    configHashV2 := configHashV2 (configHash config) identity
  }
  insertedRow literals Quantbot.baselineLabel (some lane) now config

end insert

section read

/--
The nested config that `config_hash_from_row` rebuilds.
-/
def ConfigRow.config (row : ConfigRow) : JsonObject :=
  [("schema_version", .int row.paperContractVersion),
    ("engine_version", .str row.paperEngineVersion),
    ("baseline_label", .str row.baselineLabel),
    ("forward_start_ts", .str row.forwardStartTs),
    ("initial_equity_usd", row.initialEquityUsd.json),
    ("notional_usd", row.notionalUsd.json),
    ("leverage", row.leverage.json),
    ("fee_model", .obj [("type", .str row.feeType), ("fee_bps", row.feeBps.json)]),
    ("slippage_model", .obj [("type", .str row.slippageType),
      ("slippage_bps", row.slippageBps.json)]),
    ("funding_model", .obj [("type", .str row.fundingType),
      ("applied_as", .str row.fundingAppliedAs)]),
    ("fill_model", .str row.fillModel),
    ("signal_source", .str row.signalSource),
    ("freshness", .obj [("bar_interval_hours", .int row.freshnessBarIntervalHours),
      ("max_bar_staleness_hours", row.freshnessMaxBarStalenessHours.json),
      ("heartbeat_max_age_hours", row.freshnessHeartbeatMaxAgeHours.json)])]

def configHashFromRow (row : ConfigRow) : String :=
  configHash row.config

/--
The economics of the `engine_config` that the accounting run builds from the row.
-/
structure EngineConfig where
  forwardStartTs : String
  initialEquityUsd : PyFloat
  notionalUsd : PyFloat
  leverage : PyFloat
  feeBps : PyFloat
  slippageBps : PyFloat
  fundingType : String
  fundingAppliedAs : String
  fillModel : String
  signalSource : String
  engineVersion : String
  configHash : String
deriving DecidableEq

def ConfigRow.engineConfig (row : ConfigRow) : EngineConfig where
  forwardStartTs := row.forwardStartTs
  initialEquityUsd := row.initialEquityUsd
  notionalUsd := row.notionalUsd
  leverage := row.leverage
  feeBps := row.feeBps
  slippageBps := row.slippageBps
  fundingType := row.fundingType
  fundingAppliedAs := row.fundingAppliedAs
  fillModel := row.fillModel
  signalSource := row.signalSource
  engineVersion := expectedEngineVersion
  configHash := row.configHash

end read

end Sqlite
end Quantbot
