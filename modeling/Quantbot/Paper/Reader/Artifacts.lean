import Quantbot.Paper.Reader.Basic

/-!
The persisted artifacts of a paper run: what each of them must look like, and their readers.
-/

namespace Quantbot
namespace PaperReader

section ledgers

/--
`LEDGER_JSONL_SCHEMAS`
-/
structure LedgerSpec where
  required : List String
  numeric : List String := []
  nonneg : List String := []
  positive : List String := []
  nonnegInts : List String := []
  strings : List String := []
  timestamps : List String := []
  strLists : List String := []
  bools : List String := []
  enums : List (String × List String) := []

def LedgerSpec.rules (spec : LedgerSpec) : List (String × Rule) :=
  spec.numeric.map (·, Rule.numeric)
    ++ spec.nonneg.map (·, Rule.nonneg)
    ++ spec.positive.map (·, Rule.positive)
    ++ spec.nonnegInts.map (·, Rule.nonnegInt)
    ++ spec.strings.map (·, Rule.string)
    ++ spec.timestamps.map (·, Rule.timestamp)
    ++ spec.strLists.map (·, Rule.strList)
    ++ spec.bools.map (·, Rule.bool)
    ++ spec.enums.map (fun e => (e.1, Rule.enum e.2))

def fillsSpec : LedgerSpec where
  required := ["fill_id", "bar_commit_id", "signal_bar_ts", "fill_ts", "symbol", "side", "kind",
    "qty", "open_price", "fill_price", "slippage_bps", "fee", "backfill"]
  positive := ["qty", "open_price", "fill_price"]
  nonneg := ["slippage_bps", "fee"]
  strings := ["fill_id", "symbol"]
  timestamps := ["signal_bar_ts", "fill_ts"]
  bools := ["backfill"]
  enums := [("side", ["BUY", "SELL"]), ("kind", ["entry", "exit"])]

def tradesSpec : LedgerSpec where
  required := ["trade_id", "bar_commit_id", "symbol", "entry_fill_id", "exit_fill_id",
    "entry_bar_ts", "exit_bar_ts", "qty", "entry_price", "exit_price", "gross_pnl", "fees",
    "funding", "net_pnl", "hold_bars", "backfill"]
  positive := ["qty", "entry_price", "exit_price"]
  numeric := ["gross_pnl", "funding", "net_pnl"]
  nonneg := ["fees"]
  nonnegInts := ["hold_bars"]
  strings := ["trade_id", "symbol", "entry_fill_id", "exit_fill_id"]
  timestamps := ["entry_bar_ts", "exit_bar_ts"]
  bools := ["backfill"]

def fundingSpec : LedgerSpec where
  required := ["funding_id", "bar_ts", "bar_commit_id", "symbol", "window_start", "window_end",
    "notional_usd", "funding_rate", "funding_events", "rate_available", "funding_amount"]
  positive := ["notional_usd"]
  numeric := ["funding_rate", "funding_amount"]
  nonnegInts := ["funding_events"]
  strings := ["funding_id", "symbol"]
  timestamps := ["bar_ts", "window_start", "window_end"]
  bools := ["rate_available"]

def positionsSpec : LedgerSpec where
  required := ["bar_ts", "bar_commit_id", "open_symbols", "num_open", "gross_exposure_usd"]
  nonneg := ["gross_exposure_usd"]
  nonnegInts := ["num_open"]
  timestamps := ["bar_ts"]
  strLists := ["open_symbols"]

def equitySpec : LedgerSpec where
  required := ["bar_ts", "bar_commit_id", "realized_gross_pnl", "unrealized_pnl", "funding_cum",
    "fees_cum", "equity", "drawdown", "num_open"]
  numeric := ["realized_gross_pnl", "unrealized_pnl", "funding_cum", "fees_cum", "equity"]
  nonneg := ["drawdown"]
  nonnegInts := ["num_open"]
  timestamps := ["bar_ts"]

def signalSnapshotsSpec : LedgerSpec where
  required := ["snapshot_id", "bar_ts", "bar_commit_id", "bar_index", "active_symbols",
    "portfolio_heat", "heat_cap_triggered", "weighted_return", "source_observation_digest",
    "source_observation_mtime", "run_ts", "backfill"]
  numeric := ["portfolio_heat", "weighted_return", "source_observation_mtime"]
  nonnegInts := ["bar_index"]
  strings := ["snapshot_id", "source_observation_digest"]
  timestamps := ["bar_ts", "run_ts"]
  strLists := ["active_symbols"]
  bools := ["heat_cap_triggered", "backfill"]

def ledgerSpecs : List (String × LedgerSpec) := [
  ("paper_fills.jsonl", fillsSpec),
  ("paper_trades.jsonl", tradesSpec),
  ("paper_funding.jsonl", fundingSpec),
  ("paper_positions.jsonl", positionsSpec),
  ("paper_equity.jsonl", equitySpec),
  ("paper_signal_snapshots.jsonl", signalSnapshotsSpec)
]

/--
The checks of one row.
-/
def rowChecks (spec : LedgerSpec) (row : JsonObject) : List Check :=
  .guard "fields" (.ok (hasExactly spec.required row))
    :: spec.rules.map (fun f => .rule f.1 f.2 (get row f.1))

end ledgers

section summary

def knownSummaryStatuses : List String :=
  ["OK", "RUNNING", "ABORTED", "CONFIG_ERROR", "CORRUPT_LEDGER", "NO_ELIGIBLE_BARS_YET"]

def commonSummaryFields : List String :=
  ["schema_version", "status", "baseline_label", "forward_start_ts", "current_verdict",
    "disclaimer"]

def fieldsByStatus : List (String × List String) := [
  ("OK", ["baseline_note", "bars_elapsed", "closed_trades", "winrate", "realized_net_pnl",
    "total_pnl", "max_drawdown", "profit_factor", "expectancy", "open_positions", "num_open",
    "funding_gap", "funding_gap_count"]),
  ("RUNNING", ["run_id", "started_at", "phase", "previous_watermark"]),
  ("ABORTED", ["abort_code", "abort_reason", "aborted_at"]),
  ("CONFIG_ERROR", ["config_error", "detected_at"]),
  ("CORRUPT_LEDGER", ["detected_at", "reconcile_failures", "reconcile_failure_count"]),
  ("NO_ELIGIBLE_BARS_YET", ["reason", "checked_at", "bars_elapsed"])
]

def stringFieldsByStatus : List (String × List String) := [
  ("RUNNING", ["run_id", "phase"]),
  ("ABORTED", ["abort_code", "abort_reason"]),
  ("CONFIG_ERROR", ["config_error"]),
  ("NO_ELIGIBLE_BARS_YET", ["reason"])
]

def timestampFieldsByStatus : List (String × List String) := [
  ("RUNNING", ["started_at"]),
  ("ABORTED", ["aborted_at"]),
  ("CONFIG_ERROR", ["detected_at"]),
  ("CORRUPT_LEDGER", ["detected_at"]),
  ("NO_ELIGIBLE_BARS_YET", ["checked_at"])
]

def fieldsOf (table : List (String × List String)) (status : String) : List String :=
  (table.lookup status).getD []

variable (summary : JsonObject)

def ruleOf (r : Rule) (field : String) : Check :=
  .rule field r (get summary field)

/--
A run that could not load its config has no start and no watermark.
-/
def isPreflightConfigError (status : String) : Bool :=
  status = "RUNNING" && equalsStr "preflight_config_error" (get summary "phase")

def requiredSummaryFields (status : String) : List String :=
  let fields := commonSummaryFields ++ fieldsOf fieldsByStatus status
  if isPreflightConfigError summary status then
    fields.filter (fun f => f ≠ "previous_watermark")
  else
    fields

/--
`num_open == len(open_positions)`
-/
def numOpenAgrees : Except PyError Bool := do
  let n ← len (← item summary "open_positions")
  .ok ((← item summary "num_open").equalsInt n)

/--
`funding_gap == (funding_gap_count > 0)`
-/
def fundingGapAgrees : Except PyError Bool := do
  let gap ← item summary "funding_gap"
  let positive ← comparesToZero (fun q => 0 < q) (← item summary "funding_gap_count")
  match gap with
  | .bool b => .ok (b = positive)
  | _ => .ok false

def okChecks : List Check :=
  [ruleOf summary .string "baseline_note"]
    ++ ["closed_trades", "bars_elapsed", "num_open", "funding_gap_count"].map
      (ruleOf summary .nonnegInt)
    ++ ["realized_net_pnl", "total_pnl", "max_drawdown"].map (ruleOf summary .numeric)
    ++ ["winrate", "profit_factor", "expectancy"].map (ruleOf summary .nullOrNumeric)
    ++ [ruleOf summary .strList "open_positions",
      ruleOf summary .bool "funding_gap",
      Check.guard "num_open" (numOpenAgrees summary),
      Check.guard "funding_gap" (fundingGapAgrees summary)]

def failureCountAgrees : Bool :=
  strList (get summary "reconcile_failures")
    && match get summary "reconcile_failures" with
      | .arr failures =>
        !failures.isEmpty && nonnegInt (get summary "reconcile_failure_count")
          && (get summary "reconcile_failure_count").equalsInt failures.length
      | _ => false

/--
The set of known phases is asked with the phase itself.
-/
def phaseKnown : Except PyError Bool := do
  inSet ["preflight", "preflight_config_error"] (← item summary "phase")

def otherChecks (status : String) : List Check :=
  (fieldsOf stringFieldsByStatus status).map (ruleOf summary .string)
    ++ (fieldsOf timestampFieldsByStatus status).map (ruleOf summary .timestamp)
    ++ (if status = "RUNNING" then
        Check.guard "phase" (phaseKnown summary)
          :: ((summary.lookup "previous_watermark").map
            (Check.rule "previous_watermark" .emptyOrBarTs)).toList
      else if status = "CORRUPT_LEDGER" then
        [Check.guard "reconcile_failures" (.ok (failureCountAgrees summary))]
      else if status = "NO_ELIGIBLE_BARS_YET" then
        [ruleOf summary .nonnegInt "bars_elapsed"]
      else
        [])

def summaryChecks : List Check :=
  let status := (summary.str? "status").getD ""
  [ruleOf summary (.known knownSummaryStatuses) "status",
    Check.guard "schema_version" (.ok ((get summary "schema_version").strictInt = some schemaVersion)),
    ruleOf summary (.literal baselineLabel) "baseline_label",
    Check.guard "forward_start_ts" (.ok (isBarTs (get summary "forward_start_ts")
      || (isPreflightConfigError summary status
        && equalsStr "unknown" (get summary "forward_start_ts")))),
    Check.guard "fields" (.ok (hasExactly (requiredSummaryFields summary status) summary)),
    ruleOf summary .string "current_verdict",
    ruleOf summary .string "disclaimer"]
    ++ if status = "OK" then okChecks summary else otherChecks summary status

end summary

section state

def stateKeys : List String :=
  ["watermark_bar_ts", "open_positions", "accumulators", "peak_equity", "bars_elapsed"]

def stateAccumulatorKeys : List String :=
  ["realized_gross", "fees_cum", "funding_cum"]

def openPositionStrKeys : List String :=
  ["entry_fill_id", "entry_bar_ts", "entry_fill_ts"]

def openPositionNumKeys : List String :=
  ["entry_price", "qty", "funding_accrued", "entry_fee"]

/--
All fields of a position are tested before it is refused.
-/
def positionRules (pos : JsonObject) : List (Rule × JsonValue) :=
  openPositionStrKeys.map (fun k => (Rule.string, get pos k))
    ++ openPositionNumKeys.map (fun k => (Rule.numeric, get pos k))
    ++ ["entry_bar_ts", "entry_fill_ts"].map (fun k => (Rule.barTs, get pos k))
    ++ [(Rule.positive, get pos "entry_price"), (Rule.positive, get pos "qty"),
      (Rule.nonneg, get pos "entry_fee"), (Rule.nonnegInt, get pos "hold_bars")]

def fieldsOrNone (v : JsonValue) : JsonObject :=
  v.asObj.getD []

def positionChecks (p : String × JsonValue) : List Check :=
  let pos := fieldsOrNone p.2
  let keys := openPositionStrKeys ++ openPositionNumKeys ++ ["hold_bars"]
  [.guard "open_positions" (.ok (p.1 ≠ "" && p.2.asObj.isSome)),
    .every "open_positions" (positionRules pos) (hasExactly keys pos)]

def stateChecks (state : JsonObject) : List Check :=
  let accumulators := fieldsOrNone (get state "accumulators")
  [Check.guard "fields" (.ok (hasExactly stateKeys state)),
    Check.rule "watermark_bar_ts" .emptyOrBarTs (get state "watermark_bar_ts"),
    Check.guard "open_positions" (.ok (get state "open_positions").asObj.isSome)]
    ++ (fieldsOrNone (get state "open_positions")).flatMap positionChecks
    ++ [Check.guard "accumulators" (.ok (get state "accumulators").asObj.isSome)]
    ++ stateAccumulatorKeys.map (fun k => Check.rule "accumulators" .numeric (get accumulators k))
    ++ [Check.guard "accumulators" (.ok (hasExactly stateAccumulatorKeys accumulators)),
      Check.rule "peak_equity" .numeric (get state "peak_equity"),
      Check.rule "bars_elapsed" .nonnegInt (get state "bars_elapsed")]

end state

section config

/--
`isinstance(v, (int, float)) and math.isfinite(v) and v == 8`, booleans apart
-/
def isEight (v : JsonValue) : Except PyError Bool := do
  if isNumber v then
    if ← isfinite v then .ok (v.equalsInt 8) else .ok false
  else
    .ok false

def modelChecks (field type bps : String) (v : JsonValue) : List Check :=
  [.guard field (.ok (v.asObj.any (fun model => equalsStr type (get model "type")))),
    .rule bps .nonneg (get (fieldsOrNone v) bps)]

def configChecks (config : JsonObject) : List Check :=
  let freshness := fieldsOrNone (get config "freshness")
  [Check.guard "fields" (.ok (requiredConfigFields.all config.has)),
    Check.guard "schema_version" (.ok ((get config "schema_version").strictInt = some schemaVersion)),
    Check.rule "engine_version" (.literal expectedEngineVersion) (get config "engine_version"),
    Check.rule "baseline_label" (.literal baselineLabel) (get config "baseline_label"),
    Check.guard "freshness" (.ok (get config "freshness").asObj.isSome),
    Check.guard "freshness" (.ok (requiredFreshnessFields.all freshness.has))]
    ++ requiredFreshnessFields.map (fun f => Check.rule f .positive (get freshness f))
    ++ [Check.guard "bar_interval_hours" (isEight (get freshness "bar_interval_hours"))]
    ++ ((freshness.lookup "max_future_skew_hours").map
      (Check.rule "max_future_skew_hours" .nonneg)).toList
    ++ ["initial_equity_usd", "notional_usd", "leverage"].map
      (fun f => Check.rule f .positive (get config f))
    ++ modelChecks "fee_model" "flat_taker" "fee_bps" (get config "fee_model")
    ++ modelChecks "slippage_model" "fixed" "slippage_bps" (get config "slippage_model")
    ++ [Check.rule "fill_model" (.literal fillModel) (get config "fill_model"),
      Check.rule "signal_source" (.literal signalSource) (get config "signal_source"),
      Check.guard "funding_model" (.ok ((get config "funding_model").asObj.any validFundingModel)),
      Check.guard "forward_start_ts"
        (.ok ((get config "forward_start_ts").asStr.any validForwardStart))]

end config

section readers

variable (i : Json.Interpreter) (float : List Char → JsonValue)

def readJsonlValidated (buffer : ℕ) (artifact : String) (spec : LedgerSpec) (file : PaperFile)
    : Except ReadError (List JsonObject) := do
  let rows ← readJsonl i float buffer artifact file
  runChecks (.ledgerCorruption artifact) (rows.flatMap (rowChecks spec))
  .ok rows

def summaryName : String :=
  "paper_pnl_summary.json"

def stateName : String :=
  "paper_position_state.json"

/--
An object that passes its checks, or nothing when the file is absent.
-/
def readChecked (artifact : String) (checks : JsonObject → List Check) (file : PaperFile)
    : Except ReadError (Option JsonObject) := do
  match ← readJsonObj i float artifact file with
  | none => .ok none
  | some obj =>
    runChecks (.ledgerCorruption artifact) (checks obj)
    .ok (some obj)

/--
An absent summary is an empty dictionary.
-/
def readSummaryObj (file : PaperFile) : Except ReadError JsonObject := do
  let summary ← readChecked i float summaryName summaryChecks file
  .ok (summary.getD [])

def readStateObj (file : PaperFile) : Except ReadError (Option JsonObject) :=
  readChecked i float stateName stateChecks file

def readConfigText : PaperFile → Except ReadError JsonObject
  | .missing => .error (.configContract "not found")
  | .unreadable => .error (.configContract "could not be read")
  | .bytes data =>
    match Json.decodeUtf8 data with
    | none => .error (.configContract "not valid UTF-8")
    | some text => readObject i float .configContract text

def loadConfig (file : PaperFile) : Except ReadError JsonObject := do
  let config ← readConfigText i float file
  runChecks .configContract (configChecks config)
  if equalsStr (configHash config) (get config "config_hash") then
    .ok config
  else
    .error (.configContract "hash mismatch")

/--
The files of an output directory that `check_existing_ledgers` reads.
-/
structure OutputDir where
  ledger : String → PaperFile
  summaries : List PaperFile
  state : PaperFile

inductive Artifact where
  | ledger (name : String) (spec : LedgerSpec) (file : PaperFile)
  | summary (file : PaperFile)
  | state (file : PaperFile)

/--
In the order in which they are read.
-/
def OutputDir.artifacts (dir : OutputDir) : List Artifact :=
  ledgerSpecs.map (fun s => .ledger s.1 s.2 (dir.ledger s.1))
    ++ dir.summaries.map .summary
    ++ [.state dir.state]

/--
A `LedgerCorruptionError` becomes a failure, and any other exception goes on.
-/
def caught {α : Type} (x : Except ReadError α) : Except ReadError (List ReadError) :=
  match x with
  | .ok _ => .ok []
  | .error (.ledgerCorruption artifact fault) => .ok [.ledgerCorruption artifact fault]
  | .error e => .error e

def Artifact.read (buffer : ℕ) : Artifact → Except ReadError (List ReadError)
  | ledger name spec file => caught (readJsonlValidated i float buffer name spec file)
  | summary file => caught (readSummaryObj i float file)
  | state file => caught (readStateObj i float file)

/--
The first part of `check_existing_ledgers`, which reads every artifact before any is reconciled.
-/
def readExistingLedgers (buffer : ℕ) (dir : OutputDir) : Except ReadError (List ReadError) := do
  let failures ← dir.artifacts.mapM (Artifact.read i float buffer)
  .ok failures.flatten

end readers

end PaperReader
end Quantbot
