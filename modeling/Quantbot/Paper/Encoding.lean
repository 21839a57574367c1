import Quantbot.Paper.Provenance

/-!
The texts of the persisted artifacts.
-/

namespace Quantbot

def jsonlLine (row : List (String × String)) : String :=
  Json.object row ++ "\n"

def FillRow.jsonl (f : FillRow) : String :=
  jsonlLine [("backfill", Json.bool f.backfill), ("bar_commit_id", Json.quote f.barCommitId),
    ("fee", Json.float f.fee), ("fill_id", Json.quote f.fillId),
    ("fill_price", Json.float f.fillPrice), ("fill_ts", Json.quote f.fillTs),
    ("kind", Json.quote f.kind), ("open_price", Json.float f.openPrice),
    ("qty", Json.float f.qty), ("side", Json.quote f.side),
    ("signal_bar_ts", Json.quote f.signalBarTs), ("slippage_bps", Json.float f.slippageBps),
    ("symbol", Json.quote f.symbol)]

def TradeRow.jsonl (t : TradeRow) : String :=
  jsonlLine [("backfill", Json.bool t.backfill), ("bar_commit_id", Json.quote t.barCommitId),
    ("entry_bar_ts", Json.quote t.entryBarTs), ("entry_fill_id", Json.quote t.entryFillId),
    ("entry_price", Json.float t.entryPrice), ("exit_bar_ts", Json.quote t.exitBarTs),
    ("exit_fill_id", Json.quote t.exitFillId), ("exit_price", Json.float t.exitPrice),
    ("fees", Json.float t.fees), ("funding", Json.float t.funding),
    ("gross_pnl", Json.float t.grossPnl), ("hold_bars", Json.int t.holdBars),
    ("net_pnl", Json.float t.netPnl), ("qty", Json.float t.qty), ("symbol", Json.quote t.symbol),
    ("trade_id", Json.quote t.tradeId)]

def FundingRow.jsonl (f : FundingRow) : String :=
  jsonlLine [("bar_commit_id", Json.quote f.barCommitId), ("bar_ts", Json.quote f.barTs),
    ("funding_amount", Json.float f.fundingAmount), ("funding_events", Json.int f.fundingEvents),
    ("funding_id", Json.quote f.fundingId), ("funding_rate", Json.float f.fundingRate),
    ("notional_usd", Json.float f.notionalUsd), ("rate_available", Json.bool f.rateAvailable),
    ("symbol", Json.quote f.symbol), ("window_end", Json.quote f.windowEnd),
    ("window_start", Json.quote f.windowStart)]

def PositionsRow.jsonl (p : PositionsRow) : String :=
  jsonlLine [("bar_commit_id", Json.quote p.barCommitId), ("bar_ts", Json.quote p.barTs),
    ("gross_exposure_usd", Json.float p.grossExposureUsd), ("num_open", Json.int p.numOpen),
    ("open_symbols", Json.strings p.openSymbols)]

def EquityRow.jsonl (e : EquityRow) : String :=
  jsonlLine [("bar_commit_id", Json.quote e.barCommitId), ("bar_ts", Json.quote e.barTs),
    ("drawdown", Json.float e.drawdown), ("equity", Json.float e.equity),
    ("fees_cum", Json.float e.feesCum), ("funding_cum", Json.float e.fundingCum),
    ("num_open", Json.int e.numOpen), ("realized_gross_pnl", Json.float e.realizedGrossPnl),
    ("unrealized_pnl", Json.float e.unrealizedPnl)]

def SnapshotRow.jsonl (s : SnapshotRow) : String :=
  jsonlLine [("active_symbols", Json.strings s.activeSymbols), ("backfill", Json.bool s.backfill),
    ("bar_commit_id", Json.quote s.barCommitId), ("bar_index", Json.int s.barIndex),
    ("bar_ts", Json.quote s.barTs), ("heat_cap_triggered", Json.bool s.heatCapTriggered),
    ("portfolio_heat", Json.float s.portfolioHeat), ("run_ts", Json.quote s.runTs),
    ("snapshot_id", Json.quote s.snapshotId),
    ("source_observation_digest", Json.quote s.sourceObservationDigest),
    ("source_observation_mtime", Json.nullable Json.float s.sourceObservationMtime),
    ("weighted_return", Json.float s.weightedReturn)]

def jsonl {α : Type} (line : α → String) (rows : List α) : String :=
  String.join (rows.map line)

def Position.json (pos : Position) : String :=
  Json.objectBlock 2 [("entry_bar_ts", Json.quote pos.entryBarTs),
    ("entry_fee", Json.float pos.entryFee), ("entry_fill_id", Json.quote pos.entryFillId),
    ("entry_fill_ts", Json.quote pos.entryFillTs), ("entry_price", Json.float pos.entryPrice),
    ("funding_accrued", Json.float pos.fundingAccrued), ("hold_bars", Json.int pos.holdBars),
    ("qty", Json.float pos.qty)]

def EngineState.json (state : EngineState) : String :=
  Json.objectBlock 0 [
    ("accumulators", Json.objectBlock 1 [("fees_cum", Json.float state.accumulators.feesCum),
      ("funding_cum", Json.float state.accumulators.fundingCum),
      ("realized_gross", Json.float state.accumulators.realizedGross)]),
    ("bars_elapsed", Json.int state.barsElapsed),
    ("open_positions", Json.objectBlock 1
      (state.openPositions.toList.map (fun p => (p.1, p.2.json)))),
    ("peak_equity", Json.nullable Json.float state.peakEquity),
    ("watermark_bar_ts", Json.nullable Json.quote state.watermarkBarTs)] ++ "\n"

section texts

-- the message of a failure; its numbers are formatted as the checks report them
variable (failureText : Failure → String)

def SummaryStatus.json : SummaryStatus → List (String × String)
  | .ok o => [("bars_elapsed", Json.int o.barsElapsed),
    ("baseline_note", Json.quote o.baselineNote), ("closed_trades", Json.int o.closedTrades),
    ("expectancy", Json.nullable Json.float o.expectancy),
    ("funding_gap", Json.bool o.fundingGap), ("funding_gap_count", Json.int o.fundingGapCount),
    ("max_drawdown", Json.float o.maxDrawdown), ("num_open", Json.int o.numOpen),
    ("open_positions", Json.stringsBlock 1 o.openPositions),
    ("profit_factor", Json.nullable Json.float o.profitFactor),
    ("realized_net_pnl", Json.float o.realizedNetPnl), ("status", Json.quote "OK"),
    ("total_pnl", Json.float o.totalPnl), ("winrate", Json.nullable Json.float o.winrate)]
  | .running runId startedAt phase previousWatermark => [("phase", Json.quote phase)]
    ++ (previousWatermark.map (fun wm => ("previous_watermark", Json.quote wm))).toList
    ++ [("run_id", Json.quote runId), ("started_at", Json.quote startedAt),
      ("status", Json.quote "RUNNING")]
  | .aborted code reason abortedAt => [("abort_code", Json.quote code),
    ("abort_reason", Json.quote reason), ("aborted_at", Json.quote abortedAt),
    ("status", Json.quote "ABORTED")]
  | .configError reason detectedAt => [("config_error", Json.quote reason),
    ("detected_at", Json.quote detectedAt), ("status", Json.quote "CONFIG_ERROR")]
  | .corruptLedger detectedAt failures count => [("detected_at", Json.quote detectedAt),
    ("reconcile_failure_count", Json.int count),
    ("reconcile_failures", Json.stringsBlock 1 (failures.map failureText)),
    ("status", Json.quote "CORRUPT_LEDGER")]
  | .noEligibleBarsYet reason checkedAt barsElapsed => [("bars_elapsed", Json.int barsElapsed),
    ("checked_at", Json.quote checkedAt), ("reason", Json.quote reason),
    ("status", Json.quote "NO_ELIGIBLE_BARS_YET")]

def keyLe (a b : String × String) : Prop :=
  a.1 ≤ b.1

instance : DecidableRel keyLe :=
  fun a b => inferInstanceAs (Decidable (a.1 ≤ b.1))

def Summary.json (s : Summary) : String :=
  let common := [("baseline_label", Json.quote s.baselineLabel),
    ("current_verdict", Json.quote s.currentVerdict), ("disclaimer", Json.quote s.disclaimer),
    ("forward_start_ts", Json.quote s.forwardStartTs),
    ("schema_version", Json.int s.schemaVersion)]
  Json.objectBlock 0 ((common ++ s.status.json failureText).insertionSort keyLe) ++ "\n"

/--
`build_config` with its default amounts around the fields the accounting reads.
-/
def PaperConfig.json (cfg : PaperConfig) : String :=
  Json.objectBlock 0 [("baseline_label", Json.quote baselineLabel),
    ("config_hash", Json.quote cfg.configHash), ("engine_version", Json.quote cfg.engineVersion),
    ("fee_model", Json.objectBlock 1 [("fee_bps", Json.float cfg.feeBps),
      ("type", Json.quote "flat_taker")]),
    ("fill_model", Json.quote "next_bar_open_pessimistic"),
    ("forward_start_ts", Json.quote cfg.forwardStartTs),
    ("freshness", Json.objectBlock 1 [("bar_interval_hours", Json.int cfg.barIntervalHours),
      ("heartbeat_max_age_hours", Json.float 24), ("max_bar_staleness_hours", Json.float 24)]),
    ("funding_model", Json.objectBlock 1 [("applied_as", Json.quote "cash_flow"),
      ("type", Json.quote "accrual")]),
    ("initial_equity_usd", Json.float cfg.initialEquityUsd), ("leverage", Json.float 1),
    ("notional_usd", Json.float cfg.notionalUsd), ("schema_version", Json.int schemaVersion),
    ("signal_source", Json.quote "observation_log.json:per_bar_obs"),
    ("slippage_model", Json.objectBlock 1 [("slippage_bps", Json.float cfg.slippageBps),
      ("type", Json.quote "fixed")])] ++ "\n"

/--
A share as a percentage with one decimal.
-/
def percent (q : ℚ) : String :=
  Json.decimal (roundDp 1 (100 * q)) ++ "%"

/--
The `repr` of a list of symbols.
-/
def symbolsRepr (symbols : List String) : String :=
  "[" ++ ", ".intercalate (symbols.map (fun s => "'" ++ s ++ "'")) ++ "]"

def optionRepr (o : Option ℚ) : String :=
  (o.map Json.float).getD "None"

def okReceiptLines (s : Summary) (o : OkSummary) (lastTrades : List TradeRow) (fundingGaps : ℕ)
    (deferredBarTs : Option String) (generatedAt : String) : List String :=
  let flags :=
    failIf (0 < fundingGaps) (toString fundingGaps
        ++ " funding accrual(s) had no rate available (flagged, not zeroed silently).")
      ++ (deferredBarTs.map (fun ts => "Latest bar " ++ ts
        ++ " deferred — T+1 open not yet available (expected for the newest bar).")).toList
      ++ failIf (o.closedTrades = 0)
        "No closed trades yet; performance metrics are not meaningful."
  ["# Paper PnL v1 — Receipt", "", "> **" ++ s.disclaimer ++ "**", "",
    "- Baseline: `" ++ s.baselineLabel ++ "` (fixed-notional active-symbol baseline — NOT V2 "
      ++ "volnorm live/PnL approval)",
    "- Generated (UTC): " ++ generatedAt,
    "- forward_start_ts: " ++ s.forwardStartTs,
    "- Bars elapsed (forward): " ++ toString o.barsElapsed,
    "- Open positions: " ++ toString o.numOpen ++ " " ++ symbolsRepr o.openPositions,
    "- Closed trades: " ++ toString o.closedTrades,
    "- Winrate: " ++ (o.winrate.map percent).getD "null (no closed trades)",
    "- Realized net PnL: " ++ Json.float o.realizedNetPnl,
    "- Total PnL (incl. unrealized): " ++ Json.float o.totalPnl,
    "- Max drawdown: " ++ Json.float o.maxDrawdown,
    "- Profit factor: " ++ optionRepr o.profitFactor,
    "- Expectancy: " ++ optionRepr o.expectancy,
    "- Current verdict: " ++ s.currentVerdict, "", "## Last closed trades"]
    ++ (if lastTrades = [] then
      ["_None yet._"]
    else
      ["| symbol | entry_bar_ts | exit_bar_ts | net_pnl | hold_bars |",
        "| --- | --- | --- | --- | --- |"]
        ++ lastTrades.map (fun t => "| " ++ t.symbol ++ " | " ++ t.entryBarTs ++ " | "
          ++ t.exitBarTs ++ " | " ++ Json.float t.netPnl ++ " | " ++ toString t.holdBars ++ " |"))
    ++ ["", "## Red flags"]
    ++ (if flags = [] then ["None."] else flags).map (fun f => "- " ++ f)
    ++ [""]

def Receipt.lines : Receipt → List String
  | .ok s lastTrades fundingGaps deferredBarTs generatedAt =>
    match s.status with
    | .ok o => okReceiptLines s o lastTrades fundingGaps deferredBarTs generatedAt
    | _ => []
  | .aborted s code reason =>
    let abortedAt := match s.status with
      | .aborted _ _ abortedAt => abortedAt
      | _ => ""
    ["# Paper PnL v1 — Receipt (ABORTED)", "", "> **" ++ s.disclaimer ++ "**", "",
      "## 🛑 RUN ABORTED — " ++ code, "", "- Aborted (UTC): " ++ abortedAt, "- Reason: " ++ reason,
      "- forward_start_ts: " ++ s.forwardStartTs,
      "- No fills/trades/equity/positions/funding/snapshot rows were written this run.",
      "- The observer output was stale, missing, malformed, or diverged from a frozen "
        ++ "snapshot. This was NOT treated as a FLAT result.", ""]
  | .corrupt s failures =>
    let detectedAt := match s.status with
      | .corruptLedger detectedAt _ _ => detectedAt
      | _ => ""
    ["# Paper PnL v1 — Receipt (CORRUPT_LEDGER)", "", "> **" ++ s.disclaimer ++ "**", "",
      "## 🛑 RUN FAILED CLOSED — CORRUPT_LEDGER", "", "- Detected (UTC): " ++ detectedAt,
      "- forward_start_ts: " ++ s.forwardStartTs,
      "- Reconcile failures: " ++ toString failures.length,
      "- The position state/watermark was NOT advanced and NO OK summary was published.",
      "- Existing partial/corrupt ledger rows were NOT silently normalized into an OK or "
        ++ "FLAT result.", "", "### Reconcile failures"]
      ++ failures.map (fun f => "- " ++ failureText f) ++ [""]
  | .noEligible s reason =>
    let checkedAt := match s.status with
      | .noEligibleBarsYet _ checkedAt _ => checkedAt
      | _ => ""
    ["# Paper PnL v1 — Receipt (NO_ELIGIBLE_BARS_YET)", "", "> **" ++ s.disclaimer ++ "**", "",
      "## ⏳ NO ELIGIBLE BARS YET — controlled no-op", "", "- Checked (UTC): " ++ checkedAt,
      "- forward_start_ts: " ++ s.forwardStartTs, "- " ++ reason,
      "- No fills/trades/equity/positions/funding/snapshot rows were written, and the "
        ++ "position state/watermark was NOT created or mutated.",
      "- This is NOT a FLAT/zero accounting result; no bar has reached forward_start_ts "
        ++ "yet.", ""]

def Artifact.text : Artifact → String
  | .config c => c.json
  | .fills rows => jsonl FillRow.jsonl rows
  | .positions rows => jsonl PositionsRow.jsonl rows
  | .trades rows => jsonl TradeRow.jsonl rows
  | .equity rows => jsonl EquityRow.jsonl rows
  | .funding rows => jsonl FundingRow.jsonl rows
  | .snapshots rows => jsonl SnapshotRow.jsonl rows
  | .state engineState => engineState.json
  | .summary s => s.json failureText
  | .receipt r => "\n".intercalate (r.lines failureText)

end texts

end Quantbot
