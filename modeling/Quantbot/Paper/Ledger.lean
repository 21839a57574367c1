import Quantbot.Paper.Engine.Run
import Quantbot.Paper.Failure
import Quantbot.Util.Checks
import Quantbot.Paper.Timestamp.Iso

/-!
Shapes of the persisted artifacts. Presence and types of the fields are those of the row types; what
is left of the schemas are the checks on values.
-/

namespace Quantbot

/--
The value checks of one row, field by field, in the order the reader makes them.
-/
structure RowChecks where
  numeric : List (String × Option ℚ) := []
  nonneg : List (String × ℚ) := []
  positive : List (String × ℚ) := []
  nonnegInts : List (String × ℤ) := []
  strings : List (String × String) := []
  timestamps : List (String × String) := []
  strLists : List (String × List String) := []
  enums : List (String × String × List String) := []

def RowChecks.badFields (c : RowChecks) : List String :=
  (c.numeric.filter (fun f => f.2.isNone)).map Prod.fst
    ++ (c.nonneg.filter (fun f => f.2 < 0)).map Prod.fst
    ++ (c.positive.filter (fun f => f.2 ≤ 0)).map Prod.fst
    ++ (c.nonnegInts.filter (fun f => f.2 < 0)).map Prod.fst
    ++ (c.strings.filter (fun f => f.2 = "")).map Prod.fst
    ++ (c.timestamps.filter (fun f => !parseableTimestamp f.2)).map Prod.fst
    ++ (c.strLists.filter (fun f => "" ∈ f.2)).map Prod.fst
    ++ (c.enums.filter (fun f => f.2.1 ∉ f.2.2)).map Prod.fst

def FillRow.checks (f : FillRow) : RowChecks where
  positive := [("qty", f.qty), ("open_price", f.openPrice), ("fill_price", f.fillPrice)]
  nonneg := [("slippage_bps", f.slippageBps), ("fee", f.fee)]
  strings := [("fill_id", f.fillId), ("symbol", f.symbol)]
  timestamps := [("signal_bar_ts", f.signalBarTs), ("fill_ts", f.fillTs)]
  enums := [("side", f.side, ["BUY", "SELL"]), ("kind", f.kind, ["entry", "exit"])]

def TradeRow.checks (t : TradeRow) : RowChecks where
  positive := [("qty", t.qty), ("entry_price", t.entryPrice), ("exit_price", t.exitPrice)]
  nonneg := [("fees", t.fees)]
  nonnegInts := [("hold_bars", t.holdBars)]
  strings := [("trade_id", t.tradeId), ("symbol", t.symbol), ("entry_fill_id", t.entryFillId),
    ("exit_fill_id", t.exitFillId)]
  timestamps := [("entry_bar_ts", t.entryBarTs), ("exit_bar_ts", t.exitBarTs)]

def FundingRow.checks (f : FundingRow) : RowChecks where
  positive := [("notional_usd", f.notionalUsd)]
  nonnegInts := [("funding_events", f.fundingEvents)]
  strings := [("funding_id", f.fundingId), ("symbol", f.symbol)]
  timestamps := [("bar_ts", f.barTs), ("window_start", f.windowStart), ("window_end", f.windowEnd)]

def PositionsRow.checks (p : PositionsRow) : RowChecks where
  nonneg := [("gross_exposure_usd", p.grossExposureUsd)]
  nonnegInts := [("num_open", p.numOpen)]
  timestamps := [("bar_ts", p.barTs)]
  strLists := [("open_symbols", p.openSymbols)]

def EquityRow.checks (e : EquityRow) : RowChecks where
  nonneg := [("drawdown", e.drawdown)]
  nonnegInts := [("num_open", e.numOpen)]
  timestamps := [("bar_ts", e.barTs)]

def SnapshotRow.checks (s : SnapshotRow) : RowChecks where
  numeric := [("source_observation_mtime", s.sourceObservationMtime)]
  nonnegInts := [("bar_index", s.barIndex)]
  strings := [("snapshot_id", s.snapshotId),
    ("source_observation_digest", s.sourceObservationDigest)]
  timestamps := [("bar_ts", s.barTs), ("run_ts", s.runTs)]
  strLists := [("active_symbols", s.activeSymbols)]

section badFields

theorem FillRow.badFields_eq_nil {f : FillRow}
    : f.checks.badFields = []
        ↔ 0 ≤ f.slippageBps ∧ 0 ≤ f.fee ∧ 0 < f.qty ∧ 0 < f.openPrice ∧ 0 < f.fillPrice
          ∧ f.fillId ≠ "" ∧ f.symbol ≠ ""
          ∧ parseableTimestamp f.signalBarTs ∧ parseableTimestamp f.fillTs
          ∧ f.side ∈ ["BUY", "SELL"] ∧ f.kind ∈ ["entry", "exit"] := by
  simp only [RowChecks.badFields, FillRow.checks, List.append_eq_nil_iff, List.map_eq_nil_iff,
    List.filter_eq_nil_iff, List.forall_mem_cons, List.not_mem_nil, false_imp_iff, implies_true,
    and_true, true_and, decide_eq_true_eq, not_lt, not_le, Bool.not_eq_true', Bool.not_eq_false,
    not_not, and_assoc, ne_eq]

theorem TradeRow.badFields_eq_nil {t : TradeRow}
    : t.checks.badFields = []
        ↔ 0 ≤ t.fees ∧ 0 < t.qty ∧ 0 < t.entryPrice ∧ 0 < t.exitPrice ∧ 0 ≤ t.holdBars
          ∧ t.tradeId ≠ "" ∧ t.symbol ≠ "" ∧ t.entryFillId ≠ "" ∧ t.exitFillId ≠ ""
          ∧ parseableTimestamp t.entryBarTs ∧ parseableTimestamp t.exitBarTs := by
  simp only [RowChecks.badFields, TradeRow.checks, List.append_eq_nil_iff, List.map_eq_nil_iff,
    List.filter_eq_nil_iff, List.forall_mem_cons, List.not_mem_nil, false_imp_iff, implies_true,
    and_true, true_and, decide_eq_true_eq, not_lt, not_le, Bool.not_eq_true', Bool.not_eq_false,
    not_not, and_assoc, ne_eq]

theorem FundingRow.badFields_eq_nil {f : FundingRow}
    : f.checks.badFields = []
        ↔ 0 < f.notionalUsd ∧ 0 ≤ f.fundingEvents ∧ f.fundingId ≠ "" ∧ f.symbol ≠ ""
          ∧ parseableTimestamp f.barTs ∧ parseableTimestamp f.windowStart
          ∧ parseableTimestamp f.windowEnd := by
  simp only [RowChecks.badFields, FundingRow.checks, List.append_eq_nil_iff, List.map_eq_nil_iff,
    List.filter_eq_nil_iff, List.forall_mem_cons, List.not_mem_nil, false_imp_iff, implies_true,
    and_true, true_and, decide_eq_true_eq, not_lt, not_le, Bool.not_eq_true', Bool.not_eq_false,
    not_not, and_assoc, ne_eq]

theorem PositionsRow.badFields_eq_nil {p : PositionsRow}
    : p.checks.badFields = []
        ↔ 0 ≤ p.grossExposureUsd ∧ 0 ≤ p.numOpen ∧ parseableTimestamp p.barTs
          ∧ "" ∉ p.openSymbols := by
  simp only [RowChecks.badFields, PositionsRow.checks, List.append_eq_nil_iff, List.map_eq_nil_iff,
    List.filter_eq_nil_iff, List.forall_mem_cons, List.not_mem_nil, false_imp_iff, implies_true,
    and_true, true_and, decide_eq_true_eq, not_lt, not_le, Bool.not_eq_true', Bool.not_eq_false,
    not_not, and_assoc, ne_eq]

theorem EquityRow.badFields_eq_nil {e : EquityRow}
    : e.checks.badFields = []
        ↔ 0 ≤ e.drawdown ∧ 0 ≤ e.numOpen ∧ parseableTimestamp e.barTs := by
  simp only [RowChecks.badFields, EquityRow.checks, List.append_eq_nil_iff, List.map_eq_nil_iff,
    List.filter_eq_nil_iff, List.forall_mem_cons, List.not_mem_nil, false_imp_iff, implies_true,
    and_true, true_and, decide_eq_true_eq, not_lt, not_le, Bool.not_eq_true', Bool.not_eq_false,
    not_not, and_assoc, ne_eq]

end badFields

/--
The first row that fails its checks, by its number from 1.
-/
def malformedRow {α : Type} (file : String) (checks : α → RowChecks) (rows : List α)
    : Option Failure :=
  (rows.zipIdx 1).findSome? (fun r =>
    (checks r.1).badFields.head?.map (fun field => .malformedRow file r.2 field))

theorem malformedRow_eq_none {α : Type} {file : String} {checks : α → RowChecks} {rows : List α}
    : malformedRow file checks rows = none ↔ ∀ r ∈ rows, (checks r).badFields = [] := by
  unfold malformedRow
  rw [List.findSome?_eq_none_iff]
  simp only [Option.map_eq_none_iff, List.head?_eq_none_iff, Prod.forall]
  constructor
  . intro h r hr
    obtain ⟨i, hi, rfl⟩ := List.getElem_of_mem hr
    apply h _ (1 + i)
    rw [List.mk_mem_zipIdx_iff_le_and_getElem?_sub]
    simp [hi]
  . intro h r i hri
    apply h
    exact List.fst_mem_of_mem_zipIdx hri

namespace Ledgers

def readFills (l : Ledgers) : Option Failure :=
  malformedRow "paper_fills.jsonl" FillRow.checks l.fills

def readTrades (l : Ledgers) : Option Failure :=
  malformedRow "paper_trades.jsonl" TradeRow.checks l.trades

def readFunding (l : Ledgers) : Option Failure :=
  malformedRow "paper_funding.jsonl" FundingRow.checks l.funding

def readPositions (l : Ledgers) : Option Failure :=
  malformedRow "paper_positions.jsonl" PositionsRow.checks l.positions

def readEquity (l : Ledgers) : Option Failure :=
  malformedRow "paper_equity.jsonl" EquityRow.checks l.equity

def readSnapshots (l : Ledgers) : Option Failure :=
  malformedRow "paper_signal_snapshots.jsonl" SnapshotRow.checks l.snapshots

/--
The files in the order of the schema table.
-/
def reads (l : Ledgers) : List (Option Failure) :=
  [l.readFills, l.readTrades, l.readFunding, l.readPositions, l.readEquity, l.readSnapshots]

end Ledgers

def schemaVersion : ℤ := 1

def baselineLabel : String :=
  "fixed_notional_active_symbols_paper_v1"

structure OkSummary where
  baselineNote : String
  barsElapsed : ℤ
  closedTrades : ℤ
  winrate : Option ℚ
  realizedNetPnl : ℚ
  totalPnl : ℚ
  maxDrawdown : ℚ
  profitFactor : Option ℚ
  expectancy : Option ℚ
  openPositions : List String
  numOpen : ℤ
  fundingGap : Bool
  fundingGapCount : ℤ
deriving DecidableEq

/--
The status of a summary with the fields that go with it.
-/
inductive SummaryStatus where
  | ok (s : OkSummary)
  | running (runId startedAt phase : String) (previousWatermark : Option String)
  | aborted (abortCode abortReason abortedAt : String)
  | configError (configError detectedAt : String)
  | corruptLedger (detectedAt : String) (failures : List Failure) (count : ℤ)
  | noEligibleBarsYet (reason checkedAt : String) (barsElapsed : ℤ)
deriving DecidableEq

structure Summary where
  schemaVersion : ℤ
  status : SummaryStatus
  baselineLabel : String
  forwardStartTs : String
  currentVerdict : String
  disclaimer : String
deriving DecidableEq

namespace Summary

def isOk (s : Summary) : Bool :=
  match s.status with
  | .ok _ => true
  | _ => false

def closedTrades (s : Summary) : ℤ :=
  match s.status with
  | .ok s => s.closedTrades
  | _ => 0

def winrate (s : Summary) : Option ℚ :=
  match s.status with
  | .ok s => s.winrate
  | _ => none

end Summary

def parseableBarTs (ts : String) : Bool :=
  (parseBarUtc ts).isOk

def OkSummary.badFields (s : OkSummary) : List String :=
  failIf (s.baselineNote = "") "baseline_note"
    ++ failIf (s.closedTrades < 0) "closed_trades"
    ++ failIf (s.barsElapsed < 0) "bars_elapsed"
    ++ failIf (s.numOpen < 0) "num_open"
    ++ failIf (s.fundingGapCount < 0) "funding_gap_count"
    ++ failIf ("" ∈ s.openPositions) "open_positions"
    ++ failIf ((s.openPositions.length : ℤ) ≠ s.numOpen) "num_open"
    ++ failIf (s.fundingGap ≠ decide (0 < s.fundingGapCount)) "funding_gap"

def SummaryStatus.badFields : SummaryStatus → List String
  | .ok s => s.badFields
  | .running runId startedAt phase previousWatermark =>
    failIf (runId = "") "run_id"
      ++ failIf (phase = "") "phase"
      ++ failIf (!parseableTimestamp startedAt) "started_at"
      ++ failIf (phase ∉ ["preflight", "preflight_config_error"]) "phase"
      ++ failIf (∃ wm ∈ previousWatermark, wm ≠ "" ∧ !parseableBarTs wm) "previous_watermark"
      ++ failIf (previousWatermark.isNone ≠ decide (phase = "preflight_config_error"))
        "previous_watermark"
  | .aborted abortCode abortReason abortedAt =>
    failIf (abortCode = "") "abort_code"
      ++ failIf (abortReason = "") "abort_reason"
      ++ failIf (!parseableTimestamp abortedAt) "aborted_at"
  | .configError reason detectedAt =>
    failIf (reason = "") "config_error"
      ++ failIf (!parseableTimestamp detectedAt) "detected_at"
  | .corruptLedger detectedAt failures count =>
    failIf (!parseableTimestamp detectedAt) "detected_at"
      ++ failIf (failures = [] ∨ count ≠ failures.length) "reconcile_failure_count"
  | .noEligibleBarsYet reason checkedAt barsElapsed =>
    failIf (reason = "") "reason"
      ++ failIf (!parseableTimestamp checkedAt) "checked_at"
      ++ failIf (barsElapsed < 0) "bars_elapsed"

/--
The marker of a run whose config did not load has no start to name.
-/
def SummaryStatus.allowsUnknownStart : SummaryStatus → Bool
  | .running _ _ phase _ => phase = "preflight_config_error"
  | _ => false

def Summary.badFields (s : Summary) : List String :=
  failIf (s.schemaVersion ≠ Quantbot.schemaVersion) "schema_version"
    ++ failIf (s.baselineLabel ≠ Quantbot.baselineLabel) "baseline_label"
    ++ failIf (!parseableBarTs s.forwardStartTs
        ∧ ¬(s.status.allowsUnknownStart ∧ s.forwardStartTs = "unknown")) "forward_start_ts"
    ++ failIf (s.currentVerdict = "") "current_verdict"
    ++ failIf (s.disclaimer = "") "disclaimer"
    ++ s.status.badFields

def validateSummaryShape (s : Summary) : Option Failure :=
  s.badFields.head?.map .malformedSummary

/--
No failure when the file is absent.
-/
def readSummaryObj (summary : Option Summary) : Option Failure :=
  summary.bind validateSummaryShape

def Position.badFields (pos : Position) : List String :=
  failIf (pos.entryFillId = "") "entry_fill_id"
    ++ failIf (pos.entryBarTs = "") "entry_bar_ts"
    ++ failIf (pos.entryFillTs = "") "entry_fill_ts"
    ++ failIf (!parseableBarTs pos.entryBarTs) "entry_bar_ts"
    ++ failIf (!parseableBarTs pos.entryFillTs) "entry_fill_ts"
    ++ failIf (pos.entryPrice ≤ 0 ∨ pos.qty ≤ 0) "entry_price"
    ++ failIf (pos.entryFee < 0) "entry_fee"
    ++ failIf (pos.holdBars < 0) "hold_bars"

def EngineState.badFields (state : EngineState) : List String :=
  (match state.watermarkBarTs with
    | none => ["watermark_bar_ts"]
    | some wm => failIf (wm ≠ "" ∧ !parseableBarTs wm) "watermark_bar_ts")
    ++ state.openPositions.toList.flatMap (fun p =>
      failIf (p.1 = "") "open_positions" ++ p.2.badFields)
    ++ failIf (state.peakEquity = none) "peak_equity"
    ++ failIf (state.barsElapsed < 0) "bars_elapsed"

def validateStateShape (state : EngineState) : Option Failure :=
  state.badFields.head?.map .malformedState

def readStateObj (state : Option EngineState) : Option Failure :=
  state.bind validateStateShape

end Quantbot
