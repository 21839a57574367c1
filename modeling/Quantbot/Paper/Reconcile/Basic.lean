import Quantbot.Paper.Ledger

/-!
`reconcile` and the checks of the position state against the ledgers.
-/

namespace Quantbot

namespace Reconcile

def eps : ℚ := 1 / 1000000

def rederiveEps : ℚ := 1 / 10000

def drawdownEps : ℚ := 1 / 1000000

def exposureEps : ℚ := 1 / 100

def stateAccEps : ℚ := 1 / 10000

def openPosEps : ℚ := 1 / 1000000

def validCommitId (v : String) : Bool :=
  v.toList.length = 16 ∧ v.toList.all (fun c => c ∈ "0123456789abcdef".toList)

def dupFailures (ledger key : String) (ids : List String) : List Failure :=
  failIf (dupIds ids ≠ []) (.duplicateIds ledger key ((dupIds ids).take 5))

def uniqueFailures (l : Ledgers) : List Failure :=
  dupFailures "fills" "fill_id" (l.fills.map FillRow.fillId)
    ++ dupFailures "trades" "trade_id" (l.trades.map TradeRow.tradeId)
    ++ dupFailures "funding" "funding_id" (l.funding.map FundingRow.fundingId)
    ++ dupFailures "equity" "bar_ts" (l.equity.map EquityRow.barTs)
    ++ dupFailures "positions" "bar_ts" (l.positions.map PositionsRow.barTs)
    ++ dupFailures "snapshots" "snapshot_id" (l.snapshots.map SnapshotRow.snapshotId)

/--
One frozen snapshot for each equity bar, and an equity row for each snapshot.
-/
def snapshotFailures (l : Ledgers) : List Failure :=
  dupFailures "snapshots" "bar_ts" (l.snapshots.map SnapshotRow.barTs)
    ++ l.equity.flatMap (fun e =>
      failIf (e.barTs ∉ l.snapshots.map SnapshotRow.barTs) (.equityWithoutSnapshot e.barTs))
    ++ l.snapshots.flatMap (fun s =>
      failIf (s.barTs ∉ l.equity.map EquityRow.barTs) (.orphanSnapshot s.snapshotId s.barTs))

/--
A row of a processed bar carries the commit id of the bar's snapshot.
-/
def rowCommitFailures (snapshots : List SnapshotRow) (ledger barTs rowId commitId : String)
    : List Failure :=
  failIf (!validCommitId commitId) (.rowCommitId ledger rowId barTs commitId)
    ++ match lastWith SnapshotRow.barTs barTs snapshots with
      | none => [.rowWithoutSnapshot ledger rowId barTs]
      | some s =>
        failIf (validCommitId commitId ∧ validCommitId s.barCommitId ∧ commitId ≠ s.barCommitId)
          (.commitMismatch ledger rowId barTs commitId s.barCommitId)

def commitFailures (l : Ledgers) : List Failure :=
  l.snapshots.flatMap (fun s => failIf (!validCommitId s.barCommitId)
      (.snapshotCommitId s.snapshotId s.barTs s.barCommitId))
    ++ l.fills.flatMap (fun f =>
      rowCommitFailures l.snapshots "fill" f.signalBarTs f.fillId f.barCommitId)
    ++ l.trades.flatMap (fun t =>
      rowCommitFailures l.snapshots "trade" t.exitBarTs t.tradeId t.barCommitId)
    ++ l.funding.flatMap (fun f =>
      rowCommitFailures l.snapshots "funding" f.barTs f.fundingId f.barCommitId)
    ++ l.positions.flatMap (fun p =>
      rowCommitFailures l.snapshots "positions" p.barTs p.barTs p.barCommitId)
    ++ l.equity.flatMap (fun e =>
      rowCommitFailures l.snapshots "equity" e.barTs e.barTs e.barCommitId)

/--
Instants are compared, and an unreadable one counts as before the start.
-/
def beforeBoundary (forwardStartTs fillTs : String) : Bool :=
  match parseBarUtc forwardStartTs, parseBarUtc fillTs with
  | .ok start, .ok fill => fill < start
  | _, _ => true

def backfillFailures (cfg : PaperConfig) (f : FillRow) : List Failure :=
  failIf f.backfill (.backfill f.fillId)
    ++ failIf (beforeBoundary cfg.forwardStartTs f.fillTs) (.beforeForwardStart f.fillId f.fillTs)

def expectedFee (cfg : PaperConfig) (f : FillRow) : ℚ :=
  f.fillPrice * f.qty * cfg.feeBps / 10000

def fillFailures (cfg : PaperConfig) (f : FillRow) : List Failure :=
  failIf ((f.kind = "entry" ∧ f.side ≠ "BUY") ∨ (f.kind = "exit" ∧ f.side ≠ "SELL"))
      (.sideKind f.fillId f.side f.kind)
    ++ failIf (f.qty ≤ 0) (.nonPositiveQty f.fillId)
    ++ failIf (rederiveEps < |expectedFee cfg f - f.fee|) (.fee f.fillId f.fee (expectedFee cfg f))

/--
The trade's price agrees with the fill it refers to, when there is one.
-/
def tradePriceFailures (fills : List FillRow) (tradeId ref field : String) (price : ℚ)
    : List Failure :=
  match lastWith FillRow.fillId ref fills with
  | none => []
  | some f => failIf (eps < |f.fillPrice - price|) (.tradePrice tradeId field price f.fillPrice)

def tradeFailures (fills : List FillRow) (t : TradeRow) : List Failure :=
  failIf (rederiveEps < |(t.exitPrice - t.entryPrice) * t.qty - t.grossPnl|)
      (.grossPnl t.tradeId t.grossPnl ((t.exitPrice - t.entryPrice) * t.qty))
    ++ failIf (eps < |t.grossPnl - t.fees - t.funding - t.netPnl|)
      (.netPnl t.tradeId t.netPnl (t.grossPnl - t.fees - t.funding))
    ++ failIf (t.holdBars < 1) (.holdBars t.tradeId)
    ++ failIf (t.entryFillId ∉ fills.map FillRow.fillId)
      (.danglingRef t.tradeId "entry_fill_id" t.entryFillId)
    ++ failIf (t.exitFillId ∉ fills.map FillRow.fillId)
      (.danglingRef t.tradeId "exit_fill_id" t.exitFillId)
    ++ tradePriceFailures fills t.tradeId t.entryFillId "entry_price" t.entryPrice
    ++ tradePriceFailures fills t.tradeId t.exitFillId "exit_price" t.exitPrice

def recomputedEquity (cfg : PaperConfig) (e : EquityRow) : ℚ :=
  cfg.initialEquityUsd + e.realizedGrossPnl - e.feesCum - e.fundingCum + e.unrealizedPnl

def drawdownFrom (peak equity : ℚ) : ℚ :=
  if 0 < peak then (peak - equity) / peak else 0

/--
One equity row, with the running peak that includes it and the fees of the row before.
-/
def equityRowFailures (cfg : PaperConfig) (peak : ℚ) (prevFees : Option ℚ) (e : EquityRow)
    : List Failure :=
  failIf (1 / 10000 < |recomputedEquity cfg e - e.equity|)
      (.equityMismatch e.barTs e.equity (recomputedEquity cfg e))
    ++ failIf (¬(-eps ≤ e.drawdown ∧ e.drawdown ≤ 1 + eps)) (.drawdownRange e.barTs e.drawdown)
    ++ failIf (drawdownEps < |drawdownFrom peak e.equity - e.drawdown|)
      (.drawdown e.barTs e.drawdown (drawdownFrom peak e.equity) peak)
    ++ failIf (∃ fees ∈ prevFees, e.feesCum + eps < fees) (.feesDecreased e.barTs)

def equityFailures (cfg : PaperConfig) : ℚ → Option ℚ → List EquityRow → List Failure
  | _, _, [] => []
  | peak, prevFees, e :: es =>
    equityRowFailures cfg (max peak e.equity) prevFees e
      ++ equityFailures cfg (max peak e.equity) (some e.feesCum) es

def expectedAmount (f : FundingRow) : ℚ :=
  if f.rateAvailable then f.notionalUsd * f.fundingRate else 0

def fundingFailures (f : FundingRow) : List Failure :=
  failIf (rederiveEps < |expectedAmount f - f.fundingAmount|)
    (.fundingAmount f.fundingId f.fundingAmount (expectedAmount f))

def fundingTotal (funding : List FundingRow) : ℚ :=
  (funding.map FundingRow.fundingAmount).sum

def fundingTotalFailures (l : Ledgers) : List Failure :=
  match l.equity.getLast? with
  | none => []
  | some e => failIf (1 / 10000 < |fundingTotal l.funding - e.fundingCum|)
      (.fundingTotal (fundingTotal l.funding) e.fundingCum)

def fillSymbols (kind : String) (fills : List FillRow) : List String :=
  (fills.filter (fun f => f.kind = kind)).map FillRow.symbol

/--
The symbols with more entry fills than exit fills.
-/
def openBook (fills : List FillRow) : List String :=
  (Std.ExtTreeSet.ofList (fillSymbols "entry" fills)).toList.filter
    (fun s => (fillSymbols "exit" fills).count s < (fillSymbols "entry" fills).count s)

def lastEntryFill (fills : List FillRow) (symbol : String) : Option FillRow :=
  lastWith FillRow.symbol symbol (fills.filter (fun f => f.kind = "entry"))

def entryNotional (fills : List FillRow) (symbol : String) : ℚ :=
  ((lastEntryFill fills symbol).map (fun f => f.fillPrice * f.qty)).getD 0

def exposureFailures (p : PositionsRow) (e : EquityRow) (maxNotional : ℚ) : List Failure :=
  failIf (p.grossExposureUsd - e.unrealizedPnl < -exposureEps
      ∨ maxNotional + exposureEps < p.grossExposureUsd - e.unrealizedPnl)
    (.grossExposure p.barTs p.grossExposureUsd e.unrealizedPnl maxNotional)

/--
The book before the bar's own fills, from the fills of earlier bars.
-/
def positionFailures (fills : List FillRow) (equity : List EquityRow) (p : PositionsRow)
    : List Failure :=
  let before := fills.filter (fun f => f.signalBarTs < p.barTs)
  let book := openBook before
  failIf (p.openSymbols ≠ book) (.openSymbols p.barTs p.openSymbols book)
    ++ failIf (p.numOpen ≠ book.length) (.numOpen p.barTs p.numOpen book.length)
    ++ match lastWith EquityRow.barTs p.barTs equity with
      | none => []
      | some e => exposureFailures p e (book.map (entryNotional before)).sum

def summaryFailures (summary : Option Summary) : List Failure :=
  match summary with
  | none => []
  | some s =>
    failIf (s.closedTrades = 0 ∧ s.winrate ≠ none) .winrateNotNull
      ++ failIf (0 < s.closedTrades ∧ s.winrate = none) .winrateNull

/--
The checks over ledgers that could be read.
-/
def ledgerFailures (cfg : PaperConfig) (l : Ledgers) : List Failure :=
  uniqueFailures l
    ++ snapshotFailures l
    ++ commitFailures l
    ++ l.fills.flatMap (backfillFailures cfg)
    ++ l.fills.flatMap (fillFailures cfg)
    ++ l.trades.flatMap (tradeFailures l.fills)
    ++ equityFailures cfg cfg.initialEquityUsd none l.equity
    ++ l.funding.flatMap fundingFailures
    ++ fundingTotalFailures l
    ++ l.positions.flatMap (positionFailures l.fills l.equity)

end Reconcile

def Ledgers.reconcileReads (l : Ledgers) (summary : Option Summary) : List (Option Failure) :=
  [l.readFills, l.readTrades, l.readEquity, l.readFunding, l.readPositions, l.readSnapshots,
    readSummaryObj summary]

/--
The failures of the ledgers and the summary; the first unreadable artifact is reported alone.
-/
def reconcile (cfg : PaperConfig) (l : Ledgers) (summary : Option Summary) : List Failure :=
  match (l.reconcileReads summary).reduceOption.head? with
  | some failure => [failure]
  | none => Reconcile.ledgerFailures cfg l ++ Reconcile.summaryFailures summary

namespace Reconcile

/--
An open position as the ledgers tell it.
-/
structure LedgerPosition where
  entryFillId : String
  entryPrice : ℚ
  entryBarTs : String
  entryFillTs : String
  qty : ℚ
  fundingAccrued : ℚ
  holdBars : ℕ

def ledgerPosition (l : Ledgers) (symbol : String) : Option LedgerPosition :=
  (lastEntryFill l.fills symbol).map (fun f => {
    entryFillId := f.fillId
    entryPrice := f.fillPrice
    entryBarTs := f.signalBarTs
    entryFillTs := f.fillTs
    qty := f.qty
    fundingAccrued := fundingTotal (l.funding.filter (fun r =>
      r.symbol = symbol ∧ f.signalBarTs < r.barTs))
    holdBars := (l.equity.filter (fun e => f.signalBarTs < e.barTs)).length
  })

def openPositionFailures (symbol : String) (pos : Position) (ledgerPos : LedgerPosition)
    : List Failure :=
  failIf (pos.entryFillId ≠ ledgerPos.entryFillId) (.openPosition symbol "entry_fill_id")
    ++ failIf (pos.entryBarTs ≠ ledgerPos.entryBarTs) (.openPosition symbol "entry_bar_ts")
    ++ failIf (pos.entryFillTs ≠ ledgerPos.entryFillTs) (.openPosition symbol "entry_fill_ts")
    ++ failIf (pos.holdBars ≠ ledgerPos.holdBars) (.openPosition symbol "hold_bars")
    ++ failIf (openPosEps < |pos.entryPrice - ledgerPos.entryPrice|)
      (.openPosition symbol "entry_price")
    ++ failIf (openPosEps < |pos.qty - ledgerPos.qty|) (.openPosition symbol "qty")
    ++ failIf (stateAccEps < |pos.fundingAccrued - ledgerPos.fundingAccrued|)
      (.openPosition symbol "funding_accrued")

def latestEquityTs (equity : List EquityRow) : Option String :=
  (equity.map EquityRow.barTs).max?

def accumulatorFailures (key : String) (stored expected : ℚ) : List Failure :=
  failIf (stateAccEps < |stored - expected|) (.accumulator key stored expected)

def peakOff (peakEquity : Option ℚ) (expected : ℚ) : Bool :=
  match peakEquity with
  | none => true
  | some peak => stateAccEps < |peak - expected|

def expectedPeak (initialEquity : ℚ) (equity : List EquityRow) : ℚ :=
  (equity.map EquityRow.equity).foldl max initialEquity

def strictStateInvariants (state : EngineState) (l : Ledgers) (initialEquity : ℚ)
    : List Failure :=
  let watermark := state.watermarkBarTs.getD ""
  if l.equity = [] then
    failIf (watermark ≠ "") (.okWatermarkWithoutEquity watermark)
      ++ failIf (state.barsElapsed ≠ 0) (.okBarsElapsedWithoutEquity state.barsElapsed)
      ++ failIf (state.openPositions.keys ≠ [])
        (.okOpenPositionsWithoutEquity state.openPositions.keys)
      ++ failIf (peakOff state.peakEquity initialEquity)
        (.okPeakEquityWithoutEquity state.peakEquity initialEquity)
  else
    failIf (some watermark ≠ latestEquityTs l.equity)
        (.watermark watermark (latestEquityTs l.equity))
      ++ failIf (state.barsElapsed ≠ l.equity.length) (.barsElapsed state.barsElapsed l.equity.length)
      ++ accumulatorFailures "realized_gross" state.accumulators.realizedGross
        (l.trades.map TradeRow.grossPnl).sum
      ++ accumulatorFailures "fees_cum" state.accumulators.feesCum (l.fills.map FillRow.fee).sum
      ++ accumulatorFailures "funding_cum" state.accumulators.fundingCum (fundingTotal l.funding)
      ++ failIf (peakOff state.peakEquity (expectedPeak initialEquity l.equity))
        (.peakEquity state.peakEquity (expectedPeak initialEquity l.equity))
      ++ failIf (state.openPositions.keys ≠ openBook l.fills)
        (.openPositions state.openPositions.keys (openBook l.fills))
      ++ state.openPositions.toList.flatMap (fun p =>
        if p.1 ∈ openBook l.fills then
          ((ledgerPosition l p.1).map (openPositionFailures p.1 p.2)).getD []
        else
          [])

/--
`_reconcile_state_dict_against_ledgers`.
-/
def stateFailures (state : Option EngineState) (l : Ledgers) (initialEquity : ℚ)
    (requireCommitted : Bool) : List Failure :=
  match state with
  | none => failIf (requireCommitted ∧ l.equity ≠ []) (.stateAbsent l.equity.length)
  | some state =>
    let watermark := state.watermarkBarTs.getD ""
    (match latestEquityTs l.equity with
      | none => failIf (watermark ≠ "") (.watermarkWithoutEquity watermark)
      | some latest =>
        failIf (watermark ≠ "" ∧ latest < watermark) (.watermarkAhead watermark latest))
      ++ if requireCommitted then strictStateInvariants state l initialEquity else []

end Reconcile

/--
The position state on disk against the ledgers on disk.
-/
def reconcileStateAgainstLedgers (cfg : PaperConfig) (l : Ledgers) (state : Option EngineState)
    (requireCommitted : Bool) : List Failure :=
  let committedReads := if requireCommitted then [l.readTrades, l.readFills, l.readFunding] else []
  match (readStateObj state :: l.readEquity :: committedReads).reduceOption.head? with
  | some failure => [failure]
  | none => Reconcile.stateFailures state l cfg.initialEquityUsd requireCommitted

end Quantbot
