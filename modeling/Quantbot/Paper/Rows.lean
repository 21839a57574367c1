import Mathlib

/-!
Rows of the append-only ledgers.
-/

namespace Quantbot

/--
A row of `per_bar_obs`, with its own canonical JSON text.
-/
structure Obs where
  barIndex : ℤ
  timestamp : String
  activeSymbols : List String
  portfolioHeat : ℚ
  heatCapTriggered : Bool
  weightedReturn : ℚ
  canonicalJson : String
deriving DecidableEq

structure FillRow where
  fillId : String
  barCommitId : String
  signalBarTs : String
  fillTs : String
  symbol : String
  side : String
  kind : String
  qty : ℚ
  openPrice : ℚ
  fillPrice : ℚ
  slippageBps : ℚ
  fee : ℚ
  backfill : Bool
deriving DecidableEq

structure TradeRow where
  tradeId : String
  barCommitId : String
  symbol : String
  entryFillId : String
  exitFillId : String
  entryBarTs : String
  exitBarTs : String
  qty : ℚ
  entryPrice : ℚ
  exitPrice : ℚ
  grossPnl : ℚ
  fees : ℚ
  funding : ℚ
  netPnl : ℚ
  holdBars : ℤ
  backfill : Bool
deriving DecidableEq

structure FundingRow where
  fundingId : String
  symbol : String
  barTs : String
  barCommitId : String
  windowStart : String
  windowEnd : String
  notionalUsd : ℚ
  fundingRate : ℚ
  fundingEvents : ℤ
  rateAvailable : Bool
  fundingAmount : ℚ
deriving DecidableEq

structure PositionsRow where
  barTs : String
  barCommitId : String
  openSymbols : List String
  numOpen : ℤ
  grossExposureUsd : ℚ
deriving DecidableEq

structure EquityRow where
  barTs : String
  barCommitId : String
  realizedGrossPnl : ℚ
  unrealizedPnl : ℚ
  fundingCum : ℚ
  feesCum : ℚ
  equity : ℚ
  drawdown : ℚ
  numOpen : ℤ
deriving DecidableEq

/--
The frozen source row of a consumed bar.
-/
structure SnapshotRow where
  snapshotId : String
  barTs : String
  barCommitId : String
  barIndex : ℤ
  activeSymbols : List String
  portfolioHeat : ℚ
  heatCapTriggered : Bool
  weightedReturn : ℚ
  sourceObservationDigest : String
  sourceObservationMtime : Option ℚ
  runTs : String
  backfill : Bool
deriving DecidableEq

structure Ledgers where
  fills : List FillRow
  trades : List TradeRow
  funding : List FundingRow
  positions : List PositionsRow
  equity : List EquityRow
  snapshots : List SnapshotRow
deriving DecidableEq

end Quantbot
