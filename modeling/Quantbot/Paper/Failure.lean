import Mathlib

/-!
The messages of the integrity checks, with the values they report.
-/

namespace Quantbot

inductive Failure where
  -- unreadable artifacts
  | malformedRow (file : String) (row : ℕ) (field : String)
  | malformedSummary (field : String)
  | malformedState (field : String)
  | notStaged
  | notEnumerated
  -- reconcile
  | duplicateIds (ledger key : String) (values : List String)
  | equityWithoutSnapshot (barTs : String)
  | orphanSnapshot (snapshotId barTs : String)
  | snapshotCommitId (snapshotId barTs commitId : String)
  | rowCommitId (ledger rowId barTs commitId : String)
  | rowWithoutSnapshot (ledger rowId barTs : String)
  | commitMismatch (ledger rowId barTs got expected : String)
  | backfill (fillId : String)
  | beforeForwardStart (fillId fillTs : String)
  | sideKind (fillId side kind : String)
  | nonPositiveQty (fillId : String)
  | fee (fillId : String) (stored expected : ℚ)
  | grossPnl (tradeId : String) (stored expected : ℚ)
  | netPnl (tradeId : String) (stored expected : ℚ)
  | holdBars (tradeId : String)
  | danglingRef (tradeId ref fillId : String)
  | tradePrice (tradeId priceField : String) (stored fillPrice : ℚ)
  | equityMismatch (barTs : String) (stored recomputed : ℚ)
  | drawdownRange (barTs : String) (drawdown : ℚ)
  | drawdown (barTs : String) (stored expected peak : ℚ)
  | feesDecreased (barTs : String)
  | fundingAmount (fundingId : String) (stored expected : ℚ)
  | fundingTotal (total fundingCum : ℚ)
  | openSymbols (barTs : String) (stored expected : List String)
  | numOpen (barTs : String) (stored : ℤ) (expected : ℕ)
  | grossExposure (barTs : String) (stored unrealized maxNotional : ℚ)
  | winrateNotNull
  | winrateNull
  -- state against ledgers
  | stateAbsent (rows : ℕ)
  | watermarkWithoutEquity (watermark : String)
  | watermarkAhead (watermark latest : String)
  | okWatermarkWithoutEquity (watermark : String)
  | okBarsElapsedWithoutEquity (barsElapsed : ℤ)
  | okOpenPositionsWithoutEquity (symbols : List String)
  | okPeakEquityWithoutEquity (peakEquity : Option ℚ) (initialEquity : ℚ)
  | watermark (watermark : String) (latest : Option String)
  | barsElapsed (stored : ℤ) (rows : ℕ)
  | accumulator (key : String) (stored expected : ℚ)
  | peakEquity (stored : Option ℚ) (expected : ℚ)
  | openPositions (stored expected : List String)
  | openPosition (symbol field : String)
  -- commit evidence
  | summaryNotOk
  | provenanceAbsent
  | provenanceStatus (status : String)
  | outputDigest (artifact : String) (pinned : Option String) (actual : String)
  | receiptAbsent
  | receiptMismatch
deriving DecidableEq

end Quantbot
