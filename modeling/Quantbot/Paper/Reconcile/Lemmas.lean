import Quantbot.Paper.Reconcile.Basic

/-!
What empty failure lists say.
-/

namespace Quantbot

theorem reduceOption_head?_eq_none {α : Type} {l : List (Option α)}
    : l.reduceOption.head? = none ↔ ∀ o ∈ l, o = none := by
  rw [List.head?_eq_none_iff, List.reduceOption, List.filterMap_eq_nil_iff]
  simp

namespace Reconcile

variable {cfg : PaperConfig} {l : Ledgers}

@[simp]
theorem dupFailures_eq_nil {ledger key : String} {ids : List String}
    : dupFailures ledger key ids = [] ↔ ids.Nodup := by
  simp [dupFailures]

structure Unique (l : Ledgers) : Prop where
  fills : (l.fills.map FillRow.fillId).Nodup
  trades : (l.trades.map TradeRow.tradeId).Nodup
  funding : (l.funding.map FundingRow.fundingId).Nodup
  equity : (l.equity.map EquityRow.barTs).Nodup
  positions : (l.positions.map PositionsRow.barTs).Nodup
  snapshots : (l.snapshots.map SnapshotRow.snapshotId).Nodup

theorem uniqueFailures_eq_nil : uniqueFailures l = [] ↔ Unique l := by
  simp only [uniqueFailures, List.append_eq_nil_iff, dupFailures_eq_nil]
  constructor
  . rintro ⟨⟨⟨⟨⟨h1, h2⟩, h3⟩, h4⟩, h5⟩, h6⟩
    exact ⟨h1, h2, h3, h4, h5, h6⟩
  . intro h
    exact ⟨⟨⟨⟨⟨h.fills, h.trades⟩, h.funding⟩, h.equity⟩, h.positions⟩, h.snapshots⟩

/--
Equity bars and frozen snapshots are the same bars.
-/
structure SnapshotTie (l : Ledgers) : Prop where
  unique : (l.snapshots.map SnapshotRow.barTs).Nodup
  equity : ∀ e ∈ l.equity, e.barTs ∈ l.snapshots.map SnapshotRow.barTs
  snapshot : ∀ s ∈ l.snapshots, s.barTs ∈ l.equity.map EquityRow.barTs

theorem snapshotFailures_eq_nil : snapshotFailures l = [] ↔ SnapshotTie l := by
  simp only [snapshotFailures, List.append_eq_nil_iff, dupFailures_eq_nil,
    List.flatMap_eq_nil_iff, failIf_eq_nil, not_not]
  constructor
  . rintro ⟨⟨h1, h2⟩, h3⟩
    exact ⟨h1, h2, h3⟩
  . intro h
    exact ⟨⟨h.unique, h.equity⟩, h.snapshot⟩

/--
The row's bar has a snapshot, with the row's commit id.
-/
def Committed (snapshots : List SnapshotRow) (barTs commitId : String) : Prop :=
  validCommitId commitId ∧ ∃ s, lastWith SnapshotRow.barTs barTs snapshots = some s
    ∧ (validCommitId s.barCommitId → commitId = s.barCommitId)

theorem rowCommitFailures_eq_nil {snapshots : List SnapshotRow}
    {ledger barTs rowId commitId : String}
    : rowCommitFailures snapshots ledger barTs rowId commitId = []
        ↔ Committed snapshots barTs commitId := by
  unfold rowCommitFailures Committed
  rw [List.append_eq_nil_iff, failIf_eq_nil, Bool.not_eq_true', Bool.not_eq_false]
  apply and_congr_right
  intro hvalid
  cases lastWith SnapshotRow.barTs barTs snapshots with
  | none => simp
  | some s =>
    simp [hvalid]

structure Commits (l : Ledgers) : Prop where
  snapshots : ∀ s ∈ l.snapshots, validCommitId s.barCommitId
  fills : ∀ f ∈ l.fills, Committed l.snapshots f.signalBarTs f.barCommitId
  trades : ∀ t ∈ l.trades, Committed l.snapshots t.exitBarTs t.barCommitId
  funding : ∀ f ∈ l.funding, Committed l.snapshots f.barTs f.barCommitId
  positions : ∀ p ∈ l.positions, Committed l.snapshots p.barTs p.barCommitId
  equity : ∀ e ∈ l.equity, Committed l.snapshots e.barTs e.barCommitId

theorem commitFailures_eq_nil : commitFailures l = [] ↔ Commits l := by
  simp only [commitFailures, List.append_eq_nil_iff, List.flatMap_eq_nil_iff, failIf_eq_nil,
    rowCommitFailures_eq_nil, Bool.not_eq_true', Bool.not_eq_false]
  constructor
  . rintro ⟨⟨⟨⟨⟨h1, h2⟩, h3⟩, h4⟩, h5⟩, h6⟩
    exact ⟨h1, h2, h3, h4, h5, h6⟩
  . intro h
    exact ⟨⟨⟨⟨⟨h.snapshots, h.fills⟩, h.trades⟩, h.funding⟩, h.positions⟩, h.equity⟩

structure FillChecked (cfg : PaperConfig) (f : FillRow) : Prop where
  backfill : f.backfill = false
  forward : beforeBoundary cfg.forwardStartTs f.fillTs = false
  side : (f.kind = "entry" → f.side = "BUY") ∧ (f.kind = "exit" → f.side = "SELL")
  qty : 0 < f.qty
  fee : |expectedFee cfg f - f.fee| ≤ rederiveEps

theorem fillFailures_eq_nil {f : FillRow}
    : backfillFailures cfg f = [] ∧ fillFailures cfg f = [] ↔ FillChecked cfg f := by
  simp only [backfillFailures, fillFailures, List.append_eq_nil_iff, failIf_eq_nil, not_lt, not_le,
    not_or, not_and, not_not, Bool.not_eq_true]
  constructor
  . rintro ⟨⟨h1, h2⟩, ⟨h3, h4⟩, h5⟩
    exact ⟨h1, h2, h3, h4, h5⟩
  . intro h
    exact ⟨⟨h.backfill, h.forward⟩, ⟨h.side, h.qty⟩, h.fee⟩

theorem tradePriceFailures_eq_nil {fills : List FillRow} {tradeId ref field : String} {price : ℚ}
    : tradePriceFailures fills tradeId ref field price = []
        ↔ ∀ f, lastWith FillRow.fillId ref fills = some f → |f.fillPrice - price| ≤ eps := by
  unfold tradePriceFailures
  cases lastWith FillRow.fillId ref fills <;> simp

structure TradeChecked (fills : List FillRow) (t : TradeRow) : Prop where
  gross : |(t.exitPrice - t.entryPrice) * t.qty - t.grossPnl| ≤ rederiveEps
  net : |t.grossPnl - t.fees - t.funding - t.netPnl| ≤ eps
  holdBars : 1 ≤ t.holdBars
  entryRef : t.entryFillId ∈ fills.map FillRow.fillId
  exitRef : t.exitFillId ∈ fills.map FillRow.fillId
  entryPrice : ∀ f, lastWith FillRow.fillId t.entryFillId fills = some f →
    |f.fillPrice - t.entryPrice| ≤ eps
  exitPrice : ∀ f, lastWith FillRow.fillId t.exitFillId fills = some f →
    |f.fillPrice - t.exitPrice| ≤ eps

theorem tradeFailures_eq_nil {fills : List FillRow} {t : TradeRow}
    : tradeFailures fills t = [] ↔ TradeChecked fills t := by
  simp only [tradeFailures, List.append_eq_nil_iff, failIf_eq_nil, not_lt, not_not,
    tradePriceFailures_eq_nil]
  constructor
  . rintro ⟨⟨⟨⟨⟨⟨h1, h2⟩, h3⟩, h4⟩, h5⟩, h6⟩, h7⟩
    exact ⟨h1, h2, h3, h4, h5, h6, h7⟩
  . intro h
    exact ⟨⟨⟨⟨⟨⟨h.gross, h.net⟩, h.holdBars⟩, h.entryRef⟩, h.exitRef⟩, h.entryPrice⟩, h.exitPrice⟩

structure EquityChecked (cfg : PaperConfig) (peak : ℚ) (prevFees : Option ℚ) (e : EquityRow)
    : Prop where
  identity : |recomputedEquity cfg e - e.equity| ≤ 1 / 10000
  range : -eps ≤ e.drawdown ∧ e.drawdown ≤ 1 + eps
  drawdown : |drawdownFrom peak e.equity - e.drawdown| ≤ drawdownEps
  fees : ∀ fees ∈ prevFees, fees ≤ e.feesCum + eps

theorem equityRowFailures_eq_nil {peak : ℚ} {prevFees : Option ℚ} {e : EquityRow}
    : equityRowFailures cfg peak prevFees e = [] ↔ EquityChecked cfg peak prevFees e := by
  simp only [equityRowFailures, List.append_eq_nil_iff, failIf_eq_nil, not_lt, not_not]
  constructor
  . rintro ⟨⟨⟨h1, h2⟩, h3⟩, h4⟩
    refine ⟨h1, h2, h3, ?_⟩
    intro fees hfees
    rw [← not_lt]
    intro hlt
    exact h4 ⟨fees, hfees, hlt⟩
  . intro h
    refine ⟨⟨⟨h.identity, h.range⟩, h.drawdown⟩, ?_⟩
    rintro ⟨fees, hfees, hlt⟩
    exact absurd hlt (not_lt.mpr (h.fees fees hfees))

theorem fundingFailures_eq_nil {f : FundingRow}
    : fundingFailures f = [] ↔ |expectedAmount f - f.fundingAmount| ≤ rederiveEps := by
  simp [fundingFailures]

theorem fundingTotalFailures_eq_nil
    : fundingTotalFailures l = []
        ↔ ∀ e, l.equity.getLast? = some e →
          |fundingTotal l.funding - e.fundingCum| ≤ 1 / 10000 := by
  unfold fundingTotalFailures
  cases l.equity.getLast? <;> simp

theorem exposureFailures_eq_nil {p : PositionsRow} {e : EquityRow} {maxNotional : ℚ}
    : exposureFailures p e maxNotional = []
        ↔ -exposureEps ≤ p.grossExposureUsd - e.unrealizedPnl
          ∧ p.grossExposureUsd - e.unrealizedPnl ≤ maxNotional + exposureEps := by
  simp [exposureFailures]

def bookBefore (fills : List FillRow) (ts : String) : List FillRow :=
  fills.filter (fun f => f.signalBarTs < ts)

structure PositionsChecked (fills : List FillRow) (equity : List EquityRow) (p : PositionsRow)
    : Prop where
  openSymbols : p.openSymbols = openBook (bookBefore fills p.barTs)
  numOpen : p.numOpen = (openBook (bookBefore fills p.barTs)).length
  exposure : ∀ e, lastWith EquityRow.barTs p.barTs equity = some e →
    -exposureEps ≤ p.grossExposureUsd - e.unrealizedPnl
      ∧ p.grossExposureUsd - e.unrealizedPnl
        ≤ ((openBook (bookBefore fills p.barTs)).map
            (entryNotional (bookBefore fills p.barTs))).sum + exposureEps

theorem positionFailures_eq_nil {fills : List FillRow} {equity : List EquityRow} {p : PositionsRow}
    : positionFailures fills equity p = [] ↔ PositionsChecked fills equity p := by
  unfold positionFailures
  simp only [List.append_eq_nil_iff, failIf_eq_nil, not_not]
  rw [← bookBefore]
  constructor
  . rintro ⟨⟨h1, h2⟩, h3⟩
    constructor
    . exact h1
    . exact h2
    . intro e he
      rw [he] at h3
      exact exposureFailures_eq_nil.mp h3
  . intro h
    refine ⟨⟨h.openSymbols, h.numOpen⟩, ?_⟩
    cases he : lastWith EquityRow.barTs p.barTs equity with
    | none => rfl
    | some e => exact exposureFailures_eq_nil.mpr (h.exposure e he)

structure LedgersChecked (cfg : PaperConfig) (l : Ledgers) : Prop where
  unique : Unique l
  snapshots : SnapshotTie l
  commits : Commits l
  fills : ∀ f ∈ l.fills, FillChecked cfg f
  trades : ∀ t ∈ l.trades, TradeChecked l.fills t
  equity : equityFailures cfg cfg.initialEquityUsd none l.equity = []
  funding : ∀ f ∈ l.funding, |expectedAmount f - f.fundingAmount| ≤ rederiveEps
  fundingTotal : ∀ e, l.equity.getLast? = some e →
    |fundingTotal l.funding - e.fundingCum| ≤ 1 / 10000
  positions : ∀ p ∈ l.positions, PositionsChecked l.fills l.equity p

theorem ledgerFailures_eq_nil : ledgerFailures cfg l = [] ↔ LedgersChecked cfg l := by
  simp only [ledgerFailures, List.append_eq_nil_iff, List.flatMap_eq_nil_iff,
    uniqueFailures_eq_nil, snapshotFailures_eq_nil, commitFailures_eq_nil, tradeFailures_eq_nil,
    fundingFailures_eq_nil, fundingTotalFailures_eq_nil, positionFailures_eq_nil]
  constructor
  . rintro ⟨⟨⟨⟨⟨⟨⟨⟨⟨h1, h2⟩, h3⟩, h4⟩, h5⟩, h6⟩, h7⟩, h8⟩, h9⟩, h10⟩
    exact ⟨h1, h2, h3, fun f hf => fillFailures_eq_nil.mp ⟨h4 f hf, h5 f hf⟩, h6, h7, h8, h9, h10⟩
  . intro h
    exact ⟨⟨⟨⟨⟨⟨⟨⟨⟨h.unique, h.snapshots⟩, h.commits⟩,
      fun f hf => (fillFailures_eq_nil.mpr (h.fills f hf)).1⟩,
      fun f hf => (fillFailures_eq_nil.mpr (h.fills f hf)).2⟩, h.trades⟩, h.equity⟩, h.funding⟩,
      h.fundingTotal⟩, h.positions⟩

end Reconcile

section reconcile

variable {cfg : PaperConfig} {l : Ledgers} {summary : Option Summary}

theorem reconcile_eq_nil
    : reconcile cfg l summary = []
        ↔ (∀ o ∈ l.reconcileReads summary, o = none)
          ∧ Reconcile.LedgersChecked cfg l
          ∧ Reconcile.summaryFailures summary = [] := by
  rw [← reduceOption_head?_eq_none, ← Reconcile.ledgerFailures_eq_nil]
  unfold reconcile
  cases (l.reconcileReads summary).reduceOption.head? with
  | none => simp
  | some failure => simp

/--
Ledgers that reconcile whatever the summary says.
-/
structure Reconciled (cfg : PaperConfig) (l : Ledgers) : Prop where
  reads : ∀ o ∈ l.reads, o = none
  checked : Reconcile.LedgersChecked cfg l

theorem reconcile_eq_nil_iff_reconciled
    : reconcile cfg l summary = []
        ↔ Reconciled cfg l ∧ readSummaryObj summary = none
          ∧ Reconcile.summaryFailures summary = [] := by
  rw [reconcile_eq_nil]
  simp only [Ledgers.reconcileReads, List.forall_mem_cons, List.not_mem_nil, false_imp_iff,
    implies_true, and_true]
  constructor
  . rintro ⟨⟨h1, h2, h3, h4, h5, h6, hsummary⟩, hchecked, hsummaryFailures⟩
    refine ⟨⟨?_, hchecked⟩, hsummary, hsummaryFailures⟩
    simp [Ledgers.reads, h1, h2, h3, h4, h5, h6]
  . rintro ⟨hreconciled, hsummary, hsummaryFailures⟩
    have hreads := hreconciled.reads
    simp only [Ledgers.reads, List.forall_mem_cons, List.not_mem_nil, false_imp_iff,
      implies_true, and_true] at hreads
    obtain ⟨h1, h2, h3, h4, h5, h6⟩ := hreads
    exact ⟨⟨h1, h2, h5, h3, h4, h6, hsummary⟩, hreconciled.checked, hsummaryFailures⟩

theorem summaryFailures_of_not_ok {s : Summary} (h : s.isOk = false)
    : Reconcile.summaryFailures (some s) = [] := by
  obtain ⟨version, status, label, start, verdict, disclaimer⟩ := s
  cases status
  case ok => cases h
  all_goals simp [Reconcile.summaryFailures, Summary.closedTrades, Summary.winrate]

/--
A summary that does not say OK says nothing the ledgers could contradict.
-/
theorem reconcile_of_not_ok {s : Summary} (hok : s.isOk = false)
    (hshape : validateSummaryShape s = none)
    : reconcile cfg l (some s) = [] ↔ Reconciled cfg l := by
  rw [reconcile_eq_nil_iff_reconciled]
  constructor
  . intro h
    exact h.1
  . intro h
    exact ⟨h, hshape, summaryFailures_of_not_ok hok⟩

theorem reconcileStateAgainstLedgers_of_reads {state : Option EngineState} {committed : Bool}
    (hreads : ∀ o ∈ l.reads, o = none) (hstate : readStateObj state = none)
    : reconcileStateAgainstLedgers cfg l state committed
        = Reconcile.stateFailures state l cfg.initialEquityUsd committed := by
  simp only [Ledgers.reads, List.forall_mem_cons, List.not_mem_nil, false_imp_iff,
    implies_true, and_true] at hreads
  obtain ⟨h1, h2, h3, h4, h5, h6⟩ := hreads
  unfold reconcileStateAgainstLedgers
  dsimp only
  cases committed <;> simp [hstate, h1, h2, h3, h5, List.reduceOption]

theorem reconcileStateAgainstLedgers_eq_nil {state : Option EngineState}
    : reconcileStateAgainstLedgers cfg l state true = []
        ↔ (∀ o ∈ [readStateObj state, l.readEquity, l.readTrades, l.readFills, l.readFunding],
            o = none)
          ∧ Reconcile.stateFailures state l cfg.initialEquityUsd true = [] := by
  rw [← reduceOption_head?_eq_none]
  unfold reconcileStateAgainstLedgers
  simp only [if_true]
  cases ([readStateObj state, l.readEquity, l.readTrades, l.readFills,
    l.readFunding].reduceOption.head?) with
  | none => simp
  | some failure => simp

end reconcile

end Quantbot
