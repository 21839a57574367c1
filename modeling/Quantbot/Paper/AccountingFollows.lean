import Mathlib
import Quantbot.Paper.Reconcile.Lemmas
import Quantbot.Paper.Engine.Lemmas.Funding

/-!
What an accepted set of ledgers says about the accounting: which columns follow from the ledgers
below them, and which ones no check compares with anything below.
-/

namespace Quantbot

open Reconcile

/--
The fees of a trade are those of its two fills.
-/
def FeesFollow (fills : List FillRow) (t : TradeRow) : Prop :=
  ∃ entry exit, lastWith FillRow.fillId t.entryFillId fills = some entry
    ∧ lastWith FillRow.fillId t.exitFillId fills = some exit
    ∧ |t.fees - (entry.fee + exit.fee)| ≤ rederiveEps

def FundingFollows (funding : List FundingRow) (t : TradeRow) : Prop :=
  |t.funding - fundingTotal (bookedFunding funding t.symbol t.entryBarTs t.exitBarTs)|
    ≤ rederiveEps

/--
The gross PnL of the trades closed before the bar.
-/
def RealizedFollows (trades : List TradeRow) (e : EquityRow) : Prop :=
  |e.realizedGrossPnl - ((trades.filter (fun t => t.exitBarTs < e.barTs)).map TradeRow.grossPnl).sum|
    ≤ stateAccEps

def FeesCumFollow (fills : List FillRow) (e : EquityRow) : Prop :=
  |e.feesCum - ((fills.filter (fun f => f.signalBarTs < e.barTs)).map FillRow.fee).sum|
    ≤ stateAccEps

def FundingCumFollows (funding : List FundingRow) (e : EquityRow) : Prop :=
  |e.fundingCum - fundingTotal (funding.filter (fun r => r.barTs ≤ e.barTs))| ≤ stateAccEps

structure AccountingFollows (l : Ledgers) : Prop where
  fees : ∀ t ∈ l.trades, FeesFollow l.fills t
  funding : ∀ t ∈ l.trades, FundingFollows l.funding t
  realized : ∀ e ∈ l.equity, RealizedFollows l.trades e
  feesCum : ∀ e ∈ l.equity, FeesCumFollow l.fills e
  fundingCum : ∀ e ∈ l.equity, FundingCumFollows l.funding e

/--
The row written last, when it is of the newest bar as well.
-/
def NewestRow (equity : List EquityRow) (e : EquityRow) : Prop :=
  equity.getLast? = some e ∧ ∀ e' ∈ equity, e'.barTs ≤ e.barTs

/--
The columns no check compares with a lower ledger agree with it.
-/
structure UncheckedColumnsAgree (l : Ledgers) : Prop where
  fees : ∀ t ∈ l.trades, ∀ entry ∈ l.fills, ∀ exit ∈ l.fills, entry.fillId = t.entryFillId →
    exit.fillId = t.exitFillId → |t.fees - (entry.fee + exit.fee)| ≤ rederiveEps
  funding : ∀ t ∈ l.trades, FundingFollows l.funding t
  realized : ∀ e ∈ l.equity, RealizedFollows l.trades e
  feesCum : ∀ e ∈ l.equity, FeesCumFollow l.fills e
  fundingCum : ∀ e ∈ l.equity, ¬NewestRow l.equity e → FundingCumFollows l.funding e

section pinned

variable {cfg : PaperConfig} {l : Ledgers}

theorem Reconcile.TradeChecked.fills_exist {fills : List FillRow} {t : TradeRow} (h : TradeChecked fills t)
    : ∃ entry exit, lastWith FillRow.fillId t.entryFillId fills = some entry
        ∧ lastWith FillRow.fillId t.exitFillId fills = some exit := by
  have find {k : String} (hk : k ∈ fills.map FillRow.fillId)
      : ∃ f, lastWith FillRow.fillId k fills = some f := by
    rw [← Option.isSome_iff_exists, ← Option.ne_none_iff_isSome]
    intro hnone
    rw [lastWith_eq_none] at hnone
    obtain ⟨f, hf, hfk⟩ := List.mem_map.mp hk
    exact hnone f hf hfk
  obtain ⟨entry, hentry⟩ := find h.entryRef
  obtain ⟨exit, hexit⟩ := find h.exitRef
  exact ⟨entry, exit, hentry, hexit⟩

/--
Every funding row belongs to a bar with an equity row.
-/
theorem Reconcile.LedgersChecked.funding_bar (h : LedgersChecked cfg l) {r : FundingRow}
    (hr : r ∈ l.funding) : ∃ e ∈ l.equity, e.barTs = r.barTs := by
  obtain ⟨-, s, hs, -⟩ := h.commits.funding r hr
  obtain ⟨hmem, hts⟩ := lastWith_some hs
  rw [← hts]
  exact List.mem_map.mp (h.snapshots.snapshot s hmem)

/--
The one cumulative value that is pinned: all funding is booked up to the newest bar.
-/
theorem Reconcile.LedgersChecked.fundingCum_newest (h : LedgersChecked cfg l) {e : EquityRow}
    (he : NewestRow l.equity e) : FundingCumFollows l.funding e := by
  have hall : l.funding.filter (fun r => r.barTs ≤ e.barTs) = l.funding := by
    rw [List.filter_eq_self]
    intro r hr
    obtain ⟨e', he', hts⟩ := h.funding_bar hr
    rw [decide_eq_true_eq, ← hts]
    exact he.2 e' he'
  unfold FundingCumFollows
  rw [hall, abs_sub_comm]
  exact h.fundingTotal e he.1

theorem Reconcile.LedgersChecked.follows_iff (h : LedgersChecked cfg l)
    : AccountingFollows l ↔ UncheckedColumnsAgree l := by
  constructor
  . intro hfollows
    refine ⟨?_, hfollows.funding, hfollows.realized, hfollows.feesCum,
      fun e he _ => hfollows.fundingCum e he⟩
    intro t ht entry hentry exit hexit hentryId hexitId
    obtain ⟨entry', exit', hentry', hexit', hfees⟩ := hfollows.fees t ht
    rw [← hentryId, lastWith_of_nodup h.unique.fills hentry] at hentry'
    rw [← hexitId, lastWith_of_nodup h.unique.fills hexit] at hexit'
    cases hentry'
    cases hexit'
    exact hfees
  . intro hagree
    refine ⟨?_, hagree.funding, hagree.realized, hagree.feesCum, ?_⟩
    . intro t ht
      obtain ⟨entry, exit, hentry, hexit⟩ := (h.trades t ht).fills_exist
      have hentry' := lastWith_some hentry
      have hexit' := lastWith_some hexit
      exact ⟨entry, exit, hentry, hexit,
        hagree.fees t ht entry hentry'.1 exit hexit'.1 hentry'.2 hexit'.2⟩
    . intro e he
      by_cases hnewest : NewestRow l.equity e
      . exact h.fundingCum_newest hnewest
      . exact hagree.fundingCum e he hnewest

end pinned

section unpinned

/--
One dollar of the bar's realized profit shown as unrealized.
-/
def EquityRow.unrealize (ts : String) (e : EquityRow) : EquityRow :=
  if e.barTs = ts then
    { e with
      realizedGrossPnl := e.realizedGrossPnl - 1
      unrealizedPnl := e.unrealizedPnl + 1 }
  else
    e

def PositionsRow.unrealize (ts : String) (p : PositionsRow) : PositionsRow :=
  if p.barTs = ts then { p with grossExposureUsd := p.grossExposureUsd + 1 } else p

def Ledgers.unrealize (ts : String) (l : Ledgers) : Ledgers :=
  { l with
    equity := l.equity.map (EquityRow.unrealize ts)
    positions := l.positions.map (PositionsRow.unrealize ts) }

section rows

variable (ts : String) (e : EquityRow) (p : PositionsRow)

@[simp]
theorem EquityRow.unrealize_barTs : (e.unrealize ts).barTs = e.barTs := by
  unfold unrealize
  split <;> rfl

@[simp]
theorem EquityRow.unrealize_barCommitId : (e.unrealize ts).barCommitId = e.barCommitId := by
  unfold unrealize
  split <;> rfl

@[simp]
theorem EquityRow.unrealize_equity : (e.unrealize ts).equity = e.equity := by
  unfold unrealize
  split <;> rfl

@[simp]
theorem EquityRow.unrealize_drawdown : (e.unrealize ts).drawdown = e.drawdown := by
  unfold unrealize
  split <;> rfl

@[simp]
theorem EquityRow.unrealize_feesCum : (e.unrealize ts).feesCum = e.feesCum := by
  unfold unrealize
  split <;> rfl

@[simp]
theorem EquityRow.unrealize_fundingCum : (e.unrealize ts).fundingCum = e.fundingCum := by
  unfold unrealize
  split <;> rfl

@[simp]
theorem EquityRow.unrealize_checks : (e.unrealize ts).checks = e.checks := by
  unfold unrealize
  split <;> rfl

@[simp]
theorem recomputedEquity_unrealize (cfg : PaperConfig)
    : recomputedEquity cfg (e.unrealize ts) = recomputedEquity cfg e := by
  unfold EquityRow.unrealize recomputedEquity
  split
  . dsimp only
    ring
  . rfl

@[simp]
theorem PositionsRow.unrealize_barTs : (p.unrealize ts).barTs = p.barTs := by
  unfold unrealize
  split <;> rfl

@[simp]
theorem PositionsRow.unrealize_barCommitId : (p.unrealize ts).barCommitId = p.barCommitId := by
  unfold unrealize
  split <;> rfl

@[simp]
theorem PositionsRow.unrealize_openSymbols : (p.unrealize ts).openSymbols = p.openSymbols := by
  unfold unrealize
  split <;> rfl

@[simp]
theorem PositionsRow.unrealize_numOpen : (p.unrealize ts).numOpen = p.numOpen := by
  unfold unrealize
  split <;> rfl

theorem PositionsRow.le_unrealize : p.grossExposureUsd ≤ (p.unrealize ts).grossExposureUsd := by
  unfold unrealize
  split
  . show p.grossExposureUsd ≤ p.grossExposureUsd + 1
    linarith
  . rfl

theorem exposure_unrealize (h : e.barTs = p.barTs)
    : (p.unrealize ts).grossExposureUsd - (e.unrealize ts).unrealizedPnl
        = p.grossExposureUsd - e.unrealizedPnl := by
  unfold PositionsRow.unrealize EquityRow.unrealize
  rw [h]
  split
  . dsimp only
    ring
  . rfl

end rows

variable {cfg : PaperConfig} {l : Ledgers} (ts : String)

theorem equityFailures_unrealize {peak : ℚ} {prevFees : Option ℚ} (es : List EquityRow)
    : equityFailures cfg peak prevFees (es.map (EquityRow.unrealize ts))
        = equityFailures cfg peak prevFees es := by
  induction es generalizing peak prevFees with
  | nil => rfl
  | cons e es ih =>
    rw [List.map_cons, equityFailures, equityFailures, ih]
    simp [equityRowFailures]

theorem equity_unrealize_map {β : Type} {f : EquityRow → β} (hf : ∀ e : EquityRow, f (e.unrealize ts) = f e)
    (es : List EquityRow) : (es.map (EquityRow.unrealize ts)).map f = es.map f := by
  rw [List.map_map]
  apply List.map_congr_left
  intro e _
  exact hf e

theorem Reconcile.PositionsChecked.unrealize {p : PositionsRow}
    (h : PositionsChecked l.fills l.equity p)
    : PositionsChecked l.fills (l.unrealize ts).equity (p.unrealize ts) := by
  constructor
  . simp [h.openSymbols]
  . simp [h.numOpen]
  . intro e' he'
    rw [Ledgers.unrealize, lastWith_map (EquityRow.unrealize_barTs ts), Option.map_eq_some_iff] at he'
    obtain ⟨e, he, rfl⟩ := he'
    rw [PositionsRow.unrealize_barTs] at he ⊢
    rw [exposure_unrealize ts e p (lastWith_some he).2]
    exact h.exposure e he

theorem Reconcile.LedgersChecked.unrealize (h : LedgersChecked cfg l)
    : LedgersChecked cfg (l.unrealize ts) := by
  have hbars : (l.unrealize ts).equity.map EquityRow.barTs = l.equity.map EquityRow.barTs := by
    apply equity_unrealize_map ts
    simp
  constructor
  case unique =>
    refine ⟨h.unique.fills, h.unique.trades, h.unique.funding, ?_, ?_, h.unique.snapshots⟩
    . rw [hbars]
      exact h.unique.equity
    . simpa [Ledgers.unrealize, Function.comp_def] using h.unique.positions
  case snapshots =>
    refine ⟨h.snapshots.unique, ?_, ?_⟩
    . simpa [Ledgers.unrealize] using h.snapshots.equity
    . rw [hbars]
      exact h.snapshots.snapshot
  case commits =>
    refine ⟨h.commits.snapshots, h.commits.fills, h.commits.trades, h.commits.funding, ?_, ?_⟩
    . simpa [Ledgers.unrealize] using h.commits.positions
    . simpa [Ledgers.unrealize] using h.commits.equity
  case fills => exact h.fills
  case trades => exact h.trades
  case equity =>
    exact (equityFailures_unrealize ts l.equity).trans h.equity
  case funding => exact h.funding
  case fundingTotal =>
    intro e' he'
    rw [Ledgers.unrealize, List.getLast?_map, Option.map_eq_some_iff] at he'
    obtain ⟨e, he, rfl⟩ := he'
    rw [EquityRow.unrealize_fundingCum]
    exact h.fundingTotal e he
  case positions =>
    intro p' hp'
    obtain ⟨p, hp, rfl⟩ := List.mem_map.mp hp'
    exact (h.positions p hp).unrealize ts

theorem Ledgers.readEquity_unrealize (h : l.readEquity = .none)
    : (l.unrealize ts).readEquity = .none := by
  unfold readEquity at h ⊢
  rw [malformedRow_eq_none] at h ⊢
  simpa [Ledgers.unrealize] using h

theorem Ledgers.readPositions_unrealize (h : l.readPositions = .none)
    : (l.unrealize ts).readPositions = .none := by
  unfold readPositions at h ⊢
  rw [malformedRow_eq_none] at h ⊢
  intro p' hp'
  obtain ⟨p, hp, rfl⟩ := List.mem_map.mp hp'
  obtain ⟨hexposure, hnumOpen, hts, hsymbols⟩ := PositionsRow.badFields_eq_nil.mp (h p hp)
  rw [PositionsRow.badFields_eq_nil]
  simp only [PositionsRow.unrealize_numOpen, PositionsRow.unrealize_barTs,
    PositionsRow.unrealize_openSymbols]
  exact ⟨hexposure.trans (p.le_unrealize ts), hnumOpen, hts, hsymbols⟩

theorem reconcile_unrealize {summary : Option Summary} (h : reconcile cfg l summary = [])
    : reconcile cfg (l.unrealize ts) summary = [] := by
  rw [reconcile_eq_nil] at h ⊢
  obtain ⟨hreads, hchecked, hsummary⟩ := h
  refine ⟨?_, hchecked.unrealize ts, hsummary⟩
  simp only [Ledgers.reconcileReads, List.forall_mem_cons, List.not_mem_nil, false_imp_iff,
    implies_true, and_true] at hreads ⊢
  obtain ⟨hfills, htrades, hequity, hfunding, hpositions, hsnapshots, hread⟩ := hreads
  exact ⟨hfills, htrades, Ledgers.readEquity_unrealize ts hequity, hfunding,
    Ledgers.readPositions_unrealize ts hpositions, hsnapshots, hread⟩

theorem stateFailures_unrealize (state : Option EngineState) (initialEquity : ℚ)
    : stateFailures state (l.unrealize ts) initialEquity true
        = stateFailures state l initialEquity true := by
  have hbars : (l.unrealize ts).equity.map EquityRow.barTs = l.equity.map EquityRow.barTs := by
    apply equity_unrealize_map ts
    simp
  have hequities : (l.unrealize ts).equity.map EquityRow.equity = l.equity.map EquityRow.equity := by
    apply equity_unrealize_map ts
    simp
  have hlength : (l.unrealize ts).equity.length = l.equity.length := by
    simp [Ledgers.unrealize]
  have hnil : ((l.unrealize ts).equity = []) = (l.equity = []) := by
    simp [Ledgers.unrealize]
  have hpos : ledgerPosition (l.unrealize ts) = ledgerPosition l := by
    funext symbol
    simp [ledgerPosition, Ledgers.unrealize, List.filter_map, Function.comp_def]
  unfold stateFailures strictStateInvariants latestEquityTs expectedPeak
  simp only [hbars, hequities, hlength, hnil, hpos, ne_eq]
  rfl

theorem reconcileState_unrealize {state : Option EngineState}
    (h : reconcileStateAgainstLedgers cfg l state true = [])
    : reconcileStateAgainstLedgers cfg (l.unrealize ts) state true = [] := by
  rw [reconcileStateAgainstLedgers_eq_nil] at h ⊢
  rw [stateFailures_unrealize]
  obtain ⟨hreads, hstate⟩ := h
  refine ⟨?_, hstate⟩
  simp only [List.forall_mem_cons, List.not_mem_nil, false_imp_iff, implies_true, and_true]
    at hreads ⊢
  obtain ⟨hread, hequity, htrades, hfills, hfunding⟩ := hreads
  exact ⟨hread, Ledgers.readEquity_unrealize ts hequity, htrades, hfills, hfunding⟩

/--
At most one of two books a dollar of realized profit apart follows from the trades.
-/
theorem not_realizedFollows_unrealize {trades : List TradeRow} {e : EquityRow}
    (h : RealizedFollows trades e) : ¬RealizedFollows trades (e.unrealize e.barTs) := by
  unfold RealizedFollows EquityRow.unrealize stateAccEps at *
  rw [if_pos rfl]
  dsimp only
  rw [abs_le] at h ⊢
  intro hshifted
  linarith [h.1, hshifted.1]

end unpinned

/--
The lower ledgers of two accounts are the same, and so are the columns that do not split profit into
realized and unrealized.
-/
structure SameEvidence (l l' : Ledgers) : Prop where
  fills : l.fills = l'.fills
  trades : l.trades = l'.trades
  funding : l.funding = l'.funding
  snapshots : l.snapshots = l'.snapshots
  bars : l.equity.map EquityRow.barTs = l'.equity.map EquityRow.barTs
  equities : l.equity.map EquityRow.equity = l'.equity.map EquityRow.equity

theorem sameEvidence_unrealize (l : Ledgers) (ts : String) : SameEvidence l (l.unrealize ts) := by
  constructor
  case fills => rfl
  case trades => rfl
  case funding => rfl
  case snapshots => rfl
  case bars =>
    symm
    apply equity_unrealize_map ts
    simp
  case equities =>
    symm
    apply equity_unrealize_map ts
    simp

/--
No committed bar, no accounting.
-/
theorem Reconcile.LedgersChecked.follows_of_no_bars {cfg : PaperConfig} {l : Ledgers}
    (h : LedgersChecked cfg l) (hbars : l.equity = []) : AccountingFollows l := by
  have htrades : l.trades = [] := by
    rw [List.eq_nil_iff_forall_not_mem]
    intro t ht
    obtain ⟨-, s, hs, -⟩ := h.commits.trades t ht
    have hbar := h.snapshots.snapshot s (lastWith_some hs).1
    rw [hbars] at hbar
    cases hbar
  constructor
  . simp [htrades]
  . simp [htrades]
  . simp [hbars]
  . simp [hbars]
  . simp [hbars]

/--
The accounting of accepted ledgers follows from the ledgers below exactly when the unchecked columns
agree. The verifier enforces it for all accounts of the same evidence only when no bar is committed.
-/
theorem accountingFollows_iff {cfg : PaperConfig} {l : Ledgers} {summary : Option Summary}
    {state : Option EngineState} (hledgers : reconcile cfg l summary = [])
    (hstate : reconcileStateAgainstLedgers cfg l state true = [])
    : (AccountingFollows l ↔ UncheckedColumnsAgree l)
        ∧
      ((∀ l', SameEvidence l l' → reconcile cfg l' summary = [] →
          reconcileStateAgainstLedgers cfg l' state true = [] → AccountingFollows l')
        ↔ l.equity = []) := by
  refine ⟨(reconcile_eq_nil.mp hledgers).2.1.follows_iff, ?_, ?_⟩
  . intro hall
    by_contra hbars
    obtain ⟨e, he⟩ := List.exists_mem_of_ne_nil _ hbars
    have hfollows := hall l ⟨rfl, rfl, rfl, rfl, rfl, rfl⟩ hledgers hstate
    have hforged := hall (l.unrealize e.barTs) (sameEvidence_unrealize l e.barTs)
      (reconcile_unrealize e.barTs hledgers) (reconcileState_unrealize e.barTs hstate)
    apply not_realizedFollows_unrealize (hfollows.realized e he)
    apply hforged.realized
    exact List.mem_map_of_mem he
  . intro hbars l' hsame hledgers' _
    apply (reconcile_eq_nil.mp hledgers').2.1.follows_of_no_bars
    have := hsame.bars
    rw [hbars] at this
    simpa using this.symm

section closedTrade

def closedTradeConfig : PaperConfig :=
  PaperConfig.build "2026-06-14T00:00:00Z" "cfg"

def closedTradeCommit (bar : ℕ) : String :=
  if bar = 1 then "1111111111111111" else "2222222222222222"

def closedTradeFill (id kind side signalBarTs fillTs : String) (bar : ℕ) (price fee : ℚ)
    : FillRow where
  fillId := id
  barCommitId := closedTradeCommit bar
  signalBarTs := signalBarTs
  fillTs := fillTs
  symbol := "BTCUSDT"
  side := side
  kind := kind
  qty := 10
  openPrice := price
  fillPrice := price
  slippageBps := 5
  fee := fee
  backfill := false

def closedTradeSnapshot (id ts : String) (bar : ℕ) (activeSymbols : List String)
    : SnapshotRow where
  snapshotId := id
  barTs := ts
  barCommitId := closedTradeCommit bar
  barIndex := bar
  activeSymbols := activeSymbols
  portfolioHeat := 0
  heatCapTriggered := false
  weightedReturn := 0
  sourceObservationDigest := "d"
  sourceObservationMtime := some 0
  runTs := "2026-06-14T17:00:00Z"
  backfill := false

def closedTrade (fees netPnl : ℚ) : TradeRow where
  tradeId := "exit"
  barCommitId := closedTradeCommit 2
  symbol := "BTCUSDT"
  entryFillId := "entry"
  exitFillId := "exit"
  entryBarTs := "2026-06-14T00:00:00"
  exitBarTs := "2026-06-14T08:00:00"
  qty := 10
  entryPrice := 100
  exitPrice := 110
  grossPnl := 100
  fees := fees
  funding := 21 / 200
  netPnl := netPnl
  holdBars := 1
  backfill := false

/--
One position, entered at the first bar and left at the second, with the fees shown on its trade.
-/
def closedTradeLedgers (fees netPnl : ℚ) : Ledgers where
  fills := [
    closedTradeFill "entry" "entry" "BUY" "2026-06-14T00:00:00" "2026-06-14T08:00:00" 1 100 (1 / 2),
    closedTradeFill "exit" "exit" "SELL" "2026-06-14T08:00:00" "2026-06-14T16:00:00" 2 110
      (11 / 20)]
  trades := [closedTrade fees netPnl]
  funding := [{
    fundingId := "BTCUSDT|2026-06-14T08:00:00|exit"
    symbol := "BTCUSDT"
    barTs := "2026-06-14T08:00:00"
    barCommitId := closedTradeCommit 2
    windowStart := "2026-06-14T08:00:00"
    windowEnd := "2026-06-14T16:00:00"
    notionalUsd := 1050
    fundingRate := 1 / 10000
    fundingEvents := 1
    rateAvailable := true
    fundingAmount := 21 / 200 }]
  positions := [
    ⟨"2026-06-14T00:00:00", closedTradeCommit 1, [], 0, 0⟩,
    ⟨"2026-06-14T08:00:00", closedTradeCommit 2, ["BTCUSDT"], 1, 1050⟩]
  equity := [
    ⟨"2026-06-14T00:00:00", closedTradeCommit 1, 0, 0, 0, 0, 10000, 0, 0⟩,
    ⟨"2026-06-14T08:00:00", closedTradeCommit 2, 0, 50, 21 / 200, 1 / 2, 2009879 / 200, 0, 1⟩]
  snapshots := [
    closedTradeSnapshot "snap1" "2026-06-14T00:00:00" 1 ["BTCUSDT"],
    closedTradeSnapshot "snap2" "2026-06-14T08:00:00" 2 []]

def closedTradeState : EngineState where
  watermarkBarTs := some "2026-06-14T08:00:00"
  openPositions := ∅
  accumulators := { realizedGross := 100, feesCum := 21 / 20, fundingCum := 21 / 200 }
  peakEquity := some (2009879 / 200)
  barsElapsed := 2

/--
The account with the fees its fills were charged.
-/
theorem accountingFollows_iff_closedTrade
    : (AccountingFollows (closedTradeLedgers (21 / 20) (19769 / 200))
          ↔ UncheckedColumnsAgree (closedTradeLedgers (21 / 20) (19769 / 200)))
        ∧
      ((∀ l', SameEvidence (closedTradeLedgers (21 / 20) (19769 / 200)) l' →
          reconcile closedTradeConfig l' none = [] →
          reconcileStateAgainstLedgers closedTradeConfig l' (some closedTradeState) true = [] →
          AccountingFollows l')
        ↔ (closedTradeLedgers (21 / 20) (19769 / 200)).equity = []) :=
  accountingFollows_iff (by decide +kernel) (by decide +kernel)

/--
A trade that shows a tenth of its fees, with the net PnL that goes with them, is accepted.
-/
theorem fabricated_fees_accepted
    : reconcile closedTradeConfig (closedTradeLedgers (1 / 10) (19959 / 200)) none = []
        ∧ reconcileStateAgainstLedgers closedTradeConfig (closedTradeLedgers (1 / 10) (19959 / 200))
            (some closedTradeState) true = []
        ∧ ¬AccountingFollows (closedTradeLedgers (1 / 10) (19959 / 200)) := by
  refine ⟨by decide +kernel, by decide +kernel, ?_⟩
  intro h
  have hfees : ∀ t ∈ (closedTradeLedgers (1 / 10) (19959 / 200)).trades,
      ∀ entry ∈ (closedTradeLedgers (1 / 10) (19959 / 200)).fills,
      ∀ exit ∈ (closedTradeLedgers (1 / 10) (19959 / 200)).fills,
      entry.fillId = t.entryFillId → exit.fillId = t.exitFillId →
        ¬|t.fees - (entry.fee + exit.fee)| ≤ rederiveEps := by
    decide +kernel
  have ht := List.mem_singleton_self (closedTrade (1 / 10) (19959 / 200))
  obtain ⟨entry, exit, hentry, hexit, hclose⟩ := h.fees _ ht
  have hentry' := lastWith_some hentry
  have hexit' := lastWith_some hexit
  exact hfees _ ht entry hentry'.1 exit hexit'.1 hentry'.2 hexit'.2 hclose

end closedTrade

end Quantbot
