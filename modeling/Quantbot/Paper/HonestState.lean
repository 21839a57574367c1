import Quantbot.Paper.HonestLedgers
import Quantbot.Paper.Reconcile.State

/-!
The position state that a sequence of runs leaves, against the ledgers of the runs.
-/

namespace Quantbot

open Reconcile

variable {cfg : PaperConfig} {M : PriceBook → FundingIndex → BarStep → Prop} {book final : Book}
  {steps : List BarStep} {snapshots : List SnapshotRow}

section openBook

theorem lastWith_eq_getLast? {α κ : Type} [DecidableEq κ] (key : α → κ) (k : κ) (rows : List α)
    : lastWith key k rows = (rows.filter (fun r => key r = k)).getLast? := by
  unfold lastWith
  rw [← List.head?_filter, List.filter_reverse, List.head?_reverse]

theorem count_fillSymbols (kind symbol : String) (fills : List FillRow)
    : (fillSymbols kind fills).count symbol
        = ((fills.filter (fun f => f.symbol = symbol)).filter (fun f => f.kind = kind)).length := by
  unfold fillSymbols
  rw [List.count_eq_length_filter, List.filter_map, List.length_map, List.filter_filter,
    List.filter_filter]
  congr 1
  apply List.filter_congr
  intro f _
  rw [Bool.eq_iff_iff]
  simp [and_comm]

theorem mem_openBook {fills : List FillRow} {symbol : String}
    : symbol ∈ openBook fills
        ↔ (fillSymbols "exit" fills).count symbol < (fillSymbols "entry" fills).count symbol := by
  unfold openBook
  rw [List.mem_filter, Std.ExtTreeSet.mem_toList, Std.ExtTreeSet.mem_ofList,
    List.contains_iff_mem, decide_eq_true_eq, and_iff_right_iff_imp]
  intro h
  exact List.count_pos_iff.mp (Nat.zero_lt_of_lt h)

theorem sorted_openBook (fills : List FillRow) : (openBook fills).Pairwise (· < ·) := by
  apply List.Pairwise.filter
  exact Std.ExtTreeSet.ordered_toList.imp fun h => compare_lt_iff_lt.mp h

/--
The open symbols of fills that pair up are those with an open entry.
-/
theorem RoundTrips.mem_openBook {fills : List FillRow} {trades : List TradeRow} {symbol : String}
    {entry : Option FillRow}
    (h : RoundTrips (fills.filter (fun f => f.symbol = symbol)) trades entry)
    : symbol ∈ openBook fills ↔ entry.isSome := by
  obtain ⟨hentries, hexits⟩ := h.length_kinds
  rw [Quantbot.mem_openBook, count_fillSymbols, count_fillSymbols, hentries, hexits]
  cases entry <;> simp

theorem RoundTrips.lastEntryFill {fills : List FillRow} {trades : List TradeRow} {symbol : String}
    {entry : FillRow}
    (h : RoundTrips (fills.filter (fun f => f.symbol = symbol)) trades (some entry))
    : lastEntryFill fills symbol = some entry := by
  unfold Reconcile.lastEntryFill
  rw [lastWith_eq_getLast?, ← h.getLast?_entries, List.filter_filter, List.filter_filter]
  congr 1
  apply List.filter_congr
  intro f _
  rw [Bool.and_comm]

end openBook

section tied

variable (cfg steps snapshots) in
theorem filter_fills_symbol (symbol : String)
    : (stepsLedgers cfg steps snapshots).fills.filter (fun f => f.symbol = symbol)
        = steps.flatMap (fun b => b.fillsOf cfg symbol) :=
  List.filter_flatMap ..

theorem Chain.openBook_eq (h : Chain cfg M book steps final) (hempty : book.openPositions = ∅)
    : final.openPositions.keys = openBook (stepsLedgers cfg steps snapshots).fills := by
  have hsorted : final.openPositions.keys.Pairwise (· < ·) :=
    Std.ExtTreeMap.ordered_keys.imp fun h => compare_lt_iff_lt.mp h
  have hmem : ∀ symbol, symbol ∈ final.openPositions.keys
      ↔ symbol ∈ openBook (stepsLedgers cfg steps snapshots).fills := by
    intro symbol
    obtain ⟨entry, hinv⟩ := h.tripInv hempty symbol
    have htrips := hinv.trips
    rw [← filter_fills_symbol cfg steps snapshots] at htrips
    rw [htrips.mem_openBook, Std.ExtTreeMap.mem_keys, ← Std.ExtTreeMap.isSome_getElem?_iff_mem,
      hinv.held.isSome_eq]
  refine List.Perm.eq_of_pairwise ?_ hsorted (sorted_openBook _) ?_
  . intro p q _ _ hpq hqp
    exact absurd (hpq.trans hqp) (lt_irrefl _)
  . rw [List.perm_ext_iff_of_nodup (hsorted.imp ne_of_lt) ((sorted_openBook _).imp ne_of_lt)]
    exact hmem

theorem Chain.positionTied (h : Chain cfg M book steps final) (hempty : book.openPositions = ∅)
    (hshort : ShortLedgers (stepsLedgers cfg steps snapshots)) {symbol : String} {pos : Position}
    (hpos : final.openPositions[symbol]? = some pos) {ledgerPos : LedgerPosition}
    (hledger : ledgerPosition (stepsLedgers cfg steps snapshots) symbol = some ledgerPos)
    : PositionTied pos ledgerPos := by
  obtain ⟨entry, hinv⟩ := h.tripInv hempty symbol
  have hcarried := h.carried hempty symbol pos hpos
  have hheld := hinv.held
  have htrips := hinv.trips
  rw [hpos] at hheld
  rw [← filter_fills_symbol cfg steps snapshots] at htrips
  cases hheld with
  | @some _ entry entered =>
    unfold ledgerPosition at hledger
    rw [htrips.lastEntryFill] at hledger
    cases hledger
    constructor
    case entryFillId => exact entered.id
    case entryBarTs => exact entered.bar
    case entryFillTs => exact entered.fillTs
    case holdBars =>
      rw [hcarried.holdBars, entered.bar]
      simp only [stepsLedgers, List.filter_map, List.length_map]
      rfl
    case entryPrice =>
      show |pos.entryPrice - entry.fillPrice| ≤ openPosEps
      rw [← entered.price, abs_sub_comm]
      apply (roundDp.abs_sub_le 8 pos.entryPrice).trans
      norm_num [openPosEps]
    case qty =>
      show |pos.qty - entry.qty| ≤ openPosEps
      rw [← entered.qty, abs_sub_comm]
      apply (roundDp.abs_sub_le 10 pos.qty).trans
      norm_num [openPosEps]
    case fundingAccrued =>
      have hrows : (stepsLedgers cfg steps snapshots).funding.filter
          (fun r => r.symbol = symbol ∧ entry.signalBarTs < r.barTs)
            = (barsAfter steps entry.signalBarTs).flatMap
                (fun b => b.fundingRows.filter (fun r => r.symbol = symbol)) :=
        filter_funding_symbol (fun ts => entry.signalBarTs < ts) symbol steps
      show |pos.fundingAccrued - fundingTotal ((stepsLedgers cfg steps snapshots).funding.filter
        (fun r => r.symbol = symbol ∧ entry.signalBarTs < r.barTs))| ≤ stateAccEps
      rw [hrows]
      apply near_total (map_fundingAmount_of symbol)
      . rw [hcarried.funding, entered.bar]
        rfl
      . exact (length_fundingOf_le (fun ts => entry.signalBarTs < ts) symbol steps).trans
          hshort.funding.le

theorem Chain.accountTied (h : Chain cfg M book steps final) (hempty : book.openPositions = ∅)
    (hzero : book.acc = { realizedGross := 0, feesCum := 0, fundingCum := 0 })
    (hshort : ShortLedgers (stepsLedgers cfg steps snapshots)) {state : EngineState}
    (hacc : state.accumulators = final.acc) (hopen : state.openPositions = final.openPositions)
    : AccountTied state (stepsLedgers cfg steps snapshots) := by
  have htotals := h.bookTotals hzero
  constructor
  case realized =>
    rw [hacc]
    exact near_total BarStep.map_grossPnl htotals.realized hshort.trades.le
  case fees =>
    rw [hacc]
    exact near_total (BarStep.map_fee cfg) htotals.fees hshort.fills.le
  case funding =>
    rw [hacc]
    exact near_total BarStep.map_fundingAmount htotals.funding hshort.funding.le
  case openPositions =>
    rw [hopen]
    exact h.openBook_eq hempty
  case positions =>
    intro p hp _ ledgerPos hledger
    rw [hopen, mem_toList_iff] at hp
    exact h.positionTied hempty hshort hp hledger

end tied

section state

theorem EngineRuns.barsElapsed {state final : EngineState} {runs : List (RunInput × EngineResult)}
    (h : EngineRuns cfg state runs final)
    : final.barsElapsed = state.barsElapsed + (runsBars runs).length := by
  induction h with
  | nil state => simp [runsBars]
  | cons run rest ih =>
    obtain ⟨forward, book, hbars, hstate⟩ := runEngine_ok run
    rw [ih, hstate]
    simp only [Book.store, runsBars, List.flatMap_cons, List.length_append]
    push_cast
    ring

/--
A state that a book was stored as.
-/
theorem EngineRuns.stored {state final : EngineState} {runs : List (RunInput × EngineResult)}
    (h : EngineRuns cfg state runs final) (initialEquity : ℚ)
    (hstate : state = (state.load initialEquity).store state.barsElapsed)
    : final = (final.load initialEquity).store final.barsElapsed := by
  induction h with
  | nil state => exact hstate
  | cons run rest ih =>
    apply ih
    obtain ⟨forward, book, -, hstored⟩ := runEngine_ok run
    rw [hstored]
    rfl

theorem max?_getD_eq_foldl (l : List String) : l.max?.getD "" = l.foldl max "" := by
  cases l with
  | nil => rfl
  | cons x xs =>
    rw [List.max?_cons', Option.getD_some, List.foldl_cons, max_eq_right (empty_le x)]

theorem expectedPeak_near {peak initialEquity : ℚ}
    (hpeak : peak = (steps.map BarStep.equity).foldl max initialEquity)
    : peakOff (some peak) (expectedPeak initialEquity (stepsLedgers cfg steps snapshots).equity)
        = false := by
  have hnear := abs_foldl_max_sub_le (l := steps) (f := BarStep.equity)
    (g := fun b => b.equityRow.equity) (a := initialEquity) (b := initialEquity)
    (ε := 1 / (2 * 10 ^ 8)) (by simp) (by
      intro b _
      rw [abs_sub_comm]
      exact roundDp.abs_sub_le 8 b.equity)
  unfold peakOff expectedPeak stepsLedgers
  rw [decide_eq_false_iff_not, not_lt, hpeak, List.map_map]
  apply hnear.trans
  norm_num [stateAccEps]

theorem EngineRuns.stateTied {runs : List (RunInput × EngineResult)} {final : EngineState}
    (h : EngineRuns cfg (newState cfg.initialEquityUsd) runs final)
    (hshort : ShortLedgers (stepsLedgers cfg (runsBars runs) snapshots))
    : StateTied final (stepsLedgers cfg (runsBars runs) snapshots) cfg.initialEquityUsd := by
  have hchain : Chain cfg (fun _ _ _ => True) _ (runsBars runs) _ :=
    h.chain (fun _ _ _ _ => trivial)
  have hstored := h.stored cfg.initialEquityUsd rfl
  constructor
  case watermark =>
    have hwatermark := hchain.foldl_max_ts
    unfold latestEquityTs
    rw [max?_getD_eq_foldl]
    simp only [stepsLedgers, List.map_map]
    exact hwatermark.symm
  case barsElapsed =>
    rw [h.barsElapsed]
    simp [stepsLedgers, newState]
  case peak =>
    rw [hstored]
    exact expectedPeak_near (hchain.bookTotals rfl).peak
  case flat =>
    intro hnil
    have hsteps : runsBars runs = [] := List.map_eq_nil_iff.mp hnil
    rw [hsteps] at hchain
    have hopen : final.openPositions = ∅ := congrArg Book.openPositions hchain.eq_of_nil
    rw [hopen]
    rfl
  case account =>
    intro _
    exact hchain.accountTied rfl rfl hshort rfl rfl

end state

end Quantbot
