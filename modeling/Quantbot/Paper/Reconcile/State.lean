import Quantbot.Paper.Reconcile.Lemmas

/-!
The position state tied to the ledgers, and what the tie and the ledger checks do not look at.
-/

namespace Quantbot

namespace Reconcile

variable {cfg : PaperConfig} {l : Ledgers} {state : EngineState} {initialEquity : ℚ}

/--
The open position agrees with the ledgers' account of it.
-/
structure PositionTied (pos : Position) (ledgerPos : LedgerPosition) : Prop where
  entryFillId : pos.entryFillId = ledgerPos.entryFillId
  entryBarTs : pos.entryBarTs = ledgerPos.entryBarTs
  entryFillTs : pos.entryFillTs = ledgerPos.entryFillTs
  holdBars : pos.holdBars = ledgerPos.holdBars
  entryPrice : |pos.entryPrice - ledgerPos.entryPrice| ≤ openPosEps
  qty : |pos.qty - ledgerPos.qty| ≤ openPosEps
  fundingAccrued : |pos.fundingAccrued - ledgerPos.fundingAccrued| ≤ stateAccEps

theorem openPositionFailures_eq_nil {symbol : String} {pos : Position} {ledgerPos : LedgerPosition}
    : openPositionFailures symbol pos ledgerPos = [] ↔ PositionTied pos ledgerPos := by
  simp only [openPositionFailures, List.append_eq_nil_iff, failIf_eq_nil, not_lt, not_not]
  constructor
  . rintro ⟨⟨⟨⟨⟨⟨h1, h2⟩, h3⟩, h4⟩, h5⟩, h6⟩, h7⟩
    exact ⟨h1, h2, h3, h4, h5, h6, h7⟩
  . intro h
    exact ⟨⟨⟨⟨⟨⟨h.entryFillId, h.entryBarTs⟩, h.entryFillTs⟩, h.holdBars⟩, h.entryPrice⟩, h.qty⟩,
      h.fundingAccrued⟩

/--
The accumulators and the open positions against ledgers that have bars.
-/
structure AccountTied (state : EngineState) (l : Ledgers) : Prop where
  realized : |state.accumulators.realizedGross - (l.trades.map TradeRow.grossPnl).sum| ≤ stateAccEps
  fees : |state.accumulators.feesCum - (l.fills.map FillRow.fee).sum| ≤ stateAccEps
  funding : |state.accumulators.fundingCum - fundingTotal l.funding| ≤ stateAccEps
  openPositions : state.openPositions.keys = openBook l.fills
  positions : ∀ p ∈ state.openPositions.toList, p.1 ∈ openBook l.fills →
    ∀ ledgerPos ∈ ledgerPosition l p.1, PositionTied p.2 ledgerPos

/--
The strict tie of a committed state.
-/
structure StateTied (state : EngineState) (l : Ledgers) (initialEquity : ℚ) : Prop where
  watermark : state.watermarkBarTs.getD "" = (latestEquityTs l.equity).getD ""
  barsElapsed : state.barsElapsed = l.equity.length
  peak : peakOff state.peakEquity (expectedPeak initialEquity l.equity) = false
  flat : l.equity = [] → state.openPositions.keys = []
  account : l.equity ≠ [] → AccountTied state l

theorem latestEquityTs_eq_some (h : l.equity ≠ [])
    : ∃ latest, latestEquityTs l.equity = some latest := by
  unfold latestEquityTs
  cases hmax : (l.equity.map EquityRow.barTs).max? with
  | none =>
    rw [List.max?_eq_none_iff, List.map_eq_nil_iff] at hmax
    exact absurd hmax h
  | some latest => exact ⟨latest, rfl⟩

theorem positionsTied_eq_nil
    : state.openPositions.toList.flatMap (fun p =>
        if p.1 ∈ openBook l.fills then
          ((ledgerPosition l p.1).map (openPositionFailures p.1 p.2)).getD []
        else
          []) = []
        ↔ ∀ p ∈ state.openPositions.toList, p.1 ∈ openBook l.fills →
          ∀ ledgerPos ∈ ledgerPosition l p.1, PositionTied p.2 ledgerPos := by
  rw [List.flatMap_eq_nil_iff]
  apply forall₂_congr
  intro p _
  by_cases hopen : p.1 ∈ openBook l.fills
  . rw [if_pos hopen]
    cases ledgerPosition l p.1 with
    | none => simp [hopen]
    | some ledgerPos =>
      simp [hopen, openPositionFailures_eq_nil]
  . simp [hopen]

theorem strictStateInvariants_eq_nil
    : strictStateInvariants state l initialEquity = [] ↔ StateTied state l initialEquity := by
  unfold strictStateInvariants
  dsimp only
  split
  next hempty =>
    simp only [List.append_eq_nil_iff, failIf_eq_nil, not_not, Bool.not_eq_true]
    constructor
    . rintro ⟨⟨⟨h1, h2⟩, h3⟩, h4⟩
      constructor
      case watermark =>
        rw [h1, hempty]
        rfl
      case barsElapsed =>
        rw [h2, hempty]
        rfl
      case peak =>
        rw [hempty]
        exact h4
      case flat =>
        intro _
        exact h3
      case account =>
        intro hne
        exact absurd hempty hne
    . intro h
      refine ⟨⟨⟨?_, ?_⟩, h.flat hempty⟩, ?_⟩
      . rw [h.watermark, hempty]
        rfl
      . rw [h.barsElapsed, hempty]
        rfl
      . have := h.peak
        rw [hempty] at this
        exact this
  next hne =>
    obtain ⟨latest, hlatest⟩ := latestEquityTs_eq_some hne
    simp only [List.append_eq_nil_iff, failIf_eq_nil, not_not, Bool.not_eq_true,
      accumulatorFailures, not_lt, positionsTied_eq_nil]
    constructor
    . rintro ⟨⟨⟨⟨⟨⟨⟨h1, h2⟩, h3⟩, h4⟩, h5⟩, h6⟩, h7⟩, h8⟩
      constructor
      case watermark =>
        rw [← h1]
        rfl
      case barsElapsed => exact h2
      case peak => exact h6
      case flat =>
        intro hempty
        exact absurd hempty hne
      case account =>
        intro _
        exact ⟨h3, h4, h5, h7, h8⟩
    . intro h
      obtain ⟨h3, h4, h5, h7, h8⟩ := h.account hne
      refine ⟨⟨⟨⟨⟨⟨⟨?_, h.barsElapsed⟩, h3⟩, h4⟩, h5⟩, h.peak⟩, h7⟩, h8⟩
      rw [h.watermark, hlatest]
      rfl

theorem stateFailures_strict_eq_nil
    : stateFailures (some state) l initialEquity true = [] ↔ StateTied state l initialEquity := by
  unfold stateFailures
  simp only [if_true, List.append_eq_nil_iff, strictStateInvariants_eq_nil]
  constructor
  . intro h
    exact h.2
  . intro h
    refine ⟨?_, h⟩
    have hwatermark := h.watermark
    cases hlatest : latestEquityTs l.equity with
    | none =>
      rw [hlatest] at hwatermark
      simpa using hwatermark
    | some latest =>
      rw [hlatest] at hwatermark
      simp only [failIf_eq_nil, not_and, not_lt]
      intro _
      exact hwatermark.le

/--
A state whose watermark is not past the newest bar passes the lenient check.
-/
theorem stateFailures_lenient_eq_nil {latest : Option String}
    (hlatest : latestEquityTs l.equity = latest)
    (h : state.watermarkBarTs.getD "" ≤ latest.getD "")
    : stateFailures (some state) l initialEquity false = [] := by
  unfold stateFailures
  rw [hlatest]
  cases latest with
  | none =>
    have hempty : state.watermarkBarTs.getD "" = "" := by
      apply le_antisymm h
      exact empty_le _
    simpa using hempty
  | some latest =>
    simp only [Bool.false_eq_true, if_false, List.append_nil, failIf_eq_nil, not_and, not_lt]
    intro _
    exact h

end Reconcile

section undated

open Reconcile

/--
A snapshot without the time of the run that froze it.
-/
def SnapshotRow.undated (s : SnapshotRow) : SnapshotRow :=
  { s with runTs := "" }

def Ledgers.undated (l : Ledgers) : Ledgers :=
  { l with snapshots := l.snapshots.map SnapshotRow.undated }

variable {cfg : PaperConfig} {l l' : Ledgers}

theorem undated_map {α : Type} {field : SnapshotRow → α} (hfield : ∀ s, field s.undated = field s)
    (snapshots : List SnapshotRow)
    : (snapshots.map SnapshotRow.undated).map field = snapshots.map field := by
  rw [List.map_map]
  apply List.map_congr_left
  intro s _
  exact hfield s

theorem Reconcile.committed_undated {snapshots : List SnapshotRow} {barTs commitId : String}
    : Committed (snapshots.map SnapshotRow.undated) barTs commitId
        ↔ Committed snapshots barTs commitId := by
  unfold Committed
  have hlast : lastWith SnapshotRow.barTs barTs (snapshots.map SnapshotRow.undated)
      = (lastWith SnapshotRow.barTs barTs snapshots).map SnapshotRow.undated :=
    lastWith_map (fun _ => rfl)
  rw [hlast]
  cases lastWith SnapshotRow.barTs barTs snapshots with
  | none => simp
  | some s => simp [SnapshotRow.undated]

theorem Reconcile.commits_undated : Commits l.undated ↔ Commits l := by
  constructor
  . intro h
    constructor
    case snapshots =>
      intro s hs
      exact h.snapshots s.undated (List.mem_map_of_mem hs)
    case fills => exact fun f hf => committed_undated.mp (h.fills f hf)
    case trades => exact fun t ht => committed_undated.mp (h.trades t ht)
    case funding => exact fun f hf => committed_undated.mp (h.funding f hf)
    case positions => exact fun p hp => committed_undated.mp (h.positions p hp)
    case equity => exact fun e he => committed_undated.mp (h.equity e he)
  . intro h
    constructor
    case snapshots =>
      intro s hs
      obtain ⟨s', hs', rfl⟩ := List.mem_map.mp hs
      exact h.snapshots s' hs'
    case fills => exact fun f hf => committed_undated.mpr (h.fills f hf)
    case trades => exact fun t ht => committed_undated.mpr (h.trades t ht)
    case funding => exact fun f hf => committed_undated.mpr (h.funding f hf)
    case positions => exact fun p hp => committed_undated.mpr (h.positions p hp)
    case equity => exact fun e he => committed_undated.mpr (h.equity e he)

theorem Reconcile.snapshotTie_undated : SnapshotTie l.undated ↔ SnapshotTie l := by
  have hbars : l.undated.snapshots.map SnapshotRow.barTs = l.snapshots.map SnapshotRow.barTs :=
    undated_map (fun _ => rfl) l.snapshots
  have hsnapshot : (∀ s ∈ l.undated.snapshots, s.barTs ∈ l.equity.map EquityRow.barTs)
      ↔ ∀ s ∈ l.snapshots, s.barTs ∈ l.equity.map EquityRow.barTs := by
    simp [Ledgers.undated, SnapshotRow.undated]
  constructor
  . intro h
    refine ⟨?_, ?_, hsnapshot.mp h.snapshot⟩
    . rw [← hbars]
      exact h.unique
    . rw [← hbars]
      exact h.equity
  . intro h
    refine ⟨?_, ?_, hsnapshot.mpr h.snapshot⟩
    . rw [hbars]
      exact h.unique
    . rw [hbars]
      exact h.equity

theorem Reconcile.unique_undated : Unique l.undated ↔ Unique l := by
  have hids : l.undated.snapshots.map SnapshotRow.snapshotId
      = l.snapshots.map SnapshotRow.snapshotId :=
    undated_map (fun _ => rfl) l.snapshots
  constructor
  . intro h
    refine ⟨h.fills, h.trades, h.funding, h.equity, h.positions, ?_⟩
    rw [← hids]
    exact h.snapshots
  . intro h
    refine ⟨h.fills, h.trades, h.funding, h.equity, h.positions, ?_⟩
    rw [hids]
    exact h.snapshots

theorem Reconcile.ledgersChecked_undated : LedgersChecked cfg l.undated ↔ LedgersChecked cfg l := by
  constructor
  . intro h
    exact ⟨unique_undated.mp h.unique, snapshotTie_undated.mp h.snapshots,
      commits_undated.mp h.commits, h.fills, h.trades, h.equity, h.funding, h.fundingTotal,
      h.positions⟩
  . intro h
    exact ⟨unique_undated.mpr h.unique, snapshotTie_undated.mpr h.snapshots,
      commits_undated.mpr h.commits, h.fills, h.trades, h.equity, h.funding, h.fundingTotal,
      h.positions⟩

/--
The ledger checks do not look at the times of the runs.
-/
theorem Reconcile.LedgersChecked.of_undated (hundated : l.undated = l'.undated)
    (h : LedgersChecked cfg l) : LedgersChecked cfg l' := by
  rw [← ledgersChecked_undated, ← hundated, ledgersChecked_undated]
  exact h

theorem Reconcile.StateTied.of_undated {state : EngineState} {initialEquity : ℚ}
    (hundated : l.undated = l'.undated) (h : StateTied state l initialEquity)
    : StateTied state l' initialEquity := by
  have htied : StateTied state l.undated initialEquity :=
    ⟨h.watermark, h.barsElapsed, h.peak, h.flat, fun hne =>
      ⟨(h.account hne).realized, (h.account hne).fees, (h.account hne).funding,
        (h.account hne).openPositions, (h.account hne).positions⟩⟩
  rw [hundated] at htied
  exact ⟨htied.watermark, htied.barsElapsed, htied.peak, htied.flat, fun hne =>
    ⟨(htied.account hne).realized, (htied.account hne).fees, (htied.account hne).funding,
      (htied.account hne).openPositions, (htied.account hne).positions⟩⟩

end undated

end Quantbot
