import Quantbot.Paper.Engine.Lemmas.Funding

/-!
Funding conservation: a position is charged every funding event between its entry fill and its exit
fill once, and nothing else.
-/

namespace Quantbot

def runsFills (cfg : PaperConfig) (runs : List (RunInput × EngineResult)) : List FillRow :=
  runs.flatMap (fun p => p.2.fills cfg)

def runsTrades (runs : List (RunInput × EngineResult)) : List TradeRow :=
  runs.flatMap (fun p => p.2.trades)

def runsFunding (runs : List (RunInput × EngineResult)) : List FundingRow :=
  runs.flatMap (fun p => p.2.funding)

/--
The two fills a trade closes.
-/
structure IsRoundTrip (t : TradeRow) (entry exit : FillRow) : Prop where
  entry_id : entry.fillId = t.entryFillId
  entry_symbol : entry.symbol = t.symbol
  entry_kind : entry.kind = "entry"
  entry_bar : entry.signalBarTs = t.entryBarTs
  exit_id : exit.fillId = t.exitFillId
  exit_symbol : exit.symbol = t.symbol
  exit_kind : exit.kind = "exit"
  exit_bar : exit.signalBarTs = t.exitBarTs

instance (t : TradeRow) (entry exit : FillRow) : Decidable (IsRoundTrip t entry exit) :=
  decidable_of_iff
    (entry.fillId = t.entryFillId ∧ entry.symbol = t.symbol ∧ entry.kind = "entry"
      ∧ entry.signalBarTs = t.entryBarTs ∧ exit.fillId = t.exitFillId ∧ exit.symbol = t.symbol
      ∧ exit.kind = "exit" ∧ exit.signalBarTs = t.exitBarTs)
    ⟨fun ⟨h1, h2, h3, h4, h5, h6, h7, h8⟩ => ⟨h1, h2, h3, h4, h5, h6, h7, h8⟩,
      fun h => ⟨h.1, h.2, h.3, h.4, h.5, h.6, h.7, h.8⟩⟩

/--
The events the rows of a position were charged for, row by row.
-/
def chargedEvents (index : FundingIndex) (symbol : String) (rows : List FundingRow)
    : FundingSeries :=
  rows.flatMap (fun r => fundingEventsIn index symbol r.windowStart r.windowEnd)

/--
The funding rows of one trade: disjoint windows from the entry fill to the exit fill, each row with
the events of its window, and all the events in between charged once.
-/
structure FundingConserved (index : FundingIndex) (funding : List FundingRow) (t : TradeRow)
    (entryFillTs exitFillTs : String) : Prop where
  disjoint : ((bookedFunding funding t.symbol t.entryBarTs t.exitBarTs).map
    FundingRow.window).Pairwise (fun v w => Disjoint (Set.Ioc v.1 v.2) (Set.Ioc w.1 w.2))
  union : (⋃ w ∈ (bookedFunding funding t.symbol t.entryBarTs t.exitBarTs).map FundingRow.window,
    Set.Ioc w.1 w.2) = Set.Ioc entryFillTs exitFillTs
  rows : ∀ r ∈ bookedFunding funding t.symbol t.entryBarTs t.exitBarTs,
    r.fundingEvents = (fundingEventsIn index t.symbol r.windowStart r.windowEnd).length
      ∧ r.fundingRate
        = roundDp 12 ((fundingEventsIn index t.symbol r.windowStart r.windowEnd).map Prod.snd).sum
  events : (chargedEvents index t.symbol
    (bookedFunding funding t.symbol t.entryBarTs t.exitBarTs)).Perm
      ((index.series t.symbol).filter (fun e => entryFillTs < e.1 ∧ e.1 ≤ exitFillTs))

/--
A charge carries the total rate and the number of the events in its window.
-/
def Charge.OfWindow (index : FundingIndex) (c : Charge) : Prop :=
  (c.rate, c.events, c.available) = fundingInInterval index c.symbol c.windowStart c.windowEnd

theorem heldCharge_ofWindow {prices : PriceBook} {index : FundingIndex}
    {windowStart ts symbol : String} {pos : Position} {c : Charge}
    (h : heldCharge prices index windowStart ts symbol pos = some c) : c.OfWindow index := by
  unfold heldCharge at h
  dsimp only at h
  split at h
  . cases h
  . cases h
    rfl

theorem Charge.OfWindow.events_rate {index : FundingIndex} {c : Charge} (h : c.OfWindow index)
    : c.events = (fundingEventsIn index c.symbol c.windowStart c.windowEnd).length
        ∧
      c.rate = ((fundingEventsIn index c.symbol c.windowStart c.windowEnd).map Prod.snd).sum := by
  unfold Charge.OfWindow fundingInInterval at h
  dsimp only at h
  split at h
  next hempty =>
    rw [List.isEmpty_iff] at hempty
    rw [hempty]
    simp only [Prod.mk.injEq] at h
    exact ⟨h.2.1, h.1⟩
  . simp only [Prod.mk.injEq] at h
    exact ⟨h.2.1, h.1⟩

theorem StepSpec.charge_ofWindow {cfg : PaperConfig} {prices : PriceBook} {index : FundingIndex}
    {windowStart : String} {b : BarStep} (h : StepSpec cfg prices index windowStart b) {c : Charge}
    (hc : c ∈ b.charges) : c.OfWindow index := by
  rw [BarStep.charges, List.mem_append, h.held, List.mem_filterMap, List.mem_map] at hc
  rcases hc with ⟨p, -, hp⟩ | ⟨x, hx, rfl⟩
  . exact heldCharge_ofWindow hp
  . obtain ⟨pos, nb, -, -, -, heq⟩ := h.exit_of_mem x hx
    rw [heq]
    rfl

/--
The invariant of the windows, and every charge taken from the one funding index.
-/
theorem Chain.fundingInv {cfg : PaperConfig} {index : FundingIndex} {book final : Book}
    {steps : List BarStep}
    (h : Chain cfg (fun p i b => FundingContiguous cfg p b.before b.obs ∧ i = index) book steps
      final)
    (hempty : book.openPositions = ∅)
    : FundingInv steps final
        ∧
      ∀ b ∈ steps, ∀ c ∈ b.charges, c.OfWindow index := by
  apply h.invariant
    (fun done book => FundingInv done book ∧ ∀ b ∈ done, ∀ c ∈ b.charges, c.OfWindow index) []
  . refine ⟨FundingInv.initial hempty, ?_⟩
    intro b hb
    cases hb
  . intro done prices i windowStart b hmarket hpast hspec hinv
    refine ⟨hinv.1.step hspec hmarket.1 hpast, ?_⟩
    intro d hd
    rw [List.mem_append, List.mem_singleton] at hd
    cases hd with
    | inl hmem => exact hinv.2 d hmem
    | inr heq =>
      subst heq
      intro c hc
      rw [← hmarket.2]
      exact hspec.charge_ofWindow hc

theorem bookedFunding_row {steps : List BarStep} {index : FundingIndex}
    (hcharges : ∀ b ∈ steps, ∀ c ∈ b.charges, c.OfWindow index) {symbol lo hi : String}
    {r : FundingRow} (hr : r ∈ bookedFunding (stepsFunding steps) symbol lo hi)
    : r.fundingEvents = (fundingEventsIn index symbol r.windowStart r.windowEnd).length
        ∧
      r.fundingRate
        = roundDp 12 ((fundingEventsIn index symbol r.windowStart r.windowEnd).map Prod.snd).sum := by
  unfold bookedFunding at hr
  rw [List.mem_filter] at hr
  obtain ⟨hmem, hcond⟩ := hr
  have hsymbol := (of_decide_eq_true hcond).1
  simp only [stepsFunding, List.mem_flatMap, BarStep.fundingRows, List.mem_map] at hmem
  obtain ⟨b, hb, c, hc, rfl⟩ := hmem
  obtain ⟨hevents, hrate⟩ := (hcharges b hb c hc).events_rate
  rw [← hsymbol]
  simp only [Charge.row]
  rw [← hrate, hevents]
  exact ⟨rfl, rfl⟩

/--
In every sequence of runs from the new state whose bars all meet the condition, funding is
conserved for every closed trade.
-/
theorem funding_conserved (cfg : PaperConfig) (fundingDf : List FundingEvent) (final : EngineState)
    (runs : List (RunInput × EngineResult))
    (hruns : EngineRuns cfg (newState cfg.initialEquityUsd) runs final)
    (hfunding : ∀ p ∈ runs, p.1.fundingDf = fundingDf)
    (hcontiguous : ∀ p ∈ runs, ∀ b ∈ p.2.bars,
      FundingContiguous cfg p.1.prices b.before b.obs)
    : ∀ t ∈ runsTrades runs, ∃ entry ∈ runsFills cfg runs, ∃ exit ∈ runsFills cfg runs,
        IsRoundTrip t entry exit
          ∧
        FundingConserved (buildFundingIndex fundingDf) (runsFunding runs) t entry.fillTs
          exit.fillTs := by
  have hchain : Chain cfg (fun p i b => FundingContiguous cfg p b.before b.obs
      ∧ i = buildFundingIndex fundingDf) _ (runsBars runs) _ := hruns.chain (by
    intro p hp b hb
    exact ⟨hcontiguous p hp b hb, by rw [hfunding p hp]⟩)
  obtain ⟨hinv, hcharges⟩ := hchain.fundingInv rfl
  have hrowsEq : runsFunding runs = stepsFunding (runsBars runs) := by
    simp only [runsFunding, stepsFunding, runsBars, EngineResult.funding, List.flatMap_assoc]
  have hfillsEq : runsFills cfg runs = (runsBars runs).flatMap (fun b => b.fillRows cfg) := by
    simp only [runsFills, runsBars, EngineResult.fills, List.flatMap_assoc]
  have htradesEq : runsTrades runs = (runsBars runs).flatMap BarStep.tradeRows := by
    simp only [runsTrades, runsBars, EngineResult.trades, List.flatMap_assoc]
  intro t ht
  rw [htradesEq] at ht
  simp only [List.mem_flatMap, BarStep.tradeRows, List.mem_map] at ht
  obtain ⟨b, hb, x, hx, rfl⟩ := ht
  obtain ⟨⟨d, hd, e, he, hsymbol, hbar, hfill, hid⟩, hcovers⟩ := hinv.closed b hb x hx
  refine ⟨e.fillRow cfg d.ts d.commitId, ?_, x.fillRow cfg b.ts b.commitId, ?_, ?_, ?_⟩
  . rw [hfillsEq, List.mem_flatMap]
    exact ⟨d, hd, List.mem_append_right _ (List.mem_map_of_mem he)⟩
  . rw [hfillsEq, List.mem_flatMap]
    exact ⟨b, hb, List.mem_append_left _ (List.mem_map_of_mem hx)⟩
  . constructor
    case entry_id =>
      simp only [Entry.fillRow, Exit.tradeRow]
      rw [hid, hsymbol]
    case entry_symbol => exact hsymbol
    case entry_bar => exact hbar.symm
    all_goals rfl
  . have hcovers' : Covers ((bookedFunding (runsFunding runs) x.symbol x.pos.entryBarTs
        b.ts).map FundingRow.window) e.nextTs x.nextTs := by
      rw [hrowsEq, ← hfill]
      exact hcovers
    constructor
    case disjoint => exact hcovers'.pairwise_disjoint
    case union => exact hcovers'.iUnion_eq
    case rows =>
      intro r hr
      rw [hrowsEq] at hr
      exact bookedFunding_row hcharges hr
    case events =>
      have hperm := hcovers'.flatMap_filter_perm Prod.fst
        ((buildFundingIndex fundingDf).series x.symbol)
      rw [List.flatMap_map] at hperm
      unfold chargedEvents
      simp only [fundingEventsIn_eq_filter (buildFundingIndex_sorted fundingDf _)]
      exact hperm

instance (cfg : PaperConfig) (prices : PriceBook) (book : Book) (obs : Obs)
    : Decidable (FundingContiguous cfg prices book obs) :=
  decidable_of_iff
    (∀ p ∈ book.openPositions.toList,
      (∀ windowStart ∈ (intervalStart obs.timestamp cfg.barIntervalHours).toOption,
        p.2.entryFillTs < obs.timestamp →
          max windowStart p.2.entryFillTs
            = if p.2.holdBars = 0 then p.2.entryFillTs else max book.watermark p.2.entryFillTs)
      ∧
      (p.1 ∉ obs.activeSymbols → ∀ next ∈ prices.nextBar p.1 obs.timestamp,
        (p.2.entryFillTs ≤ obs.timestamp ∧ obs.timestamp ≤ next.1)
          ∨ (obs.timestamp ≤ p.2.entryFillTs ∧ next.1 ≤ obs.timestamp)))
    (by
      constructor
      . intro h
        constructor
        . intro symbol pos windowStart hpos hwindow
          exact (h (symbol, pos) (mem_toList_iff.mpr hpos)).1 windowStart (by rw [hwindow]; rfl)
        . intro symbol pos next hpos hactive hnext
          exact (h (symbol, pos) (mem_toList_iff.mpr hpos)).2 hactive next hnext
      . intro h p hp
        rw [mem_toList_iff] at hp
        constructor
        . intro windowStart hwindow
          apply h.held p.1 p.2 windowStart hp
          cases hstart : intervalStart obs.timestamp cfg.barIntervalHours with
          | error e =>
            rw [hstart] at hwindow
            cases hwindow
          | ok start =>
            rw [hstart] at hwindow
            cases hwindow
            rfl
        . intro hactive next hnext
          exact h.exit p.1 p.2 next hp hactive hnext)

def fundedBook : PriceBook where
  barsBySymbol := Std.ExtTreeMap.ofList [("BTCUSDT", [
    Bar.mk "2026-06-14T00:00:00" 100 101,
    Bar.mk "2026-06-14T08:00:00" 102 103,
    Bar.mk "2026-06-14T16:00:00" 104 105,
    Bar.mk "2026-06-15T00:00:00" 106 107,
    Bar.mk "2026-06-15T08:00:00" 108 109])]

def eightHourly (day hour : ℕ) : Option FundingEvent :=
  (DateTime.make 2026 6 day hour 0 0).toOption.map
    (fun dt => { symbol := "BTCUSDT", dt := dt, fundingRate := 1 / 10000 })

def fundedConfig : PaperConfig :=
  PaperConfig.build "2026-06-14T00:00:00Z" "cfg"

/--
One position, held from the first of the given bars to the last of them.
-/
def fundedInput (bars : List (String × List String)) : RunInput where
  perBarObs := bars.map (fun b => ⟨0, b.1, b.2, 0, false, 0, "\x7b\x7d"⟩)
  prices := fundedBook
  fundingDf :=
    [eightHourly 14 8, eightHourly 14 16, eightHourly 15 0, eightHourly 15 8].reduceOption

def everyBarInput : RunInput :=
  fundedInput [("2026-06-14T00:00:00", ["BTCUSDT"]), ("2026-06-14T08:00:00", ["BTCUSDT"]),
    ("2026-06-14T16:00:00", [])]

/--
The bars at 08:00 and 16:00 are missing.
-/
def gapInput : RunInput :=
  fundedInput [("2026-06-14T00:00:00", ["BTCUSDT"]), ("2026-06-15T00:00:00", [])]

theorem funding_conserved_everyBar
    : ∃ r final, EngineRuns fundedConfig (newState fundedConfig.initialEquityUsd)
          [(everyBarInput, r)] final
        ∧ r.trades.length = 1
        ∧ ∀ t ∈ runsTrades [(everyBarInput, r)],
          ∃ entry ∈ runsFills fundedConfig [(everyBarInput, r)],
          ∃ exit ∈ runsFills fundedConfig [(everyBarInput, r)],
            IsRoundTrip t entry exit
              ∧
            FundingConserved (buildFundingIndex everyBarInput.fundingDf)
              (runsFunding [(everyBarInput, r)]) t entry.fillTs exit.fillTs := by
  have hrun : ∃ r, runEngine fundedConfig everyBarInput.perBarObs everyBarInput.prices
      everyBarInput.fundingDf (newState fundedConfig.initialEquityUsd) = .ok r := by
    cases hr : runEngine fundedConfig everyBarInput.perBarObs everyBarInput.prices
        everyBarInput.fundingDf (newState fundedConfig.initialEquityUsd) with
    | ok r => exact ⟨r, rfl⟩
    | error e =>
      have hok : (runEngine fundedConfig everyBarInput.perBarObs everyBarInput.prices
          everyBarInput.fundingDf (newState fundedConfig.initialEquityUsd)).isOk = true := by
        decide +kernel
      rw [hr] at hok
      cases hok
  obtain ⟨r, hr⟩ := hrun
  have hfacts : ∀ r' ∈ (runEngine fundedConfig everyBarInput.perBarObs everyBarInput.prices
      everyBarInput.fundingDf (newState fundedConfig.initialEquityUsd)).toOption,
      r'.trades.length = 1
        ∧ ∀ b ∈ r'.bars, FundingContiguous fundedConfig everyBarInput.prices b.before b.obs := by
    decide +kernel
  obtain ⟨hlength, hcontiguous⟩ := hfacts r (by rw [hr]; rfl)
  have hruns : EngineRuns fundedConfig (newState fundedConfig.initialEquityUsd)
      [(everyBarInput, r)] r.state := EngineRuns.cons hr (EngineRuns.nil _)
  refine ⟨r, r.state, hruns, hlength, ?_⟩
  apply funding_conserved fundedConfig everyBarInput.fundingDf r.state [(everyBarInput, r)] hruns
  . simp
  . simpa using hcontiguous

/--
Across a gap the event at 16:00, between the entry fill at 08:00 and the exit fill, is not charged.
-/
theorem funding_not_conserved_gap
    : (∀ obs ∈ gapInput.perBarObs, ∃ d ∈ (parseBarUtc obs.timestamp).toOption, d.OnGrid 8)
        ∧ gapInput.perBarObs.Pairwise (fun a b => a.timestamp < b.timestamp)
        ∧ ∃ r, runEngine fundedConfig gapInput.perBarObs gapInput.prices gapInput.fundingDf
            (newState fundedConfig.initialEquityUsd) = .ok r
          ∧ ∃ t ∈ r.trades, ¬ ∃ entry ∈ r.fills fundedConfig, ∃ exit ∈ r.fills fundedConfig,
            IsRoundTrip t entry exit
              ∧
            FundingConserved (buildFundingIndex gapInput.fundingDf) r.funding t entry.fillTs
              exit.fillTs := by
  refine ⟨by decide +kernel, by decide +kernel, ?_⟩
  have hfacts : ∃ r ∈ (runEngine fundedConfig gapInput.perBarObs gapInput.prices
      gapInput.fundingDf (newState fundedConfig.initialEquityUsd)).toOption,
      ∃ t ∈ r.trades, ∀ entry ∈ r.fills fundedConfig, ∀ exit ∈ r.fills fundedConfig,
        IsRoundTrip t entry exit →
        ¬ (chargedEvents (buildFundingIndex gapInput.fundingDf) t.symbol
            (bookedFunding r.funding t.symbol t.entryBarTs t.exitBarTs)).Perm
          (((buildFundingIndex gapInput.fundingDf).series t.symbol).filter
            (fun e => entry.fillTs < e.1 ∧ e.1 ≤ exit.fillTs)) := by
    decide +kernel
  obtain ⟨r, hr, t, ht, hno⟩ := hfacts
  refine ⟨r, ?_, t, ht, ?_⟩
  . cases hrun : runEngine fundedConfig gapInput.perBarObs gapInput.prices gapInput.fundingDf
        (newState fundedConfig.initialEquityUsd) with
    | error e =>
      rw [hrun] at hr
      cases hr
    | ok r' =>
      rw [hrun] at hr
      cases hr
      rfl
  . rintro ⟨entry, hentry, exit, hexit, htrip, hconserved⟩
    exact hno entry hentry exit hexit htrip hconserved.events

end Quantbot
