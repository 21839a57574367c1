import Mathlib
import Quantbot.Paper.Engine.Lemmas.Funding
import Quantbot.Paper.Funding.Coverage
import Quantbot.Paper.Funding.Evidence
import Quantbot.Paper.Runner.Lemmas.Rows
import Quantbot.Paper.Timestamp.FromIso

/-!
What the funding gate before a batch guarantees about the accruals of the engine.
-/

namespace Quantbot

/--
The gate lets the batch through.
-/
def CoverageDecision.Passes (decision : CoverageDecision) : Prop :=
  decision = .coverageComplete ∨ decision = .coverageNotRequired

instance (decision : CoverageDecision) : Decidable decision.Passes :=
  inferInstanceAs (Decidable (_ ∨ _))

section classifyRows

variable {loadWindow : FundingWindowLoader}

/--
What a row that is not missing says.
-/
theorem coverageRow_ok {row : FundingWindowRow} {r : CoverageRow}
    (h : coverageRow loadWindow row = .ok r)
    : r.symbol = row.symbol
        ∧
      (r.missing = false → ∃ ws we, fromIsoFormat row.windowStart = .ok ws
        ∧ fromIsoFormat row.windowEnd = .ok we
        ∧ (loadWindow row.symbol ws.epochMs we.epochMs).cleanNetOfCarryAllowed = true) := by
  obtain ⟨ws, hws, h⟩ := bind_eq_ok.mp h
  obtain ⟨we, hwe, h⟩ := bind_eq_ok.mp h
  cases h
  refine ⟨rfl, ?_⟩
  intro hmissing
  refine ⟨ws, we, hws, hwe, ?_⟩
  unfold CoverageRow.missing at hmissing
  rw [Bool.or_eq_false_iff] at hmissing
  by_contra hclean
  simp [hclean] at hmissing

theorem symbolDecision_missing {rows : List CoverageRow} {r : CoverageRow} (hmem : r ∈ rows)
    (hmissing : r.missing = true)
    : symbolDecision rows = .coverageMissing ∨ symbolDecision rows = .coveragePartial := by
  have hne : rows.filter CoverageRow.missing ≠ [] :=
    List.ne_nil_of_mem (List.mem_filter.mpr ⟨hmem, hmissing⟩)
  unfold symbolDecision
  dsimp only
  rw [if_neg hne]
  split
  . exact .inl rfl
  . exact .inr rfl

theorem mem_sortedSymbols {symbols : List String} {symbol : String}
    : symbol ∈ sortedSymbols symbols ↔ symbol ∈ symbols := by
  unfold sortedSymbols
  rw [List.mem_insertionSort, List.mem_dedup]

/--
A missing row is never passed over.
-/
theorem overallDecision_missing {rows pool : List CoverageRow} {r : CoverageRow}
    (onlyInLedger : List String) (hmem : r ∈ pool) (hmissing : r.missing = true)
    : ¬(overallDecision rows pool (perSymbolDecision pool onlyInLedger)).Passes := by
  have hdecision : symbolDecision (pool.filter (fun row => row.symbol = r.symbol))
      ∈ (perSymbolDecision pool onlyInLedger).map Prod.snd := by
    rw [List.mem_map]
    refine ⟨(r.symbol, _), ?_, rfl⟩
    apply List.mem_append_left
    rw [List.mem_map]
    exact ⟨r.symbol, mem_sortedSymbols.mpr (List.mem_map_of_mem hmem), rfl⟩
  have hgap := @symbolDecision_missing (pool.filter (fun row => row.symbol = r.symbol)) r
    (by simpa using hmem) hmissing
  unfold overallDecision CoverageDecision.Passes
  dsimp only
  rw [if_neg (by
    rintro ⟨rfl, -⟩
    cases hmem)]
  split
  . simp
  next hnone =>
    rw [if_pos]
    . simp
    . rcases hgap with hgap | hgap
      . rw [hgap] at hdecision
        exact absurd hdecision hnone
      . rw [hgap] at hdecision
        exact hdecision

theorem classifyRows_passes {rows : List FundingWindowRow} {allowed : List String}
    {report : FundingCoverageReport}
    (h : classifyRowsWithLoader loadWindow rows (some allowed) = .ok report)
    (hpass : report.overallDecision.Passes)
    : ∀ row ∈ rows, row.symbol ∈ allowed → ∃ ws we, fromIsoFormat row.windowStart = .ok ws
        ∧ fromIsoFormat row.windowEnd = .ok we
        ∧ (loadWindow row.symbol ws.epochMs we.epochMs).cleanNetOfCarryAllowed = true := by
  obtain ⟨covered, hcovered, h⟩ := bind_eq_ok.mp h
  cases h
  intro row hrow hallowed
  obtain ⟨r, hr, hok⟩ := forall₂_mem_right (mapM_eq_ok hcovered).flip hrow
  obtain ⟨hsymbol, hclean⟩ := coverageRow_ok hok
  apply hclean
  rw [← Bool.not_eq_true]
  intro hmissing
  apply overallDecision_missing _ _ hmissing hpass
  rw [List.mem_filter, decide_eq_true_eq, hsymbol]
  exact ⟨hr, hallowed⟩

end classifyRows

section batch

variable {forwardObs : List Obs} {prices : PriceBook} {csvs : ℕ → List SourceRow}
  {barIntervalHours : ℕ} {report : FundingCoverageReport}

theorem requiredIntervals_mem {intervals : List (DateTime × DateTime)}
    (h : requiredIntervals barIntervalHours forwardObs = .ok intervals) {obs : Obs}
    (hobs : obs ∈ forwardObs) (hts : obs.timestamp ≠ "")
    : ∃ ws we, fromIsoFormat obs.timestamp = .ok we ∧ we.subHours barIntervalHours = .ok ws
        ∧ (ws, we) ∈ intervals := by
  obtain ⟨found, hfound, h⟩ := bind_eq_ok.mp h
  cases h
  obtain ⟨interval, hmem, hinterval⟩ := forall₂_mem_right (mapM_eq_ok hfound).flip hobs
  unfold requiredInterval at hinterval
  rw [if_neg hts] at hinterval
  obtain ⟨we, hwe, hinterval⟩ := bind_eq_ok.mp hinterval
  obtain ⟨ws, hws, hinterval⟩ := bind_eq_ok.mp hinterval
  cases hinterval
  refine ⟨ws, we, hwe, hws, ?_⟩
  rw [List.mem_eraseDups, List.reduceOption_mem_iff]
  exact hmem

/--
Every symbol of the price book has a clean source window behind every bar of the batch.
-/
theorem batch_clean
    (h : checkFundingCoverageForBatch forwardObs prices csvs none barIntervalHours = .ok report)
    (hpass : report.overallDecision.Passes) {symbol : String}
    (hsymbol : symbol ∈ prices.barsBySymbol) {obs : Obs} (hobs : obs ∈ forwardObs)
    (hts : obs.timestamp ≠ "")
    : ∃ ws we, fromIsoFormat obs.timestamp = .ok we ∧ we.subHours barIntervalHours = .ok ws
        ∧ (classifyCsvWindow (csvs 8) symbol ws.epochMs we.epochMs).cleanNetOfCarryAllowed
          = true := by
  have hkey : symbol ∈ prices.barsBySymbol.keys := Std.ExtTreeMap.mem_keys.mpr hsymbol
  unfold checkFundingCoverageForBatch at h
  dsimp only at h
  split at h
  . cases h
  . rw [if_neg (List.ne_nil_of_mem hkey)] at h
    obtain ⟨intervals, hintervals, h⟩ := bind_eq_ok.mp h
    obtain ⟨ws, we, hwe, hws, hmem⟩ := requiredIntervals_mem hintervals hobs hts
    rw [if_neg (List.ne_nil_of_mem hmem)] at h
    have hrow : syntheticRow csvs barIntervalHours symbol (ws, we)
        ∈ prices.barsBySymbol.keys.flatMap (fun symbol =>
          intervals.map (syntheticRow csvs barIntervalHours symbol)) :=
      List.mem_flatMap.mpr ⟨symbol, hkey, List.mem_map_of_mem hmem⟩
    obtain ⟨ws', we', hws', hwe', hclean⟩ := classifyRows_passes h hpass _ hrow hkey
    change fromIsoFormat ws.strftime = _ at hws'
    change fromIsoFormat we.strftime = _ at hwe'
    rw [fromIsoFormat_strftime] at hws' hwe'
    cases hws'
    cases hwe'
    exact ⟨ws, we, hwe, hws, hclean⟩

end batch

/--
The funding table has an event of the symbol in the window.
-/
def HoldsEvent (fundingDf : List FundingEvent) (symbol lo hi : String) : Prop :=
  ∃ event ∈ fundingDf, event.symbol = symbol ∧ lo < event.dt.strftime ∧ event.dt.strftime ≤ hi

instance (fundingDf : List FundingEvent) (symbol lo hi : String)
    : Decidable (HoldsEvent fundingDf symbol lo hi) :=
  inferInstanceAs (Decidable (∃ _ ∈ _, _))

theorem fundingInInterval_available {fundingDf : List FundingEvent} {symbol lo hi : String}
    : (fundingInInterval (buildFundingIndex fundingDf) symbol lo hi).2.2 = true
        ↔ HoldsEvent fundingDf symbol lo hi := by
  have havailable : (fundingInInterval (buildFundingIndex fundingDf) symbol lo hi).2.2 = true
      ↔ fundingEventsIn (buildFundingIndex fundingDf) symbol lo hi ≠ [] := by
    unfold fundingInInterval
    cases fundingEventsIn (buildFundingIndex fundingDf) symbol lo hi <;> simp
  rw [havailable, fundingEventsIn_eq_filter (buildFundingIndex_sorted _ _)]
  unfold buildFundingIndex
  constructor
  . intro hne
    obtain ⟨e, he⟩ := List.exists_mem_of_ne_nil _ hne
    simp only [List.mem_filter, List.mem_insertionSort, List.mem_filterMap, decide_eq_true_eq,
      Option.ite_none_right_eq_some, Option.some.injEq] at he
    obtain ⟨⟨event, hmem, hsymbol, rfl⟩, hwindow⟩ := he
    exact ⟨event, hmem, hsymbol, hwindow⟩
  . rintro ⟨event, hmem, hsymbol, hwindow⟩
    apply List.ne_nil_of_mem (a := (event.dt.strftime, event.fundingRate))
    simp only [List.mem_filter, List.mem_insertionSort, List.mem_filterMap, decide_eq_true_eq,
      Option.ite_none_right_eq_some, Option.some.injEq]
    exact ⟨⟨event, hmem, hsymbol, rfl⟩, hwindow⟩

section gate

variable {float : String → ℚ} {cfg : PaperConfig} {forwardObs : List Obs} {prices : PriceBook}
  {csvs : ℕ → List SourceRow} {fundingDf : List FundingEvent} {report : FundingCoverageReport}

/--
A clean source window is one the funding table has an event in.
-/
theorem clean_holdsEvent {rows : List SourceRow} (hloaded : LoadedFrom float fundingDf rows)
    {symbol : String} {ws we : DateTime}
    (hclean : (classifyCsvWindow rows symbol ws.epochMs we.epochMs).cleanNetOfCarryAllowed = true)
    : ∃ event ∈ fundingDf, event.symbol = symbol ∧ ws < event.dt ∧ event.dt ≤ we := by
  obtain ⟨time, hmem, hsince, hbefore⟩ := classifyWindow_clean (by
    intro time hmem
    obtain ⟨row, hrow, rfl⟩ := List.mem_map.mp hmem
    exact (of_decide_eq_true (List.mem_filter.mp hrow).2).2.1) hclean
  obtain ⟨row, hrow, rfl⟩ := List.mem_map.mp hmem
  obtain ⟨hrow, hcandidate⟩ := List.mem_filter.mp hrow
  have hsymbol := (of_decide_eq_true hcandidate).1
  obtain ⟨loaded, hperm, hloads⟩ := hloaded
  obtain ⟨event, hevent, hload⟩ := forall₂_mem_right hloads.flip (hperm.mem_iff.mpr hrow)
  have hfrom := hload.since
  have hto := hload.before
  have hevents := event.dt.epochMs_emod
  have hstarts := ws.epochMs_emod
  have hends := we.epochMs_emod
  refine ⟨event, hevent, hload.symbol.trans hsymbol, ?_, ?_⟩
  . rw [← DateTime.epochMs_strictMono.lt_iff_lt]
    omega
  . rw [← DateTime.epochMs_strictMono.le_iff_le]
    omega

/--
The gate backs the whole window that ends at a bar of the batch.
-/
theorem gate_holdsEvent (hloaded : LoadedFrom float fundingDf (csvs 8))
    (hgate : checkFundingCoverageForBatch forwardObs prices csvs none cfg.barIntervalHours
      = .ok report)
    (hpass : report.overallDecision.Passes) {symbol : String}
    (hsymbol : symbol ∈ prices.barsBySymbol) {obs : Obs} (hobs : obs ∈ forwardObs) {dt : DateTime}
    (hparse : parseBarUtc obs.timestamp = .ok dt) {windowStart : String}
    (hwindow : intervalStart obs.timestamp cfg.barIntervalHours = .ok windowStart)
    : HoldsEvent fundingDf symbol windowStart obs.timestamp := by
  have hts : obs.timestamp ≠ "" := by
    intro hempty
    rw [hempty] at hparse
    cases hparse
  obtain ⟨ws, we, hwe, hws, hclean⟩ := batch_clean hgate hpass hsymbol hobs hts
  obtain ⟨event, hmem, hevent, hafter, hbefore⟩ := clean_holdsEvent hloaded hclean
  unfold intervalStart at hwindow
  rw [strptime_of_parsed hparse hwe] at hwindow
  change (do let start ← we.subHours cfg.barIntervalHours; return start.strftime) = _ at hwindow
  obtain ⟨start, hstart, hwindow⟩ := bind_eq_ok.mp hwindow
  rw [hws] at hstart
  cases hstart
  cases hwindow
  refine ⟨event, hmem, hevent, strftime_lt_strftime.mpr hafter, ?_⟩
  apply le_trans _ (strftime_le_of_parsed hparse hwe)
  exact strftime_strictMono.monotone hbefore

end gate

/--
What the gate does not ask for: windows cut short by an entry fill, windows of a symbol without
prices, and exit tails that are not the window of another bar of the batch.
-/
structure AccrualsBacked (cfg : PaperConfig) (prices : PriceBook) (fundingDf : List FundingEvent)
    (forwardObs : List Obs) (b : BarStep) : Prop where
  held : ∀ p ∈ b.before.openPositions.toList,
    ∀ windowStart ∈ (intervalStart b.ts cfg.barIntervalHours).toOption,
      windowStart < p.2.entryFillTs ∨ p.1 ∉ prices.barsBySymbol →
        max windowStart p.2.entryFillTs < b.ts →
          HoldsEvent fundingDf p.1 (max windowStart p.2.entryFillTs) b.ts
  exitTail : ∀ p ∈ b.before.openPositions.toList, p.1 ∉ b.obs.activeSymbols →
    ∀ next ∈ prices.nextBar p.1 b.ts, b.ts < next.1 →
      (∀ obs ∈ forwardObs, obs.timestamp = next.1 →
        intervalStart next.1 cfg.barIntervalHours ≠ .ok b.ts) →
          HoldsEvent fundingDf p.1 b.ts next.1

section engine

variable {cfg : PaperConfig} {forwardObs : List Obs} {prices : PriceBook} {index : FundingIndex}
  {fundingDf : List FundingEvent} {windowStart : String} {b : BarStep}

theorem heldCharge_some {ts symbol : String} {pos : Position}
    (h : max windowStart pos.entryFillTs < ts)
    : ∃ c, heldCharge prices index windowStart ts symbol pos = some c := by
  unfold heldCharge
  dsimp only
  rw [if_neg (not_le.mpr h)]
  exact ⟨_, rfl⟩

theorem heldCharge_eq {ts symbol : String} {pos : Position} {c : Charge}
    (h : heldCharge prices index windowStart ts symbol pos = some c)
    : c.windowStart = max windowStart pos.entryFillTs
        ∧ c.windowEnd = ts
        ∧ c.available
          = (fundingInInterval index symbol (max windowStart pos.entryFillTs) ts).2.2 := by
  unfold heldCharge at h
  dsimp only at h
  split at h
  . cases h
  . cases h
    exact ⟨rfl, rfl, rfl⟩

theorem mem_nextBar {symbol ts : String} {next : String × ℚ}
    (h : prices.nextBar symbol ts = some next) : symbol ∈ prices.barsBySymbol := by
  by_contra hnot
  unfold PriceBook.nextBar PriceBook.index PriceBook.bars at h
  rw [Std.ExtTreeMap.getD_eq_fallback hnot] at h
  cases h

/--
No accrual of the bar over a non-empty window went without a rate.
-/
def RatesAvailable (b : BarStep) : Prop :=
  ∀ row ∈ b.fundingRows, row.rateAvailable = false → row.windowEnd ≤ row.windowStart

theorem ratesAvailable_iff
    : RatesAvailable b ↔ ∀ c ∈ b.charges, c.windowStart < c.windowEnd → c.available = true := by
  unfold RatesAvailable BarStep.fundingRows
  rw [List.forall_mem_map]
  apply forall_congr'
  intro c
  apply imp_congr_right
  intro _
  show (c.available = false → c.windowEnd ≤ c.windowStart) ↔ _
  rw [← not_lt]
  cases c.available <;> simp

/--
On a bar whose whole windows hold an event each, the rates are available exactly when the accruals
outside of these windows are backed as well.
-/
theorem StepSpec.ratesAvailable_iff
    (h : StepSpec cfg prices (buildFundingIndex fundingDf) windowStart b)
    (hwhole : ∀ symbol ∈ prices.barsBySymbol, ∀ obs ∈ forwardObs, ∀ start,
      intervalStart obs.timestamp cfg.barIntervalHours = .ok start →
        HoldsEvent fundingDf symbol start obs.timestamp)
    (hobs : b.obs ∈ forwardObs)
    : RatesAvailable b ↔ AccrualsBacked cfg prices fundingDf forwardObs b := by
  rw [Quantbot.ratesAvailable_iff]
  constructor
  . intro havailable
    constructor
    case held =>
      intro p hp start hstart _ hlt
      rw [h.window] at hstart
      cases hstart
      obtain ⟨c, hc⟩ := @heldCharge_some prices (buildFundingIndex fundingDf) windowStart b.ts p.1
        p.2 hlt
      obtain ⟨hfrom, hto, hrate⟩ := heldCharge_eq hc
      have hmem : c ∈ b.charges := by
        apply List.mem_append_left
        rw [h.held, List.mem_filterMap]
        exact ⟨p, hp, hc⟩
      rw [← fundingInInterval_available, ← hrate]
      apply havailable c hmem
      rw [hfrom, hto]
      exact hlt
    case exitTail =>
      intro p hp hactive next hnext hlt _
      have hmem : p.1 ∈ b.exits.map Exit.symbol := by
        rw [h.exits_symbols, List.mem_map]
        refine ⟨p, ?_, rfl⟩
        rw [List.mem_filter]
        exact ⟨hp, by simpa using hactive⟩
      obtain ⟨x, hx, hsymbol⟩ := List.mem_map.mp hmem
      obtain ⟨pos, nb, -, -, hnb, heq⟩ := h.exit_of_mem x hx
      rw [hsymbol, Option.mem_def.mp hnext] at hnb
      cases hnb
      have hstub := havailable x.stub (List.mem_append_right _ (List.mem_map_of_mem hx))
      rw [heq] at hstub
      rw [← fundingInInterval_available, ← hsymbol]
      exact hstub hlt
  . intro hbacked c hc hlt
    rcases List.mem_append.mp hc with hc | hc
    . rw [h.held, List.mem_filterMap] at hc
      obtain ⟨p, hp, hc⟩ := hc
      obtain ⟨hfrom, hto, hrate⟩ := heldCharge_eq hc
      rw [hfrom, hto] at hlt
      rw [hrate, fundingInInterval_available]
      by_cases hgap : windowStart < p.2.entryFillTs ∨ p.1 ∉ prices.barsBySymbol
      . exact hbacked.held p hp windowStart (by rw [h.window]; rfl) hgap hlt
      . rw [not_or, not_not, not_lt] at hgap
        rw [max_eq_left hgap.1]
        exact hwhole p.1 hgap.2 b.obs hobs windowStart h.window
    . obtain ⟨x, hx, rfl⟩ := List.mem_map.mp hc
      obtain ⟨pos, nb, hpos, hactive, hnb, heq⟩ := h.exit_of_mem x hx
      have hwindow : x.stub.windowStart = b.ts ∧ x.stub.windowEnd = nb.1
          ∧ x.stub.available
            = (fundingInInterval (buildFundingIndex fundingDf) x.symbol b.ts nb.1).2.2 := by
        rw [heq]
        exact ⟨rfl, rfl, rfl⟩
      obtain ⟨hfrom, hto, hrate⟩ := hwindow
      rw [hfrom, hto] at hlt
      rw [hrate, fundingInInterval_available]
      by_cases hasked : ∃ obs ∈ forwardObs, obs.timestamp = nb.1
          ∧ intervalStart nb.1 cfg.barIntervalHours = .ok b.ts
      . obtain ⟨obs, hmem, hts, hstart⟩ := hasked
        rw [← hts] at hstart ⊢
        exact hwhole x.symbol (mem_nextBar hnb) obs hmem b.ts hstart
      . apply hbacked.exitTail (x.symbol, pos) (mem_toList_iff.mpr hpos) hactive nb hnb hlt
        intro obs hmem hts hstart
        exact hasked ⟨obs, hmem, hts, hstart⟩

end engine

/--
Behind the gate, the engine books every funding row with a rate exactly when the accruals that the
gate does not ask for are backed by the funding table.
-/
theorem gateCovers_iff (float : String → ℚ) (cfg : PaperConfig) (perBarObs forwardObs : List Obs)
    (prices : PriceBook) (csvs : ℕ → List SourceRow) (fundingDf : List FundingEvent)
    (state : EngineState) (forwardStart : DateTime) (report : FundingCoverageReport)
    (r : EngineResult) (hloaded : LoadedFrom float fundingDf (csvs 8))
    (hstart : parseBarUtc cfg.forwardStartTs = .ok forwardStart)
    (hforward : eligibleObs forwardStart perBarObs = .ok forwardObs)
    (hgate : checkFundingCoverageForBatch forwardObs prices csvs none cfg.barIntervalHours
      = .ok report)
    (hpass : report.overallDecision.Passes)
    (hrun : runEngine cfg perBarObs prices fundingDf state = .ok r)
    : (∀ row ∈ r.funding, row.rateAvailable = false → row.windowEnd ≤ row.windowStart)
        ↔
      ∀ b ∈ r.bars, AccrualsBacked cfg prices fundingDf forwardObs b := by
  have hwhole : ∀ symbol ∈ prices.barsBySymbol, ∀ obs ∈ forwardObs, ∀ start,
      intervalStart obs.timestamp cfg.barIntervalHours = .ok start →
        HoldsEvent fundingDf symbol start obs.timestamp := by
    intro symbol hsymbol obs hobs start hwindow
    obtain ⟨dt, hparse⟩ := eligibleObs_parses hforward obs hobs
    exact gate_holdsEvent hloaded hgate hpass hsymbol hobs hparse hwindow
  have hbars : ∀ b ∈ r.bars, RatesAvailable b ↔ AccrualsBacked cfg prices fundingDf forwardObs b := by
    intro b hb
    have hchain := runEngine_chain (M := fun prices' index _ => prices' = prices
      ∧ index = buildFundingIndex fundingDf) hrun (fun _ _ => ⟨rfl, rfl⟩)
    obtain ⟨_, _, windowStart, ⟨rfl, rfl⟩, hspec⟩ := hchain.forall_spec b hb
    exact hspec.ratesAvailable_iff hwhole (runEngine_obs_mem hrun hstart hforward b hb)
  unfold EngineResult.funding
  simp only [List.mem_flatMap, forall_exists_index, and_imp]
  constructor
  . intro h b hb
    rw [← hbars b hb]
    intro row hrow
    exact h row b hb hrow
  . intro h row b hb hrow
    exact (hbars b hb).mpr (h b hb) row hrow

section examples

def exitConfig : PaperConfig :=
  PaperConfig.build "2026-06-01T00:00:00" ""

def exitObs : Obs where
  barIndex := 0
  timestamp := "2026-06-01T08:00:00"
  activeSymbols := []
  portfolioHeat := 0
  heatCapTriggered := false
  weightedReturn := 0
  canonicalJson := ""

def hundredBar (ts : String) : Bar where
  timestamp := ts
  openPrice := 100
  close := 100

def exitPrices : PriceBook where
  barsBySymbol := Std.ExtTreeMap.ofList [("BTCUSDT",
    ["2026-06-01T00:00:00", "2026-06-01T08:00:00", "2026-06-01T16:00:00"].map hundredBar)]

def midnightPosition : Position where
  entryFillId := ""
  entryPrice := 100
  qty := 10
  entryBarTs := "2026-05-31T16:00:00"
  entryFillTs := "2026-06-01T00:00:00"
  fundingAccrued := 0
  entryFee := 1
  holdBars := 0

def exitState : EngineState where
  watermarkBarTs := some "2026-06-01T00:00:00"
  openPositions := Std.ExtTreeMap.ofList [("BTCUSDT", midnightPosition)]
  accumulators := { realizedGross := 0, feesCum := 1, fundingCum := 0 }
  peakEquity := some 10000
  barsElapsed := 1

def exitGate (hours : List (Fin 24)) : Except PyError FundingCoverageReport :=
  checkFundingCoverageForBatch [exitObs] exitPrices (fun _ => hours.map morningRow) none 8

def exitRun (hours : List (Fin 24)) : Except PyError EngineResult :=
  runEngine exitConfig [exitObs] exitPrices (hours.map morningEvent) exitState

theorem gateCovers_through_exit
    : ∃ r, exitRun [8, 16] = .ok r
        ∧
      ((∀ row ∈ r.funding, row.rateAvailable = false → row.windowEnd ≤ row.windowStart)
          ↔
        ∀ b ∈ r.bars, AccrualsBacked exitConfig exitPrices ([8, 16].map morningEvent) [exitObs] b)
        ∧
      r.funding.length = 2 := by
  obtain ⟨report, hgate, hpass⟩ := @exists_ok_of_any _ _ (exitGate [8, 16])
    (fun report => report.overallDecision.Passes) (by decide +kernel)
  obtain ⟨r, hrun, hlength⟩ := @exists_ok_of_any _ _ (exitRun [8, 16])
    (fun r => r.funding.length = 2) (by decide +kernel)
  refine ⟨r, hrun, ?_, of_decide_eq_true hlength⟩
  exact gateCovers_iff floatRate exitConfig [exitObs] [exitObs] exitPrices
    (fun _ => [8, 16].map morningRow) ([8, 16].map morningEvent) exitState (juneFirst 0) report r
    (morning_loadedFrom [8, 16]) (parseBarUtc_strftime (juneFirst 0)) (by decide +kernel) hgate
    (of_decide_eq_true hpass) hrun

/--
The position leaves at the last bar of the batch; its exit tail runs to a bar the gate never asked
about.
-/
theorem gate_misses_exit_tail
    : ¬∀ (float : String → ℚ) (cfg : PaperConfig) (perBarObs forwardObs : List Obs)
          (prices : PriceBook) (csvs : ℕ → List SourceRow) (fundingDf : List FundingEvent)
          (state : EngineState) (forwardStart : DateTime) (report : FundingCoverageReport)
          (r : EngineResult),
        LoadedFrom float fundingDf (csvs 8) →
        parseBarUtc cfg.forwardStartTs = .ok forwardStart →
        eligibleObs forwardStart perBarObs = .ok forwardObs →
        checkFundingCoverageForBatch forwardObs prices csvs none cfg.barIntervalHours
          = .ok report →
        report.overallDecision.Passes →
        runEngine cfg perBarObs prices fundingDf state = .ok r →
        ∀ row ∈ r.funding, row.rateAvailable = false → row.windowEnd ≤ row.windowStart := by
  intro hcovers
  obtain ⟨report, hgate, hpass⟩ := @exists_ok_of_any _ _ (exitGate [8])
    (fun report => report.overallDecision.Passes) (by decide +kernel)
  obtain ⟨r, hrun, hrow⟩ := @exists_ok_of_any _ _ (exitRun [8])
    (fun r => r.funding.any (fun row => !row.rateAvailable && decide (row.windowStart < row.windowEnd)))
    (by decide +kernel)
  obtain ⟨row, hmem, hrow⟩ := List.any_eq_true.mp hrow
  rw [Bool.and_eq_true, Bool.not_eq_true', decide_eq_true_eq] at hrow
  have hempty := hcovers floatRate exitConfig [exitObs] [exitObs] exitPrices
    (fun _ => [8].map morningRow) ([8].map morningEvent) exitState (juneFirst 0) report r
    (morning_loadedFrom [8]) (parseBarUtc_strftime (juneFirst 0)) (by decide +kernel) hgate
    (of_decide_eq_true hpass) hrun row hmem hrow.1
  exact absurd hrow.2 (not_lt.mpr hempty)

end examples

end Quantbot
