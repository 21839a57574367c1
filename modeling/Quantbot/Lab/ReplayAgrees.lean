import Quantbot.Lab.ReplayStep
import Quantbot.Paper.Engine.Lemmas.Origin
import Quantbot.Paper.Timestamp.FromIso

/-!
The replay agrees with the engine on everything but the net of a trade.
-/

namespace Quantbot

/--
The same rows, as far as the replay has their fields.
-/
structure SameLedgers (cfg : PaperConfig) (r : EngineResult) (replay : ReplayResult) : Prop where
  deferred : replay.deferredBarTs = r.deferredBarTs
  equity : replay.equity = r.equity.map EquityRow.replay
  positions : replay.positions = r.positions.map PositionsRow.replay
  fills : replay.fills = (r.fills cfg).map FillRow.replay
  funding : replay.funding = r.funding.map FundingRow.replay
  trades : replay.trades = r.trades.map TradeRow.replay

/--
Both return the same ledgers, or both raise.
-/
def SameOutcome (cfg : PaperConfig) : Except PyError EngineResult → Except PyError ReplayResult → Prop
  | .ok r, .ok replay => SameLedgers cfg r replay
  | .error _, .error _ => True
  | _, _ => False

/--
Rounding the net of the trade is the same as taking the rounded fees and funding from the rounded
gross.
-/
def Exit.NetSettles (x : Exit) : Prop :=
  roundDp 8 (x.gross - x.fees - x.pos.fundingAccrued)
    = roundDp 8 x.gross - roundDp 8 x.fees - roundDp 8 x.pos.fundingAccrued

instance (x : Exit) : Decidable x.NetSettles :=
  inferInstanceAs (Decidable (_ = _))

/--
The nets settle of all positions that leave at the bar.
-/
def NetsSettle (cfg : PaperConfig) (prices : PriceBook) (index : FundingIndex) (b : BarStep) : Prop :=
  ∀ windowStart ∈ (intervalStart b.ts cfg.barIntervalHours).toOption,
    ∀ p ∈ b.before.openPositions.toList, p.1 ∉ b.obs.activeSymbols →
      ∀ next ∈ prices.nextBar p.1 b.ts,
        (exitPosition cfg prices index b.ts p.1
          (accrueHeld prices index windowStart b.ts p.1 p.2) next.1 next.2).NetSettles

variable {cfg : PaperConfig} {prices : PriceBook} {index : FundingIndex} {book : Book}
  {st : ReplayState} {obs : Obs}

section bars

theorem replayBar_defer (hrel : Replays book st)
    (h : processBar cfg prices index book obs = .ok none) (initial : ℚ)
    : replayBar cfg prices index initial st obs = .ok none := by
  have hfills : resolveFills prices obs.timestamp obs.activeSymbols book.openPositions = none := by
    unfold processBar at h
    dsimp only at h
    split at h
    . assumption
    . obtain ⟨windowStart, -, h⟩ := bind_eq_ok.mp h
      obtain ⟨entries, -, h⟩ := bind_eq_ok.mp h
      cases h
  rw [resolveFills_replay] at hfills
  unfold replayBar
  simp only [hrel.contains]
  rw [hrel.keys, resolveNext_exits]
  split
  next hentries hexits =>
    obtain ⟨exits, hexits, -⟩ := Option.map_eq_some_iff.mp hexits
    rw [hentries, hexits] at hfills
    cases hfills
  . rfl

theorem replayBar_error (hrel : Replays book st)
    (hinterval : replayIntervalStart obs.timestamp cfg.barIntervalHours
      = intervalStart obs.timestamp cfg.barIntervalHours) {e : PyError}
    (h : processBar cfg prices index book obs = .error e) (initial : ℚ)
    : ∃ e', replayBar cfg prices index initial st obs = .error e' := by
  unfold processBar at h
  dsimp only at h
  split at h
  . cases h
  next exits legs hfills =>
    rw [resolveFills_replay] at hfills
    simp only [Option.bind_eq_bind, Option.bind_eq_some_iff, Option.pure_def, Option.some.injEq,
      Prod.mk.injEq] at hfills
    obtain ⟨legs', hlegs, exits', hexitLegs, rfl, rfl⟩ := hfills
    unfold replayBar
    simp only [hrel.contains]
    rw [hlegs, hrel.keys, resolveNext_exits, hexitLegs]
    simp only [Option.map_some]
    rw [hinterval]
    cases hwindow : intervalStart obs.timestamp cfg.barIntervalHours with
    | error e' => exact ⟨e', rfl⟩
    | ok windowStart =>
      rw [hwindow] at h
      simp only [bind, Except.bind] at h ⊢
      cases hentries : legs'.mapM (fun e => enterPosition cfg e.1 e.2.1 e.2.2) with
      | ok entries =>
        rw [hentries] at h
        cases h
      | error e' =>
        obtain ⟨e'', hfill⟩ := foldlM_fillEntry_error obs.timestamp hentries _
        rw [hfill]
        exact ⟨e'', rfl⟩

/--
The timestamps of the log read the same on both sides.
-/
def IntervalsAgree (cfg : PaperConfig) (obs : Obs) : Prop :=
  replayIntervalStart obs.timestamp cfg.barIntervalHours
    = intervalStart obs.timestamp cfg.barIntervalHours

theorem replayBars_sim {obs : List Obs} (hobs : ∀ o ∈ obs, IntervalsAgree cfg o)
    (hrel : Replays book st) (hdeferred : st.result.deferredBarTs = none)
    : match runBars cfg prices index book obs with
      | .ok (steps, _, deferred) => ∃ st',
          replayBars cfg prices index cfg.initialEquityUsd st obs = .ok st'
            ∧
          st'.result = { steps.foldl (ReplayResult.append cfg) st.result with
            deferredBarTs := deferred }
      | .error _ => ∃ e, replayBars cfg prices index cfg.initialEquityUsd st obs = .error e := by
  induction book, obs using runBars.barInduction cfg prices index generalizing st with
  | nil book =>
    rw [runBars.nil]
    refine ⟨st, rfl, ?_⟩
    rw [← hdeferred]
    rfl
  | skip book o rest hle ih =>
    rw [List.forall_mem_cons] at hobs
    rw [runBars.cons_skip rest hle]
    unfold replayBars
    rw [if_pos (by rw [hrel.watermark]; exact hle)]
    exact ih hobs.2 hrel hdeferred
  | error book o rest e hlt hbar =>
    rw [List.forall_mem_cons] at hobs
    rw [runBars.cons_error rest hlt hbar]
    unfold replayBars
    rw [if_neg (by rw [hrel.watermark]; exact hlt)]
    obtain ⟨e', he⟩ := replayBar_error hrel hobs.1 hbar cfg.initialEquityUsd
    rw [he]
    exact ⟨e', rfl⟩
  | defer book o rest hlt hbar =>
    rw [runBars.cons_defer rest hlt hbar]
    unfold replayBars
    rw [if_neg (by rw [hrel.watermark]; exact hlt)]
    rw [replayBar_defer hrel hbar]
    exact ⟨_, rfl, rfl⟩
  | step book o rest s hlt hbar ih =>
    rw [List.forall_mem_cons] at hobs
    obtain ⟨st', hst', hrel', hresult⟩ := replayBar_step hrel hobs.1 hbar
    have hrest := ih hobs.2 hrel' (by
      rw [hresult]
      exact hdeferred)
    rw [runBars.cons_step rest hlt hbar]
    unfold replayBars
    rw [if_neg (by rw [hrel.watermark]; exact hlt), hst']
    rw [hresult] at hrest
    cases hbars : runBars cfg prices index s.next rest with
    | error e =>
      rw [hbars] at hrest
      exact hrest
    | ok r =>
      rw [hbars] at hrest
      exact hrest

theorem foldl_append (steps : List BarStep) (r : ReplayResult)
    : steps.foldl (ReplayResult.append cfg) r
        =
      { r with
        fills := r.fills ++ (steps.flatMap (fun b => b.fillRows cfg)).map FillRow.replay
        positions := r.positions ++ (steps.map BarStep.positionsRow).map PositionsRow.replay
        trades := r.trades
          ++ steps.flatMap (fun b => b.exits.map (fun x => x.replayTrade b.ts b.commitId))
        equity := r.equity ++ (steps.map BarStep.equityRow).map EquityRow.replay
        funding := r.funding ++ (steps.flatMap BarStep.fundingRows).map FundingRow.replay } := by
  induction steps generalizing r with
  | nil => simp
  | cons b steps ih =>
    rw [List.foldl_cons, ih]
    simp [ReplayResult.append]

end bars

section run

theorem intervalsAgree (h : IsNaive obs.timestamp) : IntervalsAgree cfg obs := by
  obtain ⟨d, hd⟩ := h
  unfold IntervalsAgree replayIntervalStart intervalStart parseInstant
  have hparse : parseBarUtc obs.timestamp = .ok d := by
    rw [hd, parseBarUtc_strftime]
  have hiso : fromIsoFormat obs.timestamp = .ok d := by
    rw [hd, fromIsoFormat_strftime]
  rw [strptime_of_parsed hparse hiso, hiso]

theorem replayForward_eq {perBarObs : List Obs} (h : ∀ obs ∈ perBarObs, IsNaive obs.timestamp)
    (forwardStart : DateTime) : replayForward forwardStart perBarObs = forwardObs forwardStart perBarObs := by
  have hdated : perBarObs.mapM (fun obs => do return (← parseInstant obs.timestamp, obs))
      = datedObs perBarObs := by
    induction perBarObs with
    | nil => rfl
    | cons obs rest ih =>
      rw [List.forall_mem_cons] at h
      obtain ⟨d, hd⟩ := h.1
      rw [List.mapM_cons, ih h.2, datedObs.cons]
      unfold parseInstant
      rw [hd, fromIsoFormat_strftime, parseBarUtc_strftime]
      rfl
  unfold replayForward forwardObs
  rw [hdated]
  rfl

theorem datedObs_naive {perBarObs : List Obs} (h : ∀ obs ∈ perBarObs, IsNaive obs.timestamp)
    : ∃ dated, datedObs perBarObs = .ok dated := by
  induction perBarObs with
  | nil => exact ⟨[], rfl⟩
  | cons obs rest ih =>
    rw [List.forall_mem_cons] at h
    obtain ⟨d, hd⟩ := h.1
    obtain ⟨dated, hdated⟩ := ih h.2
    rw [datedObs.cons, hd, parseBarUtc_strftime, hdated]
    exact ⟨_, rfl⟩

theorem forwardObs_mem {perBarObs forward : List Obs} {forwardStart : DateTime}
    (h : forwardObs forwardStart perBarObs = .ok forward) : ∀ obs ∈ forward, obs ∈ perBarObs := by
  rw [forwardObs_eq] at h
  cases hdated : datedObs perBarObs with
  | error e =>
    rw [hdated] at h
    cases h
  | ok dated =>
    rw [hdated] at h
    cases h
    intro obs hobs
    obtain ⟨p, hp, rfl⟩ := List.mem_map.mp hobs
    rw [List.mem_insertionSort] at hp
    rw [← (datedObs.spec hdated).1]
    exact List.mem_map_of_mem (List.mem_of_mem_filter hp)

/--
What the replay returns next to a run of the engine over a log of naive timestamps.
-/
theorem runReplay_sim {perBarObs : List Obs} {fundingDf : List FundingEvent} {forwardStart : DateTime}
    (hnaive : ∀ obs ∈ perBarObs, IsNaive obs.timestamp)
    (hstart : parseBarUtc cfg.forwardStartTs = .ok forwardStart)
    (hread : parseInstant cfg.forwardStartTs = .ok forwardStart)
    : match runEngine cfg perBarObs prices fundingDf (newState cfg.initialEquityUsd) with
      | .ok r => runReplay cfg perBarObs prices fundingDf none ""
          = .ok { r.bars.foldl (ReplayResult.append cfg) ReplayResult.empty with
              deferredBarTs := r.deferredBarTs }
      | .error _ => ∃ e, runReplay cfg perBarObs prices fundingDf none "" = .error e := by
  have hforward : ∃ forward, forwardObs forwardStart perBarObs = .ok forward := by
    obtain ⟨dated, hdated⟩ := datedObs_naive hnaive
    rw [forwardObs_eq, hdated]
    exact ⟨_, rfl⟩
  obtain ⟨forward, hforward⟩ := hforward
  have hrel : Replays ((newState cfg.initialEquityUsd).load cfg.initialEquityUsd)
      { openPositions := ∅, realizedGross := 0, feesCum := 0, fundingCum := 0, watermark := ""
        result := ReplayResult.empty } :=
    ⟨rfl, rfl, rfl, rfl, rfl⟩
  have hsim := @replayBars_sim cfg prices (buildFundingIndex fundingDf) _ _ forward
    (fun obs hobs => intervalsAgree (hnaive obs (forwardObs_mem hforward obs hobs))) hrel rfl
  have hreplay : runReplay cfg perBarObs prices fundingDf none ""
      = (replayBars cfg prices (buildFundingIndex fundingDf) cfg.initialEquityUsd
          { openPositions := ∅, realizedGross := 0, feesCum := 0, fundingCum := 0, watermark := ""
            result := ReplayResult.empty } forward).map ReplayState.result := by
    unfold runReplay
    dsimp only
    rw [hread]
    change (do let forward ← replayForward forwardStart perBarObs; _) = _
    rw [replayForward_eq hnaive, hforward]
    rfl
  rw [runEngine_eq_runBars prices fundingDf _ hstart hforward, hreplay]
  cases hbars : runBars cfg prices (buildFundingIndex fundingDf)
      ((newState cfg.initialEquityUsd).load cfg.initialEquityUsd) forward with
  | error e =>
    rw [hbars] at hsim
    obtain ⟨e', he⟩ := hsim
    rw [he]
    exact ⟨e', rfl⟩
  | ok r =>
    rw [hbars] at hsim
    obtain ⟨st', hst', hresult⟩ := hsim
    rw [hst']
    show Except.ok st'.result = _
    rw [hresult]

/--
The replay has the engine's rows, up to the nets of the trades.
-/
theorem sameLedgers_iff {r : EngineResult}
    : SameLedgers cfg r { r.bars.foldl (ReplayResult.append cfg) ReplayResult.empty with
          deferredBarTs := r.deferredBarTs }
        ↔
      ∀ b ∈ r.bars, ∀ x ∈ b.exits, x.NetSettles := by
  have hnet : ∀ x : Exit, ∀ ts commitId,
      x.replayTrade ts commitId = (x.tradeRow ts commitId).replay ↔ x.NetSettles := by
    intro x ts commitId
    have hgrid : canonicalNetPnl x.gross x.fees x.pos.fundingAccrued
        = roundDp 8 x.gross - roundDp 8 x.fees - roundDp 8 x.pos.fundingAccrued := by
      unfold canonicalNetPnl round8
      apply OnDecimalGrid.roundDp_self
      apply OnDecimalGrid.sub
      . apply OnDecimalGrid.sub <;> exact roundDp.onDecimalGrid _ _
      . exact roundDp.onDecimalGrid _ _
    unfold Exit.replayTrade Exit.NetSettles
    rw [← hgrid]
    constructor
    . intro h
      exact congrArg ReplayTrade.netPnl h
    . intro h
      simp only [Exit.tradeRow, TradeRow.replay, round8, h]
  have htrades : (r.bars.flatMap (fun b => b.exits.map (fun x => x.replayTrade b.ts b.commitId))
        = r.trades.map TradeRow.replay)
      ↔ ∀ b ∈ r.bars, ∀ x ∈ b.exits, x.NetSettles := by
    unfold EngineResult.trades
    generalize r.bars = bars
    induction bars with
    | nil => simp
    | cons b bars ih =>
      rw [List.flatMap_cons, List.flatMap_cons, List.map_append, List.forall_mem_cons]
      unfold BarStep.tradeRows at ih ⊢
      rw [← ih]
      constructor
      . intro h
        obtain ⟨hbar, hrest⟩ := List.append_inj h (by simp)
        refine ⟨?_, hrest⟩
        rw [List.map_map, List.map_inj_left] at hbar
        intro x hx
        exact (hnet x _ _).mp (hbar x hx)
      . rintro ⟨hbar, hrest⟩
        rw [hrest]
        congr 1
        rw [List.map_map, List.map_inj_left]
        intro x hx
        exact (hnet x _ _).mpr (hbar x hx)
  rw [foldl_append]
  constructor
  . intro h
    exact htrades.mp h.trades
  . intro h
    exact ⟨rfl, rfl, rfl, rfl, rfl, htrades.mpr h⟩

theorem StepSpec.netsSettle_iff {windowStart : String} {b : BarStep}
    (h : StepSpec cfg prices index windowStart b)
    : NetsSettle cfg prices index b ↔ ∀ x ∈ b.exits, x.NetSettles := by
  constructor
  . intro hsettle x hx
    obtain ⟨pos, nb, hpos, hactive, hnb, heq⟩ := h.exit_of_mem x hx
    rw [heq]
    exact hsettle windowStart (by rw [h.window]; rfl) (x.symbol, pos) (mem_toList_iff.mpr hpos)
      hactive nb hnb
  . intro hexits start hstart p hp hactive next hnext
    rw [h.window] at hstart
    cases hstart
    have hmem : p.1 ∈ b.exits.map Exit.symbol := by
      rw [h.exits_symbols, List.mem_map]
      refine ⟨p, ?_, rfl⟩
      rw [List.mem_filter]
      exact ⟨hp, by simpa using hactive⟩
    obtain ⟨x, hx, hsymbol⟩ := List.mem_map.mp hmem
    obtain ⟨pos, nb, hpos, -, hnb, heq⟩ := h.exit_of_mem x hx
    rw [hsymbol] at heq hpos hnb
    rw [mem_toList_iff.mp hp] at hpos
    cases hpos
    rw [Option.mem_def.mp hnext] at hnb
    cases hnb
    rw [← heq]
    exact hexits x hx

end run

section examples

def tripConfig : PaperConfig :=
  PaperConfig.build "2026-06-01T00:00:00" ""

def tripObs (hour : Fin 24) (activeSymbols : List String) : Obs where
  barIndex := 0
  timestamp := (juneFirst hour).strftime
  activeSymbols := activeSymbols
  portfolioHeat := 0
  heatCapTriggered := false
  weightedReturn := 0
  canonicalJson := ""

/--
One round trip, signalled at midnight and at eight.
-/
def tripLog : List Obs :=
  [tripObs 0 ["BTCUSDT"], tripObs 8 []]

def tripBar (hour : Fin 24) (openPrice : ℚ) : Bar where
  timestamp := (juneFirst hour).strftime
  openPrice := openPrice
  close := openPrice

def tripPrices (exitPrice : ℚ) : PriceBook where
  barsBySymbol := Std.ExtTreeMap.ofList
    [("BTCUSDT", [tripBar 0 100, tripBar 8 100, tripBar 16 exitPrice])]

theorem tripLog_naive : ∀ obs ∈ tripLog, IsNaive obs.timestamp := by
  intro obs hobs
  simp only [tripLog, List.mem_cons, List.not_mem_nil, or_false] at hobs
  rcases hobs with rfl | rfl
  . exact ⟨juneFirst 0, rfl⟩
  . exact ⟨juneFirst 8, rfl⟩

end examples

end Quantbot
