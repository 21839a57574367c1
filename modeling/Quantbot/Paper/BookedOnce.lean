import Quantbot.Paper.Engine.Lemmas.Origin
import Quantbot.Paper.Runner.Lemmas.Rows

/-!
How often the bar of one instant is booked.
-/

namespace Quantbot

open Reconcile

/--
The instant a timestamp spells.
-/
abbrev instant (ts : String) : Except PyError DateTime :=
  parseBarUtc ts

/--
A run whose log passes the freshness and the divergence gate, up to the engine's result.
-/
structure AcceptedRun (cfg : PaperConfig) (inv : Invocation) (l : Ledgers) (state : EngineState)
    (forwardObs : List Obs) (result : EngineResult) : Prop where
  run : ∃ perBarObs forwardStart, inv.obsLog = .perBar perBarObs
    ∧ parseBarUtc cfg.forwardStartTs = .ok forwardStart
    ∧ checkFreshness cfg inv.ages forwardStart inv.obsLog = .fresh
    ∧ eligibleObs forwardStart perBarObs = .ok forwardObs
    ∧ runEngine cfg perBarObs inv.prices inv.fundingDf state = .ok result
  divergence : checkDivergence l.snapshots forwardObs = none

/--
Accounting runs one after the other from a new ledger, with the bars they processed. `P` holds of
the ledgers and the consumed observations of each.
-/
inductive AccountingRuns (cfg : PaperConfig) (P : Ledgers → List Obs → Prop)
    : Ledgers → EngineState → List BarStep → Prop where
  | new : AccountingRuns cfg P Ledgers.none (newState cfg.initialEquityUsd) []
  | run {l : Ledgers} {state : EngineState} {bars : List BarStep} {inv : Invocation}
      {forwardObs : List Obs} {result : EngineResult}
      (rest : AccountingRuns cfg P l state bars)
      (accepted : AcceptedRun cfg inv l state forwardObs result) (step : P l forwardObs)
      : AccountingRuns cfg P (l.append (newRows cfg inv l forwardObs result)) result.state
          (bars ++ result.bars)

/--
No two bars of one instant, and every row belongs to one of the bars.
-/
structure BookedOnce (l : Ledgers) (bars : List BarStep) : Prop where
  instants : bars.Pairwise (fun a b => instant a.ts ≠ instant b.ts)
  equity : l.equity = bars.map BarStep.equityRow
  positions : l.positions = bars.map BarStep.positionsRow
  fills : ∀ f ∈ l.fills, ∃ b ∈ bars, f.signalBarTs = b.ts
  funding : ∀ f ∈ l.funding, ∃ b ∈ bars, f.barTs = b.ts

/--
A frozen bar that re-appears with other content makes the divergence gate refuse the log.
-/
def DivergenceCaught (l : Ledgers) (forwardObs : List Obs) : Prop :=
  ∀ s ∈ l.snapshots, ∀ obs ∈ forwardObs, instant s.barTs = instant obs.timestamp →
    s.sourceObservationDigest ≠ consumedRowDigest obs →
    checkDivergence l.snapshots forwardObs ≠ none

/--
No instant is spelled in two ways, within the log or between the log and the ledger.
-/
structure SpelledAlike (l : Ledgers) (forwardObs : List Obs) : Prop where
  log : ∀ obs ∈ forwardObs, ∀ obs' ∈ forwardObs,
    instant obs.timestamp = instant obs'.timestamp → obs.timestamp = obs'.timestamp
  ledger : ∀ e ∈ l.equity, ∀ obs ∈ forwardObs,
    instant e.barTs = instant obs.timestamp → e.barTs = obs.timestamp

variable {cfg : PaperConfig} {l : Ledgers} {state : EngineState} {bars : List BarStep}
  {forwardObs : List Obs}

section engine

variable {perBarObs : List Obs} {prices : PriceBook} {fundingDf : List FundingEvent}
  {result : EngineResult}

theorem runEngine_watermark_le (h : runEngine cfg perBarObs prices fundingDf state = .ok result)
    : state.watermarkBarTs.getD "" ≤ result.state.watermarkBarTs.getD "" := by
  have hchain := runEngine_chain (M := fun _ _ _ => True) h (fun _ _ => trivial)
  exact hchain.watermark_le

theorem runEngine_lt_ts (h : runEngine cfg perBarObs prices fundingDf state = .ok result)
    : ∀ b ∈ result.bars, state.watermarkBarTs.getD "" < b.ts := by
  have hchain := runEngine_chain (M := fun _ _ _ => True) h (fun _ _ => trivial)
  exact hchain.lt_ts

theorem runEngine_le_watermark (h : runEngine cfg perBarObs prices fundingDf state = .ok result)
    : ∀ b ∈ result.bars, b.ts ≤ result.state.watermarkBarTs.getD "" := by
  have hchain := runEngine_chain (M := fun _ _ _ => True) h (fun _ _ => trivial)
  exact hchain.ts_le_watermark

theorem runEngine_pairwise_ts (h : runEngine cfg perBarObs prices fundingDf state = .ok result)
    : result.bars.Pairwise (fun a b => a.ts < b.ts) := by
  have hchain := runEngine_chain (M := fun _ _ _ => True) h (fun _ _ => trivial)
  exact hchain.pairwise_ts

end engine

/--
What the runs keep: the ledger has the rows of the bars, in the order of their texts, and the frozen
snapshots hold the digests of what the bars consumed.
-/
structure RunsInvariant (l : Ledgers) (state : EngineState) (bars : List BarStep) : Prop where
  booked : BookedOnce l bars
  sorted : bars.Pairwise (fun a b => a.ts < b.ts)
  watermark : ∀ b ∈ bars, b.ts ≤ state.watermarkBarTs.getD ""
  snapshots : ∀ s ∈ l.snapshots, ∃ b ∈ bars, s.barTs = b.ts
    ∧ s.sourceObservationDigest = consumedRowDigest b.obs

theorem RunsInvariant.new : RunsInvariant Ledgers.none (newState cfg.initialEquityUsd) [] := by
  constructor
  case booked => exact ⟨List.Pairwise.nil, rfl, rfl, by simp [Ledgers.none], by simp [Ledgers.none]⟩
  case sorted => exact List.Pairwise.nil
  case watermark => simp
  case snapshots => simp [Ledgers.none]

section step

variable {inv : Invocation} {result : EngineResult}

/--
The bars of an accepted run are bars of its log, later than the watermark, and no other row of the
log has the text of one of them.
-/
theorem AcceptedRun.spec (h : AcceptedRun cfg inv l state forwardObs result)
    : (∀ b ∈ result.bars, b.obs ∈ forwardObs) ∧ (∀ b ∈ result.bars, state.watermarkBarTs.getD "" < b.ts)
        ∧ (∀ b ∈ result.bars, b.ts ≤ result.state.watermarkBarTs.getD "")
        ∧ result.bars.Pairwise (fun a b => a.ts < b.ts)
        ∧ state.watermarkBarTs.getD "" ≤ result.state.watermarkBarTs.getD ""
        ∧ (forwardObs.map Obs.timestamp).Nodup := by
  obtain ⟨perBarObs, forwardStart, hlog, hstart, hfresh, heligible, hengine⟩ := h.run
  refine ⟨runEngine_obs_mem hengine hstart heligible, runEngine_lt_ts hengine,
    runEngine_le_watermark hengine, runEngine_pairwise_ts hengine, runEngine_watermark_le hengine,
    ?_⟩
  rw [hlog] at hfresh
  obtain ⟨rows, hrows, hfreshRows⟩ := checkFreshness_fresh hfresh
  cases hrows
  exact (eligibleObs_sublist heligible).map Obs.timestamp |>.nodup hfreshRows.nodup

theorem RunsInvariant.run (h : RunsInvariant l state bars)
    (accepted : AcceptedRun cfg inv l state forwardObs result) (step : SpelledAlike l forwardObs)
    : RunsInvariant (l.append (newRows cfg inv l forwardObs result)) result.state
        (bars ++ result.bars) := by
  obtain ⟨hobs, hpast, hle, hsorted, hwatermark, hnodup⟩ := accepted.spec
  have hafter : ∀ b ∈ bars, ∀ b' ∈ result.bars, b.ts < b'.ts := by
    intro b hb b' hb'
    exact (h.watermark b hb).trans_lt (hpast b' hb')
  -- the id of a row with a new text is not on file
  have hnew : ∀ b ∈ result.bars, b.ts ∉ bars.map BarStep.ts := by
    intro b hb hmem
    obtain ⟨b', hb', heq⟩ := List.mem_map.mp hmem
    have hlt := hafter b' hb' b hb
    rw [heq] at hlt
    exact lt_irrefl _ hlt
  have hequity : freshRows EquityRow.barTs l.equity result.equity = result.bars.map BarStep.equityRow := by
    apply freshRows_eq_self
    intro e he
    obtain ⟨b, hb, rfl⟩ := List.mem_map.mp he
    rw [h.booked.equity, List.map_map]
    exact hnew b hb
  have hpositions : freshRows PositionsRow.barTs l.positions result.positions
      = result.bars.map BarStep.positionsRow := by
    apply freshRows_eq_self
    intro p hp
    obtain ⟨b, hb, rfl⟩ := List.mem_map.mp hp
    rw [h.booked.positions, List.map_map]
    exact hnew b hb
  constructor
  case booked =>
    constructor
    case instants =>
      rw [List.pairwise_append]
      refine ⟨h.booked.instants, ?_, ?_⟩
      . apply hsorted.imp_of_mem
        intro a b ha hb hlt heq
        have htext := step.log a.obs (hobs a ha) b.obs (hobs b hb) heq
        exact hlt.ne htext
      . intro a ha b hb heq
        have hrow : a.equityRow ∈ l.equity := by
          rw [h.booked.equity]
          exact List.mem_map_of_mem ha
        have htext := step.ledger a.equityRow hrow b.obs (hobs b hb) heq
        exact (hafter a ha b hb).ne htext
    case equity =>
      rw [List.map_append, ← hequity, ← h.booked.equity]
      rfl
    case positions =>
      rw [List.map_append, ← hpositions, ← h.booked.positions]
      rfl
    case fills =>
      intro f hf
      rcases List.mem_append.mp hf with hf | hf
      . obtain ⟨b, hb, hts⟩ := h.booked.fills f hf
        exact ⟨b, List.mem_append_left _ hb, hts⟩
      . obtain ⟨b, hb, hrow⟩ := List.mem_flatMap.mp (mem_freshRows.mp hf).1
        exact ⟨b, List.mem_append_right _ hb, fillRows_barTs hrow⟩
    case funding =>
      intro f hf
      rcases List.mem_append.mp hf with hf | hf
      . obtain ⟨b, hb, hts⟩ := h.booked.funding f hf
        exact ⟨b, List.mem_append_left _ hb, hts⟩
      . obtain ⟨b, hb, hrow⟩ := List.mem_flatMap.mp (mem_freshRows.mp hf).1
        obtain ⟨c, -, rfl⟩ := List.mem_map.mp hrow
        exact ⟨b, List.mem_append_right _ hb, rfl⟩
  case sorted =>
    rw [List.pairwise_append]
    exact ⟨h.sorted, hsorted, hafter⟩
  case watermark =>
    intro b hb
    rcases List.mem_append.mp hb with hb | hb
    . exact (h.watermark b hb).trans hwatermark
    . exact hle b hb
  case snapshots =>
    intro s hs
    rcases List.mem_append.mp hs with hs | hs
    . obtain ⟨b, hb, hts⟩ := h.snapshots s hs
      exact ⟨b, List.mem_append_left _ hb, hts⟩
    . obtain ⟨obs, hmem, hprocessed, rfl⟩ := mem_buildSnapshots (mem_freshRows.mp hs).1
      rw [EngineResult.equity, List.map_map] at hprocessed
      obtain ⟨b, hb, hts⟩ := List.mem_map.mp hprocessed
      have hsame : b.obs = obs := List.inj_on_of_nodup_map hnodup (hobs b hb) hmem hts
      refine ⟨b, List.mem_append_right _ hb, hts.symm, ?_⟩
      rw [hsame]
      rfl

end step

theorem AccountingRuns.invariant (h : AccountingRuns cfg SpelledAlike l state bars)
    : RunsInvariant l state bars := by
  induction h with
  | new => exact RunsInvariant.new
  | run _ accepted step ih => exact ih.run accepted step

theorem checkDivergence_ne_none {snapshots : List SnapshotRow} {s : SnapshotRow} {obs : Obs}
    (hobs : obs ∈ forwardObs) (hlast : lastWith SnapshotRow.barTs obs.timestamp snapshots = some s)
    (hdigest : s.sourceObservationDigest ≠ consumedRowDigest obs)
    : checkDivergence snapshots forwardObs ≠ none := by
  unfold checkDivergence
  rw [ne_eq, List.findSome?_eq_none_iff]
  intro h
  have := h obs hobs
  rw [hlast] at this
  simp [hdigest] at this

theorem RunsInvariant.divergenceCaught (h : RunsInvariant l state bars)
    (hlog : SpelledAlike l forwardObs) : DivergenceCaught l forwardObs := by
  intro s hs obs hobs hinstant hdigest
  obtain ⟨b, hb, hts, hs'⟩ := h.snapshots s hs
  have hrow : b.equityRow ∈ l.equity := by
    rw [h.booked.equity]
    exact List.mem_map_of_mem hb
  have htext : s.barTs = obs.timestamp := by
    rw [hts] at hinstant ⊢
    exact hlog.ledger b.equityRow hrow obs hobs hinstant
  cases hlast : lastWith SnapshotRow.barTs obs.timestamp l.snapshots with
  | none =>
    rw [lastWith_eq_none] at hlast
    exact absurd htext (hlast s hs)
  | some last =>
    apply checkDivergence_ne_none hobs hlast
    -- the last snapshot of the text is of the same bar
    obtain ⟨hmem, hlastTs⟩ := lastWith_some hlast
    obtain ⟨b', hb', hts', hlast'⟩ := h.snapshots last hmem
    have hnodup : (bars.map BarStep.ts).Nodup := by
      rw [List.nodup_iff_pairwise_ne, List.pairwise_map]
      exact h.sorted.imp (fun hlt => hlt.ne)
    have hsame : b' = b := by
      apply List.inj_on_of_nodup_map hnodup hb' hb
      rw [← hts', hlastTs, ← htext, hts]
    rw [hlast', hsame, ← hs']
    exact hdigest

section idle

/--
A log of one bar that holds nothing.
-/
def idleObs (ts : String) : Obs :=
  { firstObs with timestamp := ts, activeSymbols := [] }

def idleRun (ts : String) : Invocation :=
  { firstRun with obsLog := .perBar [idleObs ts] }

def idleEngine (ts : String) (state : EngineState) : Except PyError EngineResult :=
  runEngine firstConfig [idleObs ts] firstPrices [] state

theorem idle_accepted {ts : String} {result : EngineResult}
    (hgates : (parseBarUtc firstConfig.forwardStartTs).toOption.any (fun start =>
      checkFreshness firstConfig firstRun.ages start (.perBar [idleObs ts]) = .fresh
        ∧ eligibleObs start [idleObs ts] = .ok [idleObs ts]))
    (hdivergence : checkDivergence l.snapshots [idleObs ts] = none)
    (hengine : idleEngine ts state = .ok result)
    : AcceptedRun firstConfig (idleRun ts) l state [idleObs ts] result := by
  obtain ⟨start, hstart, hpass⟩ := exists_ok_of_any hgates
  have hpass := of_decide_eq_true hpass
  exact ⟨⟨[idleObs ts], start, rfl, hstart, hpass.1, hpass.2, hengine⟩, hdivergence⟩

def idleBar : String :=
  "2026-06-14T00:00:00"

def idleRows (l : Ledgers) (ts : String) (result : EngineResult) : Ledgers :=
  l.append (newRows firstConfig (idleRun ts) l [idleObs ts] result)

end idle

end Quantbot
