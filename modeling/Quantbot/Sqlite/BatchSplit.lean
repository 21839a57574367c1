import Quantbot.Paper.Engine.Lemmas.Run
import Quantbot.Paper.Engine.Lemmas.Sort
import Quantbot.Sqlite.State

/-!
Consuming the observations prefix by prefix, with the engine state stored in between, gives what one
run over all of them gives.
-/

namespace Quantbot

/--
Where a run's state is kept until the next run.
-/
structure StateStore (σ : Type) where
  read : σ → EngineState
  write : σ → EngineResult → σ

/--
`paper_position_state.json` holds the state itself.
-/
def jsonStore : StateStore EngineState where
  read := id
  write _ r := r.state

def sqliteStore (cfg : PaperConfig) : StateStore Sqlite.StateTables where
  read tables := tables.engineState cfg.initialEquityUsd
  write := Sqlite.StateTables.persist

/--
The rows some runs appended, the bar the last of them deferred, and the book they left.
-/
structure RunTotals where
  fills : List FillRow
  trades : List TradeRow
  funding : List FundingRow
  positions : List PositionsRow
  equity : List EquityRow
  deferredBarTs : Option String
  book : Book

def runTotals (cfg : PaperConfig) (runs : List EngineResult) (state : EngineState) : RunTotals where
  fills := runs.flatMap (fun r => r.fills cfg)
  trades := runs.flatMap EngineResult.trades
  funding := runs.flatMap EngineResult.funding
  positions := runs.flatMap EngineResult.positions
  equity := runs.flatMap EngineResult.equity
  deferredBarTs := runs.getLast?.bind EngineResult.deferredBarTs
  book := state.load cfg.initialEquityUsd

variable {σ : Type}

/--
One run for each growing prefix of the observations, each from the state the one before it stored.
-/
def runPrefixes (store : StateStore σ) (cfg : PaperConfig) (prices : PriceBook)
    (fundingDf : List FundingEvent)
    : σ → List Obs → List (List Obs) → Except PyError (List EngineResult × σ)
  | s, _, [] => return ([], s)
  | s, seen, chunk :: chunks => do
    let r ← runEngine cfg (seen ++ chunk) prices fundingDf (store.read s)
    let (rs, final) ←
      runPrefixes store cfg prices fundingDf (store.write s r) (seen ++ chunk) chunks
    return (r :: rs, final)

/--
While `inv` holds of it, a store gives back the book it was given.
-/
structure StateStore.Lossless (store : StateStore σ) (cfg : PaperConfig) (inv : σ → Prop)
    : Prop where
  next : ∀ s obs prices fundingDf r,
    inv s → runEngine cfg obs prices fundingDf (store.read s) = .ok r
      → (store.read (store.write s r)).load cfg.initialEquityUsd
            = r.state.load cfg.initialEquityUsd
          ∧
        inv (store.write s r)

theorem jsonStore_lossless (cfg : PaperConfig) : jsonStore.Lossless cfg (fun _ => True) where
  next _ _ _ _ _ _ _ := ⟨rfl, trivial⟩

theorem sqliteStore_lossless (cfg : PaperConfig) (hinitial : 0 < cfg.initialEquityUsd)
    : (sqliteStore cfg).Lossless cfg (fun tables => 0 ≤ tables.ledgerState.peakEquity) where
  next tables obs prices fundingDf r hpeak hrun := by
    have hchain := runEngine_chain (M := fun _ _ _ => True) hrun (fun _ _ => trivial)
    obtain ⟨forward, book, hbars, hstate⟩ := runEngine_ok hrun
    have hread : 0 < (((sqliteStore cfg).read tables).load cfg.initialEquityUsd).peakEquity := by
      simp only [sqliteStore, Sqlite.StateTables.engineState, EngineState.load, Option.getD_some]
      split
      . exact hinitial
      next hne => exact lt_of_le_of_ne hpeak (Ne.symm hne)
    have hpos : 0 < book.peakEquity := by
      have hle := hchain.peakEquity_le
      rw [hstate, Book.load_store] at hle
      exact hread.trans_le hle
    cases hb : r.bars with
    | nil =>
      rw [hb] at hchain
      have hempty : r.equity = [] := by
        simp [EngineResult.equity, hb]
      simp only [sqliteStore, Sqlite.StateTables.persist, hempty]
      exact ⟨hchain.eq_of_nil.symm, hpeak⟩
    | cons step steps =>
      have hne : r.equity ≠ [] := by
        simp [EngineResult.equity, hb]
      have hwatermark : Sqlite.newWatermark r = book.watermark := by
        have hfold := hchain.foldl_max_ts
        rw [hb] at hchain
        have hpast := hchain.watermark_lt_ts
        rw [hstate, Book.load_store, hb, List.map_cons, List.foldl_cons, max_eq_right hpast.le]
          at hfold
        rw [← hfold]
        simp only [Sqlite.newWatermark, EngineResult.equity, hb, List.map_cons, List.map_map,
          List.foldl_cons]
        rw [max_eq_right (empty_le _)]
        rfl
      simp only [sqliteStore, Sqlite.StateTables.persist, List.isEmpty_iff, if_neg hne, hwatermark,
        hstate, Book.store, Sqlite.StateTables.engineState, Sqlite.openPositions_roundTrip,
        Sqlite.textOrNull_getD, EngineState.load, Option.getD_some, if_neg hpos.ne', hpos.le,
        and_self]

/--
The same totals read off the bar loop.
-/
def loopTotals (cfg : PaperConfig) (r : List BarStep × Book × Option String) : RunTotals where
  fills := r.1.flatMap (fun b => b.fillRows cfg)
  trades := r.1.flatMap BarStep.tradeRows
  funding := r.1.flatMap BarStep.fundingRows
  positions := r.1.map BarStep.positionsRow
  equity := r.1.map BarStep.equityRow
  deferredBarTs := r.2.2
  book := r.2.1

theorem runPrefixes_cons (store : StateStore σ) (cfg : PaperConfig) (prices : PriceBook)
    (fundingDf : List FundingEvent) (s : σ) (seen chunk : List Obs) (chunks : List (List Obs))
    : runPrefixes store cfg prices fundingDf s seen (chunk :: chunks)
        =
      (runEngine cfg (seen ++ chunk) prices fundingDf (store.read s)).bind (fun r =>
        (runPrefixes store cfg prices fundingDf (store.write s r) (seen ++ chunk) chunks).map
          (fun q => (r :: q.1, q.2))) := by
  rw [runPrefixes]
  cases runEngine cfg (seen ++ chunk) prices fundingDf (store.read s) with
  | error e => rfl
  | ok r =>
    simp only [bind, Except.bind]
    cases runPrefixes store cfg prices fundingDf (store.write s r) (seen ++ chunk) chunks <;> rfl

theorem runPrefixes_ne_nil {store : StateStore σ} {cfg : PaperConfig} {prices : PriceBook}
    {fundingDf : List FundingEvent} {s : σ} {seen chunk : List Obs} {chunks : List (List Obs)}
    {q : List EngineResult × σ}
    (h : runPrefixes store cfg prices fundingDf s seen (chunk :: chunks) = .ok q) : q.1 ≠ [] := by
  rw [runPrefixes_cons] at h
  cases hrun : runEngine cfg (seen ++ chunk) prices fundingDf (store.read s) with
  | error e =>
    rw [hrun] at h
    cases h
  | ok r =>
    rw [hrun, Except.bind] at h
    cases hrest : runPrefixes store cfg prices fundingDf (store.write s r) (seen ++ chunk)
        chunks with
    | error e =>
      rw [hrest] at h
      cases h
    | ok rest =>
      rw [hrest] at h
      cases h
      simp

/--
The first run's totals and the remaining runs' totals make the totals of all of them.
-/
theorem runTotals_cons {cfg : PaperConfig} {steps : List BarStep} {r : EngineResult} {rs : List EngineResult} {state : EngineState}
    {rest : List BarStep × Book × Option String} (hr : r.bars = steps) (hrs : rs ≠ [])
    (hrest : runTotals cfg rs state = loopTotals cfg rest)
    : runTotals cfg (r :: rs) state = loopTotals cfg (steps ++ rest.1, rest.2) := by
  simp only [runTotals, loopTotals, RunTotals.mk.injEq] at hrest
  obtain ⟨hfills, htrades, hfunding, hpositions, hequity, hdeferred, hbook⟩ := hrest
  simp only [runTotals, loopTotals, List.flatMap_cons, List.flatMap_append, List.map_append,
    hfills, htrades, hfunding, hpositions, hequity, hbook]
  rw [List.getLast?_cons_of_ne_nil hrs, hdeferred]
  simp only [EngineResult.fills, EngineResult.trades, EngineResult.funding,
    EngineResult.positions, EngineResult.equity, hr]

section

variable {store : StateStore σ} {cfg : PaperConfig} {inv : σ → Prop} {prices : PriceBook}
  {fundingDf : List FundingEvent} {forwardStart : DateTime} {keep : Obs → Bool}

theorem runPrefixes_eq_runBars (hstore : store.Lossless cfg inv)
    (hstart : parseBarUtc cfg.forwardStartTs = .ok forwardStart) (sorted : List Obs)
    (hforward : ∀ seen rest, seen ++ rest = sorted
      → forwardObs forwardStart seen = .ok (seen.filter keep))
    (chunks : List (List Obs))
    : ∀ (chunk seen : List Obs) (s : σ), inv s → seen ++ (chunk :: chunks).flatten = sorted →
        (runPrefixes store cfg prices fundingDf s seen (chunk :: chunks)).map
            (fun q => runTotals cfg q.1 (store.read q.2))
          =
        (runBars cfg prices (buildFundingIndex fundingDf)
          ((store.read s).load cfg.initialEquityUsd) (sorted.filter keep)).map
            (loopTotals cfg) := by
  induction chunks with
  | nil =>
    intro chunk seen s hinv hsorted
    rw [List.flatten_cons, List.flatten_nil, List.append_nil] at hsorted
    have hseen := hforward (seen ++ chunk) [] (by rw [List.append_nil, hsorted])
    have hrun := runEngine_eq_runBars prices fundingDf (store.read s) hstart hseen
    rw [runPrefixes_cons]
    rw [hsorted] at hrun ⊢
    cases hloop : runBars cfg prices (buildFundingIndex fundingDf)
        ((store.read s).load cfg.initialEquityUsd) (sorted.filter keep) with
    | error e =>
      rw [hrun, hloop]
      rfl
    | ok result =>
      rw [hloop] at hrun
      have hbook := (hstore.next s sorted prices fundingDf _ hinv hrun).1
      rw [hrun]
      simp only [Except.map, Except.bind, runPrefixes, pure, Except.pure, runTotals, loopTotals]
        at hbook ⊢
      rw [hbook]
      simp [EngineResult.fills, EngineResult.trades, EngineResult.funding,
        EngineResult.positions, EngineResult.equity]
  | cons next chunks ih =>
    intro chunk seen s hinv hsorted
    have hseen := hforward (seen ++ chunk) (next :: chunks).flatten (by
      rw [List.append_assoc, ← List.flatten_cons, hsorted])
    have hrun := runEngine_eq_runBars prices fundingDf (store.read s) hstart hseen
    rw [runPrefixes_cons]
    -- the loop over the whole list runs over the first prefix, and then over the whole list again
    have hsplit : sorted.filter keep
        = (seen ++ chunk).filter keep ++ ((next :: chunks).flatten).filter keep := by
      rw [← List.filter_append, List.append_assoc, ← List.flatten_cons, hsorted]
    rw [hsplit, runBars.append, ← hsplit]
    cases hloop : runBars cfg prices (buildFundingIndex fundingDf)
        ((store.read s).load cfg.initialEquityUsd) ((seen ++ chunk).filter keep) with
    | error e =>
      rw [hrun, hloop]
      rfl
    | ok result =>
      rw [hloop] at hrun
      simp only [Except.map] at hrun
      generalize hr : EngineResult.mk result.1 _ result.2.2 = r at hrun
      have hnext := hstore.next s (seen ++ chunk) prices fundingDf r hinv hrun
      have hih := ih next (seen ++ chunk) (store.write s r) hnext.2 (by
        rw [List.append_assoc, ← List.flatten_cons, hsorted])
      rw [hnext.1, ← hr, Book.load_store, hr] at hih
      rw [hrun]
      cases hprefixes : runPrefixes store cfg prices fundingDf (store.write s r) (seen ++ chunk)
          (next :: chunks) with
      | error e =>
        cases hrest : runBars cfg prices (buildFundingIndex fundingDf) result.2.1
            (sorted.filter keep) with
        | error e' =>
          rw [hprefixes, hrest] at hih
          cases hih
          simp [Except.bind, Except.map, bind, hprefixes, hrest]
        | ok rest =>
          rw [hprefixes, hrest] at hih
          cases hih
      | ok q =>
        cases hrest : runBars cfg prices (buildFundingIndex fundingDf) result.2.1
            (sorted.filter keep) with
        | error e =>
          rw [hprefixes, hrest] at hih
          cases hih
        | ok rest =>
          rw [hprefixes, hrest] at hih
          have htotals : runTotals cfg q.1 (store.read q.2) = loopTotals cfg rest :=
            Except.ok.inj hih
          have hcons := runTotals_cons (r := r) (by rw [← hr]) (runPrefixes_ne_nil hprefixes)
            htotals
          simp [Except.bind, Except.map, bind, pure, Except.pure, hprefixes, hrest, hcons]

/--
For any store that loses nothing, growing prefixes total what one run totals.
-/
theorem runPrefixes_eq_runEngine (hstore : store.Lossless cfg inv) {s : σ} (hinv : inv s)
    {perBarObs chunk : List Obs} {chunks : List (List Obs)}
    (hcut : sortObs perBarObs = .ok (chunk :: chunks).flatten)
    : (runPrefixes store cfg prices fundingDf s [] (chunk :: chunks)).map
          (fun q => runTotals cfg q.1 (store.read q.2))
        =
      (runEngine cfg perBarObs prices fundingDf (store.read s)).map
          (fun r => runTotals cfg [r] r.state) := by
  cases hstart : parseBarUtc cfg.forwardStartTs with
  | error e =>
    rw [runPrefixes_cons]
    simp [runEngine, hstart, bind, Except.bind, Except.map]
  | ok forwardStart =>
    rw [runPrefixes_eq_runBars hstore hstart _ _ chunks chunk [] s hinv (List.nil_append _)]
    . rw [runEngine_eq_runBars prices fundingDf _ hstart (forwardObs_sorted forwardStart hcut)]
      cases runBars cfg prices (buildFundingIndex fundingDf)
          ((store.read s).load cfg.initialEquityUsd) _ with
      | error e => rfl
      | ok result =>
        simp [Except.map, runTotals, loopTotals, EngineResult.fills, EngineResult.trades,
          EngineResult.funding, EngineResult.positions, EngineResult.equity]
    . intro seen rest hseen
      rw [← hseen] at hcut
      exact forwardObs_prefix forwardStart hcut

end

def heldBar : Obs :=
  ⟨1, "2026-06-14T00:00:00", ["BTCUSDT"], 0, false, 0, "\x7b\"bar_index\":1\x7d"⟩

def flatBar : Obs :=
  ⟨2, "2026-06-14T08:00:00", [], 0, false, 0, "\x7b\"bar_index\":2\x7d"⟩

def threeBarBook : PriceBook where
  barsBySymbol := Std.ExtTreeMap.ofList [("BTCUSDT", [
    Bar.mk "2026-06-14T00:00:00" 100 101,
    Bar.mk "2026-06-14T08:00:00" 102 103,
    Bar.mk "2026-06-14T16:00:00" 104 105])]

end Quantbot
