import Mathlib
import Quantbot.Paper.Engine.Bar

/-!
`run_engine`: the bars past the watermark in the order of their instants, up to the first deferred
one.
-/

namespace Quantbot

/--
The persisted state; the two optional fields have defaults.
-/
structure EngineState where
  watermarkBarTs : Option String
  openPositions : OpenPositions
  accumulators : Accumulators
  peakEquity : Option ℚ
  barsElapsed : ℤ

def newState (initialEquityUsd : ℚ) : EngineState where
  watermarkBarTs := some ""
  openPositions := ∅
  accumulators := { realizedGross := 0, feesCum := 0, fundingCum := 0 }
  peakEquity := some initialEquityUsd
  barsElapsed := 0

/--
The initial watermark comes before every bar.
-/
theorem empty_le (s : String) : "" ≤ s := by
  rw [← not_lt, String.lt_iff_toList_lt, String.toList_empty]
  apply List.not_lt_nil

namespace EngineState

def load (state : EngineState) (initialEquity : ℚ) : Book where
  watermark := state.watermarkBarTs.getD ""
  openPositions := state.openPositions
  acc := state.accumulators
  peakEquity := state.peakEquity.getD initialEquity

end EngineState

namespace Book

def store (book : Book) (barsElapsed : ℤ) : EngineState where
  watermarkBarTs := some book.watermark
  openPositions := book.openPositions
  accumulators := book.acc
  peakEquity := some book.peakEquity
  barsElapsed := barsElapsed

@[simp]
theorem load_store (book : Book) (barsElapsed : ℤ) (initialEquity : ℚ)
    : (book.store barsElapsed).load initialEquity = book := by
  rfl

end Book

/--
The bars of one run with the state they leave.
-/
structure EngineResult where
  bars : List BarStep
  state : EngineState
  deferredBarTs : Option String

namespace EngineResult

def fills (r : EngineResult) (cfg : PaperConfig) : List FillRow :=
  r.bars.flatMap (fun b => b.fillRows cfg)

def positions (r : EngineResult) : List PositionsRow :=
  r.bars.map BarStep.positionsRow

def trades (r : EngineResult) : List TradeRow :=
  r.bars.flatMap BarStep.tradeRows

def equity (r : EngineResult) : List EquityRow :=
  r.bars.map BarStep.equityRow

def funding (r : EngineResult) : List FundingRow :=
  r.bars.flatMap BarStep.fundingRows

end EngineResult

/--
The loop over the bars: those at or below the watermark are skipped, a deferred one ends it.
-/
def runBars (cfg : PaperConfig) (prices : PriceBook) (index : FundingIndex)
    : Book → List Obs → Except PyError (List BarStep × Book × Option String)
  | book, [] => return ([], book, none)
  | book, obs :: rest => do
    if obs.timestamp ≤ book.watermark then
      runBars cfg prices index book rest
    else
      match ← processBar cfg prices index book obs with
      | none => return ([], book, some obs.timestamp)
      | some step =>
        let (steps, final, deferred) ← runBars cfg prices index step.next rest
        return (step :: steps, final, deferred)

def obsInstantLe (a b : DateTime × Obs) : Prop :=
  a.1 ≤ b.1

instance : DecidableRel obsInstantLe :=
  fun a b => inferInstanceAs (Decidable (a.1 ≤ b.1))

/--
The observations not before `forwardStart`, in the order of their instants.
-/
def forwardObs (forwardStart : DateTime) (perBarObs : List Obs) : Except PyError (List Obs) := do
  let dated ← perBarObs.mapM (fun obs => do return (← parseBarUtc obs.timestamp, obs))
  let forward := dated.filter (fun p => forwardStart ≤ p.1)
  return (forward.insertionSort obsInstantLe).map Prod.snd

def runEngine (cfg : PaperConfig) (perBarObs : List Obs) (prices : PriceBook)
    (fundingDf : List FundingEvent) (state : EngineState) : Except PyError EngineResult := do
  let index := buildFundingIndex fundingDf
  let forwardStart ← parseBarUtc cfg.forwardStartTs
  let forward ← forwardObs forwardStart perBarObs
  let (bars, book, deferred) ←
    runBars cfg prices index (state.load cfg.initialEquityUsd) forward
  return {
    bars := bars
    state := book.store (state.barsElapsed + bars.length)
    deferredBarTs := deferred
  }

end Quantbot
