import Mathlib
import Quantbot.Experiment.Regime

/-!
The portfolio evaluator: momentum signals of each symbol under a volatility regime, credited bar by
bar.
-/

namespace Quantbot
namespace Experiment

structure TSMOMStrategy where
  returnPeriod : ℤ
  threshold : ℚ
  symbol : String
  confidence : ℚ

namespace TSMOMStrategy

structure State where
  prices : List ℚ
  barsSinceSignal : ℤ

variable (math : FloatMath) (self : TSMOMStrategy)

def signal (bar : Bar) : Signal where
  timestamp := bar.timestamp
  symbol := .str self.symbol
  direction := some .long
  confidence := .float self.confidence

/--
Whether the log return over the lookback window, which ends at the last price, exceeds the
threshold.
-/
def exceeds (prices : List ℚ) (currentClose : ℚ) : Except PyError Bool := do
  if prices.length < self.returnPeriod + 1 then
    .ok false
  else
    let pastClose ← pyIndex prices (-self.returnPeriod - 1)
    if pastClose ≤ 0 then
      .ok false
    else if currentClose ≤ 0 then
      .error .valueError
    else
      .ok (self.threshold < math.log (currentClose / pastClose))

def onBar (s : State) (bar : Bar) : Except PyError (Option Signal × State) := do
  let s := { prices := s.prices ++ [bar.close], barsSinceSignal := s.barsSinceSignal + 1 }
  if ← self.exceeds math s.prices bar.close then
    .ok (some (self.signal bar), { s with barsSinceSignal := 0 })
  else
    .ok (none, s)

end TSMOMStrategy

def volWindow : ℕ :=
  20

structure VolStateOverlay where
  tsme : TSMOMStrategy
  volHighQuantile : ℚ

namespace VolStateOverlay

structure State where
  bars : List Bar
  currentRegime : VolRegime
  tsme : TSMOMStrategy.State

def State.init : State where
  bars := []
  currentRegime := .unknown
  tsme := { prices := [], barsSinceSignal := 0 }

variable (math : FloatMath) (self : VolStateOverlay)

/--
`_compute_regime_label`.
-/
def computeRegimeLabel (bars : List Bar) : Except PyError VolRegime :=
  if bars.length < volWindow + 1 then
    .ok .unknown
  else
    let logRets := computeLogReturns math bars
    if logRets.length < volWindow then
      .ok .unknown
    else
      computeVolRegime math logRets volWindow self.volHighQuantile

def onBar (s : State) (bar : Bar) : Except PyError ((Option Signal × VolRegime) × State) := do
  let bars := s.bars ++ [bar]
  let currentRegime ← self.computeRegimeLabel math bars
  let r ← self.tsme.onBar math s.tsme bar
  .ok ((r.1, currentRegime), { bars, currentRegime, tsme := r.2 })

end VolStateOverlay

structure SplitArgs where
  splitIndex : ℕ
  testBarsBySymbol : List (String × List Bar)
  universeSymbols : List String
  returnPeriod : ℤ
  threshold : ℚ
  testStartStr : String
  testEndStr : String
  volQuantile : ℚ
  -- the cost of carry of a bar, absent without a funding table
  carryCost : Option (String → Bar → Except PyError ℚ)

/--
The return from the bar before to this one, with what the overlay says at this bar.
-/
structure Visit where
  ret : ℚ
  retNet : ℚ
  regime : VolRegime
  signal : Option Signal

namespace Visit

def benchmark (v : Visit) (regime : VolRegime) : Bool :=
  v.regime = regime

/--
Whether the return is credited to the strategy, in a regime.
-/
def credited (v : Visit) (regime : VolRegime) : Bool :=
  v.regime = regime ∧ ∃ sig ∈ v.signal, sig.direction = some .long

end Visit

structure SymbolState where
  prevClose : Option ℚ
  overlay : VolStateOverlay.State

namespace SplitArgs

variable (math : FloatMath) (args : SplitArgs)

def overlay (symbol : String) : VolStateOverlay where
  tsme := {
    returnPeriod := args.returnPeriod
    threshold := args.threshold
    symbol
    confidence := 1 / 2
  }
  volHighQuantile := args.volQuantile

/--
`_log_return`.
-/
def barReturn (closeStart closeEnd : ℚ) : ℚ :=
  (logReturn math closeStart closeEnd).getD 0

def carry (symbol : String) (bar : Bar) : Except PyError ℚ :=
  match args.carryCost with
  | none => .ok 0
  | some carryCost => carryCost symbol bar

/--
One bar of one symbol. The first one only sets the close before.
-/
def visit (s : SymbolState) (x : String × Bar) : Except PyError (Option Visit × SymbolState) := do
  match s.prevClose with
  | none => .ok (none, { s with prevClose := some x.2.close })
  | some prevClose =>
    let r ← (args.overlay x.1).onBar math s.overlay x.2
    let ret := barReturn math prevClose x.2.close
    let carryCost ← args.carry x.1 x.2
    .ok (some { ret, retNet := ret - carryCost, regime := r.1.2, signal := r.1.1 },
      { prevClose := some x.2.close, overlay := r.2 })

def symbolMachine : Machine PyError SymbolState (String × Bar) (Option Visit) where
  init := { prevClose := none, overlay := VolStateOverlay.State.init }
  step := args.visit math

def minTestLen : ℕ :=
  ((args.testBarsBySymbol.map (fun p => p.2.length)).min?).getD 0

/--
The bars in the order of the loop: by index, then in the order of the universe.
-/
def schedule : List (String × (String × Bar)) :=
  (List.range args.minTestLen).flatMap (fun i =>
    args.universeSymbols.filterMap (fun symbol => do
      let bars ← args.testBarsBySymbol.lookup symbol
      let bar ← bars[i]?
      some (symbol, (symbol, bar))))

/--
The main loop; what it appends for each bar of each symbol.
-/
def visits : Except PyError (List (String × Option Visit)) :=
  ((args.symbolMachine math).keyed.trace args.schedule).map (List.map Prod.fst)

end SplitArgs

structure SplitResult where
  splitIndex : ℕ
  testStart : String
  testEnd : String
  universeSymbols : List String
  paramReturnPeriod : ℤ
  paramThreshold : ℚ
  tsmmLowVolReturn : ℚ
  tsmmLowVolTrials : ℕ
  tsmmLowVolSign : String
  tsmmLowVolReturns : List ℚ
  tsmmHighVolReturn : ℚ
  tsmmHighVolTrials : ℕ
  tsmmHighVolSign : String
  tsmmHighVolReturns : List ℚ
  benchmarkLowVolReturn : ℚ
  benchmarkHighVolReturn : ℚ
  tsmmTotalReturn : ℚ
  tsmmTotalTrials : ℕ
  benchmarkTotalReturn : ℚ
  tsmmLowVolReturnNet : ℚ
  tsmmHighVolReturnNet : ℚ
  tsmmTotalReturnNet : ℚ

def SplitArgs.emptyResult (args : SplitArgs) : SplitResult where
  splitIndex := args.splitIndex
  testStart := args.testStartStr
  testEnd := args.testEndStr
  universeSymbols := args.universeSymbols
  paramReturnPeriod := args.returnPeriod
  paramThreshold := args.threshold
  tsmmLowVolReturn := 0
  tsmmLowVolTrials := 0
  tsmmLowVolSign := "flat"
  tsmmLowVolReturns := []
  tsmmHighVolReturn := 0
  tsmmHighVolTrials := 0
  tsmmHighVolSign := "flat"
  tsmmHighVolReturns := []
  benchmarkLowVolReturn := 0
  benchmarkHighVolReturn := 0
  tsmmTotalReturn := 0
  tsmmTotalTrials := 0
  benchmarkTotalReturn := 0
  tsmmLowVolReturnNet := 0
  tsmmHighVolReturnNet := 0
  tsmmTotalReturnNet := 0

def signOf (total : ℚ) : String :=
  if 0 < total then "positive" else "negative"

/--
`evaluate_split`.
-/
def evaluateSplit (math : FloatMath) (args : SplitArgs) : Except PyError SplitResult := do
  if args.minTestLen = 0 then
    .ok args.emptyResult
  else
    let visits := (← args.visits math).filterMap Prod.snd
    let low := visits.filter (·.credited .lowVol)
    let high := visits.filter (·.credited .highVol)
    let tsmmLow := low.map Visit.ret
    let tsmmHigh := high.map Visit.ret
    let benchLow := (visits.filter (·.benchmark .lowVol)).map Visit.ret
    let benchHigh := (visits.filter (·.benchmark .highVol)).map Visit.ret
    let lowNet := if low.isEmpty then tsmmLow.sum else (low.map Visit.retNet).sum
    let highNet := if high.isEmpty then tsmmHigh.sum else (high.map Visit.retNet).sum
    .ok { args.emptyResult with
      tsmmLowVolReturn := tsmmLow.sum
      tsmmLowVolTrials := tsmmLow.length
      tsmmLowVolSign := signOf tsmmLow.sum
      tsmmLowVolReturns := tsmmLow
      tsmmHighVolReturn := tsmmHigh.sum
      tsmmHighVolTrials := tsmmHigh.length
      tsmmHighVolSign := signOf tsmmHigh.sum
      tsmmHighVolReturns := tsmmHigh
      benchmarkLowVolReturn := benchLow.sum
      benchmarkHighVolReturn := benchHigh.sum
      tsmmTotalReturn := (tsmmLow ++ tsmmHigh).sum
      tsmmTotalTrials := (tsmmLow ++ tsmmHigh).length
      benchmarkTotalReturn := (benchLow ++ benchHigh).sum
      tsmmLowVolReturnNet := lowNet
      tsmmHighVolReturnNet := highNet
      tsmmTotalReturnNet := lowNet + highNet
    }

end Experiment
end Quantbot
