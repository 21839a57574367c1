import Quantbot.Experiment.Portfolio
import Quantbot.Experiment.Walkforward

/-!
The universe of each quarter, and the portfolio evaluated over a grid of parameters on every split.
-/

namespace Quantbot
namespace Experiment

def quarterlyUniverses : List (String × List String) :=
  [("2021-01-01", ["BTCUSDT", "ETHUSDT", "XRPUSDT", "LINKUSDT", "DOTUSDT"]),
    ("2021-04-01", ["BTCUSDT", "ETHUSDT", "BNBUSDT", "ADAUSDT", "XRPUSDT"]),
    ("2021-07-01", ["BTCUSDT", "ETHUSDT", "BNBUSDT", "XRPUSDT", "MATICUSDT"]),
    ("2021-10-01", ["BTCUSDT", "ETHUSDT", "SOLUSDT", "ADAUSDT", "XRPUSDT"]),
    ("2022-01-01", ["BTCUSDT", "ETHUSDT", "MATICUSDT", "SOLUSDT", "AVAXUSDT"]),
    ("2022-04-01", ["BTCUSDT", "ETHUSDT", "SOLUSDT", "AVAXUSDT", "XRPUSDT"]),
    ("2022-07-01", ["BTCUSDT", "ETHUSDT", "SOLUSDT", "ADAUSDT", "AVAXUSDT"]),
    ("2022-10-01", ["BTCUSDT", "ETHUSDT", "XRPUSDT", "SOLUSDT", "ADAUSDT"]),
    ("2023-01-01", ["BTCUSDT", "ETHUSDT", "BNBUSDT", "XRPUSDT", "SOLUSDT"]),
    ("2023-04-01", ["BTCUSDT", "ETHUSDT", "XRPUSDT", "MATICUSDT", "SOLUSDT"]),
    ("2023-07-01", ["BTCUSDT", "ETHUSDT", "XRPUSDT", "BNBUSDT", "SOLUSDT"]),
    ("2023-10-01", ["BTCUSDT", "ETHUSDT", "SOLUSDT", "XRPUSDT", "LINKUSDT"]),
    ("2024-01-01", ["BTCUSDT", "ETHUSDT", "SOLUSDT", "AVAXUSDT", "ADAUSDT"]),
    ("2024-04-01", ["BTCUSDT", "ETHUSDT", "SOLUSDT", "XRPUSDT", "BNBUSDT"]),
    ("2024-07-01", ["BTCUSDT", "ETHUSDT", "SOLUSDT", "BNBUSDT", "XRPUSDT"]),
    ("2024-10-01", ["BTCUSDT", "ETHUSDT", "SOLUSDT", "XRPUSDT", "BNBUSDT"]),
    ("2025-01-01", ["BTCUSDT", "ETHUSDT", "XRPUSDT", "SOLUSDT", "BNBUSDT"]),
    ("2025-04-01", ["BTCUSDT", "ETHUSDT", "SOLUSDT", "XRPUSDT", "ADAUSDT"]),
    ("2025-07-01", ["BTCUSDT", "ETHUSDT", "SOLUSDT", "XRPUSDT", "ADAUSDT"]),
    ("2025-10-01", ["ETHUSDT", "BTCUSDT", "SOLUSDT", "XRPUSDT", "BNBUSDT"])]

def quarterlyDates : List String :=
  quarterlyUniverses.map Prod.fst

/--
The universe of the last quarter that has begun at a time, of the first quarter before that.
-/
def universeAt (timestamp : String) : List String :=
  let begun := quarterlyDates.filter (fun qdate => decide (qdate ≤ timestamp))
  let qdate := (begun.getLast?.or quarterlyDates.head?).getD ""
  (quarterlyUniverses.lookup qdate).getD ["BTCUSDT", "ETHUSDT"]

/--
`TSMOM_GRID`: the return period and the threshold.
-/
def tsmomGrid : List (ℤ × ℚ) :=
  [(20, 0), (20, 3 / 100), (40, 0), (40, 3 / 100)]

/--
The bars of a window, of the symbols that reach its end.
-/
def windowBars (barsBySymbol : List (String × List Bar)) (start stop : ℤ)
    : List (String × List Bar) :=
  (barsBySymbol.filter (fun p => stop ≤ p.2.length)).map (fun p => (p.1, pySlice p.2 start stop))

/--
One split of `evaluate_grid`; none where the reference bars end before its test window.
-/
def evaluateGridSplit (math : FloatMath) (barsBySymbol : List (String × List Bar))
    (refBars : List Bar) (split : WalkForwardSplit × ℕ) : Except PyError (List SplitResult) := do
  let (split, splitIndex) := split
  if refBars.length ≤ split.testStart then
    .ok []
  else
    let first ← pyIndex refBars split.testStart
    let last ← pyIndex refBars (min split.testEnd (refBars.length - 1))
    let testEndStr := if split.testEnd ≤ refBars.length then last.timestamp else "unknown"
    tsmomGrid.mapM (fun params => evaluateSplit math {
      splitIndex
      testBarsBySymbol := windowBars barsBySymbol split.testStart split.testEnd
      universeSymbols := universeAt first.timestamp
      returnPeriod := params.1
      threshold := params.2
      testStartStr := first.timestamp
      testEndStr
      volQuantile := 65 / 100
      carryCost := none
    })

/--
`evaluate_grid`. The first symbol's bars are the reference.
-/
def evaluateGrid (math : FloatMath) (barsBySymbol : List (String × List Bar))
    (splits : List WalkForwardSplit) : Except PyError (List SplitResult) := do
  let refBars := (barsBySymbol.head?.map Prod.snd).getD []
  let results ← splits.zipIdx.mapM (evaluateGridSplit math barsBySymbol refBars)
  .ok results.flatten

end Experiment
end Quantbot
