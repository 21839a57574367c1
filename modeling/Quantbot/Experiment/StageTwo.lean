import Quantbot.Experiment.StageOne

/-!
The second stage's diagnostics: the returns of the splits again by combined regime, and under the cost
of carry. A dictionary is a list in the order of insertion.
-/

namespace Quantbot
namespace Experiment
namespace StageTwo

def carryScenarios : List (String × ℕ) :=
  [("S1", 548), ("S2", 1500), ("S3", 4928)]

def carryBarsPerYear : ℚ :=
  1095

structure CombinedRegimeCell where
  volRegime : String
  trendRegime : String
  splitIndex : ℕ
  paramReturnPeriod : ℤ
  paramThreshold : ℚ
  tsmmReturns : List ℚ
  benchmarkReturns : List ℚ

def CombinedRegimeCell.trialCount (cell : CombinedRegimeCell) : ℕ :=
  cell.tsmmReturns.length

structure CarryStressResult where
  scenarioLabel : String
  annualBps : ℤ
  carryPerBar : ℚ
  totalInstances : ℕ
  positiveNetInstances : ℕ

def CarryStressResult.positiveFraction (result : CarryStressResult) : ℚ :=
  if result.totalInstances = 0 then 0 else result.positiveNetInstances / result.totalInstances

section dictionaries

variable {κ α : Type} [DecidableEq κ]

/--
`d[key].append(a)` of a `defaultdict(list)`.
-/
def appendAt (key : κ) (a : α) : List (κ × List α) → List (κ × List α)
  | [] => [(key, [a])]
  | (k, as) :: rest => if k = key then (k, as ++ [a]) :: rest else (k, as) :: appendAt key a rest

/--
`d[key] = a`
-/
def assign (key : κ) (a : α) : List (κ × α) → List (κ × α)
  | [] => [(key, a)]
  | (k, b) :: rest => if k = key then (k, a) :: rest else (k, b) :: assign key a rest

/--
`s.split("_", 1)` into two variables.
-/
def splitOnce (s : String) : Except PyError (String × String) :=
  match s.toList.span (· ≠ '_') with
  | (first, _ :: rest) => .ok (String.ofList first, String.ofList rest)
  | (_, []) => .error .valueError

end dictionaries

def volLabel : VolRegime → String
  | .lowVol => "low_vol"
  | .highVol => "high_vol"
  | .unknown => "unknown"

abbrev CellsByRegime :=
  List (String × List CombinedRegimeCell)

section matrix

variable (math : FloatMath) (draw : ℕ → ℕ → ℕ → ℕ)

/--
The cell of one point of the grid; none without a return of the strategy.
-/
def gridCell (vol : VolRegime) (trend : String) (args : SplitArgs)
    : Except PyError (Option (String × CombinedRegimeCell)) := do
  let visits := ((← args.visits math).filterMap Prod.snd).filter (fun v => v.regime ≠ .unknown)
  let tsmmReturns := (visits.filter (·.credited vol)).map Visit.ret
  if tsmmReturns.isEmpty then
    .ok none
  else
    .ok (some (volLabel vol ++ "_" ++ trend, {
      volRegime := volLabel vol
      trendRegime := trend
      splitIndex := args.splitIndex
      paramReturnPeriod := args.returnPeriod
      paramThreshold := args.threshold
      tsmmReturns
      benchmarkReturns := (visits.filter (·.benchmark vol)).map Visit.ret
    }))

/--
The cells of one split, each with its key.
-/
def splitCells (barsBySymbol : List (String × List Bar)) (refBars : List Bar)
    (split : WalkForwardSplit × ℕ) : Except PyError (List (String × CombinedRegimeCell)) := do
  let (split, splitIndex) := split
  if refBars.length ≤ split.testStart then
    .ok []
  else
    let first ← pyIndex refBars split.testStart
    let last ← pyIndex refBars (min split.testEnd (refBars.length - 1))
    let testBars := windowBars barsBySymbol split.testStart split.testEnd
    let refTestBars := (testBars.lookup "BTCUSDT").getD []
    if refTestBars.length < 21 then
      .ok []
    else
      let logReturns := computeLogReturns math refTestBars
      let vol ← computeVolRegime math logReturns 20 (65 / 100)
      let trend ← computeTrendRegime logReturns 20 (.float (1 / 1000))
      let cells ← tsmomGrid.mapM (fun params => gridCell math vol trend {
        splitIndex
        testBarsBySymbol := testBars
        universeSymbols := universeAt first.timestamp
        returnPeriod := params.1
        threshold := params.2
        testStartStr := first.timestamp
        testEndStr := last.timestamp
        volQuantile := 65 / 100
        carryCost := none
      })
      .ok (cells.filterMap id)

def computeCombinedRegimeMatrix (barsBySymbol : List (String × List Bar)) (refBars : List Bar)
    (splits : List WalkForwardSplit) : Except PyError CellsByRegime := do
  let cells ← splits.zipIdx.mapM (splitCells math barsBySymbol refBars)
  .ok (cells.flatten.foldl (fun cellsByRegime cell => appendAt cell.1 cell.2 cellsByRegime) [])

structure RegimeRow where
  volRegime : String
  trendRegime : String
  regimeKey : String
  trialCount : ℕ
  positiveCount : ℕ
  signConsistency : ℚ
  medianExcess : ℚ
  totalExcess : ℚ
  ci : ℚ × ℚ
  cellCount : ℕ

/--
`_bootstrap_ci`.
-/
def bootstrapCi (returns : List ℚ) : ℚ × ℚ :=
  if returns.length < 2 then
    (0, 0)
  else
    let means := StageOne.bootMeans draw returns
    let n : ℚ := means.length
    let at' (x : ℚ) : ℚ := (means[(Sqlite.truncate x).toNat]?).getD 0
    (at' (n * StageOne.bootstrapAlpha / 2), at' (n * (1 - StageOne.bootstrapAlpha / 2)))

/--
The row of one key; none without a return.
-/
def aggregateRow (entry : String × List CombinedRegimeCell) : Except PyError (Option RegimeRow) := do
  let (regimeKey, cells) := entry
  if cells.isEmpty then
    .ok none
  else
    let (vol, trend) ← splitOnce regimeKey
    let allReturns := cells.flatMap CombinedRegimeCell.tsmmReturns
    let allBench := cells.flatMap CombinedRegimeCell.benchmarkReturns
    if allReturns.isEmpty then
      .ok none
    else
      let totalExcess := allReturns.sum - allBench.sum
      let positiveCount := allReturns.countP (0 < ·)
      .ok (some {
        volRegime := vol
        trendRegime := trend
        regimeKey
        trialCount := allReturns.length
        positiveCount
        signConsistency := positiveCount / allReturns.length
        medianExcess := totalExcess / allReturns.length
        totalExcess
        ci := bootstrapCi draw allReturns
        cellCount := cells.length
      })

def aggregateRegimeMatrix (cellsByRegime : CellsByRegime) : Except PyError (List RegimeRow) := do
  let rows ← cellsByRegime.mapM (aggregateRow draw)
  .ok (rows.filterMap id)

end matrix

section carry

/--
The returns in the order of the loops.
-/
def allReturns (cellsByRegime : CellsByRegime) : List ℚ :=
  cellsByRegime.flatMap (fun entry => entry.2.flatMap CombinedRegimeCell.tsmmReturns)

def perBar (annualBps : ℚ) : ℚ :=
  annualBps / 10000 / carryBarsPerYear

/--
How many returns are positive net of a cost.
-/
def positiveNet (cellsByRegime : CellsByRegime) (carryPerBar : ℚ) : ℕ :=
  (allReturns cellsByRegime).countP (fun ret => 0 < ret - carryPerBar)

def applyCarryStress (cellsByRegime : CellsByRegime) : List CarryStressResult :=
  carryScenarios.map (fun (scenarioLabel, annualBps) => {
    scenarioLabel
    annualBps
    carryPerBar := perBar annualBps
    totalInstances := (allReturns cellsByRegime).length
    positiveNetInstances := positiveNet cellsByRegime (perBar annualBps)
  })

/--
The rows of the table: a symbol, a period and its annual drag.
-/
abbrev CarryTable :=
  List ((String × String) × ℚ)

def carryLookup (table : CarryTable) : List ((String × String) × ℚ) :=
  table.foldl (fun lookup row => assign row.1 row.2 lookup) []

def meanOf (xs : List ℚ) : ℚ :=
  xs.sum / xs.length

def symbolMeanCarry (table : CarryTable) : List (String × ℚ) :=
  let bySymbol := (carryLookup table).foldl (fun bySymbol row => appendAt row.1.1 row.2 bySymbol) []
  bySymbol.map (fun entry => (entry.1, meanOf entry.2))

/--
The drag that the returns pay: each symbol counts once.
-/
def meanOfSymbols (table : CarryTable) : ℚ :=
  meanOf ((symbolMeanCarry table).map Prod.snd)

/--
The drag that is reported: each symbol counts as often as it has periods.
-/
def meanAnnDrag (table : CarryTable) : ℚ :=
  meanOf ((carryLookup table).map Prod.snd)

def realCarryResult (cellsByRegime : CellsByRegime) (table : CarryTable) : CarryStressResult where
  scenarioLabel := "real-carry"
  annualBps := roundHalfEven (meanAnnDrag table)
  carryPerBar := perBar (meanAnnDrag table)
  totalInstances := (allReturns cellsByRegime).length
  positiveNetInstances := positiveNet cellsByRegime (perBar (meanOfSymbols table))

/--
The mean over the symbols is taken anew at every return.
-/
def applyRealCarryStress (cellsByRegime : CellsByRegime) (table : CarryTable)
    : Except PyError (List CarryStressResult) :=
  if (symbolMeanCarry table).isEmpty ∧ ¬(allReturns cellsByRegime).isEmpty then
    .error .zeroDivisionError
  else
    .ok [realCarryResult cellsByRegime table]

end carry

end StageTwo
end Experiment
end Quantbot
