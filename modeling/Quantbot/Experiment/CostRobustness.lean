import Mathlib
import Quantbot.Experiment.Inferential
import Quantbot.Experiment.Walkforward

/-!
The result of a walk-forward experiment: its aggregates over the splits, the verdict of its gate and
the scan of its costs.
-/

namespace Quantbot
namespace Experiment

open Sqlite (Literals)
open Inferential (StatMath computePsr computeDsr computeSkewness computeKurtosis)

section summaries

def costStressMultipliers : List ℚ :=
  [1 / 2, 1, 2, 3, 5]

structure CostRobustnessLevel where
  stressMultiplier : ℚ
  stressedTotalCostBps : ℚ
  stressedNetReturnTotal : ℚ
  stressedSharpeLike : Option ℚ
  stressedDsr : Option ℚ := none
  stressedPsr : Option ℚ := none
deriving DecidableEq

structure CostRobustnessSummary where
  baselineAssumedTotalCostBps : ℚ
  scanLevels : List ℚ
  results : List CostRobustnessLevel
  breakEvenCostMultiplier : Option ℚ := none
  breakEvenCostBps : Option ℚ := none
  firstDegradedInferenceMultiplier : Option ℚ := none
  firstDegradedInferenceThreshold : Option ℚ := none
  frankenComparisonNote : Option String := none
  assumptionsLimitations : String := ""
deriving DecidableEq

structure WalkForwardExperimentResult where
  experimentName : String
  splitCount : ℕ
  splits : List WalkForwardSplitResult
  totalBarCount : ℕ
  totalSignalCount : ℕ
  strategyName : String := ""
  strategyParams : Params := { entries := [], noState := List.forall_mem_nil _ }
  fixtureName : String := ""
  familyId : String := ""
  variantId : String := ""
  trialCount : ℤ := 1
  gateVerdict : Option GateVerdict := none
  feeBps : ℚ := 0
  slippageBps : ℚ := 0
  economicsSummary : Option EconomicsSummary := none
  returnSummary : Option ReturnSummary := none
  returnSeries : Option ReturnSeries := none
  inferenceSummary : Option InferenceSummary := none
  robustnessSummary : Option CostRobustnessSummary := none

end summaries

namespace WalkForwardExperimentResult

section aggregates

variable (self : WalkForwardExperimentResult)

/--
`aggregate_economics_summary`. The rates are those of the first split with a positive one.
-/
def aggregateEconomicsSummary : Option EconomicsSummary :=
  match self.splits.filterMap WalkForwardSplitResult.economicsSummary with
  | [] => none
  | summaries =>
    let totalCostSide := (summaries.map EconomicsSummary.costSideCount).sum
    let feeBps := ((summaries.find? (fun s => 0 < s.feeBps)).map EconomicsSummary.feeBps).getD 0
    let slippageBps :=
      ((summaries.find? (fun s => 0 < s.slippageBps)).map EconomicsSummary.slippageBps).getD 0
    some {
      costSideCount := totalCostSide
      entryCount := (summaries.map EconomicsSummary.entryCount).sum
      exitCount := (summaries.map EconomicsSummary.exitCount).sum
      flipCount := (summaries.map EconomicsSummary.flipCount).sum
      feeBps
      slippageBps
      assumedTotalCostBps := totalCostSide * (feeBps + slippageBps)
    }

def aggregateReturnSummary : Option ReturnSummary :=
  match self.splits.filterMap WalkForwardSplitResult.returnSummary with
  | [] => none
  | summaries =>
    some {
      grossReturnTotal := (summaries.map ReturnSummary.grossReturnTotal).sum
      netReturnTotal := (summaries.map ReturnSummary.netReturnTotal).sum
      costDeductionTotal := (summaries.map ReturnSummary.costDeductionTotal).sum
      barsHeld := (summaries.map ReturnSummary.barsHeld).sum
      winningBars := (summaries.map ReturnSummary.winningBars).sum
      losingBars := (summaries.map ReturnSummary.losingBars).sum
    }

/--
The last interval that is known.
-/
def combinedInterval (series : List ReturnSeries) : Option String :=
  series.foldl
    (fun interval s => if s.interval ≠ some "unknown" then s.interval else interval)
    (some "unknown")

/--
`_build_combined_return_series`.
-/
def buildCombinedReturnSeries : Option ReturnSeries :=
  match self.splits.filterMap WalkForwardSplitResult.returnSeries with
  | [] => none
  | series =>
    some {
      grossReturns := series.flatMap ReturnSeries.grossReturns
      netReturns := series.flatMap ReturnSeries.netReturns
      barTimestamps := series.flatMap ReturnSeries.barTimestamps
      interval := combinedInterval series
    }

/--
`aggregate_inference_summary`, whose combined series has no timestamps.
-/
def aggregateInferenceSummary (math : FloatMath) (literals : Literals)
    : Except PyError (Option InferenceSummary) :=
  match self.splits.filterMap WalkForwardSplitResult.returnSeries with
  | [] => .ok none
  | series => do
    let summary ← computeInferenceSummary math literals {
      grossReturns := series.flatMap ReturnSeries.grossReturns
      netReturns := series.flatMap ReturnSeries.netReturns
      barTimestamps := []
      interval := combinedInterval series
    }
    .ok (some summary)

/--
`gate_walkforward_result`.
-/
def gateWalkforwardResult : GateVerdict :=
  let computedTotal := (self.splits.map WalkForwardSplitResult.signalCount).sum
  let reasons :=
    (if self.splitCount = 0 then ["split_count is zero"] else [])
      ++ (if self.splitCount < 2 then ["split_count below minimum viable (2)"] else [])
      ++ (if self.totalSignalCount = 0 then ["total_signal_count is zero"] else [])
      ++ (if self.totalSignalCount < 5 then ["total_signal_count below aggregate minimum (5)"] else [])
      ++ if !self.splits.isEmpty ∧ computedTotal ≠ self.totalSignalCount then
        ["signal_count mismatch: total_signal_count=" ++ toString self.totalSignalCount
          ++ " but sum of splits=" ++ toString computedTotal]
      else
        []
  { pass := reasons.isEmpty, reasons }

end aggregates

end WalkForwardExperimentResult

section scan

/--
The functions that a scan calls: those of the experiments and those of the statistics.
-/
structure ScanEnv where
  math : FloatMath
  literals : Literals
  stat : StatMath ℚ

/--
The comparison with the shortfall that a reconciliation record observed.
-/
def frankenComparisonNote (stat : StatMath ℚ) (frankenBps : Option ℚ) (baselineCostBps : ℚ)
    : Option String :=
  match frankenBps with
  | none => none
  | some frankenBps =>
    if 0 < frankenBps then
      if 0 < baselineCostBps then
        some ("Franken observed shortfall (" ++ stat.fixed 1 frankenBps ++ " bps) is ~"
          ++ stat.fixed 1 (frankenBps / baselineCostBps) ++ "x the baseline assumption ("
          ++ stat.fixed 1 baselineCostBps ++ " bps).")
      else
        some ("Franken observed shortfall (" ++ stat.fixed 1 frankenBps ++ " bps) but "
          ++ "baseline assumption is 0 bps.")
    else
      none

/--
The net returns when the cost of every bar is multiplied.
-/
def stressedReturns (multiplier : ℚ) (grossReturns netReturns : List ℚ) : List ℚ :=
  netReturns.zipIdx.map fun entry =>
    let grossRet := (grossReturns[entry.2]?).getD entry.1
    if grossRet ≠ 0 ∨ entry.1 ≠ 0 then
      let barCost := grossRet - entry.1
      grossRet - barCost * multiplier
    else
      0

/--
The three statistics of one level.
-/
structure StressedInference where
  sharpe : Option ℚ := none
  dsr : Option ℚ := none
  psr : Option ℚ := none

variable (env : ScanEnv)

def stressedInference (trialCount : ℤ) (combined : ReturnSeries) (multiplier : ℚ)
    : Except PyError StressedInference := do
  let returns := stressedReturns multiplier combined.grossReturns combined.netReturns
  let inference ← computeInferenceSummary env.math env.literals { combined with netReturns := returns }
  match inference.sharpeLike with
  | none => .ok {}
  | some sharpe =>
    if 3 ≤ returns.length then
      let skewness := computeSkewness env.stat returns
      let kurtosis := computeKurtosis env.stat returns
      .ok {
        sharpe := some sharpe
        dsr := (computeDsr env.stat sharpe trialCount returns.length).1
        psr := some (computePsr env.stat sharpe returns.length skewness kurtosis)
      }
    else
      .ok { sharpe := some sharpe }

/--
The statistics of a level, where there is a series and a cost to stress.
-/
def levelInference (trialCount : ℤ) (perBarCost : ℚ) (combined : Option ReturnSeries)
    (multiplier : ℚ) : Except PyError StressedInference :=
  match combined with
  | some combined =>
    if 0 < perBarCost then stressedInference env trialCount combined multiplier else .ok {}
  | none => .ok {}

/--
One pass of the loop over the multipliers.
-/
def stressLevel (trialCount : ℤ) (baselineCostBps : ℚ) (returns : ReturnSummary)
    (combined : Option ReturnSeries) (multiplier : ℚ) : Except PyError CostRobustnessLevel := do
  let perBarCost := if 0 < returns.barsHeld then returns.costDeductionTotal / returns.barsHeld else 0
  let inference ← levelInference env trialCount perBarCost combined multiplier
  .ok {
    stressMultiplier := multiplier
    stressedTotalCostBps := baselineCostBps * multiplier
    stressedNetReturnTotal := returns.grossReturnTotal - returns.costDeductionTotal * multiplier
    stressedSharpeLike := inference.sharpe
    stressedDsr := inference.dsr
    stressedPsr := inference.psr
  }

/--
The first level with a Sharpe value below the threshold.
-/
def firstDegraded (threshold : Option ℚ) (levels : List CostRobustnessLevel) : Option ℚ :=
  threshold.bind fun threshold =>
    (levels.find? fun level => level.stressedSharpeLike.any (fun sharpe => sharpe < threshold)).map
      CostRobustnessLevel.stressMultiplier

def scanAssumptions : String :=
  "Recomputed from preserved return series. "
    ++ "Assumes cost scales linearly with multiplier and is distributed "
    ++ "evenly across bars held. "
    ++ "PBO cannot be recomputed without re-running. "
    ++ "DSR uses experiment trial_count (may not reflect independent backtest count)."

/--
`compute_cost_robustness`, with the observed shortfall of the reconciliation record.
-/
def computeCostRobustness (result : WalkForwardExperimentResult) (frankenBps : Option ℚ)
    (inferenceThreshold : Option ℚ) : Except PyError CostRobustnessSummary :=
  match result.aggregateEconomicsSummary, result.aggregateReturnSummary with
  | some economics, some returns => do
    let baselineCostBps := economics.assumedTotalCostBps
    let levels ← costStressMultipliers.mapM (stressLevel env result.trialCount baselineCostBps returns
      result.buildCombinedReturnSeries)
    let breakEven := levels.find? (fun level => level.stressedNetReturnTotal ≤ 0)
    .ok {
      baselineAssumedTotalCostBps := baselineCostBps
      scanLevels := costStressMultipliers
      results := levels
      breakEvenCostMultiplier := breakEven.map CostRobustnessLevel.stressMultiplier
      breakEvenCostBps := breakEven.map CostRobustnessLevel.stressedTotalCostBps
      firstDegradedInferenceMultiplier := firstDegraded inferenceThreshold levels
      firstDegradedInferenceThreshold := inferenceThreshold
      frankenComparisonNote := frankenComparisonNote env.stat frankenBps baselineCostBps
      assumptionsLimitations := scanAssumptions
    }
  | _, _ =>
    .ok {
      baselineAssumedTotalCostBps := 0
      scanLevels := costStressMultipliers
      results := []
      assumptionsLimitations :=
        "Cannot compute: no aggregate economics or return summary available. "
          ++ "Run the experiment first to generate artifacts."
    }

end scan

namespace WalkForwardRun

variable (run : WalkForwardRun) (stat : StatMath ℚ)

def scanEnv : ScanEnv where
  math := run.env.math
  literals := run.env.literals
  stat

/--
The result over the splits, before anything is attached.
-/
def resultOf (splits : List WalkForwardSplitResult) : WalkForwardExperimentResult where
  experimentName := run.spec.experimentName
  splitCount := splits.length
  splits
  totalBarCount := (splits.map WalkForwardSplitResult.testBarCount).sum
  totalSignalCount := (splits.map WalkForwardSplitResult.signalCount).sum
  strategyName := run.spec.strategyName
  strategyParams := run.spec.strategyParams
  fixtureName := run.spec.fixtureName
  familyId := run.familyId
  variantId := run.baseVariant
  trialCount := run.spec.trialCount
  feeBps := run.spec.feeBps
  slippageBps := run.spec.slippageBps

/--
The aggregates, the verdict and the scan, which waits for a return series.
-/
def attach (result : WalkForwardExperimentResult) : Except PyError WalkForwardExperimentResult := do
  let result := { result with economicsSummary := result.aggregateEconomicsSummary }
  let result := { result with returnSummary := result.aggregateReturnSummary }
  let inference ← result.aggregateInferenceSummary run.env.math run.env.literals
  let result := { result with inferenceSummary := inference }
  let result := { result with gateVerdict := some result.gateWalkforwardResult }
  if result.returnSeries.isSome then
    let robustness ← computeCostRobustness (run.scanEnv stat) result none none
    .ok { result with robustnessSummary := some robustness }
  else
    .ok result

/--
`run_walkforward_experiment`, where the construction of the splits ends. The file of the result is
the last thing that it writes.
-/
def runWalkforwardExperiment (writeJson : WalkForwardExperimentResult → Except PyError Unit)
    (bars : List Bar) (trainSize testSize : ℤ) (stepSize : Option ℤ)
    : Option (Except PyError WalkForwardExperimentResult) :=
  (run.splitResults bars trainSize testSize stepSize).map fun splits =>
    if splits.isEmpty then
      .ok {
        experimentName := run.spec.experimentName
        splitCount := 0
        splits := []
        totalBarCount := 0
        totalSignalCount := 0
      }
    else do
      let result ← run.attach stat (run.resultOf splits)
      let _ ← writeJson result
      .ok result

end WalkForwardRun

end Experiment
end Quantbot
