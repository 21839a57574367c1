import Mathlib
import Quantbot.Experiment.Registry
import Quantbot.Experiment.Runner

/-!
One experiment: a strategy built from a specification, run over the bars of a window.
-/

namespace Quantbot
namespace Experiment

open Sqlite (Literals)

structure ExperimentSpec where
  experimentName : String
  strategyName : String
  strategyParams : Params
  fixtureName : String
  description : String
  notes : String
  familyId : String
  variantId : String
  trialCount : ℤ
  feeBps : ℚ
  slippageBps : ℚ
  trialCount_pos : 1 ≤ trialCount
  feeBps_nonneg : 0 ≤ feeBps
  slippageBps_nonneg : 0 ≤ slippageBps

inductive AnnualizationNote where
  | emptySeries
  | intervalUnknown
  | annualized (barsPerYear : ℚ) (interval : Option String)
  | notParseable (interval : Option String)
deriving DecidableEq

structure InferenceSummary where
  barCountForReturns : ℕ
  meanReturn : ℚ
  stdReturn : Option ℚ
  grossReturnTotal : ℚ
  netReturnTotal : ℚ
  costDeductionTotal : ℚ
  sharpeLike : Option ℚ
  annualized : Bool
  interval : Option String
  annualizationNote : AnnualizationNote
deriving DecidableEq

/--
Periods of one year in each unit of an interval text.
-/
def unitsPerYear : Char → Option ℚ
  | 'm' => some (60 * 24 * (1461 / 4))
  | 'h' => some (24 * (1461 / 4))
  | 'd' => some (1461 / 4)
  | 'w' => some (5218 / 100)
  | _ => none

/--
`_parse_interval_to_bars_per_year`.
-/
def parseIntervalToBarsPerYear (literals : Literals) : Option String → Except PyError (Option ℚ)
  | none => .ok none
  | some interval =>
    let cs := ((interval.toList.dropWhile Char.isWhitespace).reverse.dropWhile
      Char.isWhitespace).map Char.toLower
    match cs with
    | [] => .ok none
    | unit :: count =>
      match unitsPerYear unit, literals.int (String.ofList count.reverse) with
      | some perYear, some n => if n = 0 then .error .zeroDivisionError else .ok (some (perYear / n))
      | _, _ => .ok none

def InferenceSummary.ofEmpty (interval : Option String) : InferenceSummary where
  barCountForReturns := 0
  meanReturn := 0
  stdReturn := none
  grossReturnTotal := 0
  netReturnTotal := 0
  costDeductionTotal := 0
  sharpeLike := none
  annualized := false
  interval
  annualizationNote := .emptySeries

/--
`compute_inference_summary`.
-/
def computeInferenceSummary (math : FloatMath) (literals : Literals) (series : ReturnSeries)
    : Except PyError InferenceSummary := do
  let barCount := series.netReturns.length
  if barCount = 0 then
    .ok (InferenceSummary.ofEmpty series.interval)
  else
    let meanReturn := series.netReturns.sum / barCount
    let squaredDiffs := series.netReturns.map (fun r => (r - meanReturn) ^ 2)
    let stdReturn := if 2 ≤ barCount then some (math.sqrt (squaredDiffs.sum / barCount)) else none
    let netReturnTotal := series.netReturns.sum
    let grossReturnTotal := series.grossReturns.sum
    let summary : InferenceSummary := {
      barCountForReturns := barCount
      meanReturn
      stdReturn
      grossReturnTotal
      netReturnTotal
      costDeductionTotal := grossReturnTotal - netReturnTotal
      sharpeLike := none
      annualized := false
      interval := series.interval
      annualizationNote := .intervalUnknown
    }
    match stdReturn with
    | none => .ok summary
    | some std =>
      if series.interval ≠ some "unknown" ∧ 0 < std then
        match ← parseIntervalToBarsPerYear literals series.interval with
        | none => .ok { summary with annualizationNote := .notParseable series.interval }
        | some barsPerYear =>
          if barsPerYear < 0 then
            .error .valueError
          else
            .ok { summary with
              sharpeLike := some (meanReturn / std * math.sqrt barsPerYear)
              annualized := true
              annualizationNote := .annualized barsPerYear series.interval
            }
      else
        .ok summary

structure GateVerdict where
  pass : Bool
  reasons : List String
deriving DecidableEq

/--
`gate_experiment_result`.
-/
def gateExperimentResult (barCount signalCount : ℕ) : GateVerdict :=
  let reasons :=
    (if barCount = 0 then ["bar_count is zero"] else [])
      ++ (if signalCount = 0 then ["signal_count is zero"] else [])
      ++ if signalCount < 3 then ["signal_count below degenerate threshold (3)"] else []
  { pass := reasons.isEmpty, reasons }

structure ExperimentResult where
  spec : ExperimentSpec
  receiptPath : String
  resultPath : String
  barCount : ℕ
  signalCount : ℕ
  firstTimestamp : String
  lastTimestamp : String
  counts : SignalCounts
  economicsSummary : EconomicsSummary
  returnSummary : ReturnSummary
  returnSeries : ReturnSeries
  inferenceSummary : InferenceSummary
  gateVerdict : GateVerdict

/--
What an experiment calls outside: the float functions, the readers of numbers in texts, the bars a
window becomes when it is written to a file and loaded from it, and the writer of the result.
-/
structure Env where
  math : FloatMath
  literals : Literals
  reload : List Bar → Except PyError (List Bar)
  writeJson : ExperimentResult → Except PyError Unit

namespace Env

variable (env : Env)

def strategyOf (spec : ExperimentSpec) : Except PyError BuiltStrategy :=
  buildStrategy env.literals spec.strategyName spec.strategyParams

/--
`ReplayRunner.run`.
-/
def signalCount {σ : Type} (strategy : Strategy σ) (bars : List Bar) : Except PyError ℕ :=
  strategy.loop (fun n _ sig => n + if sig.isSome then 1 else 0) 0 bars

/--
`run_experiment` on the file of a window. The strategy is built anew for each pass.
-/
def runExperiment (spec : ExperimentSpec) (window : List Bar) (outputDir : String)
    (interval : Option String) : Except PyError ExperimentResult := do
  let bars ← env.reload window
  let built ← env.strategyOf spec
  let strategy := built.strategy env.math
  let signalCount ← signalCount strategy bars
  let counts ← countSignalsByDirection strategy bars
  let economicsSummary ← computeEconomicsSummary strategy bars spec.feeBps spec.slippageBps
  let returns ← computeReturnSummary strategy bars economicsSummary interval
  let inferenceSummary ← computeInferenceSummary env.math env.literals returns.2
  let result : ExperimentResult := {
    spec
    receiptPath := outputDir ++ "/receipt.json"
    resultPath := outputDir ++ "/experiment_result.json"
    barCount := bars.length
    signalCount
    firstTimestamp := (bars.head?.map Bar.timestamp).getD ""
    lastTimestamp := (bars.getLast?.map Bar.timestamp).getD ""
    counts
    economicsSummary
    returnSummary := returns.1
    returnSeries := returns.2
    inferenceSummary
    gateVerdict := gateExperimentResult bars.length signalCount
  }
  let _ ← env.writeJson result
  .ok result

end Env

end Experiment
end Quantbot
