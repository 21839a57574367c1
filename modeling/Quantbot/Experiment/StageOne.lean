import Quantbot.Experiment.Grid
import Quantbot.Util.Round

/-!
The first stage's diagnostics: each regime of each split, and the verdict over all of them. Counts are
compared with their thresholds as exact fractions.
-/

namespace Quantbot
namespace Experiment
namespace StageOne

def bootstrapN : ℕ :=
  1000

def bootstrapAlpha : ℚ :=
  5 / 100

def minTrials : ℕ :=
  5

def btcFundingRates : List ℕ :=
  [548, 1500, 4928]

/--
What a split records of one regime.
-/
structure RegimeRecord where
  tsmmReturn : ℚ
  trials : ℕ
  sign : String
  benchmarkReturn : ℚ
  returns : List ℚ

def lowRecord (result : SplitResult) : RegimeRecord where
  tsmmReturn := result.tsmmLowVolReturn
  trials := result.tsmmLowVolTrials
  sign := result.tsmmLowVolSign
  benchmarkReturn := result.benchmarkLowVolReturn
  returns := result.tsmmLowVolReturns

def highRecord (result : SplitResult) : RegimeRecord where
  tsmmReturn := result.tsmmHighVolReturn
  trials := result.tsmmHighVolTrials
  sign := result.tsmmHighVolSign
  benchmarkReturn := result.benchmarkHighVolReturn
  returns := result.tsmmHighVolReturns

structure BootstrapStats where
  mean : ℚ
  median : ℚ
  std : ℚ
  ciLower : ℚ
  ciUpper : ℚ

structure RegimeDiagnostics where
  splitIndex : ℕ
  regime : VolRegime
  testStart : String
  testEnd : String
  paramReturnPeriod : ℤ
  paramThreshold : ℚ
  tsmmReturn : ℚ
  benchmarkReturn : ℚ
  trialCount : ℕ
  sign : String
  bootstrap : BootstrapStats
  excessReturn : ℚ
  signConsistency : ℚ
  rankVsBenchmark : String

structure SplitDiagnostics where
  splitIndex : ℕ
  testStart : String
  testEnd : String
  universeSymbols : List String
  paramReturnPeriod : ℤ
  paramThreshold : ℚ
  lowVol : Option RegimeDiagnostics
  highVol : Option RegimeDiagnostics
  totalTsmmReturn : ℚ
  totalBenchmarkReturn : ℚ
  totalExcessReturn : ℚ
  totalTrialCount : ℕ

inductive Verdict where
  | pass
  | fail
  | continue
deriving DecidableEq

structure Stage1Verdict where
  verdict : Verdict
  reasoning : List String
  splitsTested : ℕ
  paramsTested : ℕ
  quartersCovered : List String
  lowVolPass : Bool
  highVolPass : Bool
  bootstrapCenteredNearZero : Bool
  allRegimesAdequateTrials : Bool
  btcFundingSensitivity : List (ℕ × ℚ)
  splitDiagnostics : List SplitDiagnostics

section diagnostics

variable (math : FloatMath) (draw : ℕ → ℕ → ℕ → ℕ)

/--
The mean of the `k`-th sample: `draw n k j` is the `j`-th index that the seeded generator draws for
the `k`-th sample of `n` returns.
-/
def sampleMean (returns : List ℚ) (k : ℕ) : ℚ :=
  let sample := (List.range returns.length).map (fun j => (returns[draw returns.length k j]?).getD 0)
  sample.sum / sample.length

def bootMeans (returns : List ℚ) : List ℚ :=
  ((List.range bootstrapN).map (sampleMean draw returns)).insertionSort (· ≤ ·)

def noStats : BootstrapStats :=
  ⟨0, 0, 0, 0, 0⟩

/--
`_bootstrap_stats`.
-/
def bootstrapStats (returns : List ℚ) : BootstrapStats :=
  if returns.length < 2 then
    noStats
  else
    let means := bootMeans draw returns
    let n : ℚ := means.length
    let mean := means.sum / n
    let at' (x : ℚ) : ℚ := (means[(Sqlite.truncate x).toNat]?).getD 0
    {
      mean
      median := (means[means.length / 2]?).getD 0
      std := math.sqrt ((means.map (fun x => (x - mean) ^ 2)).sum / n)
      ciLower := at' (n * bootstrapAlpha / 2)
      ciUpper := at' (n * (1 - bootstrapAlpha / 2))
    }

/--
The record that `_compute_regime_diagnostics` reads for a regime.
-/
def record (result : SplitResult) : VolRegime → Option RegimeRecord
  | .lowVol => some (lowRecord result)
  | .highVol => some (highRecord result)
  | .unknown => none

/--
`_compute_regime_diagnostics`.
-/
def computeRegimeDiagnostics (result : SplitResult) (regime : VolRegime) : Option RegimeDiagnostics := do
  let r ← record result regime
  if r.trials < minTrials then
    none
  else
    some {
      splitIndex := result.splitIndex
      regime
      testStart := result.testStart
      testEnd := result.testEnd
      paramReturnPeriod := result.paramReturnPeriod
      paramThreshold := result.paramThreshold
      tsmmReturn := r.tsmmReturn
      benchmarkReturn := r.benchmarkReturn
      trialCount := r.trials
      sign := r.sign
      bootstrap := if r.returns.isEmpty then noStats else bootstrapStats math draw r.returns
      excessReturn := r.tsmmReturn - r.benchmarkReturn
      signConsistency := if 0 < r.tsmmReturn then 1 else 0
      rankVsBenchmark :=
        if r.benchmarkReturn < r.tsmmReturn then
          "above"
        else if r.tsmmReturn < r.benchmarkReturn then
          "below"
        else
          "equal"
    }

/--
`_compute_split_diagnostics`.
-/
def computeSplitDiagnostics (result : SplitResult) : SplitDiagnostics where
  splitIndex := result.splitIndex
  testStart := result.testStart
  testEnd := result.testEnd
  universeSymbols := result.universeSymbols
  paramReturnPeriod := result.paramReturnPeriod
  paramThreshold := result.paramThreshold
  lowVol := computeRegimeDiagnostics math draw result .lowVol
  highVol := computeRegimeDiagnostics math draw result .highVol
  totalTsmmReturn := result.tsmmTotalReturn
  totalBenchmarkReturn := result.benchmarkTotalReturn
  totalExcessReturn := result.tsmmTotalReturn - result.benchmarkTotalReturn
  totalTrialCount := result.tsmmTotalTrials

/--
The diagnostics that the loop of the verdict goes through.
-/
def regimeDiagnostics (results : List SplitResult) : List RegimeDiagnostics :=
  results.flatMap (fun result =>
    [VolRegime.lowVol, .highVol].filterMap (computeRegimeDiagnostics math draw result))

def RegimeDiagnostics.ciIncludesZero (diag : RegimeDiagnostics) : Bool :=
  diag.bootstrap.ciLower ≤ 0 ∧ 0 ≤ diag.bootstrap.ciUpper

def RegimeDiagnostics.passRegime (diag : RegimeDiagnostics) : Bool :=
  0 < diag.excessReturn ∧ diag.sign = "positive" ∧ minTrials ≤ diag.trialCount

/--
`sum(flags) / max(len(flags), 1)`
-/
def fractionOf (flags : List Bool) : ℚ :=
  flags.count true / max flags.length 1

/--
`f"{x:.0%}"`
-/
def percent (x : ℚ) : String :=
  toString (roundHalfEven (100 * x)) ++ "%"

def anyRegimePass (records : List RegimeRecord) : Bool :=
  records.any (fun r => r.benchmarkReturn < r.tsmmReturn ∧ minTrials ≤ r.trials)

/--
What `run_stage1_diagnostics` says of the results of its splits.
-/
def stage1Verdict (quartersCovered : List String) (results : List SplitResult) : Stage1Verdict :=
  let diags := regimeDiagnostics math draw results
  let trialAdequate := diags.all (fun diag => ¬diag.trialCount < minTrials)
  let passFraction := fractionOf (diags.map RegimeDiagnostics.passRegime)
  let zeroInCiFrac := fractionOf (diags.map RegimeDiagnostics.ciIncludesZero)
  let bootstrapCentered : Bool := 1 / 2 < zeroInCiFrac
  let (verdict, reasoning) :=
    if 6 / 10 ≤ passFraction ∧ bootstrapCentered = false ∧ trialAdequate = true then
      (Verdict.pass, [
        "Sign consistency: " ++ percent passFraction ++ " of regime instances beat benchmark",
        "Bootstrap 95% CI excludes zero in " ++ percent (1 - zeroInCiFrac)
          ++ " of regime instances (not centered)",
        "Trial adequacy: " ++ if trialAdequate then "adequate" else "inadequate"])
    else if passFraction < 3 / 10 ∨ bootstrapCentered = true then
      (.fail, [
        "Sign consistency insufficient: " ++ percent passFraction ++ " beat benchmark",
        "Bootstrap 95% CI includes zero in " ++ percent zeroInCiFrac
          ++ " of regime instances (centered)",
        "Trial adequacy: " ++ if trialAdequate then
          "adequate"
        else
          "INADEQUATE — " ++ toString minTrials ++ " minimum required"])
    else
      (.continue, [
        "Mixed evidence: " ++ percent passFraction ++ " beat benchmark",
        "Bootstrap 95% CI includes zero in " ++ percent zeroInCiFrac ++ " of regime instances",
        "Needs explicit conditions to proceed"])
  {
    verdict
    reasoning
    splitsTested := quartersCovered.length
    paramsTested := results.length / max quartersCovered.length 1
    quartersCovered
    lowVolPass := anyRegimePass (results.map lowRecord)
    highVolPass := anyRegimePass (results.map highRecord)
    bootstrapCenteredNearZero := bootstrapCentered
    allRegimesAdequateTrials := trialAdequate
    btcFundingSensitivity := btcFundingRates.map (fun bps => (bps, -((bps : ℚ) / 10000 / 1095)))
    splitDiagnostics := results.map (computeSplitDiagnostics math draw)
  }

/--
`run_stage1_diagnostics`, on the bars that were loaded.
-/
def runStage1Diagnostics (barsBySymbol : List (String × List Bar)) : Except PyError Stage1Verdict := do
  let refBars := (barsBySymbol.lookup "BTCUSDT").getD []
  if barsBySymbol.isEmpty ∨ refBars.isEmpty then
    .error .valueError
  else
    let splits := (buildWalkforwardSplits refBars 540 270 (some 270)).getD []
    if splits.length < 3 then
      .error .valueError
    else
      let firstBar (s : WalkForwardSplit) : String :=
        ((refBars[s.testStart.toNat]?).map Bar.timestamp).getD ""
      let late := splits.filter (fun s => decide ("2021-07-01" ≤ firstBar s))
      let testQuarters := (if late.isEmpty then splits else late).take 12
      let results ← evaluateGrid math barsBySymbol testQuarters
      let quartersCovered := testQuarters.map (fun s => String.ofList ((firstBar s).toList.take 10))
      .ok (stage1Verdict math draw quartersCovered results)

end diagnostics

end StageOne
end Experiment
end Quantbot
