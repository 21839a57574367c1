import Mathlib
import Quantbot.Experiment.Experiment

/-!
Walk-forward experiments: the splits of a bar list and the loop that runs each of them.
-/

namespace Quantbot
namespace Experiment

structure WalkForwardSplit where
  trainStart : ℤ
  trainEnd : ℤ
  testStart : ℤ
  testEnd : ℤ
deriving DecidableEq

/--
The loop of `build_walkforward_splits` over `count` bars, from a position.
-/
def splitsFrom (count trainSize testSize stepSize : ℤ) : ℕ → ℤ → List WalkForwardSplit
  | 0, _ => []
  | fuel + 1, position =>
    if position + trainSize + testSize ≤ count then
      {
        trainStart := position
        trainEnd := position + trainSize
        testStart := position + trainSize
        testEnd := position + trainSize + testSize
      } :: splitsFrom count trainSize testSize stepSize fuel (position + stepSize)
    else
      []

/--
`build_walkforward_splits`. A step that does not advance never leaves the loop.
-/
def buildWalkforwardSplits (bars : List Bar) (trainSize testSize : ℤ) (stepSize : Option ℤ)
    : Option (List WalkForwardSplit) :=
  let stepSize := stepSize.getD testSize
  if (bars.length : ℤ) < trainSize + testSize then
    some []
  else if stepSize ≤ 0 then
    none
  else
    some (splitsFrom bars.length trainSize testSize stepSize
      ((bars.length - trainSize - testSize).toNat + 1) 0)

theorem splitsFrom_succ (count trainSize testSize stepSize : ℤ) (fuel : ℕ) (position : ℤ)
    : splitsFrom count trainSize testSize stepSize (fuel + 1) position
        =
      if position + trainSize + testSize ≤ count then
        WalkForwardSplit.mk position (position + trainSize) (position + trainSize)
            (position + trainSize + testSize)
          :: splitsFrom count trainSize testSize stepSize fuel (position + stepSize)
      else
        [] := by
  rfl

/--
The fuel of the loop is enough: with more of it the splits are the same.
-/
theorem splitsFrom_fuel {count trainSize testSize stepSize : ℤ} (hstep : 0 < stepSize) {fuel : ℕ}
    {position : ℤ} (hfuel : count - trainSize - testSize - position < fuel)
    : splitsFrom count trainSize testSize stepSize (fuel + 1) position
        =
      splitsFrom count trainSize testSize stepSize fuel position := by
  induction fuel generalizing position with
  | zero =>
    rw [splitsFrom_succ, if_neg (by push_cast at hfuel; omega), splitsFrom]
  | succ fuel ih =>
    rw [splitsFrom_succ _ _ _ _ (fuel + 1) position, splitsFrom_succ _ _ _ _ fuel position]
    rw [ih (by push_cast at hfuel; omega)]

structure WalkForwardSplitResult where
  splitIndex : ℕ
  trainBarCount : ℕ
  testBarCount : ℕ
  signalCount : ℕ
  counts : SignalCounts
  receiptPath : Option String
  artifactPath : Option String
  firstTimestamp : String
  lastTimestamp : String
  economicsSummary : Option EconomicsSummary
  returnSummary : Option ReturnSummary
  returnSeries : Option ReturnSeries
  inferenceSummary : Option InferenceSummary
  trainInferenceSummary : Option InferenceSummary
  trainReturnSummary : Option ReturnSummary
  splitRole : String

/--
`f"{idx:03d}"`
-/
def pad3 (idx : ℕ) : String :=
  String.ofList (List.replicate (3 - (Nat.toDigits 10 idx).length) '0' ++ Nat.toDigits 10 idx)

/--
The arguments of `run_walkforward_experiment` without the bars and the sizes.
-/
structure WalkForwardRun where
  env : Env
  spec : ExperimentSpec
  outputDir : String
  interval : Option String

namespace WalkForwardRun

variable (run : WalkForwardRun)

def splitDir (idx : ℕ) : String :=
  run.outputDir ++ "/split_" ++ pad3 idx

/--
`family_id`, which defaults to the name of the experiment.
-/
def familyId : String :=
  if run.spec.familyId ≠ "" then run.spec.familyId else run.spec.experimentName

def baseVariant : String :=
  if run.spec.variantId ≠ "" then run.spec.variantId else run.spec.experimentName

def testExtra (idx : ℕ) (split : WalkForwardSplit) : List (String × JsonValue) :=
  [("_split_index", .int idx), ("_test_start", .int split.testStart),
    ("_test_end", .int split.testEnd)]

def trainExtra (idx : ℕ) (split : WalkForwardSplit) : List (String × JsonValue) :=
  [("_split_index", .int idx), ("_train_start", .int split.trainStart),
    ("_train_end", .int split.trainEnd)]

theorem testExtra_noState (idx : ℕ) (split : WalkForwardSplit)
    : ∀ name ∈ (testExtra idx split).map Prod.fst, name ∉ stateFields := by
  change ∀ name ∈ ["_split_index", "_test_start", "_test_end"], name ∉ stateFields
  decide

theorem trainExtra_noState (idx : ℕ) (split : WalkForwardSplit)
    : ∀ name ∈ (trainExtra idx split).map Prod.fst, name ∉ stateFields := by
  change ∀ name ∈ ["_split_index", "_train_start", "_train_end"], name ∉ stateFields
  decide

def testParams (idx : ℕ) (split : WalkForwardSplit) : Params :=
  run.spec.strategyParams.update (testExtra idx split) (testExtra_noState idx split)

def trainParams (idx : ℕ) (split : WalkForwardSplit) : Params :=
  run.spec.strategyParams.update (trainExtra idx split) (trainExtra_noState idx split)

def splitSpec (idx : ℕ) (split : WalkForwardSplit) : ExperimentSpec :=
  { run.spec with
    experimentName := run.spec.experimentName ++ "_split_" ++ pad3 idx
    strategyParams := run.testParams idx split
    description := run.spec.description ++ " [split " ++ toString idx ++ "]"
    familyId := run.familyId
    variantId := run.baseVariant ++ "_split_" ++ pad3 idx
  }

def trainSpec (idx : ℕ) (split : WalkForwardSplit) : ExperimentSpec :=
  { run.spec with
    experimentName := run.spec.experimentName ++ "_train_" ++ pad3 idx
    strategyParams := run.trainParams idx split
    description := run.spec.description ++ " [train split " ++ toString idx ++ "]"
    familyId := run.familyId
    variantId := run.baseVariant ++ "_train_" ++ pad3 idx
  }

def testBars (bars : List Bar) (split : WalkForwardSplit) : List Bar :=
  pySlice bars split.testStart split.testEnd

def trainBars (bars : List Bar) (split : WalkForwardSplit) : List Bar :=
  pySlice bars split.trainStart split.trainEnd

def testRun (bars : List Bar) (idx : ℕ) (split : WalkForwardSplit)
    : Except PyError ExperimentResult :=
  run.env.runExperiment (run.splitSpec idx split) (testBars bars split) (run.splitDir idx)
    run.interval

def trainRun (bars : List Bar) (idx : ℕ) (split : WalkForwardSplit)
    : Except PyError ExperimentResult :=
  run.env.runExperiment (run.trainSpec idx split) (trainBars bars split)
    (run.splitDir idx ++ "/train_run") run.interval

/--
The train fields, from the run on the train window.
-/
def trainFields (bars : List Bar) (idx : ℕ) (split : WalkForwardSplit)
    : Option InferenceSummary × Option ReturnSummary :=
  if (trainBars bars split).isEmpty then
    (none, none)
  else
    match run.trainRun bars idx split with
    | .ok r => (some r.inferenceSummary, some r.returnSummary)
    | .error _ => (none, none)

/--
The body of the split loop. `result` is the variable of that name, which an earlier iteration may
have left behind.
-/
def splitStep (bars : List Bar) (result : Option ExperimentResult) (idx : ℕ)
    (split : WalkForwardSplit) : WalkForwardSplitResult × Option ExperimentResult :=
  let train := run.trainFields bars idx split
  match run.testRun bars idx split with
  | .ok r =>
    ({
      splitIndex := idx
      trainBarCount := (trainBars bars split).length
      testBarCount := (testBars bars split).length
      signalCount := r.signalCount
      counts := r.counts
      receiptPath := some r.receiptPath
      artifactPath := some (run.splitDir idx ++ "/experiment_result.json")
      firstTimestamp := r.firstTimestamp
      lastTimestamp := r.lastTimestamp
      economicsSummary := some r.economicsSummary
      returnSummary := some r.returnSummary
      returnSeries := some r.returnSeries
      inferenceSummary := some r.inferenceSummary
      trainInferenceSummary := train.1
      trainReturnSummary := train.2
      splitRole := "both"
    }, some r)
  | .error _ =>
    ({
      splitIndex := idx
      trainBarCount := (trainBars bars split).length
      testBarCount := (testBars bars split).length
      signalCount := 0
      counts := { long := 0, short := 0, flat := 0 }
      receiptPath := none
      artifactPath := none
      firstTimestamp := ""
      lastTimestamp := ""
      economicsSummary := none
      returnSummary := none
      returnSeries := none
      inferenceSummary := result.map ExperimentResult.inferenceSummary
      trainInferenceSummary := train.1
      trainReturnSummary := train.2
      splitRole := "both"
    }, result)

def splitLoop (bars : List Bar) (result : Option ExperimentResult) (idx : ℕ)
    : List WalkForwardSplit → List WalkForwardSplitResult
  | [] => []
  | split :: splits =>
    let step := run.splitStep bars result idx split
    step.1 :: splitLoop bars step.2 (idx + 1) splits

/--
`run_walkforward_experiment` up to the aggregates: the record of each split, where the construction
of the splits ends.
-/
def splitResults (bars : List Bar) (trainSize testSize : ℤ) (stepSize : Option ℤ)
    : Option (List WalkForwardSplitResult) :=
  (buildWalkforwardSplits bars trainSize testSize stepSize).map (run.splitLoop bars none 0)

end WalkForwardRun

end Experiment
end Quantbot
