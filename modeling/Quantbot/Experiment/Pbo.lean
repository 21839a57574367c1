import Mathlib
import Quantbot.Experiment.Walkforward

/-!
The two overfitting diagnostics: the dispersion over combinatorial paths, and the share of other
paths that the path selected on the train side beats on the test side.
-/

namespace Quantbot
namespace Experiment
namespace Pbo

section summaries

def maxPathsCap : ℕ :=
  1000

structure PathDispersionSummary where
  method : String
  pathCount : ℕ
  dispersionRatio : ℚ
  assumptions : List String
  limitations : List String
  provenance : List (String × String)
deriving DecidableEq

inductive SelectionMetric where
  | sharpe
  | netReturn
deriving DecidableEq

def SelectionMetric.text : SelectionMetric → String
  | sharpe => "sharpe"
  | netReturn => "return"

structure PBOSummary where
  method : String
  pathCount : ℕ
  selectionMetric : SelectionMetric
  pbo : ℚ
  assumptions : List String
  limitations : List String
  provenance : List (String × String)
deriving DecidableEq

/--
The optional arguments that say where the paths come from.
-/
structure Origin where
  familyId : Option String
  variantId : Option String
  artifactPath : Option String

def Origin.provenance (origin : Origin) : List (String × String) :=
  [("family_id", origin.familyId), ("variant_id", origin.variantId),
      ("artifact_path", origin.artifactPath)].filterMap
    fun field => (field.2.filter (fun value => value ≠ "")).map (Prod.mk field.1)

end summaries

section classification

def insufficientPathCount : ℤ :=
  3

def lowRiskThreshold : ℚ :=
  5 / 100

def elevatedRiskThreshold : ℚ :=
  15 / 100

inductive PboStatus where
  | insufficientData
  | lowOverfitRisk
  | elevatedOverfitRisk
  | highOverfitRisk
deriving DecidableEq

def PboStatus.text : PboStatus → String
  | insufficientData => "insufficient_data"
  | lowOverfitRisk => "low_overfit_risk"
  | elevatedOverfitRisk => "elevated_overfit_risk"
  | highOverfitRisk => "high_overfit_risk"

def classifyPboStatus (pbo : Option ℚ) (pathCount : Option ℤ) : PboStatus :=
  match pbo, pathCount with
  | some pbo, some pathCount =>
    if pathCount < insufficientPathCount then
      .insufficientData
    else if pbo ≤ lowRiskThreshold then
      .lowOverfitRisk
    else if pbo ≤ elevatedRiskThreshold then
      .elevatedOverfitRisk
    else
      .highOverfitRisk
  | _, _ => .insufficientData

end classification

section paths

/--
`_compute_sharpe`.
-/
def computeSharpe (math : FloatMath) (returns : List ℚ) (barsPerYear : Option ℚ) : ℚ :=
  let n := returns.length
  if n < 2 then
    0
  else
    let mean := returns.sum / n
    let squaredDiffs : List ℚ := returns.map (fun r => (r - mean) ^ 2)
    let variance := squaredDiffs.sum / n
    let std := math.sqrt variance
    if std = 0 then
      0
    else
      let sharpe := mean / std
      match barsPerYear with
      | some barsPerYear => sharpe * math.sqrt barsPerYear
      | none => sharpe

/--
The product of the numbers of options, which is left early when it is far over the cap.
-/
def totalPaths (maxPaths : ℕ) (total : ℕ) : List (List ℚ) → ℕ
  | [] => total
  | splitOpts :: rest =>
    let total := total * splitOpts.length
    if maxPaths * 100 < total then total else totalPaths maxPaths total rest

/--
`_cartesian_product`.
-/
def cartesianProduct : List (List ℚ) → List (List ℕ)
  | [] => []
  | first :: rest =>
    rest.foldl (fun paths splitOpts =>
        paths.flatMap (fun path => (List.range splitOpts.length).map (fun optIdx => path ++ [optIdx])))
      ((List.range first.length).map (fun i => [i]))

/--
`a % b`
-/
def pyMod (a b : ℕ) : Except PyError ℕ :=
  if b = 0 then .error .zeroDivisionError else .ok (a % b)

/--
A path of the first loop of `_sample_paths`.
-/
def alignedPath (rest : List (List ℚ)) (i : ℕ) : Except PyError (List ℕ) := do
  let tail ← rest.mapM (fun splitOpts => pyMod i splitOpts.length)
  .ok (i :: tail)

/--
A path of the second loop; the splits behind the first one are numbered from one.
-/
def shiftedPath (rest : List (List ℚ)) (offset : ℕ) : Except PyError (List ℕ) := do
  let tail ← (rest.zipIdx 1).mapM (fun split => pyMod (offset + split.2) split.1.length)
  .ok (offset :: tail)

/--
The second loop, which stops at the cap.
-/
def addShifted (rest : List (List ℚ)) (maxPaths : ℕ) (paths : List (List ℕ))
    : List ℕ → Except PyError (List (List ℕ))
  | [] => .ok paths
  | offset :: offsets =>
    if maxPaths ≤ paths.length then
      .ok paths
    else do
      let path ← shiftedPath rest offset
      addShifted rest maxPaths (paths ++ [path]) offsets

/--
`_sample_paths`.
-/
def samplePaths (splitMetrics : List (List ℚ)) (maxPaths : ℕ) : Except PyError (List (List ℕ)) :=
  match splitMetrics with
  | [] => .error .indexError
  | first :: rest => do
    let paths ← (List.range (min maxPaths first.length)).mapM (alignedPath rest)
    addShifted rest maxPaths paths (List.range' 1 (first.length - 1))

/--
`_generate_paths`.
-/
def generatePaths (splitMetrics : List (List ℚ)) (maxPaths : ℕ)
    : Except PyError (List (List ℕ)) :=
  if splitMetrics = [] then
    .ok []
  else if totalPaths maxPaths 1 splitMetrics ≤ maxPaths then
    .ok (cartesianProduct splitMetrics)
  else
    samplePaths splitMetrics maxPaths

end paths

section dispersion

def dispersionAssumptions : List String :=
  ["NOT Bailey-style CSCV/PBO - lacks paired train/test data per split",
    "No purge/embargo between train/test periods (inherited from walk-forward)",
    "Metric is Sharpe ratio (unless specified otherwise)",
    "Returns are log returns",
    "No transaction costs in computation (costs already in return series)",
    "Combinatorial paths are sampled if total exceeds cap (may introduce bias)"]

def dispersionLimitations : List String :=
  ["NOT CSCV/PBO - uses z-score heuristic on path variance, not OOS ratio",
    "Combinatorial explosion risk - capped at 1000 paths max",
    "Single metric assumption - different metric may yield different dispersion",
    "Sampled paths may not fully represent the combinatorial space",
    "This is a PROXY DIAGNOSTIC, not proof of edge or profitability",
    "Cannot detect overfitting to test period with this approach"]

/--
The metric of a split, which is the only option that it offers.
-/
def splitMetric (math : FloatMath) (series : ReturnSeries) : ℚ :=
  if series.netReturns = [] then 0 else computeSharpe math series.netReturns none

/--
The score of a path: one metric of each split.
-/
def pathScore (splitMetrics : List (List ℚ)) (path : List ℕ) : Except PyError ℚ := do
  let metrics ← path.zipIdx.mapM fun entry =>
    match (splitMetrics[entry.2]?).bind (fun options => options[entry.1]?) with
    | some metric => .ok metric
    | none => .error .indexError
  .ok metrics.sum

def dispersionRatio (math : FloatMath) (pathScores : List ℚ) : ℚ :=
  match pathScores with
  | [] => 0
  | first :: rest =>
    let bestScore := rest.foldl max first
    let avgScore := pathScores.sum / pathScores.length
    if avgScore = 0 then
      0
    else
      let variance : ℚ := (pathScores.map (fun s => (s - avgScore) ^ 2)).sum / pathScores.length
      let std := if 0 < variance then math.sqrt variance else 0
      if std = 0 then
        0
      else
        let z := (bestScore - avgScore) / std
        if z < 1 then 0
        else if z < 2 then 25 / 100
        else if z < 3 then 5 / 10
        else 75 / 100

/--
`compute_path_dispersion`.
-/
def computePathDispersion (math : FloatMath) (returnSeriesList : List ReturnSeries) (origin : Origin)
    : Except PyError PathDispersionSummary :=
  let summary (pathCount : ℕ) (ratio : ℚ) (limitations : List String) : PathDispersionSummary := {
    method := "path_dispersion"
    pathCount
    dispersionRatio := ratio
    assumptions := dispersionAssumptions
    limitations := dispersionLimitations ++ limitations
    provenance := origin.provenance
  }
  let metrics := returnSeriesList.map (splitMetric math)
  match returnSeriesList with
  | [] => .ok (summary 0 0 [])
  | [_] => .ok (summary 1 0 ["Single split - cannot measure path dispersion"])
  | _ =>
    if metrics.dedup.length ≤ 1 then
      .ok (summary metrics.length 0 ["All metrics identical - no variation to measure"])
    else do
      let splitMetrics := metrics.map (fun metric => [metric])
      let paths ← generatePaths splitMetrics maxPathsCap
      if paths = [] then
        .ok (summary 0 0 [])
      else do
        let pathScores ← paths.mapM (pathScore splitMetrics)
        .ok (summary paths.length (dispersionRatio math pathScores) [])

end dispersion

section pbo

def pboAssumptions (metric : SelectionMetric) : List String :=
  ["PBO is computed as P(selected beats random OOS), not combinatorial CSCV",
    "Train/test split is inherited from walk-forward (no purge/embargo applied here)",
    "Best-in-sample selection is deterministic (highest train score wins)",
    "Win condition: selected path OOS score > random path OOS score",
    "Selection metric: " ++ metric.text ++ " (from train_inference_summary or train_return_summary)",
    "Evaluation metric: same as selection metric, computed on test-side data",
    "Log returns used for Sharpe computation",
    "No transaction costs in computation (costs already in return series)",
    "This is a DIAGNOSTIC for overfitting, not proof of edge or profitability"]

def pboLimitations : List String :=
  ["Bailey-style PBO requires many random paths - results unstable with few paths",
    "No purge/embargo between train and test periods (inherited from walk-forward)",
    "Best-of-N selection introduces selection bias not accounted for in PBO formula",
    "Single selection (best) - does not represent full combinatorial enumeration",
    "Test period performance may not generalize to live trading",
    "This is a DIAGNOSTIC, not proof of edge or readiness to trade"]

variable (math : FloatMath) (metric : SelectionMetric)

/--
The in-sample score of a split, where it has a train summary.
-/
def trainScore (split : WalkForwardSplitResult) : Option ℚ :=
  split.trainInferenceSummary.map fun inference =>
    match metric with
    | .sharpe => inference.sharpeLike.getD 0
    | .netReturn => (split.trainReturnSummary.map ReturnSummary.netReturnTotal).getD 0

/--
The out-of-sample score of a split, where it has returns.
-/
def testScore (split : WalkForwardSplitResult) : Option ℚ :=
  split.returnSeries.bind fun series =>
    if series.netReturns = [] then
      none
    else
      match metric with
      | .sharpe => some (computeSharpe math series.netReturns none)
      | .netReturn => some series.netReturns.sum

structure PathScores where
  pathIdx : ℕ
  trainScore : ℚ
  testScore : ℚ
deriving DecidableEq

def bothSides (path : List WalkForwardSplitResult) : List WalkForwardSplitResult :=
  path.filter (fun split => split.splitRole = "both")

/--
The two scores of a path, averaged over its splits.
-/
def scoresOf (pathIdx : ℕ) (path : List WalkForwardSplitResult) : PathScores :=
  let trainScores := (bothSides path).filterMap (trainScore metric)
  let testScores := (bothSides path).filterMap (testScore math metric)
  if trainScores = [] ∨ testScores = [] then
    { pathIdx, trainScore := 0, testScore := 0 }
  else
    {
      pathIdx
      trainScore := trainScores.sum / trainScores.length
      testScore := testScores.sum / testScores.length
    }

def allScores (paths : List (List WalkForwardSplitResult)) : List PathScores :=
  paths.zipIdx.map (fun path => scoresOf math metric path.2 path.1)

/--
`max(path_scores, key=lambda x: x[1])`, the first of those with the highest train score.
-/
def bestInSample (first : PathScores) (rest : List PathScores) : PathScores :=
  rest.foldl (fun best scores => if best.trainScore < scores.trainScore then scores else best) first

/--
What the selected path earns against one other path.
-/
def credit (best scores : PathScores) : ℚ :=
  if scores.pathIdx = best.pathIdx then 0
  else if scores.testScore < best.testScore then 1
  else if best.testScore = scores.testScore then 5 / 10
  else 0

/--
`compute_pbo`.
-/
def computePbo (paths : List (List WalkForwardSplitResult)) (origin : Origin) : PBOSummary :=
  let summary (pbo : ℚ) (limitations : List String) : PBOSummary := {
    method := "pbo"
    pathCount := paths.length
    selectionMetric := metric
    pbo
    assumptions := pboAssumptions metric
    limitations := pboLimitations ++ limitations
    provenance := origin.provenance
  }
  match allScores math metric paths with
  | [] => summary 0 []
  | [_] => summary 0 ["Need at least 2 paths for PBO comparison"]
  | first :: rest =>
    let best := bestInSample first rest
    let selectedBeatsCount := ((first :: rest).map (credit best)).sum
    let totalRandom := (first :: rest).length - 1
    summary (if 0 < totalRandom then selectedBeatsCount / totalRandom else 0) []

end pbo

end Pbo
end Experiment
end Quantbot
