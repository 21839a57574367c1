import Mathlib
import Quantbot.Experiment.Strategy

/-!
Volatility and trend regimes. A float that may be NaN is an `Option ℚ`.
-/

namespace Quantbot
namespace Experiment

open Sqlite (PyFloat)

/--
The float functions of the experiments: `math.log` on positive arguments, `math.sqrt`, and where
`sorted` puts a NaN.
-/
structure FloatMath where
  log : ℚ → ℚ
  sqrt : ℚ → ℚ
  sorted : List (Option ℚ) → List (Option ℚ)

inductive VolRegime where
  | lowVol
  | highVol
  | unknown
deriving DecidableEq

section regime

variable (math : FloatMath)

def logReturn (prevClose currClose : ℚ) : Option ℚ :=
  if prevClose ≤ 0 ∨ currClose ≤ 0 then
    none
  else
    some (math.log (currClose / prevClose))

/--
`compute_log_returns`.
-/
def computeLogReturns (bars : List Bar) : List (Option ℚ) :=
  (bars.zip bars.tail).map (fun b => logReturn math b.1.close b.2.close)

/--
`_rolling_stdev` of `window` values.
-/
def rollingStdev (values : List (Option ℚ)) : Option ℚ := do
  let recent ← values.mapM id
  let n : ℚ := recent.length
  let mean := recent.sum / n
  let variance := (recent.map (fun x => (x - mean) ^ 2)).sum / n
  some (math.sqrt variance)

/--
The label of `compute_vol_regime`.
-/
def computeVolRegime (logReturns : List (Option ℚ)) (window : ℕ) (highQuantile : ℚ)
    : Except PyError VolRegime := do
  if logReturns.length < window then
    .ok .unknown
  else
    let rollingStddevs := (List.range (logReturns.length + 1 - window)).map
      (fun i => rollingStdev math ((logReturns.drop i).take window))
    let sortedVals := math.sorted rollingStddevs
    let qIndex := min (Sqlite.truncate (sortedVals.length * highQuantile)) (sortedVals.length - 1)
    let threshold ← pyIndex sortedVals qIndex
    match ← pyIndex rollingStddevs (-1) with
    | none => .ok .unknown
    | some currentStd =>
      -- a comparison with a NaN fails
      if threshold.any (fun t => t ≤ currentStd) then
        .ok .highVol
      else
        .ok .lowVol

/--
`_rolling_mean`.
-/
def rollingMean (values : List (Option ℚ)) (window : ℤ) : Except PyError (Option ℚ) :=
  if values.length < window then
    .ok none
  else
    let recent := pySliceFrom values (-window)
    if recent.isEmpty then
      .error .zeroDivisionError
    else
      .ok ((recent.mapM id).map (fun recent => recent.sum / recent.length))

/--
A number as comparisons and the sign see it.
-/
def numeric : JsonValue → Except PyError PyFloat
  | .bool b => .ok (.finite (if b then 1 else 0))
  | .int n => .ok (.finite n)
  | .float q => .ok (.finite q)
  | .nan => .ok .nan
  | .infinity negative => .ok (.infinity negative)
  | _ => .error .typeError

def trendLabel (mean : ℚ) : PyFloat → String
  | .finite threshold =>
    if threshold < mean then
      "uptrend"
    else if mean < -threshold then
      "downtrend"
    else
      "sideways"
  | .infinity negative => if negative then "uptrend" else "sideways"
  | .nan => "sideways"

/--
The label of `compute_trend_regime`. The metadata holds the threshold with its sign changed, so that
a threshold without a sign is refused on every path.
-/
def computeTrendRegime (logReturns : List (Option ℚ)) (window : ℤ) (threshold : JsonValue)
    : Except PyError String := do
  if logReturns.length < window then
    let _ ← numeric threshold
    .ok "unknown"
  else
    let mean ← rollingMean (pySliceFrom logReturns (-window)) window
    let threshold ← numeric threshold
    match mean with
    | none => .ok "unknown"
    | some mean => .ok (trendLabel mean threshold)

end regime

/--
`log` at 1 and 2, `sqrt` to sixteen digits.
-/
def sampleMath : FloatMath where
  log := fun x => if x = 2 then 6243314768165359 / 2 ^ 53 else 0
  sqrt := fun x => (Nat.sqrt ⌊x * 10 ^ 32⌋.toNat) / 10 ^ 16
  sorted := fun l => l.insertionSort (fun a b => a.getD 0 ≤ b.getD 0)

end Experiment
end Quantbot
