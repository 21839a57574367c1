import Mathlib.Algebra.Order.Field.Basic
import Mathlib.Algebra.BigOperators.Group.List.Basic
import Quantbot.Util.Sha256
import Quantbot.Util.Traced

/-!
The statistic and the bootstrap path of the null calibration. Values are elements of an ordered
field, so that the checks for finite values always pass, and the square root is a parameter.
-/

namespace Quantbot
namespace H001

section constants

def seedDomain : String :=
  "h001-null-calibration/h001-synthetic-null-calibration-spec-freeze-candidate-v001/synthetic-only"

def sampleLength : ℕ :=
  2193

def hacLag : ℕ :=
  21

def stationaryBlockLength : ℕ :=
  63

def restartProbabilityNumerator : ℕ :=
  1

def restartProbabilityDenominator : ℕ :=
  stationaryBlockLength

def alphaNumerator : ℕ :=
  1

def alphaDenominator : ℕ :=
  20

def retryCap : ℕ :=
  8

def twoPow64 : ℕ :=
  2 ^ 64

def dgpOrCaseIds : List String :=
  ["iid_gaussian", "iid_student_t_df5_standardized", "nine_series_common_factor_dependence",
    "stationary_ar1_phi_0p3", "stationary_ar1_phi_0p7", "stationary_garch11_like",
    "autocorrelation_structural_break", "mean_zero_regime_switching", "sparse_extreme_outliers",
    "variance_structural_break"]

end constants

inductive EngineError where
  | nonFiniteInput
  | negativeLongRunVariance
  | negativeStandardError
  | zeroStandardError
  | coordinateOutOfDomain
  | invalidBound
  | retryCapExhausted
  | invalidRational
  | indexError
deriving DecidableEq

/--
The code of a failure; an `IndexError` of the language has none.
-/
def EngineError.code : EngineError → Option String
  | nonFiniteInput => some "H001_NC_NON_FINITE_INPUT"
  | negativeLongRunVariance => some "H001_NC_NEGATIVE_LONG_RUN_VARIANCE"
  | negativeStandardError => some "H001_NC_NEGATIVE_STANDARD_ERROR"
  | zeroStandardError => some "H001_NC_ZERO_STANDARD_ERROR"
  | coordinateOutOfDomain => some "H001_RNG_COORDINATE_OUT_OF_DOMAIN"
  | invalidBound => some "H001_RNG_INVALID_BOUND"
  | retryCapExhausted => some "H001_RNG_RETRY_CAP_EXHAUSTED"
  | invalidRational => some "H001_RNG_INVALID_RATIONAL"
  | indexError => none

section statistics

variable {K : Type} [Field K] [LinearOrder K] (sqrt : K → K)

def hacMean (x : List K) : Except EngineError K :=
  if x.length < 1 then
    .error .nonFiniteInput
  else
    .ok (x.sum / x.length)

/--
The products of a value and the one `lag` places before it, from the first that has one.
-/
def hacGamma (x : List K) (xbar : K) (lag : ℕ) : K :=
  ((x.drop lag).zipWith (fun left right => (left - xbar) * (right - xbar)) x).sum / x.length

def hacOmega2 (x : List K) (lagOrder : ℕ) : Except EngineError K := do
  let xbar ← hacMean x
  .ok ((List.range' 1 lagOrder).foldl (fun omega2 (j : ℕ) =>
    let ratio := (j : K) / (lagOrder + 1)
    let weight := 1 - ratio
    omega2 + (2 : ℕ) • (weight * hacGamma x xbar j)) (hacGamma x xbar 0))

def hacSe (omega2 : K) (n : ℕ) : Except EngineError K :=
  if omega2 < 0 then
    .error .negativeLongRunVariance
  else if omega2 = 0 then
    .ok 0
  else
    .ok (sqrt (omega2 / n))

def centeredNumerator (xbarStar xbar : K) : K :=
  xbarStar - xbar

def stud (num se : K) : Except EngineError K :=
  if se < 0 then
    .error .negativeStandardError
  else if 0 < se then
    .ok (num / se)
  else if num = 0 then
    .ok 0
  else
    .error .zeroStandardError

end statistics

section draws

structure BootstrapCoordinate where
  dgpOrCaseId : String
  outerReplicationIndex : ℕ
  bootstrapReplicationIndex : ℕ
  dgpOrCaseId_mem : dgpOrCaseId ∈ dgpOrCaseIds
  outer_le : outerReplicationIndex ≤ 1999
  bootstrap_le : bootstrapReplicationIndex ≤ 9999

def BootstrapCoordinate.payload (coordinate : BootstrapCoordinate) : String :=
  seedDomain ++ ":" ++ coordinate.dgpOrCaseId
    ++ ":outer:" ++ toString coordinate.outerReplicationIndex
    ++ ":bootstrap:" ++ toString coordinate.bootstrapReplicationIndex

/--
`int(digits, 16)`
-/
def ofHex (digits : List Char) : ℕ :=
  digits.foldl (fun n c => 16 * n + "0123456789abcdef".toList.idxOf c) 0

def keyWords (coordinate : BootstrapCoordinate) : ℕ × ℕ :=
  let hexDigest := Sha256.hexdigest coordinate.payload
  (ofHex (hexDigest.take 16), ofHex ((hexDigest.drop 16).take 16))

inductive DrawPurpose where
  | initialIndex
  | restartDecision
  | restartIndex
deriving DecidableEq

def DrawPurpose.id : DrawPurpose → ℕ
  | initialIndex => 1
  | restartDecision => 2
  | restartIndex => 3

/--
What a raw word is drawn for.
-/
structure Draw where
  drawPurpose : DrawPurpose
  samplePosition : ℕ
  attemptIndex : ℕ
deriving DecidableEq

def counterWord0 (draw : Draw) : Except EngineError ℕ :=
  if draw.samplePosition ≤ sampleLength - 1 then
    if draw.attemptIndex ≤ retryCap - 1 then
      .ok (draw.attemptIndex + 256 * draw.drawPurpose.id + 65536 * draw.samplePosition)
    else
      .error .coordinateOutOfDomain
  else
    .error .coordinateOutOfDomain

/--
`(counter_word_0 - 1) & _MASK_256`
-/
def philoxCounter (counterWord0 : ℕ) : ℕ :=
  (((counterWord0 : ℤ) - 1) % 2 ^ 256).toNat

/--
Lane 0 of the block of a generator with a counter and a key.
-/
abbrev Philox :=
  ℕ → ℕ → Fin (2 ^ 64)

/--
The loops below leave a trace of the raw words that they draw.
-/
abbrev Drawing :=
  Traced Draw EngineError

variable (philox : Philox) (coordinate : BootstrapCoordinate)

def rawWord (draw : Draw) : Drawing ℕ :=
  match counterWord0 draw with
  | .error e => .fail e
  | .ok counterWord0 => do
    let key := keyWords coordinate
    Traced.emit draw
    pure (philox (philoxCounter counterWord0) (key.1 + key.2 * 2 ^ 64)).val

def limit (n : ℕ) : ℕ :=
  twoPow64 - twoPow64 % n

/--
The attempts of `uniform_bounded`.
-/
def attempts (purpose : DrawPurpose) (samplePosition n : ℕ) : List ℕ → Drawing ℕ
  | [] => .fail .retryCapExhausted
  | attemptIndex :: rest => do
    let word ← rawWord philox coordinate ⟨purpose, samplePosition, attemptIndex⟩
    if word < limit n then
      pure (word % n)
    else
      attempts purpose samplePosition n rest

def uniformBounded (purpose : DrawPurpose) (samplePosition n : ℕ) : Drawing ℕ :=
  if 1 ≤ n ∧ n ≤ twoPow64 then
    attempts philox coordinate purpose samplePosition n (List.range retryCap)
  else
    .fail .invalidBound

def bernoulliRational (samplePosition p q : ℕ) : Drawing Bool :=
  if q < 1 ∨ q < p then
    .fail .invalidRational
  else do
    let u ← uniformBounded philox coordinate .restartDecision samplePosition q
    pure (decide (u < p))

/--
The next entry of a path, whose last one is that of position `t - 1`.
-/
def nextIndex (t last : ℕ) : Drawing ℕ := do
  let restart ← bernoulliRational philox coordinate t restartProbabilityNumerator
    restartProbabilityDenominator
  if restart then
    uniformBounded philox coordinate .restartIndex t sampleLength
  else
    pure ((last + 1) % sampleLength)

/--
The entries of the positions from `t` on.
-/
def pathFrom (last : ℕ) : ℕ → ℕ → Drawing (List ℕ)
  | _, 0 => pure []
  | t, count + 1 => do
    let index ← nextIndex philox coordinate t last
    let rest ← pathFrom index (t + 1) count
    pure (index :: rest)

/--
`_build_shared_path`, of any length.
-/
def buildPath (length : ℕ) : Drawing (List ℕ) := do
  let initial ← uniformBounded philox coordinate .initialIndex 0 sampleLength
  let rest ← pathFrom philox coordinate initial 1 (length - 1)
  pure (initial :: rest)

def buildSharedPath : Drawing (List ℕ) :=
  buildPath philox coordinate sampleLength

end draws

section replication

variable {K : Type} [Field K] [LinearOrder K] (sqrt : K → K)

/--
`l[k]`
-/
def item {α : Type} (l : List α) (k : ℕ) : Except EngineError α :=
  match l[k]? with
  | some a => .ok a
  | none => .error .indexError

/--
An array that `validate_input` has let through.
-/
structure Panel (K : Type) where
  rows : List (List K)
  length_rows : rows.length = 9
  length_row : ∀ row ∈ rows, row.length = sampleLength

def observedStatistic (series : List K) : Except EngineError (K × K × K) := do
  let xbar ← hacMean series
  let omega2 ← hacOmega2 series hacLag
  let se ← hacSe sqrt omega2 series.length
  let t ← stud xbar se
  .ok (xbar, se, t)

def computeObservedStatistics (x : Panel K) : Except EngineError (List (K × K × K)) :=
  x.rows.mapM (observedStatistic sqrt)

/--
The statistic of the series of one row along a path.
-/
def resampledStatistic (path : List ℕ) (xbar : List K) (row : List K × ℕ)
    : Except EngineError K := do
  let resampled ← path.mapM (item row.1)
  let xbarStar ← hacMean resampled
  let xbar ← item xbar row.2
  let omega2 ← hacOmega2 resampled hacLag
  let seStar ← hacSe sqrt omega2 resampled.length
  stud (centeredNumerator xbarStar xbar) seStar

def computeOneBootstrapReplication (philox : Philox) (x : Panel K) (xbar : List K)
    (coordinate : BootstrapCoordinate) : Except EngineError (List K) := do
  let path ← (buildSharedPath philox coordinate).result
  x.rows.zipIdx.mapM (resampledStatistic sqrt path xbar)

end replication

section exceedances

variable {K : Type} [AddGroup K] [LinearOrder K]

def absmax (values : List K) : K :=
  values.foldl (fun m value => if m < |value| then |value| else m) 0

/--
The loop over the observed values; only a count that goes up is looked at.
-/
def exceed (bound : K) : List ℕ → List K → Except EngineError (List ℕ)
  | counts, [] => .ok counts
  | [], t :: observed => if t ≤ bound then .error .indexError else exceed bound [] observed
  | count :: counts, t :: observed => do
    let rest ← exceed bound counts observed
    .ok ((if t ≤ bound then count + 1 else count) :: rest)

def updateExceedanceCounts (counts : List ℕ) (observedAbsT bootstrapTstar : List K)
    : Except EngineError (List ℕ) :=
  exceed (absmax bootstrapTstar) counts observedAbsT

/--
The numerator and the denominator of a p-value, and whether the null is rejected.
-/
structure ExactPvalue where
  numerator : ℕ
  denominator : ℕ
  reject : Bool
deriving DecidableEq

def finalizeExactPvalues (counts : List ℕ) (totalBootstrapReplications : ℕ) : List ExactPvalue :=
  let denominator := totalBootstrapReplications + 1
  counts.map fun count =>
    let numerator := 1 + count
    {
      numerator
      denominator
      reject := decide (numerator * alphaDenominator ≤ denominator * alphaNumerator)
    }

end exceedances

end H001
end Quantbot
