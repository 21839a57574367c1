import Mathlib

/-!
The two corrected Sharpe statistics of a track record, over any ordered field that has the functions
of the `math` module.
-/

namespace Quantbot
namespace Experiment
namespace Inferential

/--
The functions of `math` that the statistics call, and `fixed`, the texts of `f"{x:.4f}"`.
-/
structure StatMath (K : Type) where
  sqrt : K → K
  log : K → K
  erf : K → K
  fixed : ℕ → K → String

variable {K : Type} [Field K] [LinearOrder K] (math : StatMath K)

section moments

/--
`sum((r - mean) ** k for r in returns) / n`
-/
def centralMoment (returns : List K) (k : ℕ) : K :=
  let mean := returns.sum / returns.length
  (returns.map (fun r => (r - mean) ^ k)).sum / returns.length

def computeSkewness (returns : List K) : Option K :=
  if returns.length < 3 then
    none
  else
    let std := math.sqrt (centralMoment returns 2)
    if std = 0 then none else some (centralMoment returns 3 / std ^ 3)

def computeKurtosis (returns : List K) : Option K :=
  if returns.length < 4 then
    none
  else
    let std := math.sqrt (centralMoment returns 2)
    if std = 0 then none else some (centralMoment returns 4 / std ^ 4 - 3)

end moments

section statistics

/--
`_norm_cdf`.
-/
def normCdf (x : K) : K :=
  1 / 2 * (1 + math.erf (x / math.sqrt 2))

/--
The factor of `compute_psr` for the third and the fourth moment.
-/
def psrCorrection (sharpeLike : K) (skewness kurtosis : Option K) : K :=
  let correction := 1 + 1 / 2 * sharpeLike ^ 2
  let correction := correction - (skewness.map (fun skew => skew * sharpeLike / 6)).getD 0
  let correction := correction - (kurtosis.map (fun kurt => kurt / 24)).getD 0
  correction + (skewness.map (fun skew => skew ^ 2 / 72)).getD 0

def psrZScore (sharpeLike : K) (skewness kurtosis : Option K) : K :=
  sharpeLike * psrCorrection sharpeLike skewness kurtosis + 1 / 6

def computePsr (sharpeLike : K) (trackRecordLength : ℤ) (skewness kurtosis : Option K) : K :=
  if trackRecordLength < 2 then
    0
  else
    let zScore := psrZScore sharpeLike skewness kurtosis
    let psr := normCdf math (zScore / math.sqrt trackRecordLength)
    max 0 (min 1 psr)

def computeDsr (sharpeLike : K) (trialCount trackRecordLength : ℤ) : Option K × String :=
  if trialCount < 2 then
    (none, "DSR not computed: trial_count < 2. "
      ++ "DSR requires at least 2 trials to compute deflated ratio.")
  else if trackRecordLength < 3 then
    (none, "DSR not computed: track_record_length=" ++ toString trackRecordLength ++ " < 3. "
      ++ "Insufficient bars for stable estimation.")
  else
    let n : K := trackRecordLength
    let t : K := trialCount
    let expectedMaxSr := math.sqrt (2 * math.log t) / math.sqrt n
    let sigmaSrMax := 1 / math.sqrt (n * (t - 1))
    let dsrVal := (sharpeLike - expectedMaxSr) / sigmaSrMax
    if sigmaSrMax = 0 then
      (none, "DSR computation failed: numerical instability (sigma_sr_max=0)")
    else if sharpeLike ≤ expectedMaxSr then
      (some (max (-10) dsrVal), "DSR=" ++ math.fixed 4 dsrVal ++ ": observed SR ("
        ++ math.fixed 4 sharpeLike ++ ") does not exceed expected max ("
        ++ math.fixed 4 expectedMaxSr ++ ") across " ++ toString trialCount ++ " trials. "
        ++ "WARNING: trial_count=" ++ toString trialCount
        ++ " reflects hypothesis exploration count, "
        ++ "NOT independent backtest trials. This DSR may overstate adjustment.")
    else
      (some dsrVal, "DSR computed using trial_count=" ++ toString trialCount ++ ". "
        ++ "WARNING: trial_count reflects cumulative hypothesis exploration, "
        ++ "NOT independent backtest trials. Interpretation requires caution.")

end statistics

section summary

structure InferentialSummary (K : Type) where
  psr : Option K
  psrN : ℕ
  dsr : Option K
  dsrTrialCount : Option ℤ
  dsrNote : String
  dsrProvisional : Bool
  dsrTrialSemanticsNote : String
  dsrInterpretation : Option String
  effectiveTrialCount : Option ℤ
  rawTrialCount : Option ℤ
  sharpeLike : Option K
  stdReturn : Option K
  skewness : Option K
  kurtosis : Option K
  lowTrialPressureWarning : Bool

/--
What `compute_inferential_summary` is told about the trials.
-/
structure Trials where
  trialCount : Option ℤ
  rawTrialCount : Option ℤ
  effectiveTrialCount : Option ℤ
  dsrProvisional : Bool
  dsrTrialSemanticsNote : String

def lowTrialPressureNote (trialCount : ℤ) (n : ℕ) (dsrNote : String) : String :=
  "LOW TRIAL PRESSURE WARNING: trial_count (" ++ toString trialCount ++ ") / bar_count ("
    ++ toString n ++ ") < 0.1. DSR may overstate adjustment. " ++ dsrNote

/--
The fields of the deflated ratio: its value, its trial count, the note and the pressure warning.
-/
def dsrFields (sharpe : Option K) (n : ℕ) (trialCount : Option ℤ)
    : Option K × Option ℤ × String × Bool :=
  match trialCount with
  | none => (none, none, "", false)
  | some trialCount =>
    if trialCount < 2 then
      (none, none, "", false)
    else
      match sharpe with
      | some sharpe =>
        if 3 ≤ n then
          let (dsr, dsrNote) := computeDsr math sharpe trialCount n
          if (trialCount : ℚ) / n < 1 / 10 then
            (dsr, some trialCount, lowTrialPressureNote trialCount n dsrNote, true)
          else
            (dsr, some trialCount, dsrNote, false)
        else
          (none, none, "DSR not computed: sharpe_like=available, bar_count=" ++ toString n
            ++ " (need >= 3).", false)
      | none =>
        (none, none, "DSR not computed: sharpe_like=None, bar_count=" ++ toString n
          ++ " (need >= 3).", false)

/--
`compute_inferential_summary` on the three values that it reads of the inference summary.
-/
def computeInferentialSummary (sharpeLike stdReturn : Option K) (barCountForReturns : ℕ)
    (trials : Trials) (netReturns : Option (List K)) : InferentialSummary K :=
  let skewness := netReturns.bind (computeSkewness math)
  let kurtosis := netReturns.bind (computeKurtosis math)
  let dsrFields := dsrFields math sharpeLike barCountForReturns trials.trialCount
  {
    psr := sharpeLike.bind fun sharpe =>
      if 2 ≤ barCountForReturns then
        some (computePsr math sharpe barCountForReturns skewness kurtosis)
      else
        none
    psrN := barCountForReturns
    dsr := dsrFields.1
    dsrTrialCount := dsrFields.2.1
    dsrNote := dsrFields.2.2.1
    dsrProvisional := trials.dsrProvisional
    dsrTrialSemanticsNote := trials.dsrTrialSemanticsNote
    dsrInterpretation := dsrFields.2.1.map (fun _ => "z_score_like_test_statistic")
    effectiveTrialCount := trials.effectiveTrialCount
    rawTrialCount := trials.rawTrialCount
    sharpeLike
    stdReturn
    skewness
    kurtosis
    lowTrialPressureWarning := dsrFields.2.2.2
  }

/--
Without returns the summary reports the uncorrected statistics.
-/
theorem computeInferentialSummary_sharpe (sharpe : K) (stdReturn : Option K) {n : ℕ} (hn : 3 ≤ n)
    {trials : Trials} {trialCount : ℤ} (htrials : trials.trialCount = some trialCount)
    (htwo : 2 ≤ trialCount)
    : (computeInferentialSummary math (some sharpe) stdReturn n trials none).psr
          = some (computePsr math sharpe n none none)
        ∧ (computeInferentialSummary math (some sharpe) stdReturn n trials none).dsr
          = (computeDsr math sharpe trialCount n).1 := by
  constructor
  . exact if_pos (by omega)
  . rw [computeInferentialSummary, htrials, dsrFields]
    dsimp only
    rw [if_neg (not_lt.mpr htwo), if_pos hn]
    split
    . rfl
    . rfl

end summary

end Inferential
end Experiment
end Quantbot
