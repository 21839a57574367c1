import Mathlib
import Quantbot.Experiment.Walkforward

/-!
What the record of a split owes to the splits before it, and which strategies run on both windows of
a split.
-/

namespace Quantbot
namespace Experiment

open Sqlite (PyFloat Literals)

/--
A value that a float can be compared with.
-/
def Comparable (v : JsonValue) : Prop :=
  ∃ x, numeric v = .ok x

theorem atLeast_ok (x : ℚ) (v : JsonValue) : (∃ b, atLeast x v = .ok b) ↔ Comparable v := by
  cases v <;> simp [atLeast, Comparable, numeric]

theorem lessThan_ok (x : ℚ) (v : JsonValue) : (∃ b, lessThan x v = .ok b) ↔ Comparable v := by
  cases v <;> simp [lessThan, Comparable, numeric]

theorem ThresholdStrategy.runs_iff (self : ThresholdStrategy) (s : State) (bars : List Bar)
    : (∃ rs, self.strategy.traceFrom s bars = .ok rs) ↔ bars = [] ∨ Comparable self.threshold := by
  induction bars generalizing s with
  | nil =>
    simp only [true_or, iff_true]
    exact ⟨[], rfl⟩
  | cons bar bars ih =>
    rw [← atLeast_ok bar.close]
    simp only [reduceCtorEq, false_or]
    constructor
    . rintro ⟨rs, hrs⟩
      obtain ⟨r, rs', hstep, -, -⟩ := (self.strategy.traceFrom_cons_ok).mp hrs
      obtain ⟨above, habove, -⟩ := bind_eq_ok.mp hstep
      exact ⟨above, habove⟩
    . rintro ⟨above, habove⟩
      obtain ⟨r, hstep⟩ : ∃ r, self.onBar s bar = .ok r := by
        unfold onBar
        rw [habove]
        exact ⟨_, rfl⟩
      obtain ⟨rs, hrest⟩ := (ih r.2).mpr (.inr ((atLeast_ok bar.close _).mp ⟨above, habove⟩))
      exact ⟨r :: rs, (self.strategy.traceFrom_cons_ok).mpr ⟨r, rs, hstep, hrest, rfl⟩⟩

namespace MADeviationStrategy

variable (self : MADeviationStrategy)

theorem direction_ok (bars : List ℚ) (bar : Bar)
    : (∃ d, self.direction bars bar = .ok d) ↔ self.maPeriod ≠ 0 ∧ Comparable self.thresholdPct := by
  unfold direction
  by_cases hperiod : self.maPeriod = 0
  . simp [hperiod]
  . rw [if_neg hperiod, and_iff_right hperiod]
    dsimp only
    generalize hx : |(if (pySliceFrom bars (-self.maPeriod)).sum / (self.maPeriod : ℚ) ≠ 0 then _
      else _ : ℚ)| = x
    rw [← lessThan_ok x]
    constructor
    . rintro ⟨d, hd⟩
      obtain ⟨below, hbelow, -⟩ := bind_eq_ok.mp hd
      exact ⟨below, hbelow⟩
    . rintro ⟨below, hbelow⟩
      rw [hbelow]
      cases below
      . exact ⟨_, rfl⟩
      . exact ⟨_, rfl⟩

/--
A period that divides, and a threshold that is needed only once the window is full.
-/
theorem onBar_runs (s : State) (bar : Bar)
    : (∃ r, self.onBar s bar = .ok r)
        ↔
      (s.bars.length + 1 : ℤ) < self.maPeriod
        ∨ (self.maPeriod ≠ 0 ∧ Comparable self.thresholdPct) := by
  unfold onBar
  dsimp only
  rw [List.length_append, List.length_singleton]
  push_cast
  split
  . rename_i hwarm
    simp [hwarm]
  . rename_i hwarm
    rw [or_iff_right hwarm, ← self.direction_ok (s.bars ++ [bar.close]) bar]
    constructor
    . rintro ⟨r, hr⟩
      obtain ⟨d, hd, -⟩ := bind_eq_ok.mp hr
      exact ⟨d, hd⟩
    . rintro ⟨d, hd⟩
      rw [hd]
      exact ⟨_, rfl⟩

theorem onBar_bars {s : State} {bar : Bar} {r : Option Signal × State}
    (h : self.onBar s bar = .ok r) : r.2.bars = s.bars ++ [bar.close] := by
  unfold onBar at h
  dsimp only at h
  split at h
  . cases h
    rfl
  . obtain ⟨d, -, h⟩ := bind_eq_ok.mp h
    cases h
    rfl

theorem runs_iff (s : State) (bars : List Bar)
    : (∃ rs, self.strategy.traceFrom s bars = .ok rs)
        ↔
      bars = [] ∨ (s.bars.length + bars.length : ℤ) < self.maPeriod
        ∨ (self.maPeriod ≠ 0 ∧ Comparable self.thresholdPct) := by
  induction bars generalizing s with
  | nil =>
    simp only [true_or, iff_true]
    exact ⟨[], rfl⟩
  | cons bar bars ih =>
    simp only [reduceCtorEq, false_or]
    constructor
    . rintro ⟨rs, hrs⟩
      obtain ⟨r, rs', hstep, hrest, -⟩ := (self.strategy.traceFrom_cons_ok).mp hrs
      have hnow := (self.onBar_runs s bar).mp ⟨r, hstep⟩
      have hlater := (ih r.2).mp ⟨rs', hrest⟩
      rw [self.onBar_bars hstep, List.length_append, List.length_singleton] at hlater
      rw [List.length_cons]
      push_cast at hlater ⊢
      rcases hlater with rfl | hlater | hlater
      . simpa using hnow
      . exact .inl (by omega)
      . exact .inr hlater
    . intro h
      rw [List.length_cons] at h
      push_cast at h
      obtain ⟨r, hstep⟩ := (self.onBar_runs s bar).mpr (h.imp_left (by omega))
      have hlater := ih r.2
      rw [self.onBar_bars hstep, List.length_append, List.length_singleton] at hlater
      push_cast at hlater
      obtain ⟨rs, hrest⟩ := hlater.mpr (.inr (h.imp_left (by omega)))
      exact ⟨r :: rs, (self.strategy.traceFrom_cons_ok).mpr ⟨r, rs, hstep, hrest, rfl⟩⟩

end MADeviationStrategy

namespace Env

variable (env : Env)

/--
The strategy of a specification can be built and reads all the bars.
-/
def Runs (spec : ExperimentSpec) (bars : List Bar) : Prop :=
  ∃ built, env.strategyOf spec = .ok built ∧ ∃ rs, (built.strategy env.math).trace bars = .ok rs

end Env

namespace WalkForwardRun

variable (run : WalkForwardRun)

/--
The strategies that take the parameters of the train run and read its bars.
-/
def TakesTrain (train : List Bar) : Prop :=
  (run.spec.strategyName = "ThresholdStrategy"
      ∧ ∃ v, run.spec.strategyParams.get? "threshold" = some v ∧ Comparable v)
    ∨ (run.spec.strategyName = "MADeviationStrategy"
      ∧ ∃ p, pyInt run.env.literals ((run.spec.strategyParams.get? "ma_period").getD (.int 20))
          = .ok p
        ∧ ((train.length : ℤ) < p
          ∨ (p ≠ 0 ∧ Comparable
            ((run.spec.strategyParams.get? "threshold_pct").getD (.float 0)))))

theorem get?_testParams (idx : ℕ) (split : WalkForwardSplit) {name : String}
    (hname : name ∉ ["_split_index", "_test_start", "_test_end"])
    : (run.testParams idx split).get? name = run.spec.strategyParams.get? name := by
  unfold testParams Params.update Params.get? testExtra
  rw [List.lookup_append]
  simp only [List.mem_cons, List.not_mem_nil, or_false, not_or] at hname
  simp [List.lookup, beq_eq_false_iff_ne.mpr hname.1, beq_eq_false_iff_ne.mpr hname.2.1,
    beq_eq_false_iff_ne.mpr hname.2.2]

theorem get?_trainParams (idx : ℕ) (split : WalkForwardSplit) (name : String)
    (hname : name ∉ ["_split_index", "_train_start", "_train_end"])
    : (run.trainParams idx split).get? name = run.spec.strategyParams.get? name := by
  unfold trainParams Params.update Params.get? trainExtra
  rw [List.lookup_append]
  simp only [List.mem_cons, List.not_mem_nil, or_false, not_or] at hname
  simp [List.lookup, beq_eq_false_iff_ne.mpr hname.1, beq_eq_false_iff_ne.mpr hname.2.1,
    beq_eq_false_iff_ne.mpr hname.2.2]

theorem bindsSelf_params (idx : ℕ) (split : WalkForwardSplit)
    : bindsSelf (run.trainParams idx split) = bindsSelf (run.testParams idx split) := by
  rfl

/--
The constructors of the breakout strategies know no train window.
-/
theorem refuses_trainParams (idx : ℕ) (split : WalkForwardSplit) {accepted : List String}
    (h : "_train_start" ∉ accepted) : refuses (run.trainParams idx split) accepted := by
  unfold refuses
  rw [List.any_eq_true]
  refine ⟨"_train_start", ?_, by simpa using h⟩
  unfold Params.names trainParams Params.update trainExtra
  simp

theorem not_runs_train_of_breakout (idx : ℕ) (split : WalkForwardSplit) (bars : List Bar)
    (hname : run.spec.strategyName ≠ "ThresholdStrategy"
      ∧ run.spec.strategyName ≠ "MADeviationStrategy")
    : ¬run.env.Runs (run.trainSpec idx split) bars := by
  rintro ⟨built, hbuilt, -⟩
  have hrolling := run.refuses_trainParams idx split
    (show "_train_start" ∉ RollingReturnBreakoutStrategy.accepted by decide)
  have hfiltered := run.refuses_trainParams idx split
    (show "_train_start" ∉ RegimeFilteredBreakoutStrategy.accepted by decide)
  unfold Env.strategyOf buildStrategy trainSpec at hbuilt
  dsimp only at hbuilt
  rw [if_neg hname.1, if_neg hname.2] at hbuilt
  split at hbuilt
  . rw [RollingReturnBreakoutStrategy.build, if_pos hrolling] at hbuilt
    cases hbuilt
  . split at hbuilt
    . rw [RegimeFilteredBreakoutStrategy.build, if_pos hfiltered] at hbuilt
      cases hbuilt
    . cases hbuilt

theorem runs_threshold (spec : ExperimentSpec) {bars : List Bar}
    (hname : spec.strategyName = "ThresholdStrategy")
    : run.env.Runs spec bars
        ↔
      bindsSelf spec.strategyParams = false
        ∧ ∃ v, spec.strategyParams.get? "threshold" = some v ∧ (bars = [] ∨ Comparable v) := by
  unfold Env.Runs Env.strategyOf buildStrategy
  rw [if_pos hname]
  unfold ThresholdStrategy.build
  cases bindsSelf spec.strategyParams with
  | true => simp [bind, Except.bind]
  | false =>
    cases spec.strategyParams.get? "threshold" with
    | none => simp [bind, Except.bind]
    | some v =>
      rw [if_neg (by decide)]
      simp only [bind, Except.bind, Except.ok.injEq, exists_eq_left', Option.some.injEq, true_and]
      exact ThresholdStrategy.runs_iff _ _ bars

theorem runs_maDeviation (spec : ExperimentSpec) {bars : List Bar}
    (hname : spec.strategyName = "MADeviationStrategy")
    : run.env.Runs spec bars
        ↔
      bindsSelf spec.strategyParams = false
        ∧ ∃ p, pyInt run.env.literals ((spec.strategyParams.get? "ma_period").getD (.int 20))
            = .ok p
          ∧ (bars = [] ∨ (bars.length : ℤ) < p
            ∨ (p ≠ 0 ∧ Comparable
              ((spec.strategyParams.get? "threshold_pct").getD (.float 0)))) := by
  unfold Env.Runs Env.strategyOf buildStrategy
  rw [if_neg (by rw [hname]; decide), if_pos hname]
  unfold MADeviationStrategy.build
  cases bindsSelf spec.strategyParams with
  | true => simp [bind, Except.bind]
  | false =>
    rw [if_neg (by decide)]
    cases hperiod : pyInt run.env.literals
        ((spec.strategyParams.get? "ma_period").getD (.int 20)) with
    | error e => simp [bind, Except.bind]
    | ok p =>
      simp only [bind, Except.bind, Except.ok.injEq, exists_eq_left', true_and]
      have hruns := MADeviationStrategy.runs_iff
        ⟨p, (spec.strategyParams.get? "symbol").getD (.str "TESTUSD"),
          (spec.strategyParams.get? "threshold_pct").getD (.float 0)⟩
        ⟨[], none⟩ bars
      simp only [List.length_nil, Nat.cast_zero, zero_add] at hruns
      exact hruns

/--
A strategy that runs on the test window runs on the train window, where there is one, exactly when
it takes the train parameters.
-/
theorem runs_train_iff (bars : List Bar) (idx : ℕ) (split : WalkForwardSplit)
    : (run.env.Runs (run.splitSpec idx split) (testBars bars split) →
          trainBars bars split = [] ∨ run.env.Runs (run.trainSpec idx split) (trainBars bars split))
        ↔
      trainBars bars split = [] ∨ ¬run.env.Runs (run.splitSpec idx split) (testBars bars split)
        ∨ run.TakesTrain (trainBars bars split) := by
  by_cases hempty : trainBars bars split = []
  . simp [hempty]
  by_cases hruns : run.env.Runs (run.splitSpec idx split) (testBars bars split)
  swap
  . simp [hruns]
  rw [or_iff_right hempty, or_iff_right hempty, or_iff_right (not_not_intro hruns)]
  rw [imp_iff_right hruns]
  by_cases hthreshold : run.spec.strategyName = "ThresholdStrategy"
  . have htest := (run.runs_threshold (run.splitSpec idx split) hthreshold).mp hruns
    rw [run.runs_threshold (run.trainSpec idx split) hthreshold]
    have hself : bindsSelf (run.trainSpec idx split).strategyParams = false := htest.1
    have hget := run.get?_trainParams idx split "threshold" (by decide)
    rw [and_iff_right hself, trainSpec]
    dsimp only
    rw [hget]
    simp [hempty, TakesTrain, hthreshold]
  by_cases hma : run.spec.strategyName = "MADeviationStrategy"
  . have htest := (run.runs_maDeviation (run.splitSpec idx split) hma).mp hruns
    rw [run.runs_maDeviation (run.trainSpec idx split) hma]
    have hself : bindsSelf (run.trainSpec idx split).strategyParams = false := htest.1
    have hperiod := run.get?_trainParams idx split "ma_period" (by decide)
    have hpct := run.get?_trainParams idx split "threshold_pct" (by decide)
    rw [and_iff_right hself, trainSpec]
    dsimp only
    rw [hperiod, hpct]
    simp [hempty, TakesTrain, hma]
  . have hrefused := run.not_runs_train_of_breakout idx split (trainBars bars split)
      ⟨hthreshold, hma⟩
    simp [hrefused, TakesTrain, hthreshold, hma]

/--
The variable `result` after some splits.
-/
def carried (bars : List Bar) (result : Option ExperimentResult) (idx : ℕ)
    : List WalkForwardSplit → Option ExperimentResult
  | [] => result
  | split :: splits => carried bars (run.splitStep bars result idx split).2 (idx + 1) splits

theorem getElem?_splitLoop (bars : List Bar) (result : Option ExperimentResult) (idx : ℕ)
    (splits : List WalkForwardSplit) (k : ℕ)
    : (run.splitLoop bars result idx splits)[k]?
        =
      splits[k]?.map (fun split =>
        (run.splitStep bars (run.carried bars result idx (splits.take k)) (idx + k) split).1) := by
  induction splits generalizing result idx k with
  | nil => rfl
  | cons split splits ih =>
    cases k with
    | zero => rfl
    | succ k =>
      rw [splitLoop, List.getElem?_cons_succ, ih, List.getElem?_cons_succ, List.take_succ_cons, carried]
      rw [Nat.add_assoc, Nat.add_comm 1 k]

theorem carried_eq_none {bars : List Bar} {result : Option ExperimentResult} {idx : ℕ}
    {splits : List WalkForwardSplit}
    : run.carried bars result idx splits = none
        ↔
      result = none
        ∧ ∀ j split, splits[j]? = some split →
          ∃ e, run.testRun bars (idx + j) split = .error e := by
  induction splits generalizing result idx with
  | nil => simp [carried]
  | cons split splits ih =>
    rw [carried, ih]
    constructor
    . rintro ⟨hstep, hrest⟩
      unfold splitStep at hstep
      cases hrun : run.testRun bars idx split with
      | ok r =>
        rw [hrun] at hstep
        cases hstep
      | error e =>
        rw [hrun] at hstep
        refine ⟨hstep, ?_⟩
        intro j s hs
        cases j with
        | zero =>
          cases hs
          exact ⟨e, hrun⟩
        | succ j =>
          have hlater := hrest j s hs
          rw [Nat.add_assoc, Nat.add_comm 1 j] at hlater
          exact hlater
    . rintro ⟨hresult, hall⟩
      obtain ⟨e, he⟩ := hall 0 split rfl
      rw [Nat.add_zero] at he
      refine ⟨?_, ?_⟩
      . unfold splitStep
        rw [he]
        exact hresult
      . intro j s hs
        have hlater := hall (j + 1) s hs
        rw [Nat.add_assoc, Nat.add_comm 1 j]
        exact hlater

/--
The record of a split whose windows alone are run.
-/
def isolated (bars : List Bar) (idx : ℕ) (split : WalkForwardSplit) : WalkForwardSplitResult :=
  (run.splitStep bars none idx split).1

end WalkForwardRun

/--
Nothing of a test run is recorded.
-/
structure WalkForwardSplitResult.Empty (r : WalkForwardSplitResult) : Prop where
  signalCount : r.signalCount = 0
  counts : r.counts = { long := 0, short := 0, flat := 0 }
  receiptPath : r.receiptPath = none
  artifactPath : r.artifactPath = none
  economicsSummary : r.economicsSummary = none
  returnSummary : r.returnSummary = none
  returnSeries : r.returnSeries = none
  inferenceSummary : r.inferenceSummary = none

namespace WalkForwardRun

variable (run : WalkForwardRun)

theorem splitStep_ok {bars : List Bar} {result : Option ExperimentResult} {idx : ℕ}
    {split : WalkForwardSplit} {r : ExperimentResult} (h : run.testRun bars idx split = .ok r)
    : (run.splitStep bars result idx split).1 = run.isolated bars idx split := by
  unfold isolated splitStep
  rw [h]

theorem splitStep_error {bars : List Bar} (result : Option ExperimentResult) {idx : ℕ}
    {split : WalkForwardSplit} {e : PyError} (h : run.testRun bars idx split = .error e)
    : ((run.splitStep bars result idx split).1 = run.isolated bars idx split ↔ result = none)
        ∧ ((run.splitStep bars result idx split).1.Empty ↔ result = none) := by
  unfold isolated splitStep
  rw [h]
  constructor
  . cases result <;> simp
  . constructor
    . intro hempty
      have hnone := hempty.inferenceSummary
      cases result with
      | none => rfl
      | some r => cases hnone
    . intro hnone
      rw [hnone]
      exact ⟨rfl, rfl, rfl, rfl, rfl, rfl, rfl, rfl⟩

/--
The record of a split is its own exactly when its test run succeeds or no test run before it did,
and the strategy runs on both windows exactly when it takes the parameters of both.
-/
theorem split_independent_iff {bars : List Bar} {trainSize testSize : ℤ} {stepSize : Option ℤ}
    {splits : List WalkForwardSplit} {records : List WalkForwardSplitResult}
    (hsplits : buildWalkforwardSplits bars trainSize testSize stepSize = some splits)
    (hrecords : run.splitResults bars trainSize testSize stepSize = some records) {k : ℕ}
    {split : WalkForwardSplit} {record : WalkForwardSplitResult} (hsplit : splits[k]? = some split)
    (hrecord : records[k]? = some record)
    : (record = run.isolated bars k split
          ∧ ((∃ e, run.testRun bars k split = .error e) → record.Empty)
          ∧ (run.env.Runs (run.splitSpec k split) (testBars bars split) →
            trainBars bars split = []
              ∨ run.env.Runs (run.trainSpec k split) (trainBars bars split)))
        ↔
      ((∃ r, run.testRun bars k split = .ok r)
          ∨ ∀ j < k, ∀ earlier, splits[j]? = some earlier →
            ∃ e, run.testRun bars j earlier = .error e)
        ∧ (trainBars bars split = []
          ∨ ¬run.env.Runs (run.splitSpec k split) (testBars bars split)
          ∨ run.TakesTrain (trainBars bars split)) := by
  rw [splitResults, hsplits, Option.map_some, Option.some.injEq] at hrecords
  rw [← hrecords, run.getElem?_splitLoop, hsplit, Option.map_some, Option.some.injEq,
    Nat.zero_add] at hrecord
  rw [← hrecord, run.runs_train_iff, ← and_assoc]
  refine and_congr_left' ?_
  have hearlier : run.carried bars none 0 (splits.take k) = none
      ↔ ∀ j < k, ∀ earlier, splits[j]? = some earlier →
        ∃ e, run.testRun bars j earlier = .error e := by
    rw [run.carried_eq_none, and_iff_right rfl]
    constructor
    . intro h j hj earlier hget
      have hfail := h j earlier (by rw [List.getElem?_take_of_lt hj]; exact hget)
      rw [Nat.zero_add] at hfail
      exact hfail
    . intro h j earlier hget
      rw [Nat.zero_add]
      rw [List.getElem?_take] at hget
      split at hget
      . exact h j ‹_› earlier hget
      . cases hget
  rw [← hearlier]
  cases hrun : run.testRun bars k split with
  | ok r =>
    rw [run.splitStep_ok hrun]
    simp
  | error e =>
    obtain ⟨hsame, hempty⟩ := run.splitStep_error (run.carried bars none 0 (splits.take k)) hrun
    rw [hsame, hempty]
    simp

end WalkForwardRun

section examples

theorem leakParams_noState
    : ∀ name ∈ [("threshold", JsonValue.int 50)].map Prod.fst, name ∉ stateFields := by
  change ∀ name ∈ ["threshold"], name ∉ stateFields
  decide

def leakParams : Params where
  entries := [("threshold", .int 50)]
  noState := leakParams_noState

def leakSpec : ExperimentSpec where
  experimentName := "leak"
  strategyName := "ThresholdStrategy"
  strategyParams := leakParams
  fixtureName := ""
  description := ""
  notes := ""
  familyId := ""
  variantId := ""
  trialCount := 1
  feeBps := 0
  slippageBps := 0
  trialCount_pos := le_refl 1
  feeBps_nonneg := le_refl 0
  slippageBps_nonneg := le_refl 0

def leakRun : WalkForwardRun where
  env := {
    math := sampleMath
    literals := { float := fun _ => none, int := fun _ => none }
    reload := .ok
    writeJson := fun _ => .ok ()
  }
  spec := leakSpec
  outputDir := "out"
  interval := none

/--
The second test window starts with a close of zero, which the short position divides by.
-/
def leakBars : List Bar :=
  [barClosing 60, barClosing 60, barClosing 0, barClosing 60]

def leakSplits : List WalkForwardSplit :=
  [⟨0, 0, 0, 2⟩, ⟨2, 2, 2, 4⟩]

theorem leakSplits_built : buildWalkforwardSplits leakBars 0 2 none = some leakSplits := by
  decide

theorem error_of_isNone {ε α : Type} {x : Except ε α} (h : x.toOption.isNone)
    : ∃ e, x = .error e := by
  cases x with
  | error e => exact ⟨e, rfl⟩
  | ok a => cases h

theorem leak_second_fails : ∃ e, leakRun.testRun leakBars 1 ⟨2, 2, 2, 4⟩ = .error e :=
  error_of_isNone (by decide +kernel)

theorem split_independent_first
    : ((leakRun.splitStep leakBars none 0 ⟨0, 0, 0, 2⟩).1 = leakRun.isolated leakBars 0 ⟨0, 0, 0, 2⟩
          ∧ ((∃ e, leakRun.testRun leakBars 0 ⟨0, 0, 0, 2⟩ = .error e) →
            (leakRun.splitStep leakBars none 0 ⟨0, 0, 0, 2⟩).1.Empty)
          ∧ (leakRun.env.Runs (leakRun.splitSpec 0 ⟨0, 0, 0, 2⟩)
              (WalkForwardRun.testBars leakBars ⟨0, 0, 0, 2⟩) →
            WalkForwardRun.trainBars leakBars ⟨0, 0, 0, 2⟩ = []
              ∨ leakRun.env.Runs (leakRun.trainSpec 0 ⟨0, 0, 0, 2⟩)
                (WalkForwardRun.trainBars leakBars ⟨0, 0, 0, 2⟩)))
        ↔
      ((∃ r, leakRun.testRun leakBars 0 ⟨0, 0, 0, 2⟩ = .ok r)
          ∨ ∀ j < 0, ∀ earlier, leakSplits[j]? = some earlier →
            ∃ e, leakRun.testRun leakBars j earlier = .error e)
        ∧ (WalkForwardRun.trainBars leakBars ⟨0, 0, 0, 2⟩ = []
          ∨ ¬leakRun.env.Runs (leakRun.splitSpec 0 ⟨0, 0, 0, 2⟩)
              (WalkForwardRun.testBars leakBars ⟨0, 0, 0, 2⟩)
          ∨ leakRun.TakesTrain (WalkForwardRun.trainBars leakBars ⟨0, 0, 0, 2⟩)) :=
  @WalkForwardRun.split_independent_iff leakRun leakBars 0 2 none leakSplits
    (leakRun.splitLoop leakBars none 0 leakSplits) leakSplits_built
    (by rw [WalkForwardRun.splitResults, leakSplits_built]; rfl) 0 ⟨0, 0, 0, 2⟩ _ rfl rfl

/--
The inference summary of the first test window is recorded for the second one, whose run fails.
-/
theorem inference_summary_leaks
    : ¬∀ (run : WalkForwardRun) (bars : List Bar) (trainSize testSize : ℤ) (stepSize : Option ℤ)
          (splits : List WalkForwardSplit) (records : List WalkForwardSplitResult) (k : ℕ)
          (split : WalkForwardSplit) (record : WalkForwardSplitResult),
        buildWalkforwardSplits bars trainSize testSize stepSize = some splits →
        run.splitResults bars trainSize testSize stepSize = some records →
        splits[k]? = some split → records[k]? = some record →
        record = run.isolated bars k split
          ∧ ((∃ e, run.testRun bars k split = .error e) → record.Empty)
          ∧ (run.env.Runs (run.splitSpec k split) (WalkForwardRun.testBars bars split) →
            WalkForwardRun.trainBars bars split = []
              ∨ run.env.Runs (run.trainSpec k split) (WalkForwardRun.trainBars bars split)) := by
  intro hindependent
  have hrecords : leakRun.splitResults leakBars 0 2 none
      = some (leakRun.splitLoop leakBars none 0 leakSplits) := by
    rw [WalkForwardRun.splitResults, leakSplits_built]
    rfl
  have hsecond := hindependent leakRun leakBars 0 2 none leakSplits _ 1 ⟨2, 2, 2, 4⟩ _
    leakSplits_built hrecords rfl rfl
  have hempty := (hsecond.2.1 leak_second_fails).inferenceSummary
  revert hempty
  decide +kernel

end examples

end Experiment
end Quantbot
