import Mathlib
import Quantbot.Experiment.CostRobustness
import Quantbot.Experiment.SplitIndependence

/-!
What the scan of the costs says about the aggregates, and that no run carries one.
-/

namespace Quantbot
namespace Experiment

open Inferential (StatMath)

section least

variable {α : Type} {key : α → ℚ} {p : α → Bool}

/--
The first hit in a list with rising keys has the least key.
-/
theorem isLeast_of_find? {l : List α} (hsorted : l.Pairwise (fun a b => key a ≤ key b)) {a : α}
    (h : l.find? p = some a) : IsLeast {m | ∃ b ∈ l, key b = m ∧ p b} (key a) := by
  obtain ⟨hp, before, behind, hl, hbefore⟩ := List.find?_eq_some_iff_append.mp h
  refine ⟨⟨a, List.mem_of_find?_eq_some h, rfl, hp⟩, ?_⟩
  rintro m ⟨b, hb, rfl, hpb⟩
  rw [hl, List.pairwise_append, List.pairwise_cons] at hsorted
  rw [hl, List.mem_append, List.mem_cons] at hb
  obtain hb | rfl | hb := hb
  . have hnot := hbefore b hb
    rw [hpb] at hnot
    cases hnot
  . exact le_rfl
  . exact hsorted.2.1.1 b hb

theorem find?_map_eq_some_iff {l : List α} (hsorted : l.Pairwise (fun a b => key a ≤ key b)) (m : ℚ)
    : (l.find? p).map key = some m ↔ IsLeast {m | ∃ b ∈ l, key b = m ∧ p b} m := by
  constructor
  . intro h
    obtain ⟨a, ha, rfl⟩ := Option.map_eq_some_iff.mp h
    exact isLeast_of_find? hsorted ha
  . intro h
    obtain ⟨b, hb, -, hpb⟩ := h.1
    obtain ⟨a, ha⟩ := Option.isSome_iff_exists.mp (List.find?_isSome.mpr ⟨b, hb, hpb⟩)
    rw [ha, Option.map_some, (isLeast_of_find? hsorted ha).unique h]

end least

section books

/--
The net total is the gross total less the costs, which are no gain.
-/
structure ReturnSummary.Books (returns : ReturnSummary) : Prop where
  net_eq : returns.netReturnTotal = returns.grossReturnTotal - returns.costDeductionTotal
  cost_nonneg : 0 ≤ returns.costDeductionTotal

variable {σ : Type} {strategy : Strategy σ} {bars : List Bar}

theorem computeEconomicsSummary_rates {feeBps slippageBps : ℚ} {economics : EconomicsSummary}
    (h : computeEconomicsSummary strategy bars feeBps slippageBps = .ok economics)
    : economics.feeBps = feeBps ∧ economics.slippageBps = slippageBps := by
  obtain ⟨t, -, heconomics⟩ := bind_eq_ok.mp h
  cases heconomics
  exact ⟨rfl, rfl⟩

theorem computeReturnSummary_books {economics : EconomicsSummary} {interval : Option String}
    {returns : ReturnSummary × ReturnSeries}
    (h : computeReturnSummary strategy bars economics interval = .ok returns)
    (hfee : 0 ≤ economics.feeBps) (hslippage : 0 ≤ economics.slippageBps) : returns.1.Books := by
  unfold computeReturnSummary at h
  split at h
  . cases h
    exact ⟨(sub_zero 0).symm, le_rfl⟩
  . obtain ⟨states, -, h⟩ := bind_eq_ok.mp h
    obtain ⟨r, -, h⟩ := bind_eq_ok.mp h
    cases h
    exact ⟨rfl, by positivity⟩

theorem Env.runExperiment_books {env : Env} {spec : ExperimentSpec} {window : List Bar}
    {outputDir : String} {interval : Option String} {r : ExperimentResult}
    (h : env.runExperiment spec window outputDir interval = .ok r) : r.returnSummary.Books := by
  obtain ⟨bars, -, h⟩ := bind_eq_ok.mp h
  obtain ⟨built, -, h⟩ := bind_eq_ok.mp h
  obtain ⟨signalCount, -, h⟩ := bind_eq_ok.mp h
  obtain ⟨counts, -, h⟩ := bind_eq_ok.mp h
  obtain ⟨economics, heconomics, h⟩ := bind_eq_ok.mp h
  obtain ⟨returns, hreturns, h⟩ := bind_eq_ok.mp h
  obtain ⟨inference, -, h⟩ := bind_eq_ok.mp h
  obtain ⟨written, -, h⟩ := bind_eq_ok.mp h
  cases h
  obtain ⟨hfee, hslippage⟩ := computeEconomicsSummary_rates heconomics
  exact computeReturnSummary_books hreturns (hfee ▸ spec.feeBps_nonneg)
    (hslippage ▸ spec.slippageBps_nonneg)

/--
A split reports all three of economics, returns and series, or none of them.
-/
inductive WalkForwardSplitResult.Reports (record : WalkForwardSplitResult) : Prop where
  | failed (heconomics : record.economicsSummary = none) (hreturns : record.returnSummary = none)
      (hseries : record.returnSeries = none)
  | succeeded (economics : EconomicsSummary) (returns : ReturnSummary) (series : ReturnSeries)
      (heconomics : record.economicsSummary = some economics)
      (hreturns : record.returnSummary = some returns)
      (hseries : record.returnSeries = some series) (hbooks : returns.Books)

namespace WalkForwardRun

variable (run : WalkForwardRun)

theorem reports_splitStep (bars : List Bar) (result : Option ExperimentResult) (idx : ℕ)
    (split : WalkForwardSplit) : (run.splitStep bars result idx split).1.Reports := by
  unfold splitStep
  cases hrun : run.testRun bars idx split with
  | ok r => exact .succeeded _ _ _ rfl rfl rfl (Env.runExperiment_books hrun)
  | error e => exact .failed rfl rfl rfl

theorem reports_splitLoop (bars : List Bar) (splits : List WalkForwardSplit)
    (result : Option ExperimentResult) (idx : ℕ)
    : ∀ record ∈ run.splitLoop bars result idx splits, record.Reports := by
  induction splits generalizing result idx with
  | nil => exact List.forall_mem_nil _
  | cons split splits ih =>
    refine List.forall_mem_cons.mpr ⟨run.reports_splitStep bars result idx split, ?_⟩
    exact ih _ _

end WalkForwardRun

end books

section aggregates

namespace WalkForwardExperimentResult

variable {self : WalkForwardExperimentResult}

/--
Where a split reports returns, all aggregates are there, and the books of the splits add up.
-/
theorem aggregates_some (hreports : ∀ record ∈ self.splits, record.Reports)
    (hsucceeded : ∃ record ∈ self.splits, record.returnSummary.isSome)
    : (∃ economics, self.aggregateEconomicsSummary = some economics)
        ∧ (∃ returns, self.aggregateReturnSummary = some returns ∧ returns.Books)
        ∧ (∃ combined, self.buildCombinedReturnSeries = some combined) := by
  obtain ⟨record, hmem, hsome⟩ := hsucceeded
  cases hreports record hmem with
  | failed _ hreturns _ =>
    rw [hreturns] at hsome
    cases hsome
  | succeeded economics returns series heconomics hreturns hseries hbooks =>
    have hmemEconomics := List.mem_filterMap.mpr ⟨record, hmem, heconomics⟩
    have hmemReturns := List.mem_filterMap.mpr ⟨record, hmem, hreturns⟩
    have hmemSeries := List.mem_filterMap.mpr ⟨record, hmem, hseries⟩
    refine ⟨?_, ?_, ?_⟩
    . unfold aggregateEconomicsSummary
      split
      . next hnil =>
        rw [hnil] at hmemEconomics
        cases hmemEconomics
      . exact ⟨_, rfl⟩
    . have hall : ∀ returns ∈ self.splits.filterMap WalkForwardSplitResult.returnSummary,
          returns.Books := by
        intro returns' hmem'
        obtain ⟨record', hrecord', hreturns'⟩ := List.mem_filterMap.mp hmem'
        cases hreports record' hrecord' with
        | failed _ hnone _ =>
          rw [hnone] at hreturns'
          cases hreturns'
        | succeeded _ _ _ _ heq _ hbooks' =>
          rw [heq] at hreturns'
          cases hreturns'
          exact hbooks'
      unfold aggregateReturnSummary
      split
      . next hnil =>
        rw [hnil] at hmemReturns
        cases hmemReturns
      . refine ⟨_, rfl, ?_, ?_⟩
        . dsimp only
          rw [eq_sub_iff_add_eq, ← List.sum_map_add]
          refine congrArg List.sum (List.map_congr_left fun returns' hmem' => ?_)
          exact eq_sub_iff_add_eq.mp (hall returns' hmem').net_eq
        . refine List.sum_nonneg fun cost hcost => ?_
          obtain ⟨returns', hmem', rfl⟩ := List.mem_map.mp hcost
          exact (hall returns' hmem').cost_nonneg
    . unfold buildCombinedReturnSeries
      split
      . next hnil =>
        rw [hnil] at hmemSeries
        cases hmemSeries
      . exact ⟨_, rfl⟩

end WalkForwardExperimentResult

end aggregates

section level

variable {env : ScanEnv}

theorem stressedReturns_one (grossReturns netReturns : List ℚ)
    : stressedReturns 1 grossReturns netReturns = netReturns := by
  rw [stressedReturns]
  conv_rhs => rw [← List.zipIdx_map_fst 0 netReturns]
  refine List.map_congr_left fun entry _ => ?_
  dsimp only
  split
  . ring
  . next hflat =>
    push Not at hflat
    exact hflat.2.symm

/--
There is a cost to stress: the deduction is positive, and some bar was held to carry it.
-/
def Charged (returns : ReturnSummary) : Prop :=
  0 < returns.costDeductionTotal ∧ 0 < returns.barsHeld

theorem perBarCost_pos_iff (returns : ReturnSummary)
    : 0 < (if 0 < returns.barsHeld then returns.costDeductionTotal / returns.barsHeld else 0)
        ↔ Charged returns := by
  unfold Charged
  split
  . next hheld =>
    have hheld' : (0 : ℚ) < returns.barsHeld := by exact_mod_cast hheld
    rw [and_iff_left hheld, div_pos_iff_of_pos_right hheld']
  . next hnone =>
    exact iff_of_false (lt_irrefl 0) fun h => hnone h.2

/--
The Sharpe value of a level is that of the stressed series.
-/
theorem stressedInference_sharpe {trialCount : ℤ} {combined : ReturnSeries} {multiplier : ℚ}
    {inference : StressedInference}
    (h : stressedInference env trialCount combined multiplier = .ok inference)
    : ∃ summary, computeInferenceSummary env.math env.literals
            { combined with
              netReturns := stressedReturns multiplier combined.grossReturns combined.netReturns }
          = .ok summary
        ∧ inference.sharpe = summary.sharpeLike := by
  obtain ⟨summary, hsummary, h⟩ := bind_eq_ok.mp h
  refine ⟨summary, hsummary, ?_⟩
  dsimp only at h
  split at h
  . next hnone =>
    cases h
    exact hnone.symm
  . next sharpe hsome =>
    split at h
    . cases h
      exact hsome.symm
    . cases h
      exact hsome.symm

/--
What a level reports, for a combined series.
-/
theorem stressLevel_ok {trialCount : ℤ} {baselineCostBps : ℚ} {returns : ReturnSummary}
    {combined : ReturnSeries} {multiplier : ℚ} {level : CostRobustnessLevel}
    (h : stressLevel env trialCount baselineCostBps returns (some combined) multiplier = .ok level)
    : level.stressMultiplier = multiplier
        ∧ level.stressedNetReturnTotal
          = returns.grossReturnTotal - returns.costDeductionTotal * multiplier
        ∧ (Charged returns → ∃ summary, computeInferenceSummary env.math env.literals
              { combined with
                netReturns := stressedReturns multiplier combined.grossReturns combined.netReturns }
            = .ok summary
          ∧ level.stressedSharpeLike = summary.sharpeLike)
        ∧ (¬ Charged returns → level.stressedSharpeLike = none) := by
  obtain ⟨inference, hinference, h⟩ := bind_eq_ok.mp h
  rw [levelInference] at hinference
  cases h
  refine ⟨rfl, rfl, ?_, ?_⟩
  . intro hcharged
    rw [if_pos ((perBarCost_pos_iff returns).mpr hcharged)] at hinference
    exact stressedInference_sharpe hinference
  . intro hfree
    rw [if_neg (mt (perBarCost_pos_iff returns).mp hfree)] at hinference
    cases hinference
    rfl

end level

section scan

/--
The scan agrees with the aggregates at its unit level, and reads the break-even off its levels.
-/
structure ScanFaithful (env : ScanEnv) (result : WalkForwardExperimentResult)
    (summary : CostRobustnessSummary) : Prop where
  unit_net : ∃ level ∈ summary.results, level.stressMultiplier = 1
    ∧ result.aggregateReturnSummary.map ReturnSummary.netReturnTotal
      = some level.stressedNetReturnTotal
  unit_sharpe : ∀ level ∈ summary.results, level.stressMultiplier = 1 →
    ∃ inference, result.aggregateInferenceSummary env.math env.literals = .ok (some inference)
      ∧ level.stressedSharpeLike = inference.sharpeLike
  antitone : ∀ level ∈ summary.results, ∀ level' ∈ summary.results,
    level.stressMultiplier ≤ level'.stressMultiplier →
    level'.stressedNetReturnTotal ≤ level.stressedNetReturnTotal
  breakEven : ∀ multiplier, summary.breakEvenCostMultiplier = some multiplier
    ↔ IsLeast {m | ∃ level ∈ summary.results, level.stressMultiplier = m
        ∧ level.stressedNetReturnTotal ≤ 0} multiplier

theorem bind_some_eq_map {ε α : Type} (x : Except ε α)
    : (x >>= fun a => .ok (some a)) = x.map some := by
  cases x with
  | ok a => rfl
  | error e => rfl

/--
The summary reads no timestamps.
-/
theorem aggregateInferenceSummary_of_combined {result : WalkForwardExperimentResult}
    {combined : ReturnSeries} (h : result.buildCombinedReturnSeries = some combined)
    (math : FloatMath) (literals : Sqlite.Literals)
    : result.aggregateInferenceSummary math literals
        = (computeInferenceSummary math literals combined).map some := by
  unfold WalkForwardExperimentResult.buildCombinedReturnSeries at h
  unfold WalkForwardExperimentResult.aggregateInferenceSummary
  split at h
  . cases h
  . next series hne =>
    cases h
    exact bind_some_eq_map (computeInferenceSummary math literals _)

/--
The levels of a scan, one for each multiplier.
-/
theorem computeCostRobustness_levels {env : ScanEnv} {result : WalkForwardExperimentResult}
    {frankenBps threshold : Option ℚ} {summary : CostRobustnessSummary}
    (h : computeCostRobustness env result frankenBps threshold = .ok summary)
    {economics : EconomicsSummary} (heconomics : result.aggregateEconomicsSummary = some economics)
    {returns : ReturnSummary} (hreturns : result.aggregateReturnSummary = some returns)
    : List.Forall₂
          (fun multiplier level => stressLevel env result.trialCount economics.assumedTotalCostBps
            returns result.buildCombinedReturnSeries multiplier = .ok level)
          costStressMultipliers summary.results
        ∧ summary.breakEvenCostMultiplier
          = (summary.results.find? (fun level => level.stressedNetReturnTotal ≤ 0)).map
            CostRobustnessLevel.stressMultiplier := by
  unfold computeCostRobustness at h
  rw [heconomics, hreturns] at h
  obtain ⟨levels, hlevels, h⟩ := bind_eq_ok.mp h
  cases h
  exact ⟨mapM_eq_ok hlevels, rfl⟩

variable {env : ScanEnv} {result : WalkForwardExperimentResult} {frankenBps threshold : Option ℚ}
  {summary : CostRobustnessSummary}

theorem map_some_eq_ok {ε α : Type} {x : Except ε α} {a : α} (h : x.map some = .ok (some a))
    : x = .ok a := by
  cases x with
  | ok b =>
    cases h
    rfl
  | error e => cases h

theorem exists_some_of_map_some {ε α : Type} {x : Except ε α} {a : Option α}
    (h : x.map some = .ok a) : ∃ b, a = some b := by
  cases x with
  | ok b =>
    cases h
    exact ⟨b, rfl⟩
  | error e => cases h

/--
The break-even is the least of the levels that earn nothing, because the multipliers rise.
-/
theorem breakEven_isLeast
    (hmultipliers : summary.results.map CostRobustnessLevel.stressMultiplier = costStressMultipliers)
    (hbreakEven : summary.breakEvenCostMultiplier
      = (summary.results.find? (fun level => level.stressedNetReturnTotal ≤ 0)).map
        CostRobustnessLevel.stressMultiplier) (multiplier : ℚ)
    : summary.breakEvenCostMultiplier = some multiplier
        ↔ IsLeast {m | ∃ level ∈ summary.results, level.stressMultiplier = m
            ∧ level.stressedNetReturnTotal ≤ 0} multiplier := by
  have hsorted : summary.results.Pairwise
      (fun level level' => level.stressMultiplier ≤ level'.stressMultiplier) := by
    rw [← List.pairwise_map (f := CostRobustnessLevel.stressMultiplier), hmultipliers]
    decide +kernel
  have hiff := find?_map_eq_some_iff (p := fun level => level.stressedNetReturnTotal ≤ 0) hsorted
    multiplier
  simp only [decide_eq_true_eq] at hiff
  rw [hbreakEven]
  exact hiff

/--
The scan of splits that report their books is faithful exactly when there is a cost to stress or the
aggregate has no Sharpe value either.
-/
theorem scanFaithful_iff (hreports : ∀ record ∈ result.splits, record.Reports)
    (hsucceeded : ∃ record ∈ result.splits, record.returnSummary.isSome)
    (h : computeCostRobustness env result frankenBps threshold = .ok summary)
    {inference : InferenceSummary}
    (hinference : result.aggregateInferenceSummary env.math env.literals = .ok (some inference))
    : ScanFaithful env result summary
        ↔ inference.sharpeLike = none
          ∨ ∃ returns, result.aggregateReturnSummary = some returns ∧ Charged returns := by
  obtain ⟨⟨economics, heconomics⟩, ⟨returns, hreturns, hbooks⟩, combined, hcombined⟩ :=
    WalkForwardExperimentResult.aggregates_some hreports hsucceeded
  obtain ⟨hlevels, hbreakEven⟩ := computeCostRobustness_levels h heconomics hreturns
  rw [hcombined] at hlevels
  have hmultipliers : summary.results.map CostRobustnessLevel.stressMultiplier
      = costStressMultipliers := by
    rw [forall₂_map_eq id _ hlevels fun _ _ hlevel => (stressLevel_ok hlevel).1.symm, List.map_id]
  have hcombinedInference := hinference
  rw [aggregateInferenceSummary_of_combined hcombined] at hcombinedInference
  -- the unit level stresses nothing, so its statistics are those of the combined series
  have hunit : ∀ level, stressLevel env result.trialCount economics.assumedTotalCostBps returns
      (some combined) 1 = .ok level →
      level.stressedNetReturnTotal = returns.netReturnTotal
        ∧ (Charged returns → level.stressedSharpeLike = inference.sharpeLike)
        ∧ (¬ Charged returns → level.stressedSharpeLike = none) := by
    intro level hlevel
    obtain ⟨-, hnet, hcharged, hfree⟩ := stressLevel_ok hlevel
    refine ⟨?_, ?_, hfree⟩
    . rw [hnet, hbooks.net_eq, mul_one]
    . intro hcharge
      obtain ⟨summary', hsummary', hsharpe⟩ := hcharged hcharge
      rw [stressedReturns_one] at hsummary'
      have heq := hsummary'.symm.trans (map_some_eq_ok hcombinedInference)
      cases heq
      exact hsharpe
  have hsharpe : ∀ level ∈ summary.results, level.stressMultiplier = 1 →
      stressLevel env result.trialCount economics.assumedTotalCostBps returns (some combined) 1
        = .ok level := by
    intro level hmem hone
    obtain ⟨multiplier, -, hlevel⟩ := forall₂_mem_right hlevels hmem
    rw [(stressLevel_ok hlevel).1] at hone
    rw [← hone]
    exact hlevel
  obtain ⟨unit, hmem, hlevel⟩ := forall₂_mem_right hlevels.flip
    (show (1 : ℚ) ∈ costStressMultipliers by decide +kernel)
  constructor
  . intro hfaithful
    by_cases hcharge : Charged returns
    . exact .inr ⟨returns, hreturns, hcharge⟩
    . obtain ⟨inference', hinference', heq⟩ :=
        hfaithful.unit_sharpe unit hmem (stressLevel_ok hlevel).1
      rw [hinference] at hinference'
      cases hinference'
      exact .inl (heq.symm.trans ((hunit unit hlevel).2.2 hcharge))
  . intro hcondition
    constructor
    . refine ⟨unit, hmem, (stressLevel_ok hlevel).1, ?_⟩
      rw [hreturns, Option.map_some, (hunit unit hlevel).1]
    . intro level hmem' hone
      refine ⟨inference, hinference, ?_⟩
      obtain ⟨-, hcharged, hfree⟩ := hunit level (hsharpe level hmem' hone)
      by_cases hcharge : Charged returns
      . exact hcharged hcharge
      . rw [hfree hcharge]
        refine (hcondition.resolve_right fun hreturns' => ?_).symm
        obtain ⟨returns', heq, hcharge'⟩ := hreturns'
        rw [hreturns] at heq
        cases heq
        exact hcharge hcharge'
    . intro level hlevelMem level' hlevelMem' hle
      obtain ⟨multiplier, -, hstress⟩ := forall₂_mem_right hlevels hlevelMem
      obtain ⟨multiplier', -, hstress'⟩ := forall₂_mem_right hlevels hlevelMem'
      obtain ⟨hm, hnet, -, -⟩ := stressLevel_ok hstress
      obtain ⟨hm', hnet', -, -⟩ := stressLevel_ok hstress'
      rw [hm, hm'] at hle
      rw [hnet, hnet']
      exact sub_le_sub_left (mul_le_mul_of_nonneg_left hle hbooks.cost_nonneg) _
    . exact breakEven_isLeast hmultipliers hbreakEven

end scan

section run

namespace WalkForwardRun

variable {run : WalkForwardRun} {stat : StatMath ℚ}
  {writeJson : WalkForwardExperimentResult → Except PyError Unit} {bars : List Bar}
  {trainSize testSize : ℤ} {stepSize : Option ℤ} {result : WalkForwardExperimentResult}

/--
Nothing fills the return series of a result, so the scan is never reached.
-/
theorem attach_ok {splits : List WalkForwardSplitResult}
    (h : run.attach stat (run.resultOf splits) = .ok result)
    : result.splits = splits ∧ result.robustnessSummary = none
        ∧ result.returnSummary = result.aggregateReturnSummary
        ∧ result.aggregateInferenceSummary run.env.math run.env.literals
          = .ok result.inferenceSummary := by
  obtain ⟨inference, hinference, h⟩ := bind_eq_ok.mp h
  cases h
  exact ⟨rfl, rfl, rfl, hinference⟩

/--
The splits of a result are the records of the split loop, and it has no summary of its costs.
-/
theorem runWalkforwardExperiment_ok
    (h : run.runWalkforwardExperiment stat writeJson bars trainSize testSize stepSize
      = some (.ok result))
    : ∃ splits, run.splitResults bars trainSize testSize stepSize = some splits
        ∧ result.splits = splits ∧ result.robustnessSummary = none
        ∧ (splits ≠ [] → result.returnSummary = result.aggregateReturnSummary
          ∧ result.aggregateInferenceSummary run.env.math run.env.literals
            = .ok result.inferenceSummary) := by
  obtain ⟨splits, hsplits, h⟩ := Option.map_eq_some_iff.mp h
  refine ⟨splits, hsplits, ?_⟩
  split at h
  . next hempty =>
    cases h
    rw [List.isEmpty_iff] at hempty
    exact ⟨hempty.symm, rfl, fun hne => absurd hempty hne⟩
  . obtain ⟨attached, hattached, h⟩ := bind_eq_ok.mp h
    obtain ⟨written, -, h⟩ := bind_eq_ok.mp h
    cases h
    obtain ⟨heq, hnone, hattached⟩ := attach_ok hattached
    exact ⟨heq, hnone, fun _ => hattached⟩

/--
A split whose test run succeeds reports its returns.
-/
theorem exists_reported {splits : List WalkForwardSplit} {records : List WalkForwardSplitResult}
    (hsplits : buildWalkforwardSplits bars trainSize testSize stepSize = some splits)
    (hrecords : run.splitResults bars trainSize testSize stepSize = some records) {k : ℕ}
    {split : WalkForwardSplit} (hsplit : splits[k]? = some split) {r : ExperimentResult}
    (hrun : run.testRun bars k split = .ok r)
    : (∀ record ∈ records, record.Reports)
        ∧ ∃ record ∈ records, record.returnSummary.isSome := by
  rw [splitResults, hsplits, Option.map_some, Option.some.injEq] at hrecords
  rw [← hrecords]
  refine ⟨run.reports_splitLoop bars splits none 0, ?_⟩
  have hrecord := run.getElem?_splitLoop bars none 0 splits k
  rw [hsplit, Option.map_some, Nat.zero_add] at hrecord
  refine ⟨_, List.mem_of_getElem? hrecord, ?_⟩
  unfold splitStep
  rw [hrun]
  rfl

/--
A run with a split that succeeded has its aggregates, and still no summary of its costs that could be
faithful to them.
-/
theorem robustness_never_attached {splits : List WalkForwardSplit}
    (hresult : run.runWalkforwardExperiment stat writeJson bars trainSize testSize stepSize
      = some (.ok result))
    (hsplits : buildWalkforwardSplits bars trainSize testSize stepSize = some splits) {k : ℕ}
    {split : WalkForwardSplit} (hsplit : splits[k]? = some split) {r : ExperimentResult}
    (hrun : run.testRun bars k split = .ok r)
    : (∃ returns, result.returnSummary = some returns ∧ returns.Books)
        ∧ ¬ ∃ summary, result.robustnessSummary = some summary
            ∧ ScanFaithful (run.scanEnv stat) result summary := by
  obtain ⟨records, hrecords, heq, hnone, hattached⟩ := runWalkforwardExperiment_ok hresult
  obtain ⟨hreports, record, hmem, hsome⟩ := exists_reported hsplits hrecords hsplit hrun
  constructor
  . rw [(hattached (List.ne_nil_of_mem hmem)).1]
    rw [← heq] at hreports hmem
    exact (WalkForwardExperimentResult.aggregates_some hreports ⟨record, hmem, hsome⟩).2.1
  . rintro ⟨summary, hsummary, -⟩
    rw [hnone] at hsummary
    cases hsummary

/--
What the scan would say of a run, if it were reached.
-/
theorem scan_of_run_iff {splits : List WalkForwardSplit}
    (hresult : run.runWalkforwardExperiment stat writeJson bars trainSize testSize stepSize
      = some (.ok result))
    (hsplits : buildWalkforwardSplits bars trainSize testSize stepSize = some splits) {k : ℕ}
    {split : WalkForwardSplit} (hsplit : splits[k]? = some split) {r : ExperimentResult}
    (hrun : run.testRun bars k split = .ok r) {frankenBps threshold : Option ℚ}
    {summary : CostRobustnessSummary}
    (h : computeCostRobustness (run.scanEnv stat) result frankenBps threshold = .ok summary)
    : ScanFaithful (run.scanEnv stat) result summary
        ↔ (∃ inference, result.inferenceSummary = some inference ∧ inference.sharpeLike = none)
          ∨ ∃ returns, result.returnSummary = some returns ∧ Charged returns := by
  obtain ⟨records, hrecords, heq, -, hattached⟩ := runWalkforwardExperiment_ok hresult
  obtain ⟨hreports, record, hmem, hsome⟩ := exists_reported hsplits hrecords hsplit hrun
  obtain ⟨hreturns, haggregate⟩ := hattached (List.ne_nil_of_mem hmem)
  rw [← heq] at hreports hmem
  obtain ⟨-, -, combined, hcombined⟩ :=
    WalkForwardExperimentResult.aggregates_some hreports ⟨record, hmem, hsome⟩
  obtain ⟨inference, hinference⟩ : ∃ inference, result.inferenceSummary = some inference := by
    rw [aggregateInferenceSummary_of_combined hcombined] at haggregate
    exact exists_some_of_map_some haggregate
  rw [hinference] at haggregate
  rw [scanFaithful_iff hreports ⟨record, hmem, hsome⟩ h haggregate, hreturns, hinference]
  simp only [Option.some.injEq, exists_eq_left']

end WalkForwardRun

section examples

def noStat : StatMath ℚ where
  sqrt := id
  log := id
  erf := id
  fixed := fun _ _ => ""

theorem leakRun_result
    : ∃ result, leakRun.runWalkforwardExperiment noStat (fun _ => .ok ()) leakBars 0 2 none
        = some (.ok result) := by
  have hsome : ((leakRun.runWalkforwardExperiment noStat (fun _ => .ok ()) leakBars 0 2 none).bind
      Except.toOption).isSome := by
    decide +kernel
  cases hrun : leakRun.runWalkforwardExperiment noStat (fun _ => .ok ()) leakBars 0 2 none with
  | none =>
    rw [hrun] at hsome
    cases hsome
  | some attempt =>
    cases attempt with
    | ok result => exact ⟨result, rfl⟩
    | error e =>
      rw [hrun] at hsome
      cases hsome

theorem leak_first_succeeds : ∃ r, leakRun.testRun leakBars 0 ⟨0, 0, 0, 2⟩ = .ok r := by
  have hsome : (leakRun.testRun leakBars 0 ⟨0, 0, 0, 2⟩).toOption.any (fun _ => true) := by
    decide +kernel
  obtain ⟨r, hr, -⟩ := exists_ok_of_any hsome
  exact ⟨r, hr⟩

/--
The first split of the run succeeds, the second one fails.
-/
theorem robustness_never_attached_leak
    : ∃ result, leakRun.runWalkforwardExperiment noStat (fun _ => .ok ()) leakBars 0 2 none
          = some (.ok result)
        ∧ (∃ returns, result.returnSummary = some returns ∧ returns.Books)
        ∧ ¬ ∃ summary, result.robustnessSummary = some summary
            ∧ ScanFaithful (leakRun.scanEnv noStat) result summary := by
  obtain ⟨result, hresult⟩ := leakRun_result
  obtain ⟨r, hr⟩ := leak_first_succeeds
  exact ⟨result, hresult,
    WalkForwardRun.robustness_never_attached hresult leakSplits_built (k := 0) rfl hr⟩

theorem no_robustness_summary
    : ¬ ∀ (run : WalkForwardRun) (stat : StatMath ℚ)
          (writeJson : WalkForwardExperimentResult → Except PyError Unit) (bars : List Bar)
          (trainSize testSize : ℤ) (stepSize : Option ℤ) (result : WalkForwardExperimentResult)
          (splits : List WalkForwardSplit) (k : ℕ) (split : WalkForwardSplit) (r : ExperimentResult),
        run.runWalkforwardExperiment stat writeJson bars trainSize testSize stepSize
          = some (.ok result) →
        buildWalkforwardSplits bars trainSize testSize stepSize = some splits →
        splits[k]? = some split → run.testRun bars k split = .ok r →
        ∃ summary, result.robustnessSummary = some summary
          ∧ ScanFaithful (run.scanEnv stat) result summary := by
  intro h
  obtain ⟨result, hresult⟩ := leakRun_result
  obtain ⟨r, hr⟩ := leak_first_succeeds
  obtain ⟨summary, hsummary, -⟩ := h leakRun noStat _ leakBars 0 2 none result leakSplits 0
    ⟨0, 0, 0, 2⟩ r hresult leakSplits_built rfl hr
  obtain ⟨splits, -, -, hnone, -⟩ := WalkForwardRun.runWalkforwardExperiment_ok hresult
  rw [hnone] at hsummary
  cases hsummary

end examples

end run

end Experiment
end Quantbot
