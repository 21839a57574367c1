import Mathlib.Algebra.Order.BigOperators.Group.List
import Mathlib.Algebra.Order.Field.Rat
import Mathlib.Order.Bounds.Basic
import Mathlib.Tactic.Linarith
import Mathlib.Tactic.Positivity
import Quantbot.H001.Engine

/-!
The exceedance counts of a whole run, and the p-values that come from them.
-/

namespace Quantbot
namespace H001

variable {K : Type} [AddGroup K] [LinearOrder K]

section maximum

theorem le_foldl_absmax (values : List K) (m : K)
    : m ≤ values.foldl (fun m value => if m < |value| then |value| else m) m := by
  induction values generalizing m with
  | nil => exact le_rfl
  | cons value values ih =>
    rw [List.foldl_cons]
    refine le_trans ?_ (ih _)
    split
    . next h => exact h.le
    . exact le_rfl

theorem foldl_absmax_isGreatest (values : List K) (m : K)
    : IsGreatest {a | a = m ∨ ∃ value ∈ values, a = |value|}
        (values.foldl (fun m value => if m < |value| then |value| else m) m) := by
  induction values generalizing m with
  | nil =>
    refine ⟨.inl rfl, ?_⟩
    rintro a (rfl | ⟨value, hvalue, -⟩)
    . exact le_rfl
    . cases hvalue
  | cons value values ih =>
    rw [List.foldl_cons]
    obtain ⟨hmem, hbound⟩ := ih (if m < |value| then |value| else m)
    constructor
    . obtain hstart | ⟨v, hv, heq⟩ := hmem
      . rw [hstart]
        split
        . exact .inr ⟨value, List.mem_cons_self, rfl⟩
        . exact .inl rfl
      . exact .inr ⟨v, List.mem_cons_of_mem _ hv, heq⟩
    . have hstart := le_foldl_absmax values (if m < |value| then |value| else m)
      rintro a (rfl | ⟨v, hv, rfl⟩)
      . refine le_trans ?_ hstart
        split
        . next h => exact h.le
        . exact le_rfl
      . obtain rfl | hv := List.mem_cons.mp hv
        . refine le_trans ?_ hstart
          split
          . exact le_rfl
          . next h => exact not_lt.mp h
        . exact hbound (.inr ⟨v, hv, rfl⟩)

/--
The running maximum starts at zero, and ends at the largest absolute value.
-/
theorem absmax_isGreatest (values : List K)
    : IsGreatest {a | a = 0 ∨ ∃ value ∈ values, a = |value|} (absmax values) :=
  foldl_absmax_isGreatest values 0

end maximum

section counts

/--
How many of the replications have a maximum that reaches a bound.
-/
def reaching (replications : List (List K)) (bound : K) : ℕ :=
  replications.countP (fun tstar => bound ≤ absmax tstar)

/--
`update_exceedance_counts` over all replications, from counts.
-/
def foldCounts (observedAbsT : List K) (counts : List ℕ) (replications : List (List K))
    : Except EngineError (List ℕ) :=
  replications.foldlM (fun counts tstar => updateExceedanceCounts counts observedAbsT tstar) counts

omit [AddGroup K] in
theorem exceed_map (bound : K) (f : K → ℕ) (observed : List K)
    : exceed bound (observed.map f) observed
        = .ok (observed.map (fun t => f t + if t ≤ bound then 1 else 0)) := by
  induction observed with
  | nil => rfl
  | cons t observed ih =>
    rw [List.map_cons, exceed, ih, ok_bind, List.map_cons]
    split
    . rfl
    . rfl

theorem foldCounts_map (observed : List K) (f : K → ℕ) (replications : List (List K))
    : foldCounts observed (observed.map f) replications
        = .ok (observed.map (fun t => f t + reaching replications t)) := by
  induction replications generalizing f with
  | nil => rfl
  | cons tstar replications ih =>
    rw [foldCounts, List.foldlM_cons, updateExceedanceCounts, exceed_map, ok_bind, ← foldCounts, ih]
    congr 1
    refine List.map_congr_left fun t _ => ?_
    rw [reaching, reaching, List.countP_cons]
    simp only [decide_eq_true_eq]
    omega

theorem foldCounts_zero (observed : List K) (replications : List (List K))
    : foldCounts observed (List.replicate observed.length 0) replications
        = .ok (observed.map (reaching replications)) := by
  rw [← List.map_const', foldCounts_map]
  simp only [Nat.zero_add]

theorem reaching_antitone (replications : List (List K)) {a b : K} (h : a ≤ b)
    : reaching replications b ≤ reaching replications a := by
  refine List.countP_mono_left fun tstar _ hb => ?_
  exact decide_eq_true (h.trans (of_decide_eq_true hb))

theorem reaching_perm {replications replications' : List (List K)}
    (h : replications.Perm replications') (bound : K)
    : reaching replications bound = reaching replications' bound :=
  h.countP_eq _

end counts

section pvalues

def ExactPvalue.value (p : ExactPvalue) : ℚ :=
  p.numerator / p.denominator

/--
The p-value of a count.
-/
def exactPvalue (count totalBootstrapReplications : ℕ) : ExactPvalue where
  numerator := 1 + count
  denominator := totalBootstrapReplications + 1
  reject := decide ((1 + count) * alphaDenominator ≤ (totalBootstrapReplications + 1) * alphaNumerator)

theorem finalizeExactPvalues_eq (counts : List ℕ) (total : ℕ)
    : finalizeExactPvalues counts total = counts.map (fun count => exactPvalue count total) := by
  rfl

/--
The comparison of the cross products is that of the fractions.
-/
theorem reject_iff (count total : ℕ)
    : (exactPvalue count total).reject = true
        ↔ (exactPvalue count total).value ≤ alphaNumerator / alphaDenominator := by
  have htotal : (0 : ℚ) < (total + 1 : ℕ) := by positivity
  have halpha : (0 : ℚ) < alphaDenominator := by
    rw [alphaDenominator]
    norm_num
  rw [exactPvalue, ExactPvalue.value, decide_eq_true_eq, div_le_div_iff₀ htotal halpha,
    mul_comm (alphaNumerator : ℚ)]
  exact_mod_cast Iff.rfl

theorem value_mono {count count' : ℕ} (h : count ≤ count') (total : ℕ)
    : (exactPvalue count total).value ≤ (exactPvalue count' total).value := by
  have hcount : (((1 + count : ℕ) : ℚ)) ≤ ((1 + count' : ℕ) : ℚ) := by exact_mod_cast by omega
  exact div_le_div_of_nonneg_right hcount (by positivity)

/--
A run over all replications, from counts of zero, and its p-values.
-/
def maxTPvalues (t : List K) (replications : List (List K)) : Except EngineError (List ExactPvalue) := do
  let counts ← foldCounts (t.map (|·|)) (List.replicate t.length 0) replications
  .ok (finalizeExactPvalues counts replications.length)

/--
The p-value of a statistic in a run.
-/
def pvalueOf (replications : List (List K)) (t : K) : ExactPvalue :=
  exactPvalue (reaching replications |t|) replications.length

/--
A run counts for every statistic the replications whose maximum reaches it, in whichever order they
come, and its p-values fall as the statistics grow in absolute value.
-/
theorem maxT_pvalues (t : List K) (replications : List (List K))
    : foldCounts (t.map (|·|)) (List.replicate t.length 0) replications
          = .ok (t.map (fun v => replications.countP (fun tstar => |v| ≤ absmax tstar)))
      ∧ (∀ tstar : List K, IsGreatest {a | a = 0 ∨ ∃ value ∈ tstar, a = |value|} (absmax tstar))
      ∧ (∀ replications', replications.Perm replications' →
          foldCounts (t.map (|·|)) (List.replicate t.length 0) replications'
            = foldCounts (t.map (|·|)) (List.replicate t.length 0) replications)
      ∧ maxTPvalues t replications = .ok (t.map (pvalueOf replications))
      ∧ (∀ v ∈ t, (pvalueOf replications v).value
            = (1 + replications.countP (fun tstar => |v| ≤ absmax tstar)) / (replications.length + 1)
          ∧ ((pvalueOf replications v).reject = true
            ↔ (pvalueOf replications v).value ≤ alphaNumerator / alphaDenominator))
      ∧ ∀ v ∈ t, ∀ w ∈ t, |v| ≤ |w| →
          (pvalueOf replications w).value ≤ (pvalueOf replications v).value
            ∧ ((pvalueOf replications v).reject = true → (pvalueOf replications w).reject = true) := by
  have hcounts (replications : List (List K))
      : foldCounts (t.map (|·|)) (List.replicate t.length 0) replications
          = .ok (t.map (fun v => reaching replications |v|)) := by
    have hzero := foldCounts_zero (t.map (|·|)) replications
    rw [List.length_map, List.map_map] at hzero
    exact hzero
  refine ⟨hcounts replications, absmax_isGreatest, ?_, ?_, ?_, ?_⟩
  . intro replications' hperm
    rw [hcounts, hcounts]
    congr 1
    exact List.map_congr_left fun v _ => (reaching_perm hperm _).symm
  . rw [maxTPvalues, hcounts, ok_bind, finalizeExactPvalues_eq, List.map_map]
    rfl
  . intro v _
    refine ⟨?_, reject_iff _ _⟩
    rw [pvalueOf, exactPvalue, ExactPvalue.value, reaching]
    push_cast
    rfl
  . intro v _ w _ hvw
    have hvalue := value_mono (reaching_antitone replications hvw) replications.length
    refine ⟨hvalue, fun hreject => ?_⟩
    rw [pvalueOf, reject_iff] at hreject ⊢
    exact hvalue.trans hreject

end pvalues

end H001
end Quantbot
