import Mathlib
import Quantbot.Experiment.Inferential

/-!
What the corrected Sharpe statistics do over the reals when the Sharpe value, the number of trials
or the length of the track record grows.
-/

namespace Quantbot
namespace Experiment
namespace Inferential

section reals

variable (erf : ℝ → ℝ) (fixed : ℕ → ℝ → String)

noncomputable def realMath : StatMath ℝ where
  sqrt := Real.sqrt
  log := Real.log
  erf
  fixed

/--
A normal distribution function, as far as the laws need it.
-/
structure NormalLike (math : StatMath ℝ) : Prop where
  strictMono : StrictMono (normCdf math)
  half : normCdf math 0 = 1 / 2

noncomputable def trialsWeight (t : ℤ) : ℝ :=
  Real.sqrt (t - 1)

/--
The expected maximum of the trials, for a track record of one bar.
-/
noncomputable def trialsMax (t : ℤ) : ℝ :=
  Real.sqrt (Real.log t + Real.log t)

/--
The deflated ratio before the clamp.
-/
noncomputable def deflated (sharpe : ℝ) (t n : ℤ) : ℝ :=
  (Real.sqrt n * sharpe - trialsMax t) * trialsWeight t

theorem trialsMax_eq (t : ℤ) : trialsMax t = Real.sqrt (2 * Real.log t) := by
  rw [trialsMax, two_mul]

theorem trialsMax_mono {t t' : ℤ} (ht : 2 ≤ t) (htt' : t ≤ t') : trialsMax t ≤ trialsMax t' := by
  have hpos : (0 : ℝ) < t := by exact_mod_cast (by omega : 0 < t)
  have hle : (t : ℝ) ≤ t' := by exact_mod_cast htt'
  exact Real.sqrt_le_sqrt (add_le_add (Real.log_le_log hpos hle) (Real.log_le_log hpos hle))

theorem trialsWeight_mono {t t' : ℤ} (htt' : t ≤ t') : trialsWeight t ≤ trialsWeight t' := by
  have hle : (t : ℝ) ≤ t' := by exact_mod_cast htt'
  exact Real.sqrt_le_sqrt (sub_le_sub_right hle 1)

theorem trialsWeight_pos {t : ℤ} (ht : 2 ≤ t) : 0 < trialsWeight t := by
  have hone : (1 : ℝ) < t := by exact_mod_cast (by omega : 1 < t)
  exact Real.sqrt_pos.mpr (sub_pos.mpr hone)

/--
The clamp is at work only below the expected maximum, so it cuts the deflated ratio everywhere.
-/
theorem computeDsr_real {t n : ℤ} (ht : 2 ≤ t) (hn : 3 ≤ n) (sharpe : ℝ)
    : (computeDsr (realMath erf fixed) sharpe t n).1 = some (max (-10) (deflated sharpe t n)) := by
  have hlength : 0 < Real.sqrt (n : ℝ) := by
    refine Real.sqrt_pos.mpr ?_
    exact_mod_cast (by omega : 0 < n)
  have hweight := trialsWeight_pos ht
  have hsqrt : Real.sqrt (n * (t - 1)) = Real.sqrt n * trialsWeight t := by
    refine Real.sqrt_mul ?_ _
    exact_mod_cast (by omega : 0 ≤ n)
  have hsigma : 1 / Real.sqrt (n * (t - 1)) ≠ 0 := by
    rw [hsqrt]
    positivity
  have hdeflated : (sharpe - Real.sqrt (2 * Real.log t) / Real.sqrt n) / (1 / Real.sqrt (n * (t - 1)))
      = deflated sharpe t n := by
    rw [hsqrt, deflated, trialsMax_eq]
    field_simp
  unfold computeDsr
  rw [if_neg (not_lt.mpr ht), if_neg (not_lt.mpr hn)]
  dsimp only [realMath]
  rw [if_neg hsigma, hdeflated]
  split
  . rfl
  . next hexceeds =>
    have hpositive : 0 < deflated sharpe t n := by
      rw [← hdeflated]
      exact div_pos (sub_pos.mpr (not_le.mp hexceeds)) (lt_of_le_of_ne (by positivity) hsigma.symm)
    rw [max_eq_right (by linarith)]

/--
More trials do not raise the deflated ratio exactly up to a bound on the Sharpe value: below the
expected maximum the wider weight only takes away, above it the weight outgrows the maximum.
-/
theorem clamped_le_iff {t t' n : ℤ} (ht : 2 ≤ t) (htt' : t ≤ t') (sharpe : ℝ)
    : max (-10) (deflated sharpe t' n) ≤ max (-10) (deflated sharpe t n)
        ↔ Real.sqrt n * sharpe * (trialsWeight t' - trialsWeight t)
          ≤ trialsMax t' * trialsWeight t' - trialsMax t * trialsWeight t := by
  have hweight := trialsWeight_pos ht
  have hweights := trialsWeight_mono htt'
  have hmaxima := trialsMax_mono ht htt'
  have hbound : deflated sharpe t' n ≤ deflated sharpe t n
      ↔ Real.sqrt n * sharpe * (trialsWeight t' - trialsWeight t)
        ≤ trialsMax t' * trialsWeight t' - trialsMax t * trialsWeight t := by
    rw [deflated, deflated]
    constructor
    . intro h
      linarith
    . intro h
      linarith
  rw [← hbound]
  constructor
  . intro hclamped
    obtain hfloor | hle := le_max_iff.mp (le_trans (le_max_right (-10) _) hclamped)
    . -- a ratio at the floor is below its expected maximum
      have hbelow : Real.sqrt n * sharpe - trialsMax t' ≤ 0 := by
        by_contra habove
        have hproduct := mul_pos (not_le.mp habove) (hweight.trans_le hweights)
        rw [deflated] at hfloor
        linarith
      calc
        deflated sharpe t' n
        _ ≤ (Real.sqrt n * sharpe - trialsMax t') * trialsWeight t :=
          mul_le_mul_of_nonpos_left hweights hbelow
        _ ≤ deflated sharpe t n :=
          mul_le_mul_of_nonneg_right (sub_le_sub_left hmaxima _) hweight.le
    . exact hle
  . exact max_le_max_left _

theorem deflated_mono {t n : ℤ} (ht : 2 ≤ t) {sharpe sharpe' : ℝ} (h : sharpe ≤ sharpe')
    : deflated sharpe t n ≤ deflated sharpe' t n := by
  refine mul_le_mul_of_nonneg_right (sub_le_sub_right ?_ _) (trialsWeight_pos ht).le
  exact mul_le_mul_of_nonneg_left h (Real.sqrt_nonneg _)

end reals

section psr

/--
The deviate without a third and a fourth moment.
-/
noncomputable def zScore (sharpe : ℝ) : ℝ :=
  psrZScore sharpe none none

theorem zScore_eq (sharpe : ℝ) : zScore sharpe = sharpe + sharpe ^ 3 / 2 + 1 / 6 := by
  unfold zScore psrZScore psrCorrection
  simp only [Option.map_none, Option.getD_none]
  ring

theorem zScore_mono : Monotone zScore := by
  intro sharpe sharpe' h
  have hcube : sharpe ^ 3 ≤ sharpe' ^ 3 := (Odd.strictMono_pow (by decide)).monotone h
  rw [zScore_eq, zScore_eq]
  linarith

theorem zScore_pos {sharpe : ℝ} (h : 0 ≤ sharpe) : 0 < zScore sharpe := by
  rw [zScore_eq]
  positivity

variable {erf : ℝ → ℝ} {fixed : ℕ → ℝ → String} {n n' : ℤ}

theorem computePsr_real (hn : 3 ≤ n) (sharpe : ℝ)
    : computePsr (realMath erf fixed) sharpe n none none
        = max 0 (min 1 (normCdf (realMath erf fixed) (zScore sharpe / Real.sqrt n))) := by
  unfold computePsr
  rw [if_neg (by omega)]
  rfl

theorem sqrt_length_pos (hn : 3 ≤ n) : 0 < Real.sqrt (n : ℝ) := by
  refine Real.sqrt_pos.mpr ?_
  exact_mod_cast (by omega : 0 < n)

theorem clamp_mono {p q : ℝ} (h : p ≤ q) : max 0 (min 1 p) ≤ max 0 (min 1 q) :=
  max_le_max_left 0 (min_le_min_left 1 h)

variable (hnormal : NormalLike (realMath erf fixed))
include hnormal

theorem computePsr_mono (hn : 3 ≤ n) {sharpe sharpe' : ℝ} (h : sharpe ≤ sharpe')
    : computePsr (realMath erf fixed) sharpe n none none
        ≤ computePsr (realMath erf fixed) sharpe' n none none := by
  rw [computePsr_real hn, computePsr_real hn]
  refine clamp_mono (hnormal.strictMono.monotone ?_)
  exact div_le_div_of_nonneg_right (zScore_mono h) (sqrt_length_pos hn).le

/--
The constant in the deviate moves the even chance to a negative Sharpe value.
-/
theorem half_le_computePsr_iff (hn : 3 ≤ n) (sharpe : ℝ)
    : 1 / 2 ≤ computePsr (realMath erf fixed) sharpe n none none ↔ 0 ≤ zScore sharpe := by
  rw [computePsr_real hn, ← hnormal.half]
  have hclamp : ∀ p : ℝ, normCdf (realMath erf fixed) 0 ≤ max 0 (min 1 p)
      ↔ normCdf (realMath erf fixed) 0 ≤ p := by
    intro p
    rw [hnormal.half, le_max_iff, le_min_iff]
    constructor
    . rintro (h | h)
      . norm_num at h
      . exact h.2
    . intro h
      exact .inr ⟨by norm_num, h⟩
  rw [hclamp, hnormal.strictMono.le_iff_le, le_div_iff₀ (sqrt_length_pos hn), zero_mul]

/--
A longer record divides the deviate of a positive Sharpe value by more.
-/
theorem computePsr_lt_of_longer (hn : 3 ≤ n) (hlt : n < n') {sharpe : ℝ} (hsharpe : 0 < sharpe)
    (hbelow : ∀ x, normCdf (realMath erf fixed) x < 1)
    : computePsr (realMath erf fixed) sharpe n' none none
        < computePsr (realMath erf fixed) sharpe n none none := by
  have hscore := zScore_pos hsharpe.le
  have hlength := sqrt_length_pos hn
  have hlonger : Real.sqrt (n : ℝ) < Real.sqrt n' :=
    Real.sqrt_lt_sqrt (by exact_mod_cast (by omega : 0 ≤ n)) (by exact_mod_cast hlt)
  have hcdf : normCdf (realMath erf fixed) (zScore sharpe / Real.sqrt n')
      < normCdf (realMath erf fixed) (zScore sharpe / Real.sqrt n) :=
    hnormal.strictMono (div_lt_div_of_pos_left hscore hlength hlonger)
  have hpositive : 0 < normCdf (realMath erf fixed) (zScore sharpe / Real.sqrt n') := by
    have hhalf := hnormal.strictMono (div_pos hscore (hlength.trans hlonger))
    rw [hnormal.half] at hhalf
    linarith
  rw [computePsr_real hn, computePsr_real (by omega), min_eq_right (hbelow _).le,
    min_eq_right (hbelow _).le, max_eq_right hpositive.le, max_eq_right (hpositive.trans hcdf).le]
  exact hcdf

end psr

section laws

/--
Two computed values in order.
-/
def InOrder (x y : Option ℝ) : Prop :=
  ∃ a b, x = some a ∧ y = some b ∧ a ≤ b

/--
The laws of the two statistics, between two Sharpe values, two numbers of trials and two lengths.
-/
structure DeflationLaws (math : StatMath ℝ) (sharpe sharpe' : ℝ) (n n' t t' : ℤ) : Prop where
  dsr_trials : InOrder (computeDsr math sharpe t' n).1 (computeDsr math sharpe t n).1
  dsr_sharpe : InOrder (computeDsr math sharpe t n).1 (computeDsr math sharpe' t n).1
  psr_sharpe : computePsr math sharpe n none none ≤ computePsr math sharpe' n none none
  psr_half : 1 / 2 ≤ computePsr math sharpe n none none ↔ 0 ≤ sharpe
  psr_length : 0 < sharpe → computePsr math sharpe n none none ≤ computePsr math sharpe n' none none

theorem inOrder_some {a b : ℝ} : InOrder (some a) (some b) ↔ a ≤ b := by
  constructor
  . rintro ⟨a', b', ha, hb, h⟩
    cases ha
    cases hb
    exact h
  . intro h
    exact ⟨a, b, rfl, rfl, h⟩

/--
A distribution function that never reaches one.
-/
noncomputable def arctanErf (x : ℝ) : ℝ :=
  Real.arctan x / Real.pi

theorem normCdf_arctanErf (fixed : ℕ → ℝ → String) (x : ℝ)
    : normCdf (realMath arctanErf fixed) x
        = 1 / 2 + Real.arctan (x / Real.sqrt 2) / Real.pi / 2 := by
  unfold normCdf realMath arctanErf
  ring

theorem normalLike_arctanErf (fixed : ℕ → ℝ → String)
    : NormalLike (realMath arctanErf fixed) := by
  constructor
  . intro x y hxy
    rw [normCdf_arctanErf, normCdf_arctanErf]
    have harctan : Real.arctan (x / Real.sqrt 2) < Real.arctan (y / Real.sqrt 2) :=
      Real.arctan_strictMono (div_lt_div_of_pos_right hxy (by positivity))
    linarith [div_lt_div_of_pos_right harctan Real.pi_pos]
  . rw [normCdf_arctanErf, zero_div, Real.arctan_zero, zero_div, zero_div, add_zero]

theorem normCdf_arctanErf_lt_one (fixed : ℕ → ℝ → String) (x : ℝ)
    : normCdf (realMath arctanErf fixed) x < 1 := by
  rw [normCdf_arctanErf]
  have hlt : Real.arctan (x / Real.sqrt 2) / Real.pi < 1 := by
    rw [div_lt_one Real.pi_pos]
    linarith [Real.arctan_lt_pi_div_two (x / Real.sqrt 2), Real.pi_pos]
  linarith

/--
The laws hold exactly for a Sharpe value under the bound of the trials, off the negative values that
the constant lifts, and not positive where the lengths differ.
-/
theorem deflation_laws_iff (fixed : ℕ → ℝ → String) {sharpe sharpe' : ℝ} {n n' t t' : ℤ}
    (hsharpe : sharpe ≤ sharpe') (hn : 3 ≤ n) (hnn' : n ≤ n') (ht : 2 ≤ t) (htt' : t ≤ t')
    : (∀ erf, NormalLike (realMath erf fixed) →
          DeflationLaws (realMath erf fixed) sharpe sharpe' n n' t t')
        ↔ Real.sqrt n * sharpe * (Real.sqrt (t' - 1) - Real.sqrt (t - 1))
            ≤ Real.sqrt (2 * Real.log t') * Real.sqrt (t' - 1)
              - Real.sqrt (2 * Real.log t) * Real.sqrt (t - 1)
          ∧ (0 ≤ sharpe ∨ sharpe + sharpe ^ 3 / 2 < -1 / 6)
          ∧ (sharpe ≤ 0 ∨ n = n') := by
  have hht' : 2 ≤ t' := ht.trans htt'
  constructor
  . intro hlaws
    have hnormal := normalLike_arctanErf fixed
    obtain ⟨htrials, -, -, hhalf, hlength⟩ := hlaws arctanErf hnormal
    refine ⟨?_, ?_, ?_⟩
    . rw [computeDsr_real _ _ hht' hn, computeDsr_real _ _ ht hn, inOrder_some] at htrials
      rw [← trialsMax_eq, ← trialsMax_eq]
      exact (clamped_le_iff ht htt' sharpe).mp htrials
    . by_contra hlifted
      push Not at hlifted
      rw [half_le_computePsr_iff hnormal hn] at hhalf
      have hscore : 0 ≤ zScore sharpe := by
        rw [zScore_eq]
        linarith [hlifted.2]
      exact absurd (hhalf.mp hscore) (not_le.mpr hlifted.1)
    . by_contra hlonger
      push Not at hlonger
      have hlt := computePsr_lt_of_longer hnormal hn (lt_of_le_of_ne hnn' hlonger.2) hlonger.1
        (normCdf_arctanErf_lt_one fixed)
      exact absurd (hlength hlonger.1) (not_le.mpr hlt)
  . rintro ⟨htrials, hlifted, hlonger⟩ erf hnormal
    rw [← trialsMax_eq, ← trialsMax_eq] at htrials
    constructor
    . rw [computeDsr_real _ _ hht' hn, computeDsr_real _ _ ht hn, inOrder_some]
      exact (clamped_le_iff ht htt' sharpe).mpr htrials
    . rw [computeDsr_real _ _ ht hn, computeDsr_real _ _ ht hn, inOrder_some]
      exact max_le_max_left _ (deflated_mono ht hsharpe)
    . exact computePsr_mono hnormal hn hsharpe
    . rw [half_le_computePsr_iff hnormal hn]
      constructor
      . intro hscore
        refine hlifted.resolve_right fun hlow => ?_
        rw [zScore_eq] at hscore
        linarith
      . intro hnonneg
        exact (zScore_pos hnonneg).le
    . intro hpositive
      rw [hlonger.resolve_left (not_le.mpr hpositive)]

theorem deflation_laws_zero
    : (∀ erf, NormalLike (realMath erf (fun _ _ => "")) →
          DeflationLaws (realMath erf (fun _ _ => "")) 0 1 3 4 2 3)
        ↔ Real.sqrt (3 : ℤ) * 0 * (Real.sqrt ((3 : ℤ) - 1) - Real.sqrt ((2 : ℤ) - 1))
            ≤ Real.sqrt (2 * Real.log (3 : ℤ)) * Real.sqrt ((3 : ℤ) - 1)
              - Real.sqrt (2 * Real.log (2 : ℤ)) * Real.sqrt ((2 : ℤ) - 1)
          ∧ ((0 : ℝ) ≤ 0 ∨ (0 : ℝ) + 0 ^ 3 / 2 < -1 / 6)
          ∧ ((0 : ℝ) ≤ 0 ∨ (3 : ℤ) = 4) :=
  deflation_laws_iff _ zero_le_one le_rfl (by decide) le_rfl (by decide)

/--
Four bars with a Sharpe value of ten: three more trials raise the deflated ratio.
-/
theorem more_trials_raise
    : ¬ ∀ (erf : ℝ → ℝ) (fixed : ℕ → ℝ → String) (sharpe sharpe' : ℝ) (n n' t t' : ℤ),
        NormalLike (realMath erf fixed) → sharpe ≤ sharpe' → 3 ≤ n → n ≤ n' → 2 ≤ t → t ≤ t' →
        DeflationLaws (realMath erf fixed) sharpe sharpe' n n' t t' := by
  intro h
  have hlength : Real.sqrt ((4 : ℤ) : ℝ) = 2 := by
    rw [Real.sqrt_eq_iff_mul_self_eq (by norm_num) zero_le_two]
    norm_num
  have hweight : trialsWeight 2 = 1 := by
    rw [trialsWeight, Real.sqrt_eq_one]
    norm_num
  have hweight' : trialsWeight 5 = 2 := by
    rw [trialsWeight, Real.sqrt_eq_iff_mul_self_eq (by norm_num) zero_le_two]
    norm_num
  have hmax : 0 ≤ trialsMax 2 := Real.sqrt_nonneg _
  have hmax' : trialsMax 5 ≤ 3 := by
    have hlog : Real.log (5 : ℤ) ≤ (5 : ℤ) - 1 := Real.log_le_sub_one_of_pos (by norm_num)
    rw [trialsMax_eq, Real.sqrt_le_left (by norm_num)]
    norm_num at hlog ⊢
    linarith
  have hlaws := h arctanErf (fun _ _ => "") 10 10 4 4 2 5 (normalLike_arctanErf _) le_rfl (by decide)
    le_rfl le_rfl (by decide)
  have htrials := hlaws.dsr_trials
  rw [computeDsr_real _ _ (by decide) (by decide), computeDsr_real _ _ (by decide) (by decide),
    inOrder_some, clamped_le_iff (by decide) (by decide), hlength, hweight, hweight'] at htrials
  linarith

end laws

end Inferential
end Experiment
end Quantbot
