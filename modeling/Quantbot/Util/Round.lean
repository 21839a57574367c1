import Mathlib

/-!
Decimal rounding of exact rationals, ties to even, and the decimal grid its results live on.
-/

namespace Quantbot

/--
The integer nearest to `x`, the even one of the two when `x` is half way between.
-/
def roundHalfEven (x : ℚ) : ℤ :=
  let f := ⌊x⌋
  if x - f < 1 / 2 then
    f
  else if 1 / 2 < x - f then
    f + 1
  else if f % 2 = 0 then
    f
  else
    f + 1

def roundDp (n : ℕ) (x : ℚ) : ℚ :=
  roundHalfEven (x * 10 ^ n) / 10 ^ n

def OnDecimalGrid (n : ℕ) (x : ℚ) : Prop :=
  ∃ k : ℤ, x = k / 10 ^ n

namespace roundHalfEven

theorem abs_sub_le (x : ℚ) : |(roundHalfEven x : ℚ) - x| ≤ 1 / 2 := by
  have hle := Int.floor_le x
  have hlt := Int.lt_floor_add_one x
  rw [abs_le]
  simp only [roundHalfEven]
  split
  . constructor <;> linarith
  . split
    . push_cast
      constructor <;> linarith
    . split
      . constructor <;> linarith
      . push_cast
        constructor <;> linarith

@[simp]
theorem intCast (k : ℤ) : roundHalfEven (k : ℚ) = k := by
  simp [roundHalfEven]

theorem le_of_le_intCast {x : ℚ} {k : ℤ} (h : x ≤ k) : roundHalfEven x ≤ k := by
  by_contra hlt
  have hk : (k : ℚ) + 1 ≤ roundHalfEven x := by
    exact_mod_cast not_le.mp hlt
  have herr := abs_le.mp (abs_sub_le x)
  linarith [herr.2]

theorem le_of_intCast_le {x : ℚ} {k : ℤ} (h : (k : ℚ) ≤ x) : k ≤ roundHalfEven x := by
  by_contra hlt
  have hk : (roundHalfEven x : ℚ) + 1 ≤ k := by
    exact_mod_cast not_le.mp hlt
  have herr := abs_le.mp (abs_sub_le x)
  linarith [herr.1]

theorem floor_le_self (x : ℚ) : ⌊x⌋ ≤ roundHalfEven x :=
  le_of_intCast_le (Int.floor_le x)

theorem le_floor_add_one (x : ℚ) : roundHalfEven x ≤ ⌊x⌋ + 1 := by
  apply le_of_le_intCast
  push_cast
  exact (Int.lt_floor_add_one x).le

theorem mono {x y : ℚ} (h : x ≤ y) : roundHalfEven x ≤ roundHalfEven y := by
  have hfloor : ⌊x⌋ ≤ ⌊y⌋ := Int.floor_mono h
  cases lt_or_eq_of_le hfloor with
  | inl hlt =>
    calc roundHalfEven x
      _ ≤ ⌊x⌋ + 1 := le_floor_add_one x
      _ ≤ ⌊y⌋ := hlt
      _ ≤ roundHalfEven y := floor_le_self y
  | inr heq =>
    -- Inside one unit interval the three branches are taken in order.
    simp only [roundHalfEven, heq]
    split_ifs <;> first
      | omega
      | (exfalso; linarith)

end roundHalfEven

namespace OnDecimalGrid

variable {n : ℕ} {x y : ℚ}

theorem zero : OnDecimalGrid n 0 :=
  ⟨0, by simp⟩

theorem add (hx : OnDecimalGrid n x) (hy : OnDecimalGrid n y) : OnDecimalGrid n (x + y) := by
  obtain ⟨k, rfl⟩ := hx
  obtain ⟨l, rfl⟩ := hy
  refine ⟨k + l, ?_⟩
  push_cast
  ring

theorem sub (hx : OnDecimalGrid n x) (hy : OnDecimalGrid n y) : OnDecimalGrid n (x - y) := by
  obtain ⟨k, rfl⟩ := hx
  obtain ⟨l, rfl⟩ := hy
  refine ⟨k - l, ?_⟩
  push_cast
  ring

theorem roundDp_self (hx : OnDecimalGrid n x) : roundDp n x = x := by
  obtain ⟨k, rfl⟩ := hx
  have hpow : (10 : ℚ) ^ n ≠ 0 := by positivity
  unfold roundDp
  rw [div_mul_cancel₀ _ hpow]
  rw [roundHalfEven.intCast]

end OnDecimalGrid

namespace roundDp

variable {n : ℕ} {x y : ℚ}

theorem onDecimalGrid (n : ℕ) (x : ℚ) : OnDecimalGrid n (roundDp n x) :=
  ⟨roundHalfEven (x * 10 ^ n), rfl⟩

@[simp]
theorem idem (n : ℕ) (x : ℚ) : roundDp n (roundDp n x) = roundDp n x :=
  (onDecimalGrid n x).roundDp_self

@[simp]
theorem zero (n : ℕ) : roundDp n 0 = 0 :=
  OnDecimalGrid.zero.roundDp_self

theorem abs_sub_le (n : ℕ) (x : ℚ) : |roundDp n x - x| ≤ 1 / (2 * 10 ^ n) := by
  have hpow : (0 : ℚ) < 10 ^ n := by positivity
  have heq : roundDp n x - x = (roundHalfEven (x * 10 ^ n) - x * 10 ^ n) / 10 ^ n := by
    unfold roundDp
    field_simp
  rw [heq, abs_div, abs_of_pos hpow, div_le_div_iff₀ hpow (by positivity)]
  have herr := roundHalfEven.abs_sub_le (x * 10 ^ n)
  nlinarith

theorem mono (h : x ≤ y) : roundDp n x ≤ roundDp n y := by
  have hpow : (0 : ℚ) < 10 ^ n := by positivity
  unfold roundDp
  gcongr
  exact roundHalfEven.mono (by gcongr)

theorem nonneg (h : 0 ≤ x) : 0 ≤ roundDp n x := by
  have hmono := mono (n := n) h
  rwa [zero] at hmono

end roundDp

end Quantbot
