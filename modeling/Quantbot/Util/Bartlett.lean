import Mathlib.Algebra.BigOperators.Intervals
import Mathlib.Algebra.Order.BigOperators.Ring.Finset
import Mathlib.Tactic.Ring
import Mathlib.Tactic.Linarith

/-!
Weighted sums of the products of a finite sequence with itself at a distance, where the weights fall
linearly. Such a sum is one of squares: those of the sums over all windows of a length.
-/

namespace Quantbot
namespace Bartlett

open Finset

section ring

variable {K : Type} [CommRing K]

/--
The sum of the products at a distance.
-/
def lagged (c : ℕ → K) (n j : ℕ) : K :=
  ∑ t ∈ range n, c t * c (t + j)

/--
The sequence behind `lag` zeros.
-/
def behind (c : ℕ → K) (lag : ℕ) (m : ℕ) : K :=
  if lag ≤ m then c (m - lag) else 0

/--
The sum over the window that ends in place `s` of the sequence.
-/
def window (c : ℕ → K) (lag s : ℕ) : K :=
  ∑ k ∈ range (lag + 1), behind c lag (s + k)

theorem behind_add (c : ℕ → K) (lag t : ℕ) : behind c lag (lag + t) = c t := by
  rw [behind, if_pos (Nat.le_add_right lag t), Nat.add_sub_cancel_left]

theorem behind_of_lt (c : ℕ → K) {lag m : ℕ} (h : m < lag) : behind c lag m = 0 := by
  rw [behind, if_neg (not_le.mpr h)]

variable {c : ℕ → K} {n : ℕ} (hc : ∀ t, n ≤ t → c t = 0)

include hc

theorem behind_of_le {lag m : ℕ} (h : n + lag ≤ m) : behind c lag m = 0 := by
  rw [behind]
  split
  . exact hc _ (by omega)
  . rfl

/--
Two entries of a window, over all windows, give all the products at their distance.
-/
theorem sum_behind_mul {lag k : ℕ} (hk : k ≤ lag) (j : ℕ)
    : ∑ s ∈ range (n + lag), behind c lag (s + k) * behind c lag (s + k + j) = lagged c n j := by
  have hshift : ∑ s ∈ range (n + lag), behind c lag (s + k) * behind c lag (s + k + j)
      = ∑ m ∈ Ico k (n + lag + k), behind c lag m * behind c lag (m + j) := by
    rw [sum_Ico_eq_sum_range, Nat.add_sub_cancel]
    exact sum_congr rfl fun s _ => by rw [Nat.add_comm s k]
  have hmiddle : ∑ m ∈ Ico lag (n + lag), behind c lag m * behind c lag (m + j) = lagged c n j := by
    rw [sum_Ico_eq_sum_range, Nat.add_sub_cancel, lagged]
    exact sum_congr rfl fun t _ => by rw [Nat.add_assoc, behind_add, behind_add]
  have hbefore : ∑ m ∈ Ico k lag, behind c lag m * behind c lag (m + j) = 0 := by
    refine sum_eq_zero fun m hm => ?_
    rw [behind_of_lt c (mem_Ico.mp hm).2, zero_mul]
  have hafter : ∑ m ∈ Ico (n + lag) (n + lag + k), behind c lag m * behind c lag (m + j) = 0 := by
    refine sum_eq_zero fun m hm => ?_
    rw [behind_of_le hc (mem_Ico.mp hm).1, zero_mul]
  rw [hshift, ← sum_Ico_consecutive _ (by omega : k ≤ n + lag) (by omega),
    ← sum_Ico_consecutive _ hk (by omega), hbefore, hmiddle, hafter, zero_add, add_zero]

theorem sum_behind_mul_behind {lag k l : ℕ} (hk : k ≤ lag) (hl : l ≤ lag)
    : ∑ s ∈ range (n + lag), behind c lag (s + k) * behind c lag (s + l)
        = lagged c n (max k l - min k l) := by
  obtain hkl | hlk := le_total k l
  . rw [max_eq_right hkl, min_eq_left hkl, ← sum_behind_mul hc hk]
    exact sum_congr rfl fun s _ => by rw [Nat.add_assoc s k, Nat.add_sub_cancel' hkl]
  . rw [max_eq_left hlk, min_eq_right hlk, ← sum_behind_mul hc hl]
    exact sum_congr rfl fun s _ => by rw [mul_comm, Nat.add_assoc s l, Nat.add_sub_cancel' hlk]

omit hc in
/--
The distances between the entries of a window, by induction on its length.
-/
theorem sum_distances (a : ℕ → K) (lag : ℕ)
    : ∑ k ∈ range (lag + 1), ∑ l ∈ range (lag + 1), a (max k l - min k l)
        = (lag + 1) * a 0 + 2 * ∑ j ∈ range lag, ((lag : K) - j) * a (j + 1) := by
  induction lag with
  | zero => simp
  | succ lag ih =>
    have hlast (l : ℕ) (hl : l ∈ range (lag + 1))
        : a (max (lag + 1) l - min (lag + 1) l) = a (lag + 1 - l) := by
      rw [max_eq_left (mem_range.mp hl).le, min_eq_right (mem_range.mp hl).le]
    have hlast' (l : ℕ) (hl : l ∈ range (lag + 1))
        : a (max l (lag + 1) - min l (lag + 1)) = a (lag + 1 - l) := by
      rw [max_comm, min_comm, hlast l hl]
    have hreflect : ∑ l ∈ range (lag + 1), a (lag + 1 - l) = ∑ j ∈ range (lag + 1), a (j + 1) := by
      rw [← sum_range_reflect]
      refine sum_congr rfl fun l hl => ?_
      have hle := mem_range.mp hl
      congr 1
      omega
    have hweights : ∑ j ∈ range (lag + 1), (((lag + 1 : ℕ) : K) - j) * a (j + 1)
        = ∑ j ∈ range lag, ((lag : K) - j) * a (j + 1) + ∑ j ∈ range (lag + 1), a (j + 1) := by
      have hterm (j : ℕ) : (((lag + 1 : ℕ) : K) - j) * a (j + 1)
          = ((lag : K) - j) * a (j + 1) + a (j + 1) := by
        push_cast
        ring
      simp only [hterm]
      rw [sum_add_distrib, sum_range_succ (fun j => ((lag : K) - j) * a (j + 1)), sub_self, zero_mul,
        add_zero]
    rw [sum_range_succ]
    simp only [sum_range_succ _ (lag + 1)]
    rw [sum_add_distrib, ih, sum_congr rfl hlast, sum_congr rfl hlast', hreflect, hweights,
      max_self, min_self, Nat.sub_self]
    push_cast
    ring

/--
The weighted sum is that of the squares of the windows.
-/
theorem sum_window_sq (lag : ℕ)
    : ∑ s ∈ range (n + lag), window c lag s ^ 2
        = (lag + 1) * lagged c n 0 + 2 * ∑ j ∈ range lag, ((lag : K) - j) * lagged c n (j + 1) := by
  rw [← sum_distances]
  have hsquare (s : ℕ) : window c lag s ^ 2
      = ∑ k ∈ range (lag + 1), ∑ l ∈ range (lag + 1), behind c lag (s + k) * behind c lag (s + l) := by
    rw [sq, window, sum_mul_sum]
  simp only [hsquare]
  rw [sum_comm]
  refine sum_congr rfl fun k hk => ?_
  rw [sum_comm]
  refine sum_congr rfl fun l hl => ?_
  exact sum_behind_mul_behind hc (Nat.le_of_lt_succ (mem_range.mp hk))
    (Nat.le_of_lt_succ (mem_range.mp hl))

end ring

section ordered

variable {K : Type} [CommRing K] [LinearOrder K] [IsStrictOrderedRing K]

theorem weighted_nonneg {c : ℕ → K} {n : ℕ} (hc : ∀ t, n ≤ t → c t = 0) (lag : ℕ)
    : 0 ≤ (lag + 1) * lagged c n 0 + 2 * ∑ j ∈ range lag, ((lag : K) - j) * lagged c n (j + 1) := by
  rw [← sum_window_sq hc]
  exact sum_nonneg fun s _ => sq_nonneg _

end ordered

end Bartlett
end Quantbot
