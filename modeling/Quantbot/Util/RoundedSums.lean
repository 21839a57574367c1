import Quantbot.Util.Round

/-!
Sums, maxima, products and quotients of rounded values: how far they drift from those of the values.
-/

namespace Quantbot

variable {α : Type*}

theorem abs_sum_map_sub_le {f g : α → ℚ} {ε : ℚ} {l : List α} (h : ∀ x ∈ l, |f x - g x| ≤ ε)
    : |(l.map f).sum - (l.map g).sum| ≤ l.length * ε := by
  induction l with
  | nil => simp
  | cons x l ih =>
    rw [List.forall_mem_cons] at h
    have hrest := ih h.2
    rw [List.map_cons, List.map_cons, List.sum_cons, List.sum_cons, List.length_cons]
    push_cast
    have hsplit : f x + (l.map f).sum - (g x + (l.map g).sum)
        = (f x - g x) + ((l.map f).sum - (l.map g).sum) := by
      ring
    rw [hsplit]
    have htri := abs_add_le (f x - g x) ((l.map f).sum - (l.map g).sum)
    linarith [h.1]

/--
The drift of a total of rounded amounts is at most half a unit for each amount.
-/
theorem roundDp.abs_sum_sub_le (n : ℕ) (f : α → ℚ) (l : List α)
    : |(l.map (fun x => roundDp n (f x))).sum - (l.map f).sum| ≤ l.length * (1 / (2 * 10 ^ n)) := by
  apply abs_sum_map_sub_le
  intro x _
  exact roundDp.abs_sub_le n (f x)

theorem abs_max_sub_max_le {a b c d ε : ℚ} (hab : |a - b| ≤ ε) (hcd : |c - d| ≤ ε)
    : |max a c - max b d| ≤ ε :=
  (abs_max_sub_max_le_max a c b d).trans (max_le hab hcd)

theorem abs_foldl_max_sub_le {f g : α → ℚ} {a b ε : ℚ} {l : List α} (hinit : |a - b| ≤ ε)
    (h : ∀ x ∈ l, |f x - g x| ≤ ε)
    : |(l.map f).foldl max a - (l.map g).foldl max b| ≤ ε := by
  induction l generalizing a b with
  | nil => exact hinit
  | cons x l ih =>
    rw [List.forall_mem_cons] at h
    exact ih (abs_max_sub_max_le hinit h.1) h.2

/--
A sum over some of the items, each at its weight, is between nothing and the sum of all weights.
-/
theorem sum_map_filterMap_mem {β : Type*} {f : α → Option β} {g : β → ℚ} {w : α → ℚ} {l : List α}
    (h : ∀ x ∈ l, 0 ≤ w x ∧ ∀ y ∈ f x, g y = w x)
    : 0 ≤ ((l.filterMap f).map g).sum ∧ ((l.filterMap f).map g).sum ≤ (l.map w).sum := by
  induction l with
  | nil => simp
  | cons x l ih =>
    rw [List.forall_mem_cons] at h
    obtain ⟨hlow, hhigh⟩ := ih h.2
    cases hx : f x with
    | none =>
      rw [List.filterMap_cons_none hx, List.map_cons, List.sum_cons]
      exact ⟨hlow, by linarith [h.1.1]⟩
    | some y =>
      rw [List.filterMap_cons_some hx, List.map_cons, List.map_cons, List.sum_cons, List.sum_cons,
        h.1.2 y hx]
      exact ⟨by linarith [h.1.1], by linarith⟩

section products

variable {x x' y y' ε δ : ℚ}

theorem abs_mul_sub_mul_le (hx : |x' - x| ≤ ε) (hy : |y' - y| ≤ δ)
    : |x' * y' - x * y| ≤ |x| * δ + (|y| + δ) * ε := by
  have hy' : |y'| ≤ |y| + δ := by
    have htri := abs_add_le y (y' - y)
    rw [add_sub_cancel] at htri
    linarith
  have hsplit : x' * y' - x * y = x * (y' - y) + y' * (x' - x) := by
    ring
  calc |x' * y' - x * y|
    _ ≤ |x| * |y' - y| + |y'| * |x' - x| := by
      rw [hsplit, ← abs_mul, ← abs_mul]
      exact abs_add_le _ _
    _ ≤ |x| * δ + (|y| + δ) * ε := by
      gcongr
      exact (abs_nonneg _).trans hy'

/--
Shares of a whole of at least one.
-/
theorem abs_div_sub_div_le (hx : |x' - x| ≤ ε) (hy : |y' - y| ≤ ε) (hnonneg : 0 ≤ x) (hle : x ≤ y)
    (hone : 1 ≤ y) (hone' : 1 ≤ y') : |x' / y' - x / y| ≤ 2 * ε := by
  have hpos : 0 < y := by linarith
  have hpos' : 0 < y' := by linarith
  have hε : 0 ≤ ε := (abs_nonneg _).trans hx
  have hsplit : x' / y' - x / y = ((x' - x) - x / y * (y' - y)) / y' := by
    field_simp
    ring
  have hshare : |x / y| ≤ 1 := by
    rw [abs_of_nonneg (by positivity), div_le_one hpos]
    exact hle
  have hnumerator : |(x' - x) - x / y * (y' - y)| ≤ 2 * ε := by
    calc |(x' - x) - x / y * (y' - y)|
      _ ≤ |x' - x| + |x / y * (y' - y)| := abs_sub _ _
      _ ≤ ε + 1 * ε := by
        rw [abs_mul]
        gcongr
      _ = 2 * ε := by ring
  rw [hsplit, abs_div, abs_of_pos hpos', div_le_iff₀ hpos']
  exact hnumerator.trans (le_mul_of_one_le_right (by linarith) hone')

end products

end Quantbot
