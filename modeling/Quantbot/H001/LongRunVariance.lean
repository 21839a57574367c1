import Mathlib.Analysis.Real.Sqrt
import Mathlib.Tactic.FieldSimp
import Quantbot.H001.BoundedSampling
import Quantbot.Util.Bartlett

/-!
The long-run variance as a sum of squares, and what follows for the standard error and for a
replication of the bootstrap.
-/

namespace Quantbot
namespace H001

open Finset (range sum_congr)

section omega

variable {K : Type} [Field K]

/--
The distance of a value from the mean, and zero behind the end.
-/
def deviation (x : List K) (xbar : K) (t : ℕ) : K :=
  (x.map (· - xbar)).getD t 0

theorem deviation_of_le {x : List K} (xbar : K) {t : ℕ} (h : x.length ≤ t) : deviation x xbar t = 0 := by
  rw [deviation, List.getD_eq_default]
  rw [List.length_map]
  exact h

theorem sum_zipWith_mul (l l' : List K)
    : (l.zipWith (· * ·) l').sum = ∑ t ∈ range l'.length, l.getD t 0 * l'.getD t 0 := by
  induction l' generalizing l with
  | nil => simp
  | cons b l' ih =>
    cases l with
    | nil => simp
    | cons a l =>
      rw [List.zipWith_cons_cons, List.sum_cons, ih, List.length_cons, Finset.sum_range_succ',
        add_comm]
      rfl

theorem hacGamma_eq (x : List K) (xbar : K) (lag : ℕ)
    : hacGamma x xbar lag = Bartlett.lagged (deviation x xbar) x.length lag / x.length := by
  have hproducts : (x.drop lag).zipWith (fun left right => (left - xbar) * (right - xbar)) x
      = ((x.map (· - xbar)).drop lag).zipWith (· * ·) (x.map (· - xbar)) := by
    rw [← List.map_drop, List.zipWith_map]
  rw [hacGamma, hproducts, sum_zipWith_mul, List.length_map, Bartlett.lagged]
  congr 1
  refine sum_congr rfl fun t _ => ?_
  rw [deviation, deviation, mul_comm, List.getD_eq_getElem?_getD, List.getD_eq_getElem?_getD,
    List.getD_eq_getElem?_getD, List.getElem?_drop, Nat.add_comm lag]

theorem foldl_add_range' (f : ℕ → K) (a : K) (count : ℕ)
    : (List.range' 1 count).foldl (fun acc j => acc + f j) a = a + ∑ j ∈ range count, f (j + 1) := by
  induction count with
  | zero => simp
  | succ count ih =>
    rw [List.range'_1_concat, List.foldl_append, ih, Finset.sum_range_succ, ← add_assoc,
      Nat.add_comm 1]
    rfl

variable [LinearOrder K] [IsStrictOrderedRing K]

/--
The long-run variance is a weighted sum of products over a positive number.
-/
theorem hacOmega2_eq {x : List K} (hx : x ≠ []) (lagOrder : ℕ)
    : hacOmega2 x lagOrder
        = .ok (((lagOrder + 1) * Bartlett.lagged (deviation x (x.sum / x.length)) x.length 0
              + 2 * ∑ j ∈ range lagOrder, ((lagOrder : K) - j)
                * Bartlett.lagged (deviation x (x.sum / x.length)) x.length (j + 1))
            / (x.length * (lagOrder + 1))) := by
  have hlength : (x.length : K) ≠ 0 := by
    rw [Nat.cast_ne_zero, ne_eq, List.length_eq_zero_iff]
    exact hx
  have hlag : (lagOrder : K) + 1 ≠ 0 := by positivity
  have hmean : hacMean x = .ok (x.sum / x.length) := by
    rw [hacMean, if_neg]
    have hpos := List.length_pos_of_ne_nil hx
    omega
  rw [hacOmega2, hmean, ok_bind, foldl_add_range' (fun j => (2 : ℕ) • ((1 - (j : K) / (lagOrder + 1))
    * hacGamma x (x.sum / x.length) j))]
  simp only [hacGamma_eq, nsmul_eq_mul, Nat.cast_ofNat]
  generalize Bartlett.lagged (deviation x (x.sum / x.length)) x.length = a
  have hterm (j : ℕ) : 2 * ((1 - ((j + 1 : ℕ) : K) / (lagOrder + 1)) * (a (j + 1) / x.length))
      = 2 * (((lagOrder : K) - j) * a (j + 1)) / (x.length * (lagOrder + 1)) := by
    push_cast
    field_simp
    ring
  have hfirst : a 0 / x.length = (lagOrder + 1) * a 0 / (x.length * (lagOrder + 1)) := by
    field_simp
  simp only [hterm]
  rw [← Finset.sum_div, ← Finset.mul_sum, hfirst, ← add_div]

theorem hacOmega2_nonneg {x : List K} {lagOrder : ℕ} {omega2 : K}
    (h : hacOmega2 x lagOrder = .ok omega2) : 0 ≤ omega2 := by
  cases x with
  | nil => cases h
  | cons v x =>
    rw [hacOmega2_eq (List.cons_ne_nil v x)] at h
    cases h
    refine div_nonneg (Bartlett.weighted_nonneg (fun t ht => deviation_of_le _ ht) lagOrder) ?_
    positivity

theorem sum_replicate_div {n : ℕ} (hn : 0 < n) (v : K)
    : (List.replicate n v).sum / (List.replicate n v).length = v := by
  have hcast : (n : K) ≠ 0 := Nat.cast_ne_zero.mpr hn.ne'
  rw [List.sum_replicate, List.length_replicate, nsmul_eq_mul, mul_comm, mul_div_assoc,
    div_self hcast, mul_one]

theorem hacOmega2_replicate {n : ℕ} (hn : 0 < n) (v : K) (lagOrder : ℕ)
    : hacOmega2 (List.replicate n v) lagOrder = .ok 0 := by
  have hne : List.replicate n v ≠ [] := by
    rw [ne_eq, List.replicate_eq_nil_iff]
    exact hn.ne'
  have hzero (t : ℕ) : deviation (List.replicate n v) v t = 0 := by
    rw [deviation, List.map_replicate, sub_self, List.getD_eq_getElem?_getD, List.getElem?_replicate]
    split <;> rfl
  rw [hacOmega2_eq hne, sum_replicate_div hn]
  simp only [Bartlett.lagged, hzero, mul_zero, Finset.sum_const_zero, add_zero, zero_div]

/--
Means move with the series, distances from them do not.
-/
theorem deviation_add (x : List K) (shift : K)
    : deviation (x.map (· + shift)) ((x.map (· + shift)).sum / (x.map (· + shift)).length)
        = deviation x (x.sum / x.length) := by
  funext t
  cases x with
  | nil => rfl
  | cons v x =>
    generalize hy : v :: x = y
    have hlength : (y.length : K) ≠ 0 := by
      rw [← hy, List.length_cons]
      exact Nat.cast_ne_zero.mpr (Nat.succ_ne_zero _)
    have hsum : (y.map (· + shift)).sum = y.sum + y.length * shift := by
      rw [List.sum_map_add, List.map_id', List.map_const', List.sum_replicate, nsmul_eq_mul]
    rw [deviation, deviation, hsum, List.length_map, List.map_map]
    congr 2
    funext u
    rw [Function.comp_apply, add_div, mul_div_cancel_left₀ shift hlength]
    ring

theorem hacOmega2_add (x : List K) (shift : K) (lagOrder : ℕ)
    : hacOmega2 (x.map (· + shift)) lagOrder = hacOmega2 x lagOrder := by
  cases x with
  | nil => rfl
  | cons v x =>
    rw [hacOmega2_eq (List.cons_ne_nil v x), List.map_cons,
      hacOmega2_eq (List.cons_ne_nil _ _), ← List.map_cons (f := (· + shift)), deviation_add,
      List.length_map]

end omega

section path

variable {philox : Philox} {coordinate : BootstrapCoordinate}

theorem attempts_lt {purpose : DrawPurpose} {samplePosition n r : ℕ} (hn : 0 < n)
    {attemptIndices : List ℕ}
    (h : (attempts philox coordinate purpose samplePosition n attemptIndices).result = .ok r)
    : r < n := by
  induction attemptIndices with
  | nil => cases h
  | cons attempt rest ih =>
    rw [attempts, Traced.result_bind] at h
    obtain ⟨word, -, h⟩ := bind_eq_ok.mp h
    split at h
    . cases h
      exact Nat.mod_lt word hn
    . exact ih h

theorem uniformBounded_lt {purpose : DrawPurpose} {samplePosition n r : ℕ}
    (h : (uniformBounded philox coordinate purpose samplePosition n).result = .ok r) : r < n := by
  rw [uniformBounded] at h
  split at h
  . next hn => exact attempts_lt hn.1 h
  . cases h

theorem nextIndex_lt {t last index : ℕ}
    (h : (nextIndex philox coordinate t last).result = .ok index) : index < sampleLength := by
  rw [nextIndex, Traced.result_bind] at h
  obtain ⟨restart, -, h⟩ := bind_eq_ok.mp h
  split at h
  . exact uniformBounded_lt h
  . cases h
    exact Nat.mod_lt _ (by decide)

theorem pathFrom_lt {last t count : ℕ} {path : List ℕ}
    (h : (pathFrom philox coordinate last t count).result = .ok path)
    : path.length = count ∧ ∀ index ∈ path, index < sampleLength := by
  induction count generalizing last t path with
  | zero =>
    cases h
    exact ⟨rfl, nofun⟩
  | succ count ih =>
    rw [pathFrom, Traced.result_bind] at h
    obtain ⟨index, hindex, h⟩ := bind_eq_ok.mp h
    rw [Traced.result_bind] at h
    obtain ⟨rest, hrest, h⟩ := bind_eq_ok.mp h
    cases h
    obtain ⟨hlength, hlt⟩ := ih hrest
    exact ⟨congrArg Nat.succ hlength, List.forall_mem_cons.mpr ⟨nextIndex_lt hindex, hlt⟩⟩

/--
A path has an entry for each position, and each is one of the series.
-/
theorem buildSharedPath_lt {path : List ℕ} (h : (buildSharedPath philox coordinate).result = .ok path)
    : path.length = sampleLength ∧ ∀ index ∈ path, index < sampleLength := by
  rw [buildSharedPath, buildPath, Traced.result_bind] at h
  obtain ⟨initial, hinitial, h⟩ := bind_eq_ok.mp h
  rw [Traced.result_bind] at h
  obtain ⟨rest, hrest, h⟩ := bind_eq_ok.mp h
  cases h
  obtain ⟨hlength, hlt⟩ := pathFrom_lt hrest
  exact ⟨congrArg Nat.succ hlength, List.forall_mem_cons.mpr ⟨uniformBounded_lt hinitial, hlt⟩⟩

end path

section replication

theorem item_of_lt {α : Type} {l : List α} {k : ℕ} (h : k < l.length) : item l k = .ok l[k] := by
  rw [item, List.getElem?_eq_getElem h]

theorem hacSe_of_omega2 {x : List ℝ} {lagOrder : ℕ} {omega2 : ℝ}
    (h : hacOmega2 x lagOrder = .ok omega2) (n : ℕ)
    : hacSe Real.sqrt omega2 n = .ok (if omega2 = 0 then 0 else Real.sqrt (omega2 / n)) := by
  rw [hacSe, if_neg (not_lt.mpr (hacOmega2_nonneg h))]
  split <;> rfl

/--
A standard error of zero under a numerator that is not zero: no statistic exists.
-/
def Degenerate (path : List ℕ) (xbar : List ℝ) (row : List ℝ × ℕ) : Prop :=
  ∃ resampled, path.mapM (item row.1) = .ok resampled
    ∧ hacOmega2 resampled hacLag = .ok 0 ∧ hacMean resampled ≠ item xbar row.2

theorem exists_resampledStatistic {path : List ℕ} {xbar : List ℝ} {row : List ℝ × ℕ}
    (hpath : path ≠ []) (hlt : ∀ index ∈ path, index < row.1.length) (hrow : row.2 < xbar.length)
    (h : ¬ Degenerate path xbar row) : ∃ t, resampledStatistic Real.sqrt path xbar row = .ok t := by
  have hresampled : path.mapM (item row.1) = .ok (path.map (fun k => row.1.getD k 0)) := by
    refine mapM_ok_of_forall fun k hk => ?_
    rw [item_of_lt (hlt k hk), List.getD_eq_getElem?_getD, List.getElem?_eq_getElem (hlt k hk),
      Option.getD_some]
  generalize hvalues : path.map (fun k => row.1.getD k 0) = resampled at hresampled
  have hne : resampled ≠ [] := by
    rw [← hvalues, ne_eq, List.map_eq_nil_iff]
    exact hpath
  have hpos := List.length_pos_of_ne_nil hne
  obtain ⟨omega2, homega⟩ : ∃ omega2, hacOmega2 resampled hacLag = .ok omega2 :=
    ⟨_, hacOmega2_eq hne hacLag⟩
  have hmean : hacMean resampled = .ok (resampled.sum / resampled.length) := by
    rw [hacMean, if_neg (by omega)]
  rw [resampledStatistic, hresampled, ok_bind, hmean, ok_bind, item_of_lt hrow, ok_bind, homega,
    ok_bind, hacSe_of_omega2 homega, ok_bind]
  by_cases hzero : omega2 = 0
  . -- then the means agree, and the statistic is zero
    rw [if_pos hzero]
    have hsame : resampled.sum / resampled.length = xbar[row.2] := by
      by_contra hdiffer
      refine h ⟨resampled, hresampled, hzero ▸ homega, ?_⟩
      rw [hmean, item_of_lt hrow, ne_eq, Except.ok.injEq]
      exact hdiffer
    rw [stud, if_neg (lt_irrefl _), if_neg (lt_irrefl _), centeredNumerator, hsame, if_pos (sub_self _)]
    exact ⟨0, rfl⟩
  . have hse : 0 < Real.sqrt (omega2 / resampled.length) := by
      have hpositive := lt_of_le_of_ne (hacOmega2_nonneg homega) (Ne.symm hzero)
      exact Real.sqrt_pos.mpr (div_pos hpositive (Nat.cast_pos.mpr hpos))
    rw [if_neg hzero, stud, if_neg (not_lt.mpr hse.le), if_pos hse]
    exact ⟨_, rfl⟩

theorem exists_replication {philox : Philox} {coordinate : BootstrapCoordinate} {x : Panel ℝ}
    {xbar : List ℝ} {path : List ℕ} (hpath : (buildSharedPath philox coordinate).result = .ok path)
    (hxbar : xbar.length = 9) (h : ∀ row ∈ x.rows.zipIdx, ¬ Degenerate path xbar row)
    : ∃ tstar, computeOneBootstrapReplication Real.sqrt philox x xbar coordinate = .ok tstar := by
  obtain ⟨hlength, hlt⟩ := buildSharedPath_lt hpath
  have hne : path ≠ [] := by
    rintro rfl
    cases hlength
  rw [computeOneBootstrapReplication, hpath, ok_bind]
  refine exists_mapM_ok fun row hrow => ?_
  obtain ⟨-, hindex, hvalue⟩ := List.mem_zipIdx hrow
  refine exists_resampledStatistic hne (fun index hmem => ?_) ?_ (h row hrow)
  . rw [x.length_row row.1 (hvalue ▸ List.getElem_mem _)]
    exact hlt index hmem
  . rw [hxbar, ← x.length_rows]
    omega

end replication

/--
A long-run variance is never negative, that of a constant series is zero, and shifts do not change
it. So no standard error fails for its sign, and a replication fails only where a series has none.
-/
theorem long_run_variance_nonneg
    : (∀ (x : List ℝ) lagOrder, x ≠ [] →
          ∃ omega2, hacOmega2 x lagOrder = .ok omega2 ∧ 0 ≤ omega2
            ∧ ∀ n, hacSe Real.sqrt omega2 n ≠ .error .negativeLongRunVariance)
      ∧ (∀ n (v : ℝ) lagOrder, 0 < n → hacOmega2 (List.replicate n v) lagOrder = .ok 0)
      ∧ (∀ (x : List ℝ) shift lagOrder,
          hacOmega2 (x.map (· + shift)) lagOrder = hacOmega2 x lagOrder)
      ∧ ∀ philox coordinate (x : Panel ℝ) xbar path,
          (buildSharedPath philox coordinate).result = .ok path → xbar.length = 9 →
          (∀ row ∈ x.rows.zipIdx, ¬ Degenerate path xbar row) →
            ∃ tstar, computeOneBootstrapReplication Real.sqrt philox x xbar coordinate = .ok tstar := by
  refine ⟨fun x lagOrder hx => ?_, fun n v lagOrder hn => hacOmega2_replicate hn v lagOrder,
    hacOmega2_add, fun philox coordinate x xbar path hpath hxbar h => exists_replication hpath hxbar h⟩
  have homega := hacOmega2_eq hx lagOrder
  refine ⟨_, homega, hacOmega2_nonneg homega, fun n hse => ?_⟩
  rw [hacSe_of_omega2 homega] at hse
  cases hse

end H001
end Quantbot
