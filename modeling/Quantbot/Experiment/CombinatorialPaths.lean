import Mathlib
import Quantbot.Experiment.Pbo

/-!
When the combinatorial paths are distinct and as many as they should be.
-/

namespace Quantbot
namespace Experiment
namespace Pbo

section product

/--
An index for each split that it has an option for.
-/
def ValidPath (path : List ℕ) (splits : List (List ℚ)) : Prop :=
  List.Forall₂ (fun optIdx splitOpts => optIdx < splitOpts.length) path splits

def pathNumber (splits : List (List ℚ)) : ℕ :=
  (splits.map List.length).prod

/--
All paths with one more index.
-/
def lengthen (paths : List (List ℕ)) (n : ℕ) : List (List ℕ) :=
  paths.flatMap (fun path => (List.range n).map (fun optIdx => path ++ [optIdx]))

theorem mem_lengthen {paths : List (List ℕ)} {n : ℕ} {path : List ℕ}
    : path ∈ lengthen paths n ↔ ∃ front ∈ paths, ∃ optIdx < n, front ++ [optIdx] = path := by
  simp only [lengthen, List.mem_flatMap, List.mem_map, List.mem_range]

theorem nodup_lengthen {paths : List (List ℕ)} (h : paths.Nodup) (n : ℕ)
    : (lengthen paths n).Nodup := by
  rw [lengthen, List.nodup_flatMap]
  constructor
  . intro front _
    refine List.nodup_range.map fun i j hij => ?_
    exact (List.append_inj' hij rfl).2 |> List.singleton_inj.mp
  . refine h.imp fun {front front'} hne path hpath hpath' => ?_
    obtain ⟨i, -, rfl⟩ := List.mem_map.mp hpath
    obtain ⟨j, -, heq⟩ := List.mem_map.mp hpath'
    exact hne (List.append_inj' heq rfl).1.symm

theorem mem_foldl_lengthen {rest : List (List ℚ)} {paths : List (List ℕ)} {path : List ℕ}
    : path ∈ rest.foldl (fun paths splitOpts => lengthen paths splitOpts.length) paths
        ↔ ∃ front ∈ paths, ∃ tail, ValidPath tail rest ∧ front ++ tail = path := by
  induction rest generalizing paths with
  | nil =>
    constructor
    . intro h
      exact ⟨path, h, [], List.Forall₂.nil, List.append_nil path⟩
    . rintro ⟨front, hfront, tail, htail, rfl⟩
      cases htail
      rw [List.append_nil]
      exact hfront
  | cons splitOpts rest ih =>
    rw [List.foldl_cons, ih]
    constructor
    . rintro ⟨front, hfront, tail, htail, rfl⟩
      obtain ⟨start, hstart, optIdx, hlt, rfl⟩ := mem_lengthen.mp hfront
      refine ⟨start, hstart, optIdx :: tail, List.Forall₂.cons hlt htail, ?_⟩
      rw [List.append_assoc, List.singleton_append]
    . rintro ⟨front, hfront, tail, htail, rfl⟩
      obtain - | ⟨hlt, htail⟩ := htail
      refine ⟨front ++ [_], mem_lengthen.mpr ⟨front, hfront, _, hlt, rfl⟩, _, htail, ?_⟩
      rw [List.append_assoc, List.singleton_append]

theorem nodup_foldl_lengthen (rest : List (List ℚ)) {paths : List (List ℕ)} (h : paths.Nodup)
    : (rest.foldl (fun paths splitOpts => lengthen paths splitOpts.length) paths).Nodup := by
  induction rest generalizing paths with
  | nil => exact h
  | cons splitOpts rest ih => exact ih (nodup_lengthen h _)

/--
The product holds every valid path, and each once.
-/
theorem mem_cartesianProduct (first : List ℚ) (rest : List (List ℚ)) (path : List ℕ)
    : path ∈ cartesianProduct (first :: rest) ↔ ValidPath path (first :: rest) := by
  change path ∈ rest.foldl (fun paths splitOpts => lengthen paths splitOpts.length) _ ↔ _
  rw [mem_foldl_lengthen]
  constructor
  . rintro ⟨front, hfront, tail, htail, rfl⟩
    obtain ⟨i, hi, rfl⟩ := List.mem_map.mp hfront
    exact List.Forall₂.cons (List.mem_range.mp hi) htail
  . intro h
    obtain - | ⟨hlt, htail⟩ := h
    exact ⟨[_], List.mem_map.mpr ⟨_, List.mem_range.mpr hlt, rfl⟩, _, htail, rfl⟩

theorem nodup_cartesianProduct (splits : List (List ℚ)) : (cartesianProduct splits).Nodup := by
  cases splits with
  | nil => exact List.nodup_nil
  | cons first rest =>
    refine nodup_foldl_lengthen rest (List.nodup_range.map fun i j hij => ?_)
    exact List.singleton_inj.mp hij

end product

section total

theorem one_le_pathNumber {splits : List (List ℚ)} (h : ∀ splitOpts ∈ splits, splitOpts ≠ [])
    : 1 ≤ pathNumber splits := by
  refine Nat.one_le_iff_ne_zero.mpr ?_
  rw [pathNumber, ne_eq, List.prod_eq_zero_iff, List.mem_map]
  rintro ⟨splitOpts, hmem, hzero⟩
  exact h splitOpts hmem (List.length_eq_zero_iff.mp hzero)

/--
Leaving the product early makes no difference, since options never make it smaller.
-/
theorem totalPaths_le_iff {splits : List (List ℚ)} (h : ∀ splitOpts ∈ splits, splitOpts ≠ [])
    (maxPaths total : ℕ)
    : totalPaths maxPaths total splits ≤ maxPaths ↔ total * pathNumber splits ≤ maxPaths := by
  induction splits generalizing total with
  | nil => rw [totalPaths, pathNumber, List.map_nil, List.prod_nil, Nat.mul_one]
  | cons splitOpts rest ih =>
    have hrest := (List.forall_mem_cons.mp h).2
    have hproduct : total * pathNumber (splitOpts :: rest)
        = total * splitOpts.length * pathNumber rest := by
      rw [pathNumber, List.map_cons, List.prod_cons, ← pathNumber, Nat.mul_assoc]
    rw [totalPaths, hproduct]
    split
    . next hfar =>
      have hone := one_le_pathNumber hrest
      have hle : total * splitOpts.length ≤ total * splitOpts.length * pathNumber rest :=
        Nat.le_mul_of_pos_right _ hone
      constructor
      . intro hcap
        omega
      . intro hcap
        omega
    . exact ih hrest _

end total

section samples

variable {first : List ℚ} {rest : List (List ℚ)}

def aligned (rest : List (List ℚ)) (i : ℕ) : List ℕ :=
  i :: (rest.zipIdx 1).map (fun split => i % split.1.length)

def shifted (rest : List (List ℚ)) (offset : ℕ) : List ℕ :=
  offset :: (rest.zipIdx 1).map (fun split => (offset + split.2) % split.1.length)

theorem pyMod_eq (a : ℕ) {b : ℕ} (hb : b ≠ 0) : pyMod a b = .ok (a % b) := by
  rw [pyMod, if_neg hb]

theorem alignedPath_eq (h : ∀ splitOpts ∈ rest, splitOpts ≠ []) (i : ℕ)
    : alignedPath rest i = .ok (aligned rest i) := by
  have htail : rest.mapM (fun splitOpts => pyMod i splitOpts.length)
      = .ok (rest.map (fun splitOpts => i % splitOpts.length)) :=
    mapM_ok_of_forall fun splitOpts hmem => pyMod_eq i fun hzero =>
      h splitOpts hmem (List.length_eq_zero_iff.mp hzero)
  have hzip : rest.map (fun splitOpts => i % splitOpts.length)
      = (rest.zipIdx 1).map (fun split => i % split.1.length) := by
    conv_lhs => rw [← List.zipIdx_map_fst 1 rest, List.map_map]
    rfl
  rw [alignedPath, htail, ok_bind, aligned, hzip]

theorem shiftedPath_eq (h : ∀ splitOpts ∈ rest, splitOpts ≠ []) (offset : ℕ)
    : shiftedPath rest offset = .ok (shifted rest offset) := by
  have htail : (rest.zipIdx 1).mapM (fun split => pyMod (offset + split.2) split.1.length)
      = .ok ((rest.zipIdx 1).map (fun split => (offset + split.2) % split.1.length)) :=
    mapM_ok_of_forall fun split hmem => pyMod_eq _ fun hzero =>
      h split.1 (List.fst_mem_of_mem_zipIdx hmem) (List.length_eq_zero_iff.mp hzero)
  rw [shiftedPath, htail, ok_bind, shifted]

theorem addShifted_eq (h : ∀ splitOpts ∈ rest, splitOpts ≠ []) (maxPaths : ℕ)
    (paths : List (List ℕ)) (offsets : List ℕ)
    : addShifted rest maxPaths paths offsets
        = .ok (paths ++ (offsets.take (maxPaths - paths.length)).map (shifted rest)) := by
  induction offsets generalizing paths with
  | nil => rw [addShifted, List.take_nil, List.map_nil, List.append_nil]
  | cons offset offsets ih =>
    rw [addShifted]
    split
    . next hfull =>
      rw [Nat.sub_eq_zero_of_le hfull, List.take_zero, List.map_nil, List.append_nil]
    . next hroom =>
      have hlength : maxPaths - paths.length = maxPaths - (paths ++ [shifted rest offset]).length + 1 := by
        rw [List.length_append, List.length_singleton]
        omega
      rw [shiftedPath_eq h, ok_bind, ih, hlength, List.take_succ_cons, List.map_cons,
        List.append_assoc, List.singleton_append]

theorem samplePaths_eq (h : ∀ splitOpts ∈ rest, splitOpts ≠ []) (maxPaths : ℕ)
    : samplePaths (first :: rest) maxPaths
        = .ok ((List.range (min maxPaths first.length)).map (aligned rest)
          ++ ((List.range' 1 (first.length - 1)).take (maxPaths - first.length)).map (shifted rest)) := by
  have haligned : (List.range (min maxPaths first.length)).mapM (alignedPath rest)
      = .ok ((List.range (min maxPaths first.length)).map (aligned rest)) :=
    mapM_ok_of_forall fun i _ => alignedPath_eq h i
  have hroom : maxPaths - ((List.range (min maxPaths first.length)).map (aligned rest)).length
      = maxPaths - first.length := by
    rw [List.length_map, List.length_range]
    omega
  rw [samplePaths, haligned, ok_bind, addShifted_eq h, hroom]

theorem aligned_injective (rest : List (List ℚ)) : Function.Injective (aligned rest) :=
  fun _ _ heq => (List.cons.inj heq).1

theorem shifted_injective (rest : List (List ℚ)) : Function.Injective (shifted rest) :=
  fun _ _ heq => (List.cons.inj heq).1

theorem validPath_map_mod (h : ∀ splitOpts ∈ rest, splitOpts ≠ []) (f : ℕ → ℕ) (k : ℕ)
    : ValidPath ((rest.zipIdx k).map (fun split => f split.2 % split.1.length)) rest := by
  induction rest generalizing k with
  | nil => exact List.Forall₂.nil
  | cons splitOpts rest ih =>
    obtain ⟨hne, hrest⟩ := List.forall_mem_cons.mp h
    exact List.Forall₂.cons (Nat.mod_lt _ (List.length_pos_of_ne_nil hne)) (ih hrest (k + 1))

theorem validPath_aligned (h : ∀ splitOpts ∈ rest, splitOpts ≠ []) {i : ℕ} (hi : i < first.length)
    : ValidPath (aligned rest i) (first :: rest) :=
  List.Forall₂.cons hi (validPath_map_mod h (fun _ => i) 1)

theorem validPath_shifted (h : ∀ splitOpts ∈ rest, splitOpts ≠ []) {offset : ℕ}
    (hoffset : offset < first.length) : ValidPath (shifted rest offset) (first :: rest) :=
  List.Forall₂.cons hoffset (validPath_map_mod h (fun k => offset + k) 1)

theorem add_mod_eq_iff (a b n : ℕ) : (a + b) % n = a % n ↔ n ∣ b := by
  have hdvd := Nat.modEq_iff_dvd' (n := n) (Nat.le_add_right a b)
  rw [Nat.add_sub_cancel_left] at hdvd
  exact eq_comm.trans hdvd

/--
A shifted path is an aligned one only where every split has a number of options that divides its own
number.
-/
theorem shifted_eq_aligned_iff {offset i : ℕ}
    : shifted rest offset = aligned rest i
        ↔ offset = i ∧ ∀ split ∈ rest.zipIdx 1, split.1.length ∣ split.2 := by
  rw [shifted, aligned, List.cons.injEq, List.map_inj_left]
  constructor
  . rintro ⟨rfl, htail⟩
    exact ⟨rfl, fun split hsplit => (add_mod_eq_iff _ _ _).mp (htail split hsplit)⟩
  . rintro ⟨rfl, hdvd⟩
    exact ⟨rfl, fun split hsplit => (add_mod_eq_iff _ _ _).mpr (hdvd split hsplit)⟩

end samples

section good

/--
Paths as they should be: distinct and valid, all of them up to the cap and otherwise as many as it.
-/
structure GoodPaths (splits : List (List ℚ)) (maxPaths : ℕ) (paths : List (List ℕ)) : Prop where
  nodup : paths.Nodup
  valid : ∀ path ∈ paths, ValidPath path splits
  complete : pathNumber splits ≤ maxPaths → ∀ path, ValidPath path splits → path ∈ paths
  capped : maxPaths < pathNumber splits → paths.length = maxPaths

/--
The paths number at most the cap, or the first split has as many options as that, or the shifted
paths fill the rest and differ from the aligned ones.
-/
def PathsFit (splits : List (List ℚ)) (maxPaths : ℕ) : Prop :=
  pathNumber splits ≤ maxPaths
    ∨ maxPaths ≤ (splits.headD []).length
    ∨ maxPaths ≤ 2 * (splits.headD []).length - 1
      ∧ ∃ split ∈ splits.tail.zipIdx 1, ¬ split.1.length ∣ split.2

variable {first : List ℚ} {rest : List (List ℚ)} {maxPaths : ℕ}

theorem goodPaths_cartesianProduct (h : pathNumber (first :: rest) ≤ maxPaths)
    : GoodPaths (first :: rest) maxPaths (cartesianProduct (first :: rest)) :=
  ⟨nodup_cartesianProduct _, fun path hpath => (mem_cartesianProduct first rest path).mp hpath,
    fun _ path hvalid => (mem_cartesianProduct first rest path).mpr hvalid,
    fun hmany => absurd h (not_le.mpr hmany)⟩

/--
The paths of the sampler: the aligned ones, and the shifted ones that there is room for.
-/
def sampled (first : List ℚ) (rest : List (List ℚ)) (maxPaths : ℕ) : List (List ℕ) :=
  (List.range (min maxPaths first.length)).map (aligned rest)
    ++ ((List.range' 1 (first.length - 1)).take (maxPaths - first.length)).map (shifted rest)

theorem length_sampled
    : (sampled first rest maxPaths).length
        = min maxPaths first.length + min (maxPaths - first.length) (first.length - 1) := by
  rw [sampled, List.length_append, List.length_map, List.length_range, List.length_map,
    List.length_take, List.length_range']

theorem valid_sampled (h : ∀ splitOpts ∈ rest, splitOpts ≠ [])
    : ∀ path ∈ sampled first rest maxPaths, ValidPath path (first :: rest) := by
  intro path hpath
  obtain hpath | hpath := List.mem_append.mp hpath
  . obtain ⟨i, hi, rfl⟩ := List.mem_map.mp hpath
    exact validPath_aligned h (lt_of_lt_of_le (List.mem_range.mp hi) (min_le_right _ _))
  . obtain ⟨offset, hoffset, rfl⟩ := List.mem_map.mp hpath
    have hrange := List.mem_range'_1.mp (List.mem_of_mem_take hoffset)
    exact validPath_shifted h (by omega)

/--
The sampled paths are distinct when there are no shifted ones, or these differ from the others.
-/
theorem nodup_sampled
    (h : maxPaths ≤ first.length ∨ ∃ split ∈ rest.zipIdx 1, ¬ split.1.length ∣ split.2)
    : (sampled first rest maxPaths).Nodup := by
  rw [sampled, List.nodup_append]
  refine ⟨List.nodup_range.map (aligned_injective rest),
    ((List.nodup_range' (s := 1) (n := first.length - 1)).sublist (List.take_sublist _ _)).map
      (shifted_injective rest), ?_⟩
  intro path hpath path' hpath' heq
  obtain ⟨i, -, rfl⟩ := List.mem_map.mp hpath
  obtain ⟨offset, hoffset, rfl⟩ := List.mem_map.mp hpath'
  obtain hfull | ⟨split, hsplit, hnot⟩ := h
  . rw [Nat.sub_eq_zero_of_le hfull, List.take_zero] at hoffset
    cases hoffset
  . exact hnot ((shifted_eq_aligned_iff.mp heq.symm).2 split hsplit)

/--
Where all numbers of options divide, the first shifted path is an aligned one.
-/
theorem not_nodup_sampled (hroom : first.length < maxPaths) (htwo : 2 ≤ first.length)
    (hdvd : ∀ split ∈ rest.zipIdx 1, split.1.length ∣ split.2)
    : ¬ (sampled first rest maxPaths).Nodup := by
  intro hnodup
  rw [sampled, List.nodup_append] at hnodup
  have haligned : aligned rest 1 ∈ (List.range (min maxPaths first.length)).map (aligned rest) :=
    List.mem_map_of_mem (List.mem_range.mpr (by omega))
  have hshifted : shifted rest 1
      ∈ ((List.range' 1 (first.length - 1)).take (maxPaths - first.length)).map (shifted rest) := by
    refine List.mem_map_of_mem ?_
    obtain ⟨k, hk⟩ := Nat.exists_eq_add_of_lt (Nat.sub_pos_of_lt hroom)
    obtain ⟨l, hl⟩ := Nat.exists_eq_add_of_lt (by omega : 0 < first.length - 1)
    rw [hk, hl, Nat.zero_add, Nat.zero_add, List.range'_succ, List.take_succ_cons]
    exact List.mem_cons_self
  exact hnodup.2.2 _ haligned _ hshifted (shifted_eq_aligned_iff.mpr ⟨rfl, hdvd⟩).symm

theorem goodPaths_sampled_iff (hrest : ∀ splitOpts ∈ rest, splitOpts ≠ [])
    (hmany : maxPaths < pathNumber (first :: rest))
    : GoodPaths (first :: rest) maxPaths (sampled first rest maxPaths)
        ↔ maxPaths ≤ first.length
          ∨ maxPaths ≤ 2 * first.length - 1 ∧ ∃ split ∈ rest.zipIdx 1, ¬ split.1.length ∣ split.2 := by
  constructor
  . intro hgood
    have hlength := hgood.capped hmany
    rw [length_sampled] at hlength
    by_cases hfull : maxPaths ≤ first.length
    . exact .inl hfull
    . refine .inr ⟨by omega, ?_⟩
      by_contra hnone
      push Not at hnone
      exact not_nodup_sampled (not_le.mp hfull) (by omega) hnone hgood.nodup
  . intro hfit
    refine ⟨nodup_sampled (hfit.imp_right And.right), valid_sampled hrest,
      fun hfew => absurd hfew (not_le.mpr hmany), fun _ => ?_⟩
    have hroom : maxPaths ≤ first.length ∨ maxPaths ≤ 2 * first.length - 1 :=
      hfit.imp_right And.left
    clear hfit
    rw [length_sampled]
    omega

theorem generatePaths_good_iff (hopts : ∀ splitOpts ∈ first :: rest, splitOpts ≠ [])
    : (∃ paths, generatePaths (first :: rest) maxPaths = .ok paths
          ∧ GoodPaths (first :: rest) maxPaths paths)
        ↔ PathsFit (first :: rest) maxPaths := by
  obtain ⟨-, hrest⟩ := List.forall_mem_cons.mp hopts
  have htotal := totalPaths_le_iff hopts maxPaths 1
  rw [Nat.one_mul] at htotal
  rw [generatePaths, if_neg (List.cons_ne_nil first rest), PathsFit, List.headD_cons, List.tail_cons]
  by_cases hfew : pathNumber (first :: rest) ≤ maxPaths
  . rw [if_pos (htotal.mpr hfew)]
    exact ⟨fun _ => .inl hfew, fun _ => ⟨_, rfl, goodPaths_cartesianProduct hfew⟩⟩
  . have hsample : samplePaths (first :: rest) maxPaths = .ok (sampled first rest maxPaths) :=
      samplePaths_eq hrest maxPaths
    rw [if_neg fun h => hfew (htotal.mp h), hsample,
      ← goodPaths_sampled_iff hrest (not_le.mp hfew)]
    constructor
    . rintro ⟨paths, heq, hgood⟩
      cases heq
      exact .inr hgood
    . intro h
      exact ⟨_, rfl, h.resolve_left hfew⟩

end good

section dispersion

variable (math : FloatMath)

/--
Two splits have different metrics.
-/
def Differ (returnSeriesList : List ReturnSeries) : Prop :=
  ∃ series ∈ returnSeriesList, ∃ series' ∈ returnSeriesList,
    splitMetric math series ≠ splitMetric math series'

/--
One option a split leaves one path.
-/
theorem generatePaths_singletons {metrics : List ℚ} {maxPaths : ℕ} (hcap : 1 ≤ maxPaths)
    {paths : List (List ℕ)}
    (h : generatePaths (metrics.map (fun metric => [metric])) maxPaths = .ok paths)
    : paths.length ≤ 1 := by
  cases metrics with
  | nil =>
    cases h
    exact Nat.zero_le _
  | cons metric metrics =>
    have hone : ∀ splitOpts ∈ (metric :: metrics).map (fun metric => [metric]),
        splitOpts.length = 1 := by
      intro splitOpts hmem
      obtain ⟨m, -, rfl⟩ := List.mem_map.mp hmem
      rfl
    have hnumber : pathNumber ((metric :: metrics).map (fun metric => [metric])) = 1 := by
      rw [pathNumber]
      refine List.prod_eq_one fun n hn => ?_
      obtain ⟨splitOpts, hmem, rfl⟩ := List.mem_map.mp hn
      exact hone splitOpts hmem
    have hopts : ∀ splitOpts ∈ (metric :: metrics).map (fun metric => [metric]), splitOpts ≠ [] := by
      rintro splitOpts hmem rfl
      cases hone [] hmem
    have htotal := (totalPaths_le_iff hopts maxPaths 1).mpr (by rw [hnumber]; exact hcap)
    rw [generatePaths, if_neg (by exact List.cons_ne_nil _ _), if_pos htotal] at h
    cases h
    rw [List.map_cons]
    -- every path picks the only option of each split
    have hzero : ∀ path ∈ cartesianProduct ([metric] :: metrics.map (fun metric => [metric])),
        path = List.replicate (metrics.length + 1) 0 := by
      intro path hpath
      have hvalid := (mem_cartesianProduct _ _ path).mp hpath
      rw [List.eq_replicate_iff]
      constructor
      . rw [hvalid.length_eq, List.length_cons, List.length_map]
      . intro i hi
        obtain ⟨splitOpts, hmem, hlt⟩ := forall₂_mem_right hvalid.flip hi
        have hlength := hone splitOpts hmem
        omega
    have hall := List.eq_replicate_of_mem hzero
    have hnodup := nodup_cartesianProduct ([metric] :: metrics.map (fun metric => [metric]))
    rw [hall] at hnodup
    exact List.nodup_replicate.mp hnodup

/--
Two splits with different metrics are two splits, and their metrics are no set of one element.
-/
theorem two_metrics {returnSeriesList : List ReturnSeries} (hdiffer : Differ math returnSeriesList)
    : ¬ (returnSeriesList.map (splitMetric math)).dedup.length ≤ 1 := by
  obtain ⟨series, hmem, series', hmem', hne⟩ := hdiffer
  have hmetric := List.mem_dedup.mpr (List.mem_map_of_mem (f := splitMetric math) hmem)
  have hmetric' := List.mem_dedup.mpr (List.mem_map_of_mem (f := splitMetric math) hmem')
  intro hone
  obtain hzero | hone := Nat.le_one_iff_eq_zero_or_eq_one.mp hone
  . rw [List.length_eq_zero_iff.mp hzero] at hmetric
    cases hmetric
  . obtain ⟨metric, heq⟩ := List.length_eq_one_iff.mp hone
    rw [heq, List.mem_singleton] at hmetric hmetric'
    exact hne (hmetric.trans hmetric'.symm)

theorem pathCount_le_one {returnSeriesList : List ReturnSeries} {origin : Origin}
    {summary : PathDispersionSummary} (hdiffer : Differ math returnSeriesList)
    (h : computePathDispersion math returnSeriesList origin = .ok summary)
    : summary.pathCount ≤ 1 := by
  have htwo := two_metrics math hdiffer
  unfold computePathDispersion at h
  split at h
  . cases h
    exact Nat.zero_le _
  . cases h
    exact le_refl 1
  . rw [if_neg htwo] at h
    obtain ⟨paths, hpaths, h⟩ := bind_eq_ok.mp h
    have hlength := generatePaths_singletons (by decide) hpaths
    split at h
    . cases h
      exact Nat.zero_le _
    . obtain ⟨scores, -, h⟩ := bind_eq_ok.mp h
      cases h
      exact hlength

/--
The generator meets its purpose exactly where its paths fit. Behind it, no two splits may have
different metrics, because every split offers one option and so there is only one path.
-/
theorem combinatorial_paths_iff {splits : List (List ℚ)} (hne : splits ≠ [])
    (hopts : ∀ splitOpts ∈ splits, splitOpts ≠ []) {maxPaths : ℕ}
    (returnSeriesList : List ReturnSeries) (origin : Origin)
    : ((∃ paths, generatePaths splits maxPaths = .ok paths ∧ GoodPaths splits maxPaths paths)
          ∧ (Differ math returnSeriesList →
            ∃ summary, computePathDispersion math returnSeriesList origin = .ok summary
              ∧ 1 < summary.pathCount))
        ↔ PathsFit splits maxPaths ∧ ¬ Differ math returnSeriesList := by
  obtain ⟨first, rest, rfl⟩ := List.exists_cons_of_ne_nil hne
  refine and_congr (generatePaths_good_iff hopts) ⟨?_, fun hsame hdiffer => absurd hdiffer hsame⟩
  intro hmany hdiffer
  obtain ⟨summary, hsummary, hcount⟩ := hmany hdiffer
  exact absurd (pathCount_le_one math hdiffer hsummary) (not_le.mpr hcount)

/--
Two options and three options have six paths, of which the sampler finds three.
-/
def twoAndThree : List (List ℚ) :=
  [[0, 0], [0, 0, 0]]

theorem combinatorial_paths_twoAndThree
    : ((∃ paths, generatePaths twoAndThree 6 = .ok paths ∧ GoodPaths twoAndThree 6 paths)
          ∧ (Differ ⟨id, id, id⟩ [ReturnSeries.empty] →
            ∃ summary, computePathDispersion ⟨id, id, id⟩ [ReturnSeries.empty] ⟨none, none, none⟩
                = .ok summary
              ∧ 1 < summary.pathCount))
        ↔ PathsFit twoAndThree 6 ∧ ¬ Differ ⟨id, id, id⟩ [ReturnSeries.empty] :=
  combinatorial_paths_iff _ (by decide) (by decide) _ _

theorem sampler_runs_out
    : ¬ ∀ (splits : List (List ℚ)) (maxPaths : ℕ), splits ≠ [] →
        (∀ splitOpts ∈ splits, splitOpts ≠ []) → 1 ≤ maxPaths →
        ∃ paths, generatePaths splits maxPaths = .ok paths ∧ GoodPaths splits maxPaths paths := by
  intro h
  obtain ⟨paths, hpaths, hgood⟩ := h twoAndThree 5 (by decide) (by decide) (by decide)
  have hthree : generatePaths twoAndThree 5 = .ok [[0, 0], [1, 1], [1, 2]] := by
    decide +kernel
  have hlength := hgood.capped (by decide)
  rw [hthree] at hpaths
  cases hpaths
  cases hlength

end dispersion

end Pbo
end Experiment
end Quantbot
