import Mathlib
import Quantbot.Experiment.Walkforward
import Quantbot.Util.While

/-!
When the construction of the splits ends, and how they tile the bars.
-/

namespace Quantbot
namespace Experiment

/--
The variables of the loop of `build_walkforward_splits`.
-/
structure SplitLoop where
  position : ℤ
  splits : List WalkForwardSplit

section loop

variable (count trainSize testSize stepSize : ℤ)

def windowAt (position : ℤ) : WalkForwardSplit where
  trainStart := position
  trainEnd := position + trainSize
  testStart := position + trainSize
  testEnd := position + trainSize + testSize

def SplitLoop.guard (s : SplitLoop) : Prop :=
  s.position + trainSize + testSize ≤ count

def SplitLoop.body (s : SplitLoop) : SplitLoop where
  position := s.position + stepSize
  splits := s.splits ++ [windowAt trainSize testSize s.position]

abbrev SplitLoop.Ends : SplitLoop → SplitLoop → Prop :=
  Exits (SplitLoop.guard count trainSize testSize) (SplitLoop.body trainSize testSize stepSize)

end loop

/--
`build_walkforward_splits` returns these splits.
-/
def BuildsSplits (bars : List Bar) (trainSize testSize : ℤ) (stepSize : Option ℤ)
    (splits : List WalkForwardSplit) : Prop :=
  if (bars.length : ℤ) < trainSize + testSize then
    splits = []
  else
    ∃ position, SplitLoop.Ends bars.length trainSize testSize (stepSize.getD testSize) ⟨0, []⟩
      ⟨position, splits⟩

section refinement

variable {count trainSize testSize stepSize : ℤ}

theorem ends_splitsFrom (hstep : 0 < stepSize) {fuel : ℕ} {position : ℤ}
    (hfuel : count - trainSize - testSize - position < fuel) (splits : List WalkForwardSplit)
    : ∃ last, SplitLoop.Ends count trainSize testSize stepSize ⟨position, splits⟩
        ⟨last, splits ++ splitsFrom count trainSize testSize stepSize fuel position⟩ := by
  induction fuel generalizing position splits with
  | zero =>
    refine ⟨position, ?_⟩
    rw [splitsFrom, List.append_nil]
    refine .done fun hguard => ?_
    simp only [SplitLoop.guard] at hguard
    push_cast at hfuel
    omega
  | succ fuel ih =>
    rw [splitsFrom_succ]
    split
    . next hguard =>
      have hnext : count - trainSize - testSize - (position + stepSize) < fuel := by
        push_cast at hfuel
        omega
      obtain ⟨last, hlast⟩ := ih hnext (splits ++ [windowAt trainSize testSize position])
      refine ⟨last, .next hguard ?_⟩
      rw [List.append_assoc, List.singleton_append] at hlast
      exact hlast
    . next hguard =>
      rw [List.append_nil]
      exact ⟨position, .done hguard⟩

/--
A step that does not advance keeps the loop within the bars.
-/
theorem not_ends (hstep : stepSize ≤ 0) {s : SplitLoop}
    (hs : SplitLoop.guard count trainSize testSize s) (t : SplitLoop)
    : ¬ SplitLoop.Ends count trainSize testSize stepSize s t := by
  refine Exits.not_of_guard (fun s hguard => ?_) hs t
  simp only [SplitLoop.guard, SplitLoop.body] at hguard ⊢
  omega

/--
The function of the model is what the loop returns.
-/
theorem buildsSplits_iff (bars : List Bar) (trainSize testSize : ℤ) (stepSize : Option ℤ)
    (splits : List WalkForwardSplit)
    : BuildsSplits bars trainSize testSize stepSize splits
        ↔ buildWalkforwardSplits bars trainSize testSize stepSize = some splits := by
  rw [BuildsSplits, buildWalkforwardSplits]
  split
  . rw [Option.some.injEq, eq_comm]
  . next hlength =>
    split
    . next hstep =>
      simp only [reduceCtorEq, iff_false]
      rintro ⟨position, hends⟩
      refine not_ends hstep ?_ _ hends
      simp only [SplitLoop.guard]
      omega
    . next hstep =>
      have hfuel : (bars.length : ℤ) - trainSize - testSize - 0
          < ((bars.length - trainSize - testSize).toNat + 1 : ℕ) := by
        omega
      obtain ⟨last, hlast⟩ := ends_splitsFrom (not_le.mp hstep) hfuel []
      rw [List.nil_append] at hlast
      rw [Option.some.injEq]
      constructor
      . rintro ⟨position, hends⟩
        exact congrArg SplitLoop.splits (hlast.deterministic hends)
      . rintro rfl
        exact ⟨last, hlast⟩

end refinement

section tiling

/--
The splits lie inside the bars, each train window right before its test window; nothing fits behind
the last one; and by default the test windows follow each other without a gap or an overlap.
-/
structure Tiled (count trainSize testSize : ℤ) (stepSize : Option ℤ) (splits : List WalkForwardSplit)
    : Prop where
  inside : ∀ split ∈ splits, 0 ≤ split.trainStart ∧ split.trainEnd = split.trainStart + trainSize
    ∧ split.testStart = split.trainEnd ∧ split.testEnd = split.testStart + testSize
    ∧ split.testEnd ≤ count
  maximal : count < (splits.getLast?.map
      (fun last => last.trainStart + stepSize.getD testSize)).getD 0 + trainSize + testSize
  contiguous : stepSize = none →
    splits.IsChain (fun split next => next.testStart = split.testEnd)
      ∧ splits.Pairwise (fun split later => split.testEnd ≤ later.testStart)

/--
What holds of the splits while the loop runs.
-/
structure TiledUpTo (count trainSize testSize stepSize : ℤ) (s : SplitLoop) : Prop where
  nonneg : 0 ≤ s.position
  inside : ∀ split ∈ s.splits, 0 ≤ split.trainStart ∧ split.trainEnd = split.trainStart + trainSize
    ∧ split.testStart = split.trainEnd ∧ split.testEnd = split.testStart + testSize
    ∧ split.testEnd ≤ count
  next : (s.splits.getLast?.map (fun last => last.trainStart + stepSize)).getD 0 = s.position
  contiguous : stepSize = testSize →
    s.splits.IsChain (fun split next => next.testStart = split.testEnd)
      ∧ s.splits.Pairwise (fun split later => split.testEnd ≤ later.testStart)
      ∧ ∀ split ∈ s.splits, split.testEnd ≤ s.position + trainSize

variable {count trainSize testSize stepSize : ℤ}

theorem tiledUpTo_start : TiledUpTo count trainSize testSize stepSize ⟨0, []⟩ :=
  ⟨le_rfl, nofun, rfl, fun _ => ⟨List.IsChain.nil, List.Pairwise.nil, nofun⟩⟩

theorem tiledUpTo_body (htest : 0 ≤ testSize) (hstep : 0 ≤ stepSize) {s : SplitLoop}
    (h : TiledUpTo count trainSize testSize stepSize s)
    (hguard : SplitLoop.guard count trainSize testSize s)
    : TiledUpTo count trainSize testSize stepSize (SplitLoop.body trainSize testSize stepSize s) := by
  have hnonneg := h.nonneg
  simp only [SplitLoop.guard] at hguard
  refine ⟨by simp only [SplitLoop.body]; omega, ?_, ?_, fun hdefault => ?_⟩
  . intro split hsplit
    obtain hsplit | hsplit := List.mem_append.mp hsplit
    . exact h.inside split hsplit
    . rw [List.mem_singleton.mp hsplit]
      exact ⟨hnonneg, rfl, rfl, rfl, hguard⟩
  . rw [SplitLoop.body, List.getLast?_concat]
    rfl
  . obtain ⟨hchain, hpairwise, hbefore⟩ := h.contiguous hdefault
    refine ⟨?_, ?_, ?_⟩
    . refine hchain.append (List.isChain_singleton _) ?_
      -- the position is where the last test window begins, moved by the size of one
      intro last hlast next hnext
      rw [List.head?_cons, Option.mem_some_iff] at hnext
      have hposition := h.next
      rw [Option.mem_def.mp hlast] at hposition
      simp only [Option.map_some, Option.getD_some] at hposition
      obtain ⟨-, htrainEnd, htestStart, htestEnd, -⟩ := h.inside last (List.mem_of_getLast? hlast)
      rw [← hnext]
      simp only [windowAt]
      omega
    . rw [SplitLoop.body, List.pairwise_append]
      refine ⟨hpairwise, List.pairwise_singleton _ _, fun split hsplit later hlater => ?_⟩
      rw [List.mem_singleton.mp hlater]
      exact hbefore split hsplit
    . intro split hsplit
      obtain hsplit | hsplit := List.mem_append.mp hsplit
      . have hle := hbefore split hsplit
        simp only [SplitLoop.body]
        omega
      . rw [List.mem_singleton.mp hsplit]
        simp only [SplitLoop.body, windowAt]
        omega

theorem tiled_of_ends (htest : 0 ≤ testSize) {stepSize : Option ℤ}
    (hstep : 0 ≤ stepSize.getD testSize) {t : SplitLoop}
    (h : SplitLoop.Ends count trainSize testSize (stepSize.getD testSize) ⟨0, []⟩ t)
    : Tiled count trainSize testSize stepSize t.splits := by
  have htiled := h.invariant (fun s hs hguard => tiledUpTo_body htest hstep hs hguard) tiledUpTo_start
  refine ⟨htiled.inside, ?_, fun hdefault => ?_⟩
  . have hguard := h.not_guard
    simp only [SplitLoop.guard, not_le] at hguard
    rw [htiled.next]
    exact hguard
  . have hcontiguous := htiled.contiguous (by rw [hdefault]; rfl)
    exact ⟨hcontiguous.1, hcontiguous.2.1⟩

/--
Two bars for windows of one, and a step of zero.
-/
theorem walkforward_step_zero (bar : Bar) (splits : List WalkForwardSplit)
    : ¬ BuildsSplits [bar, bar] 1 1 (some 0) splits := by
  rw [buildsSplits_iff]
  exact nofun

end tiling

end Experiment
end Quantbot
