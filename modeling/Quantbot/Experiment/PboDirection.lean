import Mathlib
import Quantbot.Experiment.Pbo

/-!
How the risk label follows the out-of-sample scores of the selected path.
-/

namespace Quantbot
namespace Experiment
namespace Pbo

section selected

variable (math : FloatMath) (metric : SelectionMetric)

/--
The scores of the path that is best in sample.
-/
def selected (paths : List (List WalkForwardSplitResult)) : Option PathScores :=
  match allScores math metric paths with
  | [] => none
  | first :: rest => some (bestInSample first rest)

/--
The same split with returns that score at least as high.
-/
structure RaisedSplit (split split' : WalkForwardSplitResult) : Prop where
  others : split' = { split with returnSeries := split'.returnSeries }
  raised : Option.Rel (· ≤ ·) (testScore math metric split) (testScore math metric split')

/--
The same paths, where the out-of-sample scores of the selected one are raised.
-/
def Raised (paths paths' : List (List WalkForwardSplitResult)) : Prop :=
  List.Forall₂ (fun path path' => path'.2 = path.2
      ∧ if (selected math metric paths).map PathScores.pathIdx = some path.2 then
          List.Forall₂ (RaisedSplit math metric) path.1 path'.1
        else
          path'.1 = path.1)
    paths.zipIdx paths'.zipIdx

/--
Among the other paths, those that the selected one beats out of sample, and those that it equals.
-/
def wins (best : PathScores) (scores : List PathScores) : ℕ :=
  scores.countP (fun s => s.pathIdx ≠ best.pathIdx ∧ s.testScore < best.testScore)

def ties (best : PathScores) (scores : List PathScores) : ℕ :=
  scores.countP (fun s => s.pathIdx ≠ best.pathIdx ∧ best.testScore = s.testScore)

end selected

section raises

variable {math : FloatMath} {metric : SelectionMetric}

theorem RaisedSplit.bothSides {path path' : List WalkForwardSplitResult}
    (h : List.Forall₂ (RaisedSplit math metric) path path')
    : List.Forall₂ (RaisedSplit math metric) (bothSides path) (bothSides path') := by
  induction h with
  | nil => exact List.Forall₂.nil
  | @cons split split' path path' hsplit _ ih =>
    have hrole : split'.splitRole = split.splitRole := by rw [hsplit.others]
    rw [Pbo.bothSides, Pbo.bothSides, List.filter_cons, List.filter_cons, hrole]
    split
    . exact List.Forall₂.cons hsplit ih
    . exact ih

theorem RaisedSplit.trainScores {path path' : List WalkForwardSplitResult}
    (h : List.Forall₂ (RaisedSplit math metric) path path')
    : path'.filterMap (trainScore metric) = path.filterMap (trainScore metric) := by
  induction h with
  | nil => rfl
  | @cons split split' path path' hsplit _ ih =>
    have htrain : trainScore metric split' = trainScore metric split := by rw [hsplit.others]; rfl
    rw [List.filterMap_cons, List.filterMap_cons, htrain, ih]

theorem RaisedSplit.testScores {path path' : List WalkForwardSplitResult}
    (h : List.Forall₂ (RaisedSplit math metric) path path')
    : List.Forall₂ (· ≤ ·) (path.filterMap (testScore math metric))
        (path'.filterMap (testScore math metric)) := by
  induction h with
  | nil => exact List.Forall₂.nil
  | @cons split split' path path' hsplit _ ih =>
    have hraised := hsplit.raised
    rw [List.filterMap_cons, List.filterMap_cons]
    cases hscore : testScore math metric split with
    | none =>
      rw [hscore] at hraised
      cases hscore' : testScore math metric split' with
      | none => exact ih
      | some _ =>
        rw [hscore'] at hraised
        cases hraised
    | some score =>
      rw [hscore] at hraised
      cases hscore' : testScore math metric split' with
      | none =>
        rw [hscore'] at hraised
        cases hraised
      | some score' =>
        rw [hscore'] at hraised
        cases hraised with
        | some hle => exact List.Forall₂.cons hle ih

theorem scoresOf_raised {path path' : List WalkForwardSplitResult} (pathIdx : ℕ)
    (h : List.Forall₂ (RaisedSplit math metric) path path')
    : (scoresOf math metric pathIdx path').trainScore = (scoresOf math metric pathIdx path).trainScore
      ∧ (scoresOf math metric pathIdx path).testScore
        ≤ (scoresOf math metric pathIdx path').testScore := by
  have hboth := RaisedSplit.bothSides h
  have htrain := RaisedSplit.trainScores hboth
  have htest := RaisedSplit.testScores hboth
  have hlength := htest.length_eq
  have hnil : (bothSides path').filterMap (testScore math metric) = []
      ↔ (bothSides path).filterMap (testScore math metric) = [] := by
    rw [← List.length_eq_zero_iff, ← List.length_eq_zero_iff, hlength]
  simp only [scoresOf, htrain, hnil]
  split
  . exact ⟨rfl, le_rfl⟩
  . refine ⟨rfl, ?_⟩
    rw [← hlength]
    exact div_le_div_of_nonneg_right htest.sum_le_sum (Nat.cast_nonneg _)

/--
Scores of one path before and after a raise, which only that of the selected path feels.
-/
structure RaisedScores (selectedIdx : Option ℕ) (s s' : PathScores) : Prop where
  pathIdx : s'.pathIdx = s.pathIdx
  trainScore : s'.trainScore = s.trainScore
  le : s.testScore ≤ s'.testScore
  eq : selectedIdx ≠ some s.pathIdx → s'.testScore = s.testScore

theorem Raised.scores {paths paths' : List (List WalkForwardSplitResult)}
    (h : Raised math metric paths paths')
    : List.Forall₂ (RaisedScores ((selected math metric paths).map PathScores.pathIdx))
        (allScores math metric paths) (allScores math metric paths') := by
  rw [allScores, allScores, List.forall₂_map_left_iff, List.forall₂_map_right_iff]
  refine h.imp fun path path' hpath => ?_
  obtain ⟨hidx, hpath⟩ := hpath
  have hpathIdx (i : ℕ) (splits : List WalkForwardSplitResult)
      : (scoresOf math metric i splits).pathIdx = i := by
    rw [scoresOf]
    split <;> rfl
  rw [hidx]
  split at hpath
  . next hselected =>
    obtain ⟨htrain, htest⟩ := scoresOf_raised path.2 hpath
    refine ⟨by rw [hpathIdx, hpathIdx], htrain, htest, fun hne => absurd hselected ?_⟩
    rw [hpathIdx] at hne
    exact hne
  . rw [hpath]
    exact ⟨rfl, rfl, le_rfl, fun _ => rfl⟩

theorem bestInSample_raised {selectedIdx : Option ℕ} {first first' : PathScores}
    {rest rest' : List PathScores} (hfirst : RaisedScores selectedIdx first first')
    (hrest : List.Forall₂ (RaisedScores selectedIdx) rest rest')
    : RaisedScores selectedIdx (bestInSample first rest) (bestInSample first' rest') := by
  induction hrest generalizing first first' with
  | nil => exact hfirst
  | @cons s s' rest rest' hs _ ih =>
    rw [bestInSample, bestInSample, List.foldl_cons, List.foldl_cons, ← bestInSample, ← bestInSample,
      hs.trainScore, hfirst.trainScore]
    split
    . exact ih hs
    . exact ih hfirst

end raises

section label

/--
What the selected path earns against one other path, in twentieths.
-/
def points (best s : PathScores) : ℕ :=
  if s.pathIdx = best.pathIdx then 0
  else if s.testScore < best.testScore then 20
  else if best.testScore = s.testScore then 10
  else 0

theorem sum_points (best : PathScores) (scores : List PathScores)
    : (scores.map (points best)).sum = 20 * wins best scores + 10 * ties best scores := by
  induction scores with
  | nil => rfl
  | cons s scores ih =>
    rw [List.map_cons, List.sum_cons, ih, wins, wins, ties, ties, List.countP_cons, List.countP_cons,
      points]
    by_cases hself : s.pathIdx = best.pathIdx
    . simp [hself]
    . by_cases hlt : s.testScore < best.testScore
      . have hne : best.testScore ≠ s.testScore := hlt.ne'
        simp [hself, hlt, hne]
        ring
      . by_cases heq : best.testScore = s.testScore
        . simp [hself, heq]
          ring
        . simp [hself, hlt, heq]

theorem credit_eq (best s : PathScores) : credit best s = points best s / 20 := by
  rw [credit, points]
  split
  . norm_num
  . split
    . norm_num
    . split
      . norm_num
      . norm_num

theorem sum_credit (best : PathScores) (scores : List PathScores)
    : (scores.map (credit best)).sum
        = ((20 * wins best scores + 10 * ties best scores : ℕ) : ℚ) / 20 := by
  rw [← sum_points]
  induction scores with
  | nil => simp
  | cons s scores ih =>
    rw [List.map_cons, List.sum_cons, ih, List.map_cons, List.sum_cons, credit_eq]
    push_cast
    ring

/--
A raise of the selected path leaves no other path further ahead of it.
-/
theorem points_le {selectedIdx : Option ℕ} {best best' s s' : PathScores}
    (hbest : RaisedScores selectedIdx best best') (hselected : selectedIdx = some best.pathIdx)
    (h : RaisedScores selectedIdx s s') : points best s ≤ points best' s' := by
  rw [points, points, h.pathIdx, hbest.pathIdx]
  split
  . exact le_rfl
  . next hself =>
    have htest : s'.testScore = s.testScore := by
      refine h.eq ?_
      rw [hselected, ne_eq, Option.some.injEq]
      exact fun heq => hself heq.symm
    have hle := hbest.le
    rw [htest]
    split
    . next hlt => rw [if_pos (hlt.trans_le hle)]
    . split
      . next heq =>
        rw [← heq]
        split
        . omega
        . next hnot => rw [if_pos (le_antisymm (not_lt.mp hnot) hle)]
      . exact Nat.zero_le _

theorem sum_points_le {selectedIdx : Option ℕ} {best best' : PathScores}
    {scores scores' : List PathScores} (hbest : RaisedScores selectedIdx best best')
    (hselected : selectedIdx = some best.pathIdx)
    (h : List.Forall₂ (RaisedScores selectedIdx) scores scores')
    : (scores.map (points best)).sum ≤ (scores'.map (points best')).sum := by
  refine List.Forall₂.sum_le_sum ?_
  rw [List.forall₂_map_left_iff, List.forall₂_map_right_iff]
  exact h.imp fun s s' hs => points_le hbest hselected hs

/--
How bad a label is.
-/
def PboStatus.risk : PboStatus → ℕ
  | insufficientData => 0
  | lowOverfitRisk => 1
  | elevatedOverfitRisk => 2
  | highOverfitRisk => 3

/--
The label of the paths.
-/
def statusOf (math : FloatMath) (metric : SelectionMetric)
    (paths : List (List WalkForwardSplitResult)) (origin : Origin) : PboStatus :=
  classifyPboStatus (some (computePbo math metric paths origin).pbo)
    (some (computePbo math metric paths origin).pathCount)

theorem length_allScores (math : FloatMath) (metric : SelectionMetric)
    (paths : List (List WalkForwardSplitResult))
    : (allScores math metric paths).length = paths.length := by
  rw [allScores, List.length_map, List.length_zipIdx]

/--
The label compares the wins and the ties with the number of the other paths.
-/
theorem statusOf_eq {math : FloatMath} {metric : SelectionMetric}
    {paths : List (List WalkForwardSplitResult)} (origin : Origin) (hlength : 3 ≤ paths.length)
    {best : PathScores} (hbest : selected math metric paths = some best)
    : statusOf math metric paths origin
        =
      if ((allScores math metric paths).map (points best)).sum ≤ paths.length - 1 then
        .lowOverfitRisk
      else if ((allScores math metric paths).map (points best)).sum ≤ 3 * (paths.length - 1) then
        .elevatedOverfitRisk
      else
        .highOverfitRisk := by
  have hscores := length_allScores math metric paths
  rw [selected] at hbest
  match hall : allScores math metric paths with
  | [] =>
    rw [hall] at hbest
    cases hbest
  | [_] =>
    rw [hall, List.length_singleton] at hscores
    omega
  | first :: second :: rest =>
    rw [hall] at hbest hscores
    cases hbest
    have hothers : (first :: second :: rest).length - 1 = paths.length - 1 := by rw [hscores]
    have hpos : 0 < paths.length - 1 := by omega
    have hposQ : (0 : ℚ) < (paths.length - 1 : ℕ) := Nat.cast_pos.mpr hpos
    have hnot : ¬ (paths.length : ℤ) < insufficientPathCount := by
      rw [insufficientPathCount]
      omega
    rw [statusOf, computePbo, hall]
    dsimp only
    rw [classifyPboStatus, if_neg hnot, hothers, if_pos hpos, sum_credit, ← sum_points, div_div,
      lowRiskThreshold, elevatedRiskThreshold]
    generalize ((first :: second :: rest).map (points (bestInSample first (second :: rest)))).sum = u
    generalize paths.length - 1 = m at hposQ
    have hlow : (u : ℚ) / (20 * m) ≤ 5 / 100 ↔ u ≤ m := by
      rw [div_le_div_iff₀ (by positivity) (by norm_num)]
      constructor
      . intro h
        have hle : (u : ℚ) ≤ m := by linarith
        exact_mod_cast hle
      . intro h
        have hle : (u : ℚ) ≤ m := by exact_mod_cast h
        linarith
    have helevated : (u : ℚ) / (20 * m) ≤ 15 / 100 ↔ u ≤ 3 * m := by
      rw [div_le_div_iff₀ (by positivity) (by norm_num)]
      constructor
      . intro h
        have hle : (u : ℚ) ≤ 3 * m := by linarith
        exact_mod_cast hle
      . intro h
        have hle : (u : ℚ) ≤ 3 * m := by exact_mod_cast h
        linarith
    simp only [hlow, helevated]

end label

section direction

variable {math : FloatMath} {metric : SelectionMetric}
  {paths paths' : List (List WalkForwardSplitResult)}

/--
Twenty times the number of other paths that the selected one beats out of sample, where a tie counts
half.
-/
def beaten (math : FloatMath) (metric : SelectionMetric)
    (paths : List (List WalkForwardSplitResult)) : ℕ :=
  match selected math metric paths with
  | none => 0
  | some best =>
    20 * wins best (allScores math metric paths) + 10 * ties best (allScores math metric paths)

/--
Every other path is ahead of the selected one out of sample.
-/
def BeatenByAll (math : FloatMath) (metric : SelectionMetric)
    (paths : List (List WalkForwardSplitResult)) : Prop :=
  ∀ best ∈ selected math metric paths, ∀ s ∈ allScores math metric paths,
    s.pathIdx ≠ best.pathIdx → best.testScore < s.testScore

theorem exists_selected (h : paths ≠ []) : ∃ best, selected math metric paths = some best := by
  have hlength := length_allScores math metric paths
  rw [selected]
  cases hall : allScores math metric paths with
  | nil =>
    rw [hall, List.length_nil] at hlength
    exact absurd (List.length_eq_zero_iff.mp hlength.symm) h
  | cons first rest => exact ⟨_, rfl⟩

theorem statusOf_eq_beaten (origin : Origin) (hlength : 3 ≤ paths.length)
    : statusOf math metric paths origin
        =
      if beaten math metric paths ≤ paths.length - 1 then
        .lowOverfitRisk
      else if beaten math metric paths ≤ 3 * (paths.length - 1) then
        .elevatedOverfitRisk
      else
        .highOverfitRisk := by
  have hne : paths ≠ [] := by
    rintro rfl
    cases hlength
  obtain ⟨best, hbest⟩ : ∃ best, selected math metric paths = some best := exists_selected hne
  rw [statusOf_eq origin hlength hbest, beaten, hbest, sum_points]

theorem Raised.length (h : Raised math metric paths paths') : paths'.length = paths.length := by
  have hlength := List.Forall₂.length_eq h
  rw [List.length_zipIdx, List.length_zipIdx] at hlength
  exact hlength.symm

/--
A raise can only add to what is beaten.
-/
theorem Raised.beaten_le (h : Raised math metric paths paths')
    : beaten math metric paths ≤ beaten math metric paths' := by
  have hscores := h.scores
  rw [beaten, beaten]
  cases hall : allScores math metric paths with
  | nil =>
    rw [selected, hall]
    exact Nat.zero_le _
  | cons first rest =>
    have hselected : selected math metric paths = some (bestInSample first rest) := by
      rw [selected, hall]
    rw [hselected, Option.map_some, hall] at hscores
    cases hall' : allScores math metric paths' with
    | nil =>
      rw [hall'] at hscores
      cases hscores
    | cons first' rest' =>
      rw [hall'] at hscores
      have hselected' : selected math metric paths' = some (bestInSample first' rest') := by
        rw [selected, hall']
      obtain - | ⟨hfirst, hrest⟩ := hscores
      have hbest := bestInSample_raised hfirst hrest
      rw [hselected, hselected']
      dsimp only
      rw [← sum_points, ← sum_points]
      exact sum_points_le hbest rfl (List.Forall₂.cons hfirst hrest)

theorem beaten_of_beatenByAll (h : BeatenByAll math metric paths) : beaten math metric paths = 0 := by
  rw [beaten]
  cases hselected : selected math metric paths with
  | none => rfl
  | some best =>
    have hwins : wins best (allScores math metric paths) = 0 := by
      rw [wins, List.countP_eq_zero]
      intro s hs hwin
      obtain ⟨hother, hlt⟩ := of_decide_eq_true hwin
      exact absurd (h best hselected s hs hother) hlt.asymm
    have hties : ties best (allScores math metric paths) = 0 := by
      rw [ties, List.countP_eq_zero]
      intro s hs htie
      obtain ⟨hother, heq⟩ := of_decide_eq_true htie
      exact (h best hselected s hs hother).ne heq
    dsimp only
    rw [hwins, hties]

/--
A path of one split with a return on each side.
-/
def onePath (train test : ℚ) : List WalkForwardSplitResult :=
  [{
    splitIndex := 0
    trainBarCount := 2
    testBarCount := 2
    signalCount := 1
    counts := { long := 1, short := 0, flat := 0 }
    receiptPath := none
    artifactPath := none
    firstTimestamp := ""
    lastTimestamp := ""
    economicsSummary := none
    returnSummary := none
    returnSeries := some { ReturnSeries.empty with netReturns := [test] }
    inferenceSummary := none
    trainInferenceSummary := some (InferenceSummary.ofEmpty none)
    trainReturnSummary := some { ReturnSummary.empty with netReturnTotal := train }
    splitRole := "both"
  }]

def noMath : FloatMath :=
  ⟨id, id, id⟩

/--
The first path has the highest train score, and comes last out of sample or first.
-/
def threePaths (test : ℚ) : List (List WalkForwardSplitResult) :=
  [onePath 3 test, onePath 2 0, onePath 1 1]

theorem raised_threePaths : Raised noMath .netReturn (threePaths (-1)) (threePaths 2) := by
  have hselected : (selected noMath .netReturn (threePaths (-1))).map PathScores.pathIdx = some 0 := by
    decide +kernel
  have hscore : testScore noMath .netReturn ((onePath 3 (-1)).head (List.cons_ne_nil _ _)) = some (-1)
      ∧ testScore noMath .netReturn ((onePath 3 2).head (List.cons_ne_nil _ _)) = some 2 := by
    decide +kernel
  have hsplit : RaisedSplit noMath .netReturn ((onePath 3 (-1)).head (List.cons_ne_nil _ _))
      ((onePath 3 2).head (List.cons_ne_nil _ _)) := by
    refine ⟨rfl, ?_⟩
    rw [hscore.1, hscore.2]
    exact Option.Rel.some (by norm_num)
  rw [Raised, hselected]
  exact List.Forall₂.cons ⟨rfl, List.Forall₂.cons hsplit List.Forall₂.nil⟩
    (List.Forall₂.cons ⟨rfl, rfl⟩ (List.Forall₂.cons ⟨rfl, rfl⟩ List.Forall₂.nil))

def noOrigin : Origin :=
  ⟨none, none, none⟩

end direction

end Pbo
end Experiment
end Quantbot
