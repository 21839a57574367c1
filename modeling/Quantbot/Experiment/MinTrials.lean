import Quantbot.Experiment.StageOne

/-!
The minimum of trials in the first stage's verdict.
-/

namespace Quantbot
namespace Experiment
namespace StageOne

section records

variable (math : FloatMath) (draw : ℕ → ℕ → ℕ → ℕ)

def RegimeRecord.stats (r : RegimeRecord) : BootstrapStats :=
  if r.returns.isEmpty then noStats else bootstrapStats math draw r.returns

/--
The bootstrap interval of a regime includes zero.
-/
def RegimeRecord.zeroInside (r : RegimeRecord) : Bool :=
  (r.stats math draw).ciLower ≤ 0 ∧ 0 ≤ (r.stats math draw).ciUpper

/--
A regime beats its benchmark with a positive return.
-/
def RegimeRecord.passes (r : RegimeRecord) : Bool :=
  0 < r.tsmmReturn - r.benchmarkReturn ∧ r.sign = "positive"

def RegimeRecord.enough (r : RegimeRecord) : Bool :=
  minTrials ≤ r.trials

/--
The regimes of the splits, in the order of the loop.
-/
def records (results : List SplitResult) : List RegimeRecord :=
  results.flatMap (fun result => [lowRecord result, highRecord result])

/--
Enough of the regimes pass, and no more than half have zero in their interval.
-/
def Reaches (l : List RegimeRecord) : Prop :=
  3 * max l.length 1 ≤ 5 * l.countP RegimeRecord.passes
    ∧ 2 * l.countP (RegimeRecord.zeroInside math draw) ≤ max l.length 1

theorem count_map {α : Type} (f : α → Bool) (l : List α) : (l.map f).count true = l.countP f := by
  rw [List.count, List.countP_map]
  exact List.countP_congr fun a _ => by simp

theorem diagnostics_of_enough {result : SplitResult} {regime : VolRegime} {r : RegimeRecord}
    (hr : record result regime = some r) (h : r.enough = true)
    : ∃ diag, computeRegimeDiagnostics math draw result regime = some diag
        ∧ diag.passRegime = r.passes ∧ diag.ciIncludesZero = r.zeroInside math draw
        ∧ minTrials ≤ diag.trialCount := by
  have henough : minTrials ≤ r.trials := of_decide_eq_true h
  unfold computeRegimeDiagnostics
  rw [hr]
  simp only [Option.bind_eq_bind, Option.bind_some, if_neg (Nat.not_lt.mpr henough)]
  refine ⟨_, rfl, ?_, rfl, henough⟩
  simp [RegimeDiagnostics.passRegime, RegimeRecord.passes, henough]

theorem diagnostics_of_not_enough {result : SplitResult} {regime : VolRegime} {r : RegimeRecord}
    (hr : record result regime = some r) (h : ¬r.enough = true)
    : computeRegimeDiagnostics math draw result regime = none := by
  have hshort : r.trials < minTrials := Nat.lt_of_not_le fun henough => h (decide_eq_true henough)
  unfold computeRegimeDiagnostics
  rw [hr]
  simp only [Option.bind_eq_bind, Option.bind_some, if_pos hshort]

/--
Diagnostics say of their regimes what the records say, each regime has enough trials.
-/
structure Sees (diags : List RegimeDiagnostics) (l : List RegimeRecord) : Prop where
  passes : diags.map RegimeDiagnostics.passRegime = l.map RegimeRecord.passes
  zeroInside : diags.map RegimeDiagnostics.ciIncludesZero = l.map (RegimeRecord.zeroInside math draw)
  enough : ∀ diag ∈ diags, minTrials ≤ diag.trialCount

variable {math draw}

theorem sees_nil : Sees math draw [] [] :=
  ⟨rfl, rfl, fun _ h => absurd h List.not_mem_nil⟩

theorem Sees.append {diags diags' : List RegimeDiagnostics} {l l' : List RegimeRecord}
    (h : Sees math draw diags l) (h' : Sees math draw diags' l')
    : Sees math draw (diags ++ diags') (l ++ l') where
  passes := by rw [List.map_append, List.map_append, h.passes, h'.passes]
  zeroInside := by rw [List.map_append, List.map_append, h.zeroInside, h'.zeroInside]
  enough := fun diag hdiag => (List.mem_append.mp hdiag).elim (h.enough diag) (h'.enough diag)

theorem sees_record (result : SplitResult) (regime : VolRegime) {r : RegimeRecord}
    (hr : record result regime = some r)
    : Sees math draw ([regime].filterMap (computeRegimeDiagnostics math draw result))
        ([r].filter RegimeRecord.enough) := by
  by_cases h : r.enough = true
  . obtain ⟨diag, hdiag, hpasses, hzero, hcount⟩ := diagnostics_of_enough math draw hr h
    rw [List.filterMap_cons_some hdiag, List.filter_cons_of_pos h]
    refine ⟨congrArg (· :: []) hpasses, congrArg (· :: []) hzero, fun diag' hdiag' => ?_⟩
    rw [List.mem_singleton.mp hdiag']
    exact hcount
  . rw [List.filterMap_cons_none (diagnostics_of_not_enough math draw hr h),
      List.filter_cons_of_neg h]
    exact sees_nil

/--
The loop sees the regimes with enough trials and no others.
-/
theorem sees_records (results : List SplitResult)
    : Sees math draw (regimeDiagnostics math draw results)
        ((records results).filter RegimeRecord.enough) := by
  induction results with
  | nil => exact sees_nil
  | cons result results ih =>
    have hlow : Sees math draw _ _ := sees_record result .lowVol rfl
    have hhigh : Sees math draw _ _ := sees_record result .highVol rfl
    have h := (hlow.append hhigh).append ih
    rw [← List.filterMap_append, ← List.filter_append, ← List.filter_append] at h
    exact h

theorem le_fractionOf {a b : ℕ} (hb : 0 < b) (flags : List Bool)
    : (a : ℚ) / b ≤ fractionOf flags ↔ a * max flags.length 1 ≤ b * flags.count true := by
  have hn : 0 < max flags.length 1 := Nat.lt_of_lt_of_le one_pos (le_max_right _ _)
  rw [fractionOf,
    div_le_div_iff₀ (Nat.cast_pos.mpr hb) (Nat.cast_pos.mpr hn), mul_comm b]
  exact_mod_cast Iff.rfl

theorem fractionOf_le {a b : ℕ} (hb : 0 < b) (flags : List Bool)
    : fractionOf flags ≤ (a : ℚ) / b ↔ b * flags.count true ≤ a * max flags.length 1 := by
  have hn : 0 < max flags.length 1 := Nat.lt_of_lt_of_le one_pos (le_max_right _ _)
  rw [fractionOf,
    div_le_div_iff₀ (Nat.cast_pos.mpr hn) (Nat.cast_pos.mpr hb), mul_comm b]
  exact_mod_cast Iff.rfl

/--
The diagnostics of a regime with too few trials are missing, so that the flag never falls.
-/
theorem allRegimesAdequateTrials_eq (quartersCovered : List String) (results : List SplitResult)
    : (stage1Verdict math draw quartersCovered results).allRegimesAdequateTrials = true := by
  have hsees : Sees math draw _ _ := sees_records results
  refine List.all_eq_true.mpr fun diag hdiag => decide_eq_true ?_
  exact Nat.not_lt.mpr (hsees.enough diag hdiag)

theorem verdict_pass_iff (quartersCovered : List String) (results : List SplitResult)
    : (stage1Verdict math draw quartersCovered results).verdict = .pass
        ↔ Reaches math draw ((records results).filter RegimeRecord.enough) := by
  have hsees : Sees math draw _ _ := sees_records results
  have hadequate
      : (stage1Verdict math draw quartersCovered results).allRegimesAdequateTrials = true :=
    allRegimesAdequateTrials_eq quartersCovered results
  generalize (records results).filter RegimeRecord.enough = kept at hsees ⊢
  have hpass := le_fractionOf (a := 6) (b := 10) (by decide) (kept.map RegimeRecord.passes)
  have hzero := fractionOf_le (a := 1) (b := 2) (by decide)
    (kept.map (RegimeRecord.zeroInside math draw))
  rw [count_map, List.length_map] at hpass hzero
  unfold stage1Verdict at hadequate ⊢
  dsimp only at hadequate ⊢
  rw [hadequate, hsees.passes, hsees.zeroInside]
  generalize fractionOf (kept.map RegimeRecord.passes) = passFraction at hpass ⊢
  generalize fractionOf (kept.map (RegimeRecord.zeroInside math draw)) = zeroInCiFrac at hzero ⊢
  have hreaches : 6 / 10 ≤ passFraction ∧ decide (1 / 2 < zeroInCiFrac) = false ∧ true = true
      ↔ Reaches math draw kept := by
    rw [decide_eq_false_iff_not, not_lt, and_iff_left rfl]
    refine and_congr (Iff.trans ?_ (hpass.trans ?_)) (Iff.trans ?_ (hzero.trans ?_))
    . norm_num
    . omega
    . norm_num
    . rw [one_mul]
  rw [← hreaches]
  split
  . exact iff_of_true rfl (by assumption)
  . refine iff_of_false ?_ (by assumption)
    split <;> exact fun h => by cases h

end records

section removal

variable (math : FloatMath) (draw : ℕ → ℕ → ℕ → ℕ)

/--
Every regime of every split has enough trials.
-/
def Adequate (results : List SplitResult) : Prop :=
  ∀ r ∈ records results, minTrials ≤ r.trials

/--
The passing regimes miss their share by so little that one regime less makes up for it.
-/
def OneShort (l : List RegimeRecord) : Prop :=
  let n := l.length
  let p := l.countP RegimeRecord.passes
  let z := l.countP (RegimeRecord.zeroInside math draw)
  5 * p < 3 * n ∧ 3 * n ≤ 5 * p + 3
    ∧ (2 * z < n ∨ 2 * z = n ∧ ∃ r ∈ l, r.passes = false ∧ r.zeroInside math draw = true)

/--
One regime of one split is replaced by a version with too few trials; of the other regime the split
records what it did.
-/
inductive Thinned : List SplitResult → List SplitResult → Prop where
  | low (before after : List SplitResult) (result result' : SplitResult)
    (hshort : (lowRecord result').trials < minTrials) (hother : highRecord result' = highRecord result)
    : Thinned (before ++ result :: after) (before ++ result' :: after)
  | high (before after : List SplitResult) (result result' : SplitResult)
    (hshort : (highRecord result').trials < minTrials) (hother : lowRecord result' = lowRecord result)
    : Thinned (before ++ result :: after) (before ++ result' :: after)

variable {math draw}

theorem records_append (results results' : List SplitResult)
    : records (results ++ results') = records results ++ records results' :=
  List.flatMap_append

theorem records_cons (result : SplitResult) (results : List SplitResult)
    : records (result :: results) = lowRecord result :: highRecord result :: records results :=
  rfl

theorem length_records (results : List SplitResult)
    : (records results).length = 2 * results.length := by
  induction results with
  | nil => rfl
  | cons result results ih =>
    rw [records_cons, List.length_cons, List.length_cons, List.length_cons, ih]
    omega

theorem countP_middle {α : Type} (f : α → Bool) (before after : List α) (a : α)
    : (before ++ a :: after).countP f = (before ++ after).countP f + (f a).toNat := by
  rw [List.countP_append, List.countP_append, List.countP_cons]
  cases f a <;> simp [Nat.add_assoc]

/--
Removing one regime helps exactly where one is short.
-/
theorem oneShort_iff {l : List RegimeRecord} {m : ℕ} (hlength : l.length = 2 * m)
    : OneShort math draw l ↔ ∃ before r after, l = before ++ r :: after ∧ ¬Reaches math draw l
        ∧ Reaches math draw (before ++ after) := by
  unfold OneShort Reaches
  dsimp only
  constructor
  . rintro ⟨hless, hclose, hzero⟩
    have hr : ∃ r ∈ l, r.passes = false ∧ (2 * l.countP (RegimeRecord.zeroInside math draw) < l.length
        ∨ r.zeroInside math draw = true) := by
      rcases hzero with hzero | ⟨-, r, hr, hpasses, hinside⟩
      . by_contra hall
        have hevery : ∀ r ∈ l, r.passes = true := fun r hr => by
          by_contra hpasses
          exact hall ⟨r, hr, Bool.eq_false_of_not_eq_true hpasses, .inl hzero⟩
        have hcount := List.countP_eq_length.mpr hevery
        omega
      . exact ⟨r, hr, hpasses, .inr hinside⟩
    obtain ⟨r, hr, hpasses, hinside⟩ := hr
    obtain ⟨before, after, rfl⟩ := List.append_of_mem hr
    have hp := countP_middle RegimeRecord.passes before after r
    have hz := countP_middle (RegimeRecord.zeroInside math draw) before after r
    have hn : (before ++ r :: after).length = (before ++ after).length + 1 := by simp [Nat.add_assoc]
    rw [hpasses, Bool.toNat_false] at hp
    refine ⟨before, r, after, rfl, by omega, by omega, ?_⟩
    rcases hinside with hinside | hinside
    . omega
    . rw [hinside, Bool.toNat_true] at hz
      rcases hzero with hzero | ⟨hzero, -⟩ <;> omega
  . rintro ⟨before, r, after, rfl, hfirst, hp', hz'⟩
    have hp := countP_middle RegimeRecord.passes before after r
    have hz := countP_middle (RegimeRecord.zeroInside math draw) before after r
    have hn : (before ++ r :: after).length = (before ++ after).length + 1 := by simp [Nat.add_assoc]
    have hmem : r ∈ before ++ r :: after := List.mem_append_right _ List.mem_cons_self
    cases hpasses : r.passes with
    | true =>
      rw [hpasses, Bool.toNat_true] at hp
      cases hinside : r.zeroInside math draw with
      | true =>
        rw [hinside, Bool.toNat_true] at hz
        omega
      | false =>
        rw [hinside, Bool.toNat_false] at hz
        omega
    | false =>
      rw [hpasses, Bool.toNat_false] at hp
      cases hinside : r.zeroInside math draw with
      | true =>
        rw [hinside, Bool.toNat_true] at hz
        refine ⟨by omega, by omega, ?_⟩
        by_cases hhalf : 2 * (before ++ r :: after).countP (RegimeRecord.zeroInside math draw)
            < (before ++ r :: after).length
        . exact .inl hhalf
        . exact .inr ⟨by omega, r, hmem, hpasses, hinside⟩
      | false =>
        rw [hinside, Bool.toNat_false] at hz
        exact ⟨by omega, by omega, .inl (by omega)⟩

theorem filter_enough {results : List SplitResult} (h : Adequate results)
    : (records results).filter RegimeRecord.enough = records results :=
  List.filter_eq_self.mpr fun r hr => decide_eq_true (h r hr)

theorem filter_short {result : SplitResult} {f : SplitResult → RegimeRecord}
    (h : (f result).trials < minTrials) (l : List RegimeRecord)
    : (f result :: l).filter RegimeRecord.enough = l.filter RegimeRecord.enough :=
  List.filter_cons_of_neg fun henough => Nat.not_lt.mpr (of_decide_eq_true henough) h

theorem filter_full {r : RegimeRecord} (h : minTrials ≤ r.trials) (l : List RegimeRecord)
    : (r :: l).filter RegimeRecord.enough = r :: l.filter RegimeRecord.enough :=
  List.filter_cons_of_pos (decide_eq_true h)

theorem adequate_append {results results' : List SplitResult}
    : Adequate (results ++ results') ↔ Adequate results ∧ Adequate results' := by
  unfold Adequate
  rw [records_append, List.forall_mem_append]

theorem adequate_cons {result : SplitResult} {results : List SplitResult}
    : Adequate (result :: results) ↔ minTrials ≤ (lowRecord result).trials
        ∧ minTrials ≤ (highRecord result).trials ∧ Adequate results := by
  unfold Adequate
  rw [records_cons, List.forall_mem_cons, List.forall_mem_cons]

/--
What the loop sees of adequate splits with one regime thinned.
-/
theorem kept_of_thinned {results results' : List SplitResult} (h : Adequate results)
    (hthinned : Thinned results results')
    : ∃ before r after, records results = before ++ r :: after
        ∧ (records results').filter RegimeRecord.enough = before ++ after := by
  cases hthinned with
  | low before after result result' hshort hother =>
    obtain ⟨hbefore, hrest⟩ := adequate_append.mp h
    obtain ⟨hlow, hhigh, hafter⟩ := adequate_cons.mp hrest
    refine ⟨records before, lowRecord result, highRecord result :: records after, ?_, ?_⟩
    . rw [records_append, records_cons]
    . rw [records_append, List.filter_append, filter_enough hbefore, records_cons,
        filter_short hshort, hother, filter_full hhigh, filter_enough hafter]
  | high before after result result' hshort hother =>
    obtain ⟨hbefore, hrest⟩ := adequate_append.mp h
    obtain ⟨hlow, hhigh, hafter⟩ := adequate_cons.mp hrest
    refine ⟨records before ++ [lowRecord result], highRecord result, records after, ?_, ?_⟩
    . rw [records_append, records_cons, List.append_assoc, List.singleton_append]
    . rw [records_append, List.filter_append, filter_enough hbefore, records_cons, hother,
        filter_full hlow, filter_short hshort, filter_enough hafter,
        List.append_assoc, List.singleton_append]

theorem Thinned.cons {results results' : List SplitResult} (h : Thinned results results')
    (result : SplitResult) : Thinned (result :: results) (result :: results') := by
  cases h with
  | low before after r r' hshort hother => exact .low (result :: before) after r r' hshort hother
  | high before after r r' hshort hother => exact .high (result :: before) after r r' hshort hother

/--
Every regime can be the one that is thinned.
-/
theorem exists_thinned {results : List SplitResult} (h : Adequate results)
    {before after : List RegimeRecord} {r : RegimeRecord}
    (hr : records results = before ++ r :: after)
    : ∃ results', Thinned results results'
        ∧ (records results').filter RegimeRecord.enough = before ++ after := by
  induction results generalizing before with
  | nil => simp [records] at hr
  | cons result results ih =>
    obtain ⟨hlow, hhigh, hrest⟩ := adequate_cons.mp h
    rw [records_cons] at hr
    cases before with
    | nil =>
      obtain ⟨-, rfl⟩ := List.cons.inj hr
      have hshort : (lowRecord { result with tsmmLowVolTrials := 0 }).trials < minTrials :=
        Nat.succ_pos 4
      refine ⟨_, .low [] results result _ hshort rfl, ?_⟩
      rw [List.nil_append, records_cons, filter_short hshort]
      exact (filter_full hhigh _).trans (congrArg _ (filter_enough hrest))
    | cons low before =>
      obtain ⟨rfl, htail⟩ := List.cons.inj hr
      cases before with
      | nil =>
        obtain ⟨-, rfl⟩ := List.cons.inj htail
        have hshort : (highRecord { result with tsmmHighVolTrials := 0 }).trials < minTrials :=
          Nat.succ_pos 4
        refine ⟨_, .high [] results result _ hshort rfl, ?_⟩
        rw [List.nil_append, records_cons, filter_full (by exact hlow), filter_short hshort,
          filter_enough hrest]
        rfl
      | cons high before =>
        obtain ⟨rfl, hrecords⟩ := List.cons.inj htail
        obtain ⟨results', hthinned, hkept⟩ := ih hrest hrecords
        refine ⟨result :: results', hthinned.cons result, ?_⟩
        rw [records_cons, filter_full hlow, filter_full hhigh, hkept]
        rfl

end removal

section verdict

variable (math : FloatMath) (draw : ℕ → ℕ → ℕ → ℕ) (quartersCovered : List String)

/--
A verdict passes with enough trials everywhere only, the flag says whether there are, and fewer trials
of a regime never make a verdict pass.
-/
structure HonoursMinTrials (results : List SplitResult) : Prop where
  pass : (stage1Verdict math draw quartersCovered results).verdict = .pass → Adequate results
  flag : (stage1Verdict math draw quartersCovered results).allRegimesAdequateTrials = true
    ↔ Adequate results
  removal : ∀ results', Thinned results results' →
    (stage1Verdict math draw quartersCovered results).verdict ≠ .pass →
      (stage1Verdict math draw quartersCovered results').verdict ≠ .pass

/--
The minimum is honoured where every regime reaches it anyway and none can tip the verdict by falling
out of the count.
-/
theorem stage1_honours_iff (results : List SplitResult)
    : HonoursMinTrials math draw quartersCovered results
        ↔ Adequate results ∧ ¬OneShort math draw (records results) := by
  constructor
  . intro h
    have hadequate := h.flag.mp (allRegimesAdequateTrials_eq quartersCovered results)
    refine ⟨hadequate, fun hshort => ?_⟩
    obtain ⟨before, r, after, hl, hfirst, hrest⟩ :=
      (oneShort_iff (length_records results)).mp hshort
    obtain ⟨results', hthinned, hkept⟩ := exists_thinned hadequate hl
    refine h.removal results' hthinned ?_ ?_
    . rwa [ne_eq, verdict_pass_iff, filter_enough hadequate]
    . rwa [verdict_pass_iff, hkept]
  . rintro ⟨hadequate, hshort⟩
    refine ⟨fun _ => hadequate, iff_of_true (allRegimesAdequateTrials_eq _ _) hadequate, ?_⟩
    intro results' hthinned hfirst hpass
    rw [ne_eq, verdict_pass_iff, filter_enough hadequate] at hfirst
    rw [verdict_pass_iff] at hpass
    obtain ⟨before, r, after, hl, hkept⟩ := kept_of_thinned hadequate hthinned
    rw [hkept] at hpass
    exact hshort ((oneShort_iff (length_records results)).mpr ⟨before, r, after, hl, hfirst, hpass⟩)

end verdict

section halfSkipped

theorem bootMeans_replicate (n : ℕ) (x : ℚ)
    : bootMeans (fun _ _ _ => 0) (List.replicate (n + 1) x) = List.replicate bootstrapN x := by
  have hmean (k : ℕ) : sampleMean (fun _ _ _ => 0) (List.replicate (n + 1) x) k = x := by
    have hn : ((n + 1 : ℕ) : ℚ) ≠ 0 := Nat.cast_ne_zero.mpr (Nat.succ_ne_zero n)
    simp only [sampleMean, List.length_replicate, List.getElem?_replicate, Nat.succ_pos, if_true,
      Option.getD_some, List.map_const', List.length_range, List.sum_replicate, nsmul_eq_mul]
    rw [mul_div_cancel_left₀ x hn]
  unfold bootMeans
  generalize bootstrapN = samples
  rw [List.map_congr_left fun k _ => hmean k, List.map_const', List.length_range]
  exact List.perm_replicate.mp (List.perm_insertionSort (· ≤ ·) (List.replicate samples x))

/--
One regime with five equal gains, the other without any trial.
-/
def halfSkipped : SplitResult where
  splitIndex := 0
  testStart := "2021-10-01"
  testEnd := "2022-01-01"
  universeSymbols := ["BTCUSDT"]
  paramReturnPeriod := 20
  paramThreshold := 0
  tsmmLowVolReturn := 5
  tsmmLowVolTrials := 5
  tsmmLowVolSign := "positive"
  tsmmLowVolReturns := List.replicate 5 1
  tsmmHighVolReturn := 0
  tsmmHighVolTrials := 0
  tsmmHighVolSign := "negative"
  tsmmHighVolReturns := []
  benchmarkLowVolReturn := 0
  benchmarkHighVolReturn := 0
  tsmmTotalReturn := 5
  tsmmTotalTrials := 5
  benchmarkTotalReturn := 0
  tsmmLowVolReturnNet := 5
  tsmmHighVolReturnNet := 0
  tsmmTotalReturnNet := 5

theorem pass_with_half_skipped
    : (stage1Verdict sampleMath (fun _ _ _ => 0) ["2021-10-01"] [halfSkipped]).verdict = .pass
        ∧ (stage1Verdict sampleMath (fun _ _ _ => 0) ["2021-10-01"]
            [halfSkipped]).allRegimesAdequateTrials = true
        ∧ ¬Adequate [halfSkipped] := by
  have hlower : ((lowRecord halfSkipped).stats sampleMath (fun _ _ _ => 0)).ciLower = 1 := by
    have hindex : (Sqlite.truncate ((bootstrapN : ℕ) * bootstrapAlpha / 2)).toNat < bootstrapN := by
      decide +kernel
    have hstats : (lowRecord halfSkipped).stats sampleMath (fun _ _ _ => 0)
        = bootstrapStats sampleMath (fun _ _ _ => 0) (List.replicate 5 1) :=
      if_neg fun h => by cases h
    rw [hstats, bootstrapStats, if_neg (by decide), bootMeans_replicate]
    dsimp only
    rw [List.length_replicate, List.getElem?_replicate, if_pos hindex]
    rfl
  have hlow : ¬(lowRecord halfSkipped).zeroInside sampleMath (fun _ _ _ => 0) = true := by
    intro h
    have hzero := (of_decide_eq_true h).1
    rw [hlower] at hzero
    exact absurd hzero (by decide)
  refine ⟨?_, allRegimesAdequateTrials_eq _ _, fun h => ?_⟩
  . rw [verdict_pass_iff]
    have hkept : (records [halfSkipped]).filter RegimeRecord.enough = [lowRecord halfSkipped] := rfl
    rw [hkept, Reaches, List.countP_cons_of_neg hlow]
    decide +kernel
  . have hhigh : highRecord halfSkipped ∈ records [halfSkipped] :=
      List.mem_cons_of_mem _ List.mem_cons_self
    exact absurd (h _ hhigh) (by decide)

end halfSkipped

end StageOne
end Experiment
end Quantbot
