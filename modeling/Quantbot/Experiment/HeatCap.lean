import Mathlib
import Quantbot.Experiment.VolnormPortfolio

/-!
The window behind a tracked volatility, and when the cap bounds the heat of all active symbols.
-/

namespace Quantbot
namespace Experiment
namespace Volnorm

variable {K : Type} [Field K] [LinearOrder K]

section window

variable {α : Type}

/--
A buffer that drops its first element when it is too long holds the last ones.
-/
theorem rtake_concat (lookback : ℤ) (l : List α) (a : α)
    : (l ++ [a]).rtake lookback.toNat
        =
      if lookback < (l.rtake lookback.toNat ++ [a]).length then
        (l.rtake lookback.toNat ++ [a]).drop 1
      else
        l.rtake lookback.toNat ++ [a] := by
  have hlength : (l.rtake lookback.toNat).length = min lookback.toNat l.length := by
    rw [List.rtake, List.length_drop]
    omega
  rw [List.length_append, List.length_singleton, hlength]
  split
  . next hlong =>
    by_cases hzero : lookback.toNat = 0
    . rw [hzero, List.rtake_zero, List.rtake_zero]
      rfl
    . have hdrop : l.length + 1 - lookback.toNat = l.length - lookback.toNat + 1 := by
        omega
      have hle : l.length - lookback.toNat + 1 ≤ l.length := by
        omega
      rw [List.rtake, List.rtake, List.length_append, List.length_singleton, hdrop,
        List.drop_append_of_le_length hle, List.drop_append_of_le_length, List.drop_drop]
      rw [List.length_drop]
      omega
  . next hshort =>
    have hall : l.length + 1 - lookback.toNat = 0 := by
      omega
    have hall' : l.length - lookback.toNat = 0 := by
      omega
    rw [List.rtake, List.rtake, List.length_append, List.length_singleton, hall, hall',
      List.drop_zero, List.drop_zero]

namespace ReturnHistory

/--
Every update leaves the statistics of the window.
-/
theorem tracker_eq (history : ReturnHistory K)
    : history.tracker = (VolatilityTracker.start history).recompute history.window := by
  suffices ∀ returns : List K, returns.foldl VolatilityTracker.update (VolatilityTracker.start history)
      = (VolatilityTracker.start history).recompute (returns.rtake history.lookback.toNat) from
    this history.returns
  intro returns
  induction returns using List.reverseRecOn with
  | nil =>
    rw [List.foldl_nil, List.rtake_nil, VolatilityTracker.recompute]
    simp [VolatilityTracker.start]
  | append_singleton returns logReturn ih =>
    rw [List.foldl_append, List.foldl_cons, List.foldl_nil, ih, VolatilityTracker.update,
      rtake_concat]
    rfl

/--
Two histories of one tracker that end in the same returns give the same volatility.
-/
theorem volatility_eq (sqrt : K → K) {history history' : ReturnHistory K}
    (hlookback : history.lookback = history'.lookback) (hfloor : history.floor = history'.floor)
    (hwindow : history.window = history'.window)
    : history.tracker.volatility sqrt = history'.tracker.volatility sqrt := by
  have hstart : VolatilityTracker.start history = VolatilityTracker.start history' := by
    unfold VolatilityTracker.start
    congr 1
  rw [tracker_eq, tracker_eq, hwindow, hstart]

end ReturnHistory

end window

section cap

variable (sqrt : K → K) (volTrackers : List (String × VolatilityTracker K))

theorem dictKeys_of_nodup {symbols : List String} (h : symbols.Nodup)
    : dictKeys symbols = symbols := by
  rw [dictKeys, List.dedup_eq_self.mpr (List.nodup_reverse.mpr h), List.reverse_reverse]

omit [LinearOrder K] in
theorem weightOf_map {symbols : List String} (h : symbols.Nodup) (f : String → K) {symbol : String}
    (hmem : symbol ∈ symbols)
    : weightOf (symbols.map (fun symbol => (symbol, f symbol))) symbol = f symbol := by
  have hkeys : ((symbols.map (fun symbol => (symbol, f symbol))).map Prod.fst).Nodup := by
    rw [List.map_map]
    exact (List.map_id symbols).symm ▸ h
  rw [weightOf, JsonValue.lookup_of_mem hkeys (List.mem_map.mpr ⟨symbol, hmem, rfl⟩), Option.getD_some]

/--
The heat of the tracked symbols, for a weight of each symbol.
-/
def trackedHeat (activeSymbols : List String) (f : String → K) : K :=
  (activeSymbols.filterMap fun symbol => (volTrackers.lookup symbol).map
    fun tracker => f symbol * tracker.volatility sqrt).sum

theorem portfolioHeat_map {activeSymbols : List String} (h : activeSymbols.Nodup) (f : String → K)
    : portfolioHeat sqrt volTrackers (activeSymbols.map (fun symbol => (symbol, f symbol)))
          activeSymbols
        = trackedHeat sqrt volTrackers activeSymbols f := by
  rw [portfolioHeat, trackedHeat]
  refine congrArg List.sum (List.filterMap_congr fun symbol hmem => ?_)
  rw [weightOf_map h f hmem]

theorem trackedHeat_mul (activeSymbols : List String) (f : String → K) (c : K)
    : trackedHeat sqrt volTrackers activeSymbols (fun symbol => f symbol * c)
        = trackedHeat sqrt volTrackers activeSymbols f * c := by
  rw [trackedHeat, trackedHeat]
  have hscaled := List.sum_map_mul_right (activeSymbols.filterMap fun symbol =>
    (volTrackers.lookup symbol).map fun tracker => f symbol * tracker.volatility sqrt) id c
  rw [List.map_id] at hscaled
  rw [← hscaled, List.map_filterMap]
  refine congrArg List.sum (List.filterMap_congr fun symbol _ => ?_)
  rw [Option.map_map]
  refine congrFun (congrArg Option.map (funext fun tracker => ?_)) _
  exact mul_right_comm _ _ _

variable [IsStrictOrderedRing K]

theorem rawWeight_pos (symbol : String) : 0 < rawWeight sqrt volTrackers symbol := by
  rw [rawWeight]
  split
  . exact zero_lt_one
  . exact one_div_pos.mpr (VolatilityTracker.volatility_pos sqrt _)

/--
The weight of a symbol before the cap.
-/
def share (activeSymbols : List String) (symbol : String) : K :=
  rawWeight sqrt volTrackers symbol
    / (activeSymbols.map (rawWeight sqrt volTrackers)).sum

theorem totalRaw_pos {activeSymbols : List String} (hne : activeSymbols ≠ [])
    : 0 < (activeSymbols.map (rawWeight sqrt volTrackers)).sum := by
  refine List.sum_pos _ (fun w hw => ?_) (by simpa using hne)
  obtain ⟨symbol, -, rfl⟩ := List.mem_map.mp hw
  exact rawWeight_pos sqrt volTrackers symbol

theorem share_pos {activeSymbols : List String} (hne : activeSymbols ≠ []) (symbol : String)
    : 0 < share sqrt volTrackers activeSymbols symbol :=
  div_pos (rawWeight_pos sqrt volTrackers symbol) (totalRaw_pos sqrt volTrackers hne)

theorem sum_share {activeSymbols : List String} (hne : activeSymbols ≠ [])
    : (activeSymbols.map (share sqrt volTrackers activeSymbols)).sum = 1 := by
  have htotal := totalRaw_pos sqrt volTrackers hne
  calc
    (activeSymbols.map (share sqrt volTrackers activeSymbols)).sum
    _ = (activeSymbols.map (rawWeight sqrt volTrackers)).sum
        / (activeSymbols.map (rawWeight sqrt volTrackers)).sum := by
      rw [div_eq_mul_inv, ← List.sum_map_mul_right]
      refine congrArg List.sum (List.map_congr_left fun symbol _ => ?_)
      rw [share, div_eq_mul_inv]
    _ = 1 := div_self htotal.ne'

/--
The weights are the shares times one factor, which is at most one and keeps the tracked heat under
the cap.
-/
theorem computeVolNormedWeights_eq {activeSymbols : List String} (hne : activeSymbols ≠ [])
    (hdistinct : activeSymbols.Nodup) {heatCap : K} (hcap : 0 < heatCap)
    : ∃ scale, 0 < scale ∧ scale ≤ 1
        ∧ computeVolNormedWeights sqrt volTrackers activeSymbols heatCap
          = activeSymbols.map
            (fun symbol => (symbol, share sqrt volTrackers activeSymbols symbol * scale))
        ∧ trackedHeat sqrt volTrackers activeSymbols (share sqrt volTrackers activeSymbols) * scale
          ≤ heatCap := by
  have htotal := totalRaw_pos sqrt volTrackers hne
  have hraw : (activeSymbols.map (fun symbol => (symbol, rawWeight sqrt volTrackers symbol))).map
      Prod.snd = activeSymbols.map (rawWeight sqrt volTrackers) := by
    rw [List.map_map]
    rfl
  have hnorm : (activeSymbols.map (fun symbol => (symbol, rawWeight sqrt volTrackers symbol))).map
      (fun weight => (weight.1,
        weight.2 / (activeSymbols.map (rawWeight sqrt volTrackers)).sum))
      = activeSymbols.map (fun symbol => (symbol, share sqrt volTrackers activeSymbols symbol)) := by
    rw [List.map_map]
    rfl
  unfold computeVolNormedWeights
  rw [if_neg hne, dictKeys_of_nodup hdistinct]
  dsimp only
  rw [hraw, if_neg (not_le.mpr htotal), hnorm, portfolioHeat_map sqrt volTrackers hdistinct]
  split
  . next hscaled =>
    obtain ⟨hover, hheat⟩ := hscaled
    refine ⟨_, div_pos hcap hheat, (div_le_one hheat).mpr hover.le, ?_,
      (mul_div_cancel₀ heatCap hheat.ne').le⟩
    rw [List.map_map]
    rfl
  . next hkept =>
    refine ⟨1, zero_lt_one, le_rfl, ?_, ?_⟩
    . refine List.map_congr_left fun symbol _ => ?_
      rw [mul_one]
    . rw [mul_one]
      by_contra hover
      exact hkept ⟨not_le.mp hover, hcap.trans (not_le.mp hover)⟩

end cap

section laws

variable (sqrt : K → K)

def trackersOf (histories : List (String × ReturnHistory K))
    : List (String × VolatilityTracker K) :=
  histories.map (fun entry => (entry.1, entry.2.tracker))

/--
The heat of all active symbols, for a volatility of each symbol.
-/
def fullHeat (weights : List (String × K)) (activeSymbols : List String) (vol : String → K) : K :=
  (activeSymbols.map (fun symbol => weightOf weights symbol * vol symbol)).sum

/--
Volatilities of all symbols, those of the trackers where there is one.
-/
structure Volatilities (volTrackers : List (String × VolatilityTracker K)) (vol : String → K)
    : Prop where
  pos : ∀ symbol, 0 < vol symbol
  tracked : ∀ symbol tracker, volTrackers.lookup symbol = some tracker →
    vol symbol = tracker.volatility sqrt

structure WeightLaws (histories : List (String × ReturnHistory K)) (activeSymbols : List String)
    (heatCap : K) (weights : List (String × K)) : Prop where
  positive : ∀ symbol ∈ activeSymbols, ∃ weight, weights.lookup symbol = some weight ∧ 0 < weight
  sum_le : (weights.map Prod.snd).sum ≤ 1
  heat_le : ∀ vol, Volatilities sqrt (trackersOf histories) vol →
    fullHeat weights activeSymbols vol ≤ heatCap
  windowed : ∀ entry ∈ histories, ∀ history : ReturnHistory K,
    history.lookback = entry.2.lookback → history.floor = entry.2.floor →
    history.window = entry.2.window →
    history.tracker.volatility sqrt = entry.2.tracker.volatility sqrt

variable {sqrt}

omit [LinearOrder K] in
theorem fullHeat_map {activeSymbols : List String} (h : activeSymbols.Nodup) (f vol : String → K)
    : fullHeat (activeSymbols.map (fun symbol => (symbol, f symbol))) activeSymbols vol
        = (activeSymbols.map (fun symbol => f symbol * vol symbol)).sum := by
  refine congrArg List.sum (List.map_congr_left fun symbol hmem => ?_)
  rw [weightOf_map h f hmem]

/--
Where every symbol has a tracker, the tracked heat is all of it.
-/
theorem trackedHeat_eq {volTrackers : List (String × VolatilityTracker K)}
    {activeSymbols : List String} {vol : String → K} (hvol : Volatilities sqrt volTrackers vol)
    (hall : ∀ symbol ∈ activeSymbols, (volTrackers.lookup symbol).isSome) (f : String → K)
    : trackedHeat sqrt volTrackers activeSymbols f
        = (activeSymbols.map (fun symbol => f symbol * vol symbol)).sum := by
  rw [trackedHeat, ← List.filterMap_eq_map]
  refine congrArg List.sum (List.filterMap_congr fun symbol hmem => ?_)
  obtain ⟨tracker, htracker⟩ := Option.isSome_iff_exists.mp (hall symbol hmem)
  rw [htracker, Option.map_some, ← hvol.tracked symbol tracker htracker]
  rfl

/--
The volatilities of the trackers, and one that is as large as wanted elsewhere.
-/
def volWith (sqrt : K → K) (volTrackers : List (String × VolatilityTracker K)) (large : K)
    (symbol : String) : K :=
  match volTrackers.lookup symbol with
  | none => large
  | some tracker => tracker.volatility sqrt

theorem volatilities_volWith (sqrt : K → K) (volTrackers : List (String × VolatilityTracker K)) {large : K}
    (hlarge : 0 < large) : Volatilities sqrt volTrackers (volWith sqrt volTrackers large) := by
  constructor
  . intro symbol
    rw [volWith]
    split
    . exact hlarge
    . exact VolatilityTracker.volatility_pos sqrt _
  . intro symbol tracker htracker
    rw [volWith, htracker]

variable [IsStrictOrderedRing K]

/--
A symbol without a tracker has a weight, and nothing bounds its volatility.
-/
theorem exists_fullHeat_gt (sqrt : K → K) {volTrackers : List (String × VolatilityTracker K)}
    {activeSymbols : List String} (hdistinct : activeSymbols.Nodup) {f : String → K}
    (hf : ∀ symbol, 0 < f symbol) {symbol : String} (hmem : symbol ∈ activeSymbols)
    (huntracked : volTrackers.lookup symbol = none) {heatCap : K} (hcap : 0 < heatCap)
    : ∃ vol, Volatilities sqrt volTrackers vol
        ∧ heatCap
          < fullHeat (activeSymbols.map (fun symbol => (symbol, f symbol))) activeSymbols vol := by
  have hlarge : 0 < (heatCap + 1) / f symbol := div_pos (by positivity) (hf symbol)
  have hvol := volatilities_volWith sqrt volTrackers hlarge
  refine ⟨_, hvol, ?_⟩
  rw [fullHeat_map hdistinct]
  have hterm : heatCap + 1 = f symbol * volWith sqrt volTrackers ((heatCap + 1) / f symbol) symbol := by
    rw [volWith, huntracked]
    exact (mul_div_cancel₀ _ (hf symbol).ne').symm
  have hsum : f symbol * volWith sqrt volTrackers ((heatCap + 1) / f symbol) symbol
      ≤ (activeSymbols.map
        (fun symbol' => f symbol' * volWith sqrt volTrackers ((heatCap + 1) / f symbol) symbol')).sum := by
    refine List.single_le_sum (fun x hx => ?_) _ (List.mem_map.mpr ⟨symbol, hmem, rfl⟩)
    obtain ⟨symbol', -, rfl⟩ := List.mem_map.mp hx
    exact (mul_pos (hf symbol') (hvol.pos symbol')).le
  rw [← hterm] at hsum
  exact (lt_add_one heatCap).trans_le hsum

theorem not_weightLaws (sqrt : K → K) {histories : List (String × ReturnHistory K)}
    {activeSymbols : List String} (hdistinct : activeSymbols.Nodup) {heatCap : K}
    (hcap : 0 < heatCap) {symbol : String} (hmem : symbol ∈ activeSymbols)
    (huntracked : (trackersOf histories).lookup symbol = none)
    : ¬ WeightLaws sqrt histories activeSymbols heatCap
        (computeVolNormedWeights sqrt (trackersOf histories) activeSymbols heatCap) := by
  intro hlaws
  have hne := List.ne_nil_of_mem hmem
  obtain ⟨scale, hpos, -, hweights, -⟩ :=
    computeVolNormedWeights_eq sqrt (trackersOf histories) hne hdistinct hcap
  rw [hweights] at hlaws
  obtain ⟨vol, hvol, hover⟩ := exists_fullHeat_gt sqrt hdistinct
    (fun symbol => mul_pos (share_pos sqrt _ hne symbol) hpos) hmem huntracked hcap
  exact absurd (hlaws.heat_le vol hvol) (not_le.mpr hover)

/--
A default tracker that was fed with two returns.
-/
noncomputable def twoReturns : ReturnHistory ℝ where
  lookback := 90
  floor := 1 / 1000000
  floor_pos := by norm_num
  returns := [1 / 100, -1 / 100]

end laws

end Volnorm
end Experiment
end Quantbot
