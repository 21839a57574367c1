import Mathlib
import Quantbot.Experiment.Portfolio

/-!
When a momentum signal takes effect in the portfolio.
-/

namespace Quantbot
namespace Experiment

variable (math : FloatMath)

theorem rollingStdev_isSome {values : List (Option ℚ)}
    : (rollingStdev math values).isSome ↔ ∀ v ∈ values, v ≠ none := by
  have hmapM : (values.mapM id).isSome ↔ ∀ v ∈ values, v ≠ none := by
    induction values with
    | nil => simp
    | cons v values ih =>
      rw [List.mapM_cons, List.forall_mem_cons, ← ih]
      cases v with
      | none => simp
      | some x => cases values.mapM id <;> simp
  rw [← hmapM]
  unfold rollingStdev
  cases values.mapM id <;> rfl

theorem computeLogReturns_cons (a b : Bar) (bars : List Bar)
    : computeLogReturns math (a :: b :: bars)
        =
      logReturn math a.close b.close :: computeLogReturns math (b :: bars) := by
  rfl

theorem length_computeLogReturns (bars : List Bar)
    : (computeLogReturns math bars).length = bars.length - 1 := by
  unfold computeLogReturns
  rw [List.length_map, List.length_zip, List.length_tail]
  omega

theorem drop_computeLogReturns (bars : List Bar) (n : ℕ)
    : (computeLogReturns math bars).drop n = computeLogReturns math (bars.drop n) := by
  unfold computeLogReturns
  rw [← List.map_drop, List.zip, List.drop_zipWith, List.drop_tail, List.tail_drop]

theorem logReturn_ne_none {prevClose currClose : ℚ}
    : logReturn math prevClose currClose ≠ none ↔ 0 < prevClose ∧ 0 < currClose := by
  unfold logReturn
  split
  . rename_i h
    simp only [ne_eq, not_true_eq_false, false_iff, not_and_or, not_lt]
    exact h
  . rename_i h
    rw [not_or, not_le, not_le] at h
    simp [h]

theorem computeLogReturns_ne_none (a b : Bar) (bars : List Bar)
    : (∀ v ∈ computeLogReturns math (a :: b :: bars), v ≠ none)
        ↔
      ∀ x ∈ a :: b :: bars, 0 < x.close := by
  induction bars generalizing a b with
  | nil =>
    rw [computeLogReturns_cons, List.forall_mem_cons, logReturn_ne_none]
    simp [computeLogReturns]
  | cons c bars ih =>
    rw [computeLogReturns_cons, List.forall_mem_cons, logReturn_ne_none, ih b c]
    rw [List.forall_mem_cons (a := a)]
    constructor
    . rintro ⟨⟨ha, -⟩, hrest⟩
      exact ⟨ha, hrest⟩
    . rintro ⟨ha, hrest⟩
      exact ⟨⟨ha, hrest b (List.mem_cons_self ..)⟩, hrest⟩

theorem pyIndex_last {α : Type} {xs : List α} {x : α} (h : pyIndex xs (-1) = .ok x)
    : xs.getLast? = some x := by
  unfold pyIndex at h
  rw [if_pos (show (-1 : ℤ) < 0 by decide)] at h
  dsimp only at h
  split at h
  . cases h
  . rename_i hlen
    have hlast : (-1 + (xs.length : ℤ)).toNat = xs.length - 1 := by omega
    rw [hlast, ← List.getLast?_eq_getElem?] at h
    split at h
    . rename_i hx
      cases h
      exact hx
    . cases h

/--
A regime is known when the last `window` returns are.
-/
theorem computeVolRegime_known {logReturns : List (Option ℚ)} {window : ℕ} {highQuantile : ℚ}
    {regime : VolRegime} (h : computeVolRegime math logReturns window highQuantile = .ok regime)
    (hlen : window ≤ logReturns.length)
    : regime ≠ .unknown ↔ ∀ v ∈ logReturns.drop (logReturns.length - window), v ≠ none := by
  unfold computeVolRegime at h
  rw [if_neg (Nat.not_lt.mpr hlen)] at h
  dsimp only at h
  obtain ⟨threshold, -, h⟩ := bind_eq_ok.mp h
  obtain ⟨current, hcurrent, h⟩ := bind_eq_ok.mp h
  have hlast := pyIndex_last hcurrent
  have hsize : logReturns.length + 1 - window = (logReturns.length - window) + 1 := by omega
  rw [hsize, List.range_succ, List.map_append, List.map_singleton, List.getLast?_append,
    List.getLast?_singleton, Option.some_or, Option.some.injEq] at hlast
  rw [List.take_of_length_le (by rw [List.length_drop]; omega)] at hlast
  rw [← rollingStdev_isSome math, hlast]
  cases current with
  | none =>
    cases h
    simp
  | some std =>
    dsimp only at h
    split at h
    . cases h
      simp
    . cases h
      simp

/--
The window that decides the regime of the next bar is full and its closes are positive.
-/
def Settled (before : List Bar) : Prop :=
  volWindow ≤ before.length ∧ ∀ b ∈ before.drop (before.length - volWindow), 0 < b.close

instance (before : List Bar) : Decidable (Settled before) :=
  inferInstanceAs (Decidable (_ ∧ _))

theorem computeRegimeLabel_known (overlay : VolStateOverlay) {before : List Bar} {bar : Bar}
    {regime : VolRegime} (h : overlay.computeRegimeLabel math (before ++ [bar]) = .ok regime)
    : regime ≠ .unknown ↔ Settled before ∧ 0 < bar.close := by
  have hbars : (before ++ [bar]).length = before.length + 1 := by simp
  unfold VolStateOverlay.computeRegimeLabel at h
  unfold Settled
  rw [hbars] at h
  split at h
  . rename_i hshort
    cases h
    have hcold : ¬volWindow ≤ before.length := by omega
    simp [hcold]
  . rename_i hlong
    have hlen := length_computeLogReturns math (before ++ [bar])
    dsimp only at h
    rw [if_neg (by omega)] at h
    rw [computeVolRegime_known math h (by omega), hlen, hbars, drop_computeLogReturns]
    have hdrop : (before ++ [bar]).drop (before.length + 1 - 1 - volWindow)
        = before.drop (before.length - volWindow) ++ [bar] := by
      rw [Nat.add_sub_cancel, List.drop_append_of_le_length (by omega)]
    have hwindow : (before.drop (before.length - volWindow)).length = volWindow := by
      rw [List.length_drop]
      omega
    rw [hdrop]
    have hwarm : volWindow ≤ before.length := by omega
    have hsplit : (∀ b ∈ before.drop (before.length - volWindow) ++ [bar], 0 < b.close)
        ↔ (∀ b ∈ before.drop (before.length - volWindow), 0 < b.close) ∧ 0 < bar.close := by
      simp only [List.mem_append, List.mem_singleton, or_imp, forall_and, forall_eq]
    rw [and_iff_right hwarm, ← hsplit]
    generalize hw : before.drop (before.length - volWindow) = window at hwindow
    cases window with
    | nil => cases hwindow
    | cons a window =>
      cases window with
      | nil => cases hwindow
      | cons b window => exact computeLogReturns_ne_none math a b (window ++ [bar])

theorem exceeds_pos (self : TSMOMStrategy) {prices : List ℚ} {close : ℚ}
    (h : self.exceeds math prices close = .ok true) : 0 < close := by
  unfold TSMOMStrategy.exceeds at h
  split at h
  . cases h
  . obtain ⟨past, -, h⟩ := bind_eq_ok.mp h
    split at h
    . cases h
    . split at h
      . cases h
      . exact not_le.mp ‹_›

namespace Visit

/--
How often the return is credited to the strategy.
-/
def weight (v : Visit) : ℕ :=
  (if v.credited .lowVol then 1 else 0) + if v.credited .highVol then 1 else 0

theorem weight_eq (v : Visit)
    : v.weight
        =
      if v.regime ≠ .unknown ∧ ∃ sig ∈ v.signal, sig.direction = some .long then 1 else 0 := by
  unfold weight credited
  cases v.regime <;> simp

end Visit

namespace SplitArgs

variable (args : SplitArgs)

/--
What the overlay says at a bar once the close before is set: it has read the bars since the second
one, this one included.
-/
theorem visit_from {symbol : String} {bars : List Bar} {s : SymbolState}
    {rs : List (Option Visit × SymbolState)} (hs : s.prevClose ≠ none)
    (hprices : s.overlay.tsme.prices = s.overlay.bars.map Bar.close)
    (h : (args.symbolMachine math).traceFrom s (bars.map (Prod.mk symbol)) = .ok rs) {j : ℕ}
    {bar : Bar} (hbar : bars[j]? = some bar)
    : ∃ v st exceeded, rs[j]? = some (some v, st)
        ∧ (args.overlay symbol).computeRegimeLabel math
            ((s.overlay.bars ++ bars.take j) ++ [bar]) = .ok v.regime
        ∧ (args.overlay symbol).tsme.exceeds math
            (((s.overlay.bars ++ bars.take j) ++ [bar]).map Bar.close) bar.close = .ok exceeded
        ∧ v.signal = if exceeded then some ((args.overlay symbol).tsme.signal bar) else none := by
  induction bars generalizing s rs j with
  | nil => simp at hbar
  | cons b bars ih =>
    obtain ⟨r, rs', hstep, hrest, rfl⟩ := ((args.symbolMachine math).traceFrom_cons_ok).mp h
    obtain ⟨prevClose, hprev⟩ := Option.ne_none_iff_exists'.mp hs
    simp only [symbolMachine, visit, hprev] at hstep
    obtain ⟨q, hq, hstep⟩ := bind_eq_ok.mp hstep
    obtain ⟨cost, -, hstep⟩ := bind_eq_ok.mp hstep
    cases hstep
    obtain ⟨regime, hregime, hq⟩ := bind_eq_ok.mp hq
    obtain ⟨t, ht, hq⟩ := bind_eq_ok.mp hq
    cases hq
    obtain ⟨exceeded, hexceeded, ht⟩ := bind_eq_ok.mp ht
    have hsignal : t.1 = (if exceeded then some ((args.overlay symbol).tsme.signal b) else none)
        ∧ t.2.prices = s.overlay.tsme.prices ++ [b.close] := by
      cases exceeded
      . cases ht
        exact ⟨rfl, rfl⟩
      . cases ht
        exact ⟨rfl, rfl⟩
    cases j with
    | zero =>
      cases hbar
      refine ⟨_, _, exceeded, rfl, ?_, ?_, hsignal.1⟩
      . rw [List.take_zero, List.append_nil]
        exact hregime
      . rw [List.take_zero, List.append_nil, List.map_append, ← hprices]
        exact hexceeded
    | succ j =>
      have hread : t.2.prices = (s.overlay.bars ++ [b]).map Bar.close := by
        rw [hsignal.2, hprices, List.map_append]
        rfl
      have hstep := ih (by simp) hread hrest hbar
      rw [List.take_succ_cons, List.append_cons s.overlay.bars b (bars.take j)]
      exact hstep

/--
Whether the return that ends at a bar is credited: the window before is settled and the momentum
exceeds the threshold.
-/
theorem weight_visit {symbol : String} {bars : List Bar}
    {rs : List (Option Visit × SymbolState)}
    (h : (args.symbolMachine math).trace (bars.map (Prod.mk symbol)) = .ok rs) {j : ℕ} {bar : Bar}
    (hbar : bars[j + 1]? = some bar)
    : ∃ v st exceeded, rs[j + 1]? = some (some v, st)
        ∧ (args.overlay symbol).tsme.exceeds math
            (((bars.take (j + 1)).tail ++ [bar]).map Bar.close) bar.close = .ok exceeded
        ∧ v.weight = if Settled (bars.take (j + 1)).tail ∧ exceeded then 1 else 0 := by
  cases bars with
  | nil => simp at hbar
  | cons b bars =>
    obtain ⟨r, rs', hstep, hrest, rfl⟩ := ((args.symbolMachine math).traceFrom_cons_ok).mp h
    cases hstep
    obtain ⟨v, st, exceeded, hv, hregime, hexceeds, hsignal⟩ :=
      args.visit_from math (by simp) rfl hrest hbar
    dsimp only at hregime hexceeds
    refine ⟨v, st, exceeded, hv, hexceeds, ?_⟩
    rw [List.take_succ_cons, List.tail_cons, v.weight_eq, hsignal]
    have hknown := computeRegimeLabel_known math _ hregime
    cases exceeded with
    | false => simp
    | true =>
      rw [and_iff_left (exceeds_pos math _ hexceeds)] at hknown
      by_cases hsettled : Settled (bars.take j)
      . simp [hknown.mpr hsettled, hsettled, TSMOMStrategy.signal]
      . simp [not_not.mp (mt hknown.mp hsettled), hsettled]

theorem ofKey_filterMap_of_notMem {symbols : List String} {symbol : String}
    (g : String → Option (String × Bar)) (hnot : symbol ∉ symbols)
    : Machine.ofKey symbol (symbols.filterMap (fun s => (g s).map (Prod.mk s))) = [] := by
  induction symbols with
  | nil => rfl
  | cons s symbols ih =>
    rw [List.mem_cons, not_or] at hnot
    cases hg : g s with
    | none => simp [hg, ih hnot.2]
    | some x => simp [hg, ih hnot.2, Ne.symm hnot.1]

theorem ofKey_filterMap {symbols : List String} {symbol : String}
    (g : String → Option (String × Bar)) (hnodup : symbols.Nodup) (hmem : symbol ∈ symbols)
    : Machine.ofKey symbol (symbols.filterMap (fun s => (g s).map (Prod.mk s)))
        =
      (g symbol).toList := by
  induction symbols with
  | nil => cases hmem
  | cons s symbols ih =>
    rw [List.nodup_cons] at hnodup
    by_cases hs : s = symbol
    . rw [hs] at hnodup ⊢
      have hrest := ofKey_filterMap_of_notMem g hnodup.1
      cases hg : g symbol with
      | none => simp [hg, hrest]
      | some x => simp [hg, hrest]
    . have hrest := ih hnodup.2 ((List.mem_cons.mp hmem).resolve_left (Ne.symm hs))
      cases hg : g s with
      | none => simp [hg, hrest]
      | some x => simp [hg, hrest, hs]

theorem flatMap_range_toList {α : Type} (xs : List α) (n : ℕ)
    : (List.range n).flatMap (fun i => xs[i]?.toList) = xs.take n := by
  induction n with
  | zero => rfl
  | succ n ih => rw [List.range_succ, List.flatMap_append, ih, List.take_add_one]; simp

/--
Each symbol sees its own bars in their order.
-/
theorem ofKey_schedule {symbol : String} {bars : List Bar} (hnodup : args.universeSymbols.Nodup)
    (hmem : symbol ∈ args.universeSymbols) (hbars : args.testBarsBySymbol.lookup symbol = some bars)
    : Machine.ofKey symbol args.schedule
        =
      (bars.take args.minTestLen).map (Prod.mk symbol) := by
  rw [← flatMap_range_toList, List.map_flatMap]
  unfold schedule
  rw [Machine.ofKey_flatMap]
  congr 1
  funext i
  have hkey := ofKey_filterMap
    (fun s => (args.testBarsBySymbol.lookup s).bind
      (fun bars => bars[i]?.map (Prod.mk s))) hnodup hmem
  rw [hbars] at hkey
  have hbind : ∀ s, (do
      let bars ← args.testBarsBySymbol.lookup s
      let bar ← bars[i]?
      some (s, (s, bar)))
        = ((args.testBarsBySymbol.lookup s).bind
            (fun bars => bars[i]?.map (Prod.mk s))).map (Prod.mk s) := by
    intro s
    cases args.testBarsBySymbol.lookup s with
    | none => rfl
    | some bars => cases h : bars[i]? <;> simp [h]
  simp only [hbind]
  rw [hkey]
  cases h : bars[i]? <;> simp [h]

theorem minTestLen_le {symbol : String} {bars : List Bar}
    (hbars : args.testBarsBySymbol.lookup symbol = some bars) : args.minTestLen ≤ bars.length := by
  have hmem : bars.length ∈ args.testBarsBySymbol.map (fun p => p.2.length) := by
    exact List.mem_map_of_mem (mem_of_lookup hbars)
  unfold minTestLen
  cases hmin : (args.testBarsBySymbol.map (fun p => p.2.length)).min? with
  | none => exact Nat.zero_le _
  | some n => exact (List.min?_eq_some_iff.mp hmin).2 _ hmem

/--
The weight with which the return that ends at bar `i` of a symbol is credited to the strategy.
-/
def weightAt (visits : List (String × Option Visit)) (symbol : String) (i : ℕ) : Option ℕ :=
  ((Machine.ofKey symbol visits)[i]?).join.map Visit.weight

theorem weightAt_visits {visits : List (String × Option Visit)}
    (h : args.visits math = .ok visits) (hnodup : args.universeSymbols.Nodup) {symbol : String}
    (hmem : symbol ∈ args.universeSymbols) {bars : List Bar}
    (hbars : args.testBarsBySymbol.lookup symbol = some bars) {j : ℕ}
    (hj : j + 1 < args.minTestLen) {bar : Bar} (hbar : bars[j + 1]? = some bar)
    : ∃ exceeded,
        (args.overlay symbol).tsme.exceeds math
            (((bars.take (j + 1)).tail ++ [bar]).map Bar.close) bar.close = .ok exceeded
          ∧ weightAt visits symbol (j + 1)
            = some (if Settled (bars.take (j + 1)).tail ∧ exceeded then 1 else 0) := by
  unfold SplitArgs.visits at h
  cases htrace : (args.symbolMachine math).keyed.trace args.schedule with
  | error e =>
    rw [htrace] at h
    cases h
  | ok rs =>
    rw [htrace] at h
    cases h
    obtain ⟨ts, hts, hanswers⟩ := (args.symbolMachine math).keyed_trace htrace symbol
    rw [args.ofKey_schedule hnodup hmem hbars] at hts
    have hread : (bars.take args.minTestLen)[j + 1]? = some bar := by
      rw [List.getElem?_take_of_lt hj]
      exact hbar
    obtain ⟨v, st, exceeded, hv, hexceeds, hweight⟩ := args.weight_visit math hts hread
    rw [List.take_take, Nat.min_eq_left (Nat.le_of_lt hj)] at hexceeds hweight
    refine ⟨exceeded, hexceeds, ?_⟩
    rw [weightAt, hanswers, List.getElem?_map, hv]
    simp [hweight]

end SplitArgs

/--
For each symbol, the weight of the return that ends at bar `i` is decided without bar `i` exactly
when the window before is not settled, or both bars leave the momentum on the same side of the
threshold.
-/
theorem weight_decided_before_iff (args : SplitArgs) (history' : List (String × List Bar)) {i : ℕ}
    (hi : 1 ≤ i) (hlt : i < args.minTestLen)
    (hlt' : i < { args with testBarsBySymbol := history' }.minTestLen)
    (hagree : ∀ symbol, (args.testBarsBySymbol.lookup symbol).map (List.take i)
      = (history'.lookup symbol).map (List.take i))
    (hnodup : args.universeSymbols.Nodup) {visits visits' : List (String × Option Visit)}
    (hvisits : args.visits math = .ok visits)
    (hvisits' : { args with testBarsBySymbol := history' }.visits math = .ok visits')
    {symbol : String} (hmem : symbol ∈ args.universeSymbols) {bars bars' : List Bar}
    (hbars : args.testBarsBySymbol.lookup symbol = some bars)
    (hbars' : history'.lookup symbol = some bars') {bar bar' : Bar}
    (hbar : bars[i]? = some bar) (hbar' : bars'[i]? = some bar')
    : SplitArgs.weightAt visits symbol i = SplitArgs.weightAt visits' symbol i
        ↔
      ¬Settled (bars.take i).tail
        ∨ (args.overlay symbol).tsme.exceeds math
            (((bars.take i).tail ++ [bar]).map Bar.close) bar.close
          = (args.overlay symbol).tsme.exceeds math
            (((bars.take i).tail ++ [bar']).map Bar.close) bar'.close := by
  obtain ⟨j, rfl⟩ : ∃ j, i = j + 1 := ⟨i - 1, by omega⟩
  obtain ⟨e, he, hweight⟩ := args.weightAt_visits math hvisits hnodup hmem hbars hlt hbar
  obtain ⟨e', he', hweight'⟩ :=
    SplitArgs.weightAt_visits math _ hvisits' hnodup hmem hbars' hlt' hbar'
  have hsame := hagree symbol
  rw [hbars, hbars', Option.map_some, Option.map_some, Option.some.injEq] at hsame
  rw [← hsame] at he' hweight'
  have he' : (args.overlay symbol).tsme.exceeds math
      (((bars.take (j + 1)).tail ++ [bar']).map Bar.close) bar'.close = .ok e' := he'
  rw [he, he', hweight, hweight', Option.some.injEq, Except.ok.injEq]
  by_cases hsettled : Settled (bars.take (j + 1)).tail
  . cases e <;> cases e' <;> simp [hsettled]
  . simp [hsettled]

theorem sum_filter_credited (visits : List Visit)
    : ((visits.filter (·.credited .lowVol)).map Visit.ret
          ++ (visits.filter (·.credited .highVol)).map Visit.ret).sum
        =
      (visits.map (fun v => (v.weight : ℚ) * v.ret)).sum := by
  rw [List.sum_append]
  induction visits with
  | nil => simp
  | cons v visits ih =>
    rw [List.map_cons, List.sum_cons, ← ih, List.filter_cons, List.filter_cons, Visit.weight]
    cases v.credited .lowVol <;> cases v.credited .highVol <;> simp <;> ring

/--
The total return of a split is the sum of the returns with their weights.
-/
theorem totalReturn_eq_weighted {args : SplitArgs} {result : SplitResult}
    {visits : List (String × Option Visit)} (hvisits : args.visits math = .ok visits)
    (hlen : args.minTestLen ≠ 0) (h : evaluateSplit math args = .ok result)
    : result.tsmmTotalReturn
        =
      ((visits.filterMap Prod.snd).map (fun v => (v.weight : ℚ) * v.ret)).sum := by
  unfold evaluateSplit at h
  rw [if_neg hlen, hvisits] at h
  cases h
  exact sum_filter_credited _

section examples

/--
Twenty-one bars at one, then the last bar.
-/
def settledThen (last : ℚ) : List Bar :=
  List.replicate 21 (barClosing 1) ++ [barClosing last]

def oneSymbol (last : ℚ) : SplitArgs where
  splitIndex := 0
  testBarsBySymbol := [("BTCUSDT", settledThen last)]
  universeSymbols := ["BTCUSDT"]
  returnPeriod := 20
  threshold := 0
  testStartStr := ""
  testEndStr := ""
  volQuantile := 13 / 20
  carryCost := none

theorem oneSymbol_agree (last last' : ℚ) (symbol : String)
    : ((oneSymbol last).testBarsBySymbol.lookup symbol).map (List.take 21)
        =
      ((oneSymbol last').testBarsBySymbol.lookup symbol).map (List.take 21) := by
  simp only [oneSymbol, List.lookup]
  cases symbol == "BTCUSDT"
  . rfl
  . rfl

theorem weight_decided_before_two_closes
    : ∃ visits visits', (oneSymbol 1).visits sampleMath = .ok visits
        ∧ (oneSymbol 2).visits sampleMath = .ok visits'
        ∧ (SplitArgs.weightAt visits "BTCUSDT" 21 = SplitArgs.weightAt visits' "BTCUSDT" 21
            ↔
          ¬Settled ((settledThen 1).take 21).tail
            ∨ ((oneSymbol 1).overlay "BTCUSDT").tsme.exceeds sampleMath
                ((((settledThen 1).take 21).tail ++ [barClosing 1]).map Bar.close) 1
              = ((oneSymbol 1).overlay "BTCUSDT").tsme.exceeds sampleMath
                ((((settledThen 1).take 21).tail ++ [barClosing 2]).map Bar.close) 2) := by
  obtain ⟨visits, hvisits, -⟩ := exists_ok_of_any
    (show ((oneSymbol 1).visits sampleMath).toOption.any (fun _ => true) by decide +kernel)
  obtain ⟨visits', hvisits', -⟩ := exists_ok_of_any
    (show ((oneSymbol 2).visits sampleMath).toOption.any (fun _ => true) by decide +kernel)
  exact ⟨visits, visits', hvisits, hvisits',
    @weight_decided_before_iff sampleMath (oneSymbol 1) (oneSymbol 2).testBarsBySymbol 21
      (by decide) (by decide) (by decide) (oneSymbol_agree 1 2) (by decide) visits visits' hvisits
      hvisits' "BTCUSDT" (by decide) (settledThen 1) (settledThen 2) rfl rfl (barClosing 1)
      (barClosing 2) rfl rfl⟩

/--
The bar that doubles the price earns its own return.
-/
theorem last_bar_credits_itself
    : ¬∀ (args : SplitArgs) (history' : List (String × List Bar)) (i : ℕ)
          (visits visits' : List (String × Option Visit)) (symbol : String),
        1 ≤ i → i < args.minTestLen →
        i < { args with testBarsBySymbol := history' }.minTestLen →
        (∀ symbol, (args.testBarsBySymbol.lookup symbol).map (List.take i)
          = (history'.lookup symbol).map (List.take i)) →
        args.universeSymbols.Nodup → args.visits sampleMath = .ok visits →
        { args with testBarsBySymbol := history' }.visits sampleMath = .ok visits' →
        symbol ∈ args.universeSymbols →
        SplitArgs.weightAt visits symbol i = SplitArgs.weightAt visits' symbol i := by
  intro hcausal
  obtain ⟨visits, hvisits, hweight⟩ := exists_ok_of_any
    (show ((oneSymbol 1).visits sampleMath).toOption.any
      (fun v => SplitArgs.weightAt v "BTCUSDT" 21 = some 0) by decide +kernel)
  obtain ⟨visits', hvisits', hweight'⟩ := exists_ok_of_any
    (show ((oneSymbol 2).visits sampleMath).toOption.any
      (fun v => SplitArgs.weightAt v "BTCUSDT" 21 = some 1) by decide +kernel)
  have hsame := hcausal (oneSymbol 1) (oneSymbol 2).testBarsBySymbol 21 visits visits' "BTCUSDT"
    (by decide) (by decide) (by decide) (oneSymbol_agree 1 2) (by decide) hvisits hvisits'
    (by decide)
  rw [of_decide_eq_true hweight, of_decide_eq_true hweight'] at hsame
  cases hsame

end examples

end Experiment
end Quantbot
