import Mathlib
import Quantbot.Experiment.Runner

/-!
When a signal takes effect in the return series.
-/

namespace Quantbot
namespace Experiment

variable {σ : Type}

@[simp]
theorem Positions.update_states (p : Positions) (bar : Bar) (sig : Option Signal)
    : (p.update bar sig).states = p.states ++ [p.prevDirection.getD (readDirection sig)] := by
  unfold update
  dsimp only
  cases p.prevDirection with
  | none => by_cases h : readDirection sig = .flat <;> simp [h]
  | some d => simp

@[simp]
theorem Positions.update_prevDirection (p : Positions) (bar : Bar) (sig : Option Signal)
    : (p.update bar sig).prevDirection
        =
      if readDirection sig = .flat then none else some (readDirection sig) := by
  unfold update
  dsimp only
  by_cases h : readDirection sig = .flat
  . cases p.prevDirection <;> simp [h]
  . simp [h]

/--
The positions from the directions signalled: a direction that is not flat is held over the interval
after its bar, and over the interval before it when nothing was held.
-/
def timed (before : Direction) : List Direction → List Direction
  | [] => []
  | d :: ds => (if before = .flat then d else before) :: timed d ds

theorem foldl_update (bars : List Bar) (rs : List (Option Signal × σ)) (p : Positions)
    (before : Direction) (hlen : rs.length = bars.length)
    (hprev : p.prevDirection = if before = .flat then none else some before)
    : ((bars.zip rs).foldl (fun acc r => acc.update r.1 r.2.1) p).states
        =
      p.states ++ timed before (rs.map (fun r => readDirection r.1)) := by
  induction bars generalizing rs p before with
  | nil =>
    have hrs : rs = [] := List.eq_nil_of_length_eq_zero hlen
    rw [hrs]
    simp [timed]
  | cons bar bars ih =>
    cases rs with
    | nil => cases hlen
    | cons r rs =>
      rw [List.zip_cons_cons, List.foldl_cons]
      rw [ih rs (p.update bar r.1) (readDirection r.1) (Nat.succ.inj hlen) (by simp)]
      rw [Positions.update_states, List.append_assoc, List.map_cons, timed, hprev]
      congr 1
      split <;> simp_all

/--
The directions signalled, as the return loop reads them.
-/
def signalled (strategy : Strategy σ) (bars : List Bar) : Except PyError (List Direction) :=
  (strategy.trace bars).map (List.map (fun r => readDirection r.1))

theorem positionStates_eq (strategy : Strategy σ) (bars : List Bar)
    : positionStates strategy bars = (signalled strategy bars).map (timed .flat) := by
  unfold positionStates signalled Machine.loop Machine.trace
  rw [strategy.loopFrom_eq]
  cases h : strategy.traceFrom strategy.init bars with
  | error e => rfl
  | ok rs =>
    have hfold := foldl_update bars rs Positions.start .flat (strategy.length_traceFrom h) rfl
    rw [Positions.start, List.nil_append] at hfold
    simp only [Except.map, bind, Except.bind]
    rw [← hfold]
    rfl

theorem foldlM_add {ivs : List ((Bar × Bar) × Direction)} {r r' : Returns}
    (h : ivs.foldlM Returns.add r = .ok r')
    : ∃ rets, r'.grossReturns = r.grossReturns ++ rets
        ∧ List.Forall₂ (fun iv ret => barReturn iv.2 iv.1.1.close iv.1.2.close = .ok ret)
          ivs rets := by
  induction ivs generalizing r with
  | nil =>
    cases h
    exact ⟨[], (List.append_nil _).symm, List.Forall₂.nil⟩
  | cons iv ivs ih =>
    rw [List.foldlM_cons] at h
    obtain ⟨r₁, hadd, hrest⟩ := bind_eq_ok.mp h
    obtain ⟨ret, hret, hr₁⟩ := bind_eq_ok.mp hadd
    cases hr₁
    obtain ⟨rets, hrets, hall⟩ := ih hrest
    refine ⟨ret :: rets, ?_, List.Forall₂.cons hret hall⟩
    rw [hrets, List.append_assoc, List.singleton_append]

/--
The gross return of each interval is earned by the position of its second bar.
-/
theorem grossReturns_earned {strategy : Strategy σ} {bars : List Bar}
    {economics : EconomicsSummary} {interval : Option String}
    {result : ReturnSummary × ReturnSeries} (hlen : 2 ≤ bars.length)
    (h : computeReturnSummary strategy bars economics interval = .ok result)
    : ∃ states, positionStates strategy bars = .ok states
        ∧ List.Forall₂ (fun iv ret => barReturn iv.2 iv.1.1.close iv.1.2.close = .ok ret)
          (intervals bars states) result.2.grossReturns := by
  unfold computeReturnSummary at h
  rw [if_neg (by omega)] at h
  obtain ⟨states, hstates, h⟩ := bind_eq_ok.mp h
  obtain ⟨r, hr, h⟩ := bind_eq_ok.mp h
  cases h
  obtain ⟨rets, hrets, hall⟩ := foldlM_add hr
  refine ⟨states, hstates, ?_⟩
  rw [← List.nil_append rets] at hall
  rw [hrets]
  exact hall

theorem getElem?_timed_succ (before : Direction) (ds : List Direction) (i : ℕ)
    : (timed before ds)[i + 1]?
        =
      ds[i]?.bind (fun d => ds[i + 1]?.map (fun d' => if d = .flat then d' else d)) := by
  induction ds generalizing before i with
  | nil => rfl
  | cons d ds ih =>
    rw [timed, List.getElem?_cons_succ]
    cases i with
    | zero =>
      cases ds with
      | nil => rfl
      | cons d' ds => rfl
    | succ i => rw [ih d i, List.getElem?_cons_succ, List.getElem?_cons_succ]

/--
The direction signalled on bar `i`.
-/
def signalledAt (strategy : Strategy σ) (bars : List Bar) (i : ℕ) : Option Direction :=
  (signalled strategy bars).toOption.bind (fun ds => ds[i]?)

theorem signalled_of_positionStates {strategy : Strategy σ} {bars : List Bar}
    {states : List Direction} (h : positionStates strategy bars = .ok states)
    : ∃ rs, strategy.trace bars = .ok rs
        ∧ signalled strategy bars = .ok (rs.map (fun r => readDirection r.1))
        ∧ states = timed .flat (rs.map (fun r => readDirection r.1)) := by
  rw [positionStates_eq, signalled] at h
  cases htrace : strategy.trace bars with
  | error e =>
    rw [htrace] at h
    cases h
  | ok rs =>
    rw [htrace] at h
    cases h
    refine ⟨rs, rfl, ?_, rfl⟩
    rw [signalled, htrace]
    rfl

/--
The position of the interval that ends at bar `i` is decided without bar `i` exactly when the bar
before signalled a direction that is not flat, or bar `i` signals the same in both histories.
-/
theorem position_decided_before_iff (strategy : Strategy σ) {bars bars' : List Bar} {i : ℕ}
    (hi : 1 ≤ i) (hlt : i < bars.length) (hlt' : i < bars'.length)
    (hagree : bars.take i = bars'.take i) {states states' : List Direction}
    (hstates : positionStates strategy bars = .ok states)
    (hstates' : positionStates strategy bars' = .ok states')
    : states[i]? = states'[i]?
        ↔
      signalledAt strategy bars (i - 1) ≠ some .flat
        ∨ signalledAt strategy bars i = signalledAt strategy bars' i := by
  obtain ⟨rs, htrace, hsig, rfl⟩ := signalled_of_positionStates hstates
  obtain ⟨rs', htrace', hsig', rfl⟩ := signalled_of_positionStates hstates'
  obtain ⟨j, rfl⟩ : ∃ j, i = j + 1 := ⟨i - 1, by omega⟩
  have hlen : rs.length = bars.length := strategy.length_traceFrom htrace
  have hlen' : rs'.length = bars'.length := strategy.length_traceFrom htrace'
  have hsame : rs[j]? = rs'[j]? := by
    have htake := strategy.trace_agree htrace htrace' hagree
    have hget := congrArg (fun l => l[j]?) htake
    simpa using hget
  simp only [signalledAt, hsig, hsig', Except.toOption, Option.bind_some, Nat.add_sub_cancel]
  rw [getElem?_timed_succ, getElem?_timed_succ]
  simp only [List.getElem?_map]
  rw [← hsame]
  rw [List.getElem?_eq_getElem (show j < rs.length by omega),
    List.getElem?_eq_getElem (show j + 1 < rs.length by omega),
    List.getElem?_eq_getElem (show j + 1 < rs'.length by omega)]
  simp only [Option.map_some, Option.bind_some, Option.some.injEq]
  by_cases hflat : readDirection rs[j].1 = .flat
  . simp [hflat]
  . simp [hflat]

section examples

def overFifty : ThresholdStrategy where
  threshold := .int 50
  symbol := .str "TESTUSD"

theorem position_decided_before_first_signal
    : positionStates overFifty.strategy [barClosing 1, barClosing 1] = .ok [.short, .short]
        ∧ positionStates overFifty.strategy [barClosing 1, barClosing 60] = .ok [.short, .short]
        ∧ (([.short, .short] : List Direction)[1]? = ([.short, .short] : List Direction)[1]?
            ↔
          signalledAt overFifty.strategy [barClosing 1, barClosing 1] (1 - 1) ≠ some .flat
            ∨ signalledAt overFifty.strategy [barClosing 1, barClosing 1] 1
              = signalledAt overFifty.strategy [barClosing 1, barClosing 60] 1) :=
  ⟨by decide +kernel, by decide +kernel,
    @position_decided_before_iff _ overFifty.strategy [barClosing 1, barClosing 1]
      [barClosing 1, barClosing 60] 1 (le_refl 1) (by decide) (by decide) rfl _ _
      (by decide +kernel) (by decide +kernel)⟩

/--
A bar that crosses the threshold earns its own return: the entry at bar two takes effect over the
interval that ends there.
-/
theorem entry_looks_ahead
    : ¬∀ (σ : Type) (strategy : Strategy σ) (bars bars' : List Bar) (i : ℕ)
          (states states' : List Direction),
        1 ≤ i → i < bars.length → i < bars'.length → bars.take i = bars'.take i →
        positionStates strategy bars = .ok states → positionStates strategy bars' = .ok states' →
        states[i]? = states'[i]? := by
  intro hcausal
  have hsame := hcausal _ overFifty.strategy [barClosing 1, barClosing 1, barClosing 1]
    [barClosing 1, barClosing 1, barClosing 60] 2 [.short, .short, .flat] [.short, .short, .long]
    (by decide) (by decide) (by decide) rfl (by decide +kernel) (by decide +kernel)
  revert hsame
  decide

end examples

end Experiment
end Quantbot
