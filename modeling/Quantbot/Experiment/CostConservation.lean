import Mathlib
import Quantbot.Experiment.ChargedEvents

/-!
Where the cost of the counted events goes: the bars held carry all of it.
-/

namespace Quantbot
namespace Experiment

variable {σ : Type}

section loop

def heldCount (positions : List Direction) : ℕ :=
  positions.countP (fun d => d ≠ .flat)

theorem barReturn_ok {position : Direction} {prev curr : ℚ} (hclose : prev ≠ 0)
    : ∃ ret, barReturn position prev curr = .ok ret ∧ (position = .flat → ret = 0) := by
  cases position with
  | flat => exact ⟨0, rfl, fun _ => rfl⟩
  | long =>
    refine ⟨_, if_neg hclose, ?_⟩
    intro h
    cases h
  | short =>
    refine ⟨_, if_neg hclose, ?_⟩
    intro h
    cases h
  | other text => exact ⟨0, rfl, fun _ => rfl⟩

/--
The loop counts the bars held and gives a flat bar no return.
-/
theorem foldlM_add_ok {ivs : List ((Bar × Bar) × Direction)}
    (hclose : ∀ iv ∈ ivs, iv.1.1.close ≠ 0) (r : Returns)
    : ∃ r' rets, ivs.foldlM Returns.add r = .ok r'
        ∧ r'.barsHeld = r.barsHeld + heldCount (ivs.map Prod.snd)
        ∧ r'.grossReturns = r.grossReturns ++ rets
        ∧ List.Forall₂ (fun d ret => d = .flat → ret = 0) (ivs.map Prod.snd) rets := by
  induction ivs generalizing r with
  | nil => exact ⟨r, [], rfl, rfl, (List.append_nil _).symm, List.Forall₂.nil⟩
  | cons iv ivs ih =>
    obtain ⟨ret, hret, hflat⟩ : ∃ ret, barReturn iv.2 iv.1.1.close iv.1.2.close = .ok ret
        ∧ (iv.2 = .flat → ret = 0) := barReturn_ok (hclose iv List.mem_cons_self)
    obtain ⟨r₁, hadd⟩ : ∃ r₁, r.add iv = .ok r₁ := ⟨_, bind_eq_ok.mpr ⟨ret, hret, rfl⟩⟩
    obtain ⟨ret', hret', hr₁⟩ := bind_eq_ok.mp hadd
    cases hret.symm.trans hret'
    obtain ⟨r', rets, hloop, hheld, hgross, hrets⟩ :=
      ih (fun iv' h => hclose iv' (List.mem_cons_of_mem iv h)) r₁
    refine ⟨r', ret :: rets, ?_, ?_, ?_, List.Forall₂.cons hflat hrets⟩
    . rw [List.foldlM_cons]
      exact bind_eq_ok.mpr ⟨r₁, hadd, hloop⟩
    . cases hr₁
      rw [hheld, List.map_cons, heldCount, heldCount, List.countP_cons]
      simp only [decide_eq_true_eq]
      omega
    . cases hr₁
      rw [hgross, List.append_assoc, List.singleton_append]

/--
The net returns of `net_returns`, one for each gross return.
-/
def netReturnsOf (perBarNetCost : ℚ) (grossReturns : List ℚ) (positions : List Direction) : List ℚ :=
  (grossReturns.zip positions).map (fun g => if g.2 ≠ .flat then g.1 - perBarNetCost else 0)

variable {positions : List Direction} {rets : List ℚ}

theorem sum_deducted (c : ℚ)
    (h : List.Forall₂ (fun d ret => d = .flat → ret = 0) positions rets)
    : (List.zipWith (fun gross net => gross - net) rets (netReturnsOf c rets positions)).sum
      = heldCount positions * c := by
  induction h with
  | nil => simp [netReturnsOf, heldCount]
  | @cons d ret positions rets hflat hrest ih =>
    have hnet : netReturnsOf c (ret :: rets) (d :: positions)
        = (if d ≠ .flat then ret - c else 0) :: netReturnsOf c rets positions := rfl
    rw [hnet, List.zipWith_cons_cons, List.sum_cons, ih, heldCount, heldCount, List.countP_cons]
    by_cases hd : d = .flat
    . simp [hd, hflat hd]
    . simp only [hd, ne_eq, not_false_eq_true, if_true, decide_true]
      push_cast
      ring

theorem flat_uncharged (c : ℚ)
    (h : List.Forall₂ (fun d ret => d = .flat → ret = 0) positions rets) {i : ℕ}
    (hi : positions[i]? = some .flat)
    : rets[i]? = some 0 ∧ (netReturnsOf c rets positions)[i]? = some 0 := by
  induction h generalizing i with
  | nil => cases hi
  | @cons d ret positions rets hflat hrest ih =>
    cases i with
    | zero =>
      cases Option.some.inj hi
      exact ⟨by rw [hflat rfl]; rfl, rfl⟩
    | succ i => exact ih hi

end loop

section held

theorem flat_of_timed {b : Direction} {ds : List Direction} (hne : ds ≠ [])
    (h : ∀ d ∈ timed b ds, d = .flat) : b = .flat ∧ ∀ d ∈ ds, d = .flat := by
  induction ds generalizing b with
  | nil => exact absurd rfl hne
  | cons d ds ih =>
    rw [timed, List.forall_mem_cons] at h
    have hb : b = .flat := by
      by_contra hb
      exact hb (by simpa [hb] using h.1)
    have hd : d = .flat := by simpa [hb] using h.1
    refine ⟨hb, ?_⟩
    rw [List.forall_mem_cons]
    refine ⟨hd, ?_⟩
    cases ds with
    | nil => exact List.forall_mem_nil _
    | cons d' ds => exact (ih (List.cons_ne_nil _ _) h.2).2

theorem transitions_flat {ds : List Direction} (h : ∀ d ∈ ds, d = .flat)
    : transitions .flat ds = [] := by
  induction ds with
  | nil => rfl
  | cons d ds ih =>
    rw [List.forall_mem_cons] at h
    rw [transitions, if_pos h.1]
    exact ih h.2

/--
When something is signalled, the series holds it for a bar.
-/
theorem heldCount_pos {ds : List Direction} (hlen : 2 ≤ ds.length)
    (h : transitions .flat ds ≠ []) : 0 < heldCount (timed .flat ds).tail := by
  rw [heldCount, List.countP_pos_iff]
  by_contra hnone
  have hflat : ∀ d ∈ (timed .flat ds).tail, d = .flat := by
    intro d hd
    by_contra hne
    exact hnone ⟨d, hd, decide_eq_true hne⟩
  match ds, hlen with
  | d :: d' :: ds, _ =>
    obtain ⟨hd, hrest⟩ := flat_of_timed (List.cons_ne_nil d' ds) hflat
    exact h (transitions_flat (List.forall_mem_cons.mpr ⟨hd, hrest⟩))

end held

section summary

variable {strategy : Strategy σ} {bars : List Bar} {rs : List (Option Signal × σ)}

theorem intervals_positions {states : List Direction} (h : states.length = bars.length)
    : (intervals bars states).map Prod.snd = states.tail := by
  rw [intervals]
  exact List.map_snd_zip (by simp [h])

theorem length_timed (before : Direction) (ds : List Direction)
    : (timed before ds).length = ds.length := by
  induction ds generalizing before with
  | nil => rfl
  | cons d ds ih => rw [timed, List.length_cons, List.length_cons, ih]

/--
What the summary is made of, for closes that can be divided by.
-/
theorem computeReturnSummary_ok {states : List Direction} (hbars : 2 ≤ bars.length)
    (hclose : ∀ bar ∈ bars, bar.close ≠ 0) (hstates : positionStates strategy bars = .ok states)
    (hlen : states.length = bars.length) (economics : EconomicsSummary) (interval : Option String)
    : ∃ summary series, computeReturnSummary strategy bars economics interval = .ok (summary, series)
        ∧ summary.barsHeld = heldCount states.tail
        ∧ summary.costDeductionTotal
          = economics.costSideCount * ((economics.feeBps + economics.slippageBps) / 10000)
        ∧ series.netReturns = netReturnsOf
          (if 0 < summary.barsHeld then summary.costDeductionTotal / summary.barsHeld else 0)
          series.grossReturns states.tail
        ∧ List.Forall₂ (fun d ret => d = .flat → ret = 0) states.tail series.grossReturns := by
  have hprev : ∀ iv ∈ intervals bars states, iv.1.1.close ≠ 0 := fun iv hiv =>
    hclose _ (List.of_mem_zip (List.of_mem_zip hiv).1).1
  obtain ⟨r, rets, hadd, hheld, hgross, hrets⟩ := foldlM_add_ok hprev Returns.start
  rw [intervals_positions hlen] at hheld hrets
  have hgross' : r.grossReturns = rets := hgross
  have hresult : ∃ summary series,
      computeReturnSummary strategy bars economics interval = .ok (summary, series)
        ∧ summary.barsHeld = r.barsHeld
        ∧ summary.costDeductionTotal
          = economics.costSideCount * ((economics.feeBps + economics.slippageBps) / 10000)
        ∧ series.netReturns = netReturnsOf
          (if 0 < summary.barsHeld then summary.costDeductionTotal / summary.barsHeld else 0)
          series.grossReturns states.tail
        ∧ series.grossReturns = r.grossReturns := by
    unfold computeReturnSummary
    rw [if_neg (by omega)]
    exact ⟨_, _, bind_eq_ok.mpr ⟨states, hstates, bind_eq_ok.mpr ⟨r, hadd, rfl⟩⟩, rfl, rfl, rfl,
      rfl⟩
  obtain ⟨summary, series, hcompute, hbarsHeld, hcost, hnet, hseries⟩ := hresult
  refine ⟨summary, series, hcompute, ?_, hcost, hnet, ?_⟩
  . rw [hbarsHeld, hheld]
    exact Nat.zero_add _
  . rw [hseries, hgross']
    exact hrets

/--
The cost of the events is what the net returns are below the gross returns.
-/
theorem cost_conserved (htrace : strategy.trace bars = .ok rs)
    (hknown : ∀ r ∈ rs, (readDirection r.1).Known) (hbars : 2 ≤ bars.length)
    (hclose : ∀ bar ∈ bars, bar.close ≠ 0) (feeBps slippageBps : ℚ) (interval : Option String)
    : ∃ economics summary series positions,
        computeEconomicsSummary strategy bars feeBps slippageBps = .ok economics
        ∧ computeReturnSummary strategy bars economics interval = .ok (summary, series)
        ∧ positionSeries strategy bars = .ok positions
        ∧ series.grossReturns.length = positions.length
        ∧ series.netReturns.length = positions.length
        ∧ (List.zipWith (fun gross net => gross - net) series.grossReturns series.netReturns).sum
          = summary.costDeductionTotal
        ∧ summary.costDeductionTotal = economics.costSideCount * ((feeBps + slippageBps) / 10000)
        ∧ (0 < economics.costSideCount → 0 < summary.barsHeld)
        ∧ ∀ i : ℕ, positions[i]? = some .flat →
            series.grossReturns[i]? = some 0 ∧ series.netReturns[i]? = some 0 := by
  have hrs : (directionsOf rs).length = bars.length := by
    rw [directionsOf, List.length_map, strategy.length_traceFrom htrace]
  obtain ⟨t, hloop, hentries, hexits, hflips⟩ := economicsLoop_of_trace htrace hknown
  have heconomics : ∃ economics,
      computeEconomicsSummary strategy bars feeBps slippageBps = .ok economics
        ∧ economics.costSideCount = t.entryCount + t.exitCount + t.flipCount
        ∧ economics.feeBps = feeBps ∧ economics.slippageBps = slippageBps :=
    ⟨_, bind_eq_ok.mpr ⟨t, hloop, rfl⟩, rfl, rfl, rfl⟩
  obtain ⟨economics, heconomics, hcount, hfee, hslippage⟩ := heconomics
  obtain ⟨summary, series, hsummary, hheld, hcost, hnet, hgross⟩ :=
    computeReturnSummary_ok hbars hclose (positionStates_of_trace htrace)
      ((length_timed _ _).trans hrs) economics interval
  have hpos : 0 < economics.costSideCount → 0 < summary.barsHeld := by
    intro h
    rw [hcount, hentries, hexits, hflips, countP_kinds, List.length_pos_iff] at h
    rw [hheld]
    exact heldCount_pos (by omega) h
  refine ⟨economics, summary, series, _, heconomics, hsummary, ?_, hgross.length_eq.symm, ?_, ?_,
    ?_, hpos, ?_⟩
  . rw [positionSeries_of_trace htrace, if_neg (by omega)]
  . rw [hnet, netReturnsOf, List.length_map, List.length_zip, hgross.length_eq, Nat.min_self]
  . rw [hnet, sum_deducted _ hgross, ← hheld]
    by_cases h : 0 < summary.barsHeld
    . rw [if_pos h]
      exact mul_div_cancel₀ _ (by exact_mod_cast h.ne')
    . have hzero : economics.costSideCount = 0 := by
        by_contra hne
        exact h (hpos (Nat.pos_of_ne_zero hne))
      rw [if_neg h, mul_zero, hcost, hzero, Nat.cast_zero, zero_mul]
  . rw [hcost, hfee, hslippage]
  . intro i hi
    rw [hnet]
    exact flat_uncharged _ hgross hi

theorem cost_conserved_held
    : ∃ economics summary series positions,
        computeEconomicsSummary overFifty.strategy
            [barClosing 60, barClosing 60, barClosing 60] 10 5 = .ok economics
        ∧ computeReturnSummary overFifty.strategy
            [barClosing 60, barClosing 60, barClosing 60] economics none = .ok (summary, series)
        ∧ positionSeries overFifty.strategy [barClosing 60, barClosing 60, barClosing 60]
            = .ok positions
        ∧ series.grossReturns.length = positions.length
        ∧ series.netReturns.length = positions.length
        ∧ (List.zipWith (fun gross net => gross - net) series.grossReturns series.netReturns).sum
          = summary.costDeductionTotal
        ∧ summary.costDeductionTotal = economics.costSideCount * ((10 + 5) / 10000)
        ∧ (0 < economics.costSideCount → 0 < summary.barsHeld)
        ∧ ∀ i : ℕ, positions[i]? = some .flat →
            series.grossReturns[i]? = some 0 ∧ series.netReturns[i]? = some 0 :=
  cost_conserved trace_held
    (by simp [heldRun, readDirection, ThresholdStrategy.signal, Direction.Known]) (by decide)
    (by decide +kernel) 10 5 none

end summary

end Experiment
end Quantbot
