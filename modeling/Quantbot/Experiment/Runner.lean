import Mathlib
import Quantbot.Experiment.Strategy

/-!
The loops of the experiment runner over a strategy: signal counts, event accounting and the return
series.
-/

namespace Quantbot
namespace Experiment

variable {σ : Type}

/--
`_count_signals_by_direction`.
-/
structure SignalCounts where
  long : ℕ
  short : ℕ
  flat : ℕ
deriving DecidableEq

def SignalCounts.add (counts : SignalCounts) (_bar : Bar) : Option Signal → SignalCounts
  | none => counts
  | some sig =>
    match sig.direction with
    | some .long => { counts with long := counts.long + 1 }
    | some .short => { counts with short := counts.short + 1 }
    | _ => { counts with flat := counts.flat + 1 }

def countSignalsByDirection (strategy : Strategy σ) (bars : List Bar)
    : Except PyError SignalCounts :=
  strategy.loop SignalCounts.add { long := 0, short := 0, flat := 0 } bars

structure EconomicsSummary where
  costSideCount : ℕ
  entryCount : ℕ
  exitCount : ℕ
  flipCount : ℕ
  feeBps : ℚ
  slippageBps : ℚ
  assumedTotalCostBps : ℚ
deriving DecidableEq

/--
The variables of the economics loop.
-/
structure Transitions where
  entryCount : ℕ
  exitCount : ℕ
  flipCount : ℕ
  prevDirection : Option Direction
deriving DecidableEq

namespace Transitions

def start : Transitions where
  entryCount := 0
  exitCount := 0
  flipCount := 0
  prevDirection := none

def close (t : Transitions) : Transitions :=
  if t.prevDirection ≠ none then
    { t with exitCount := t.exitCount + 1, prevDirection := none }
  else
    t

def take (t : Transitions) (direction opposite : Direction) : Transitions :=
  let t :=
    if t.prevDirection = none then
      { t with entryCount := t.entryCount + 1 }
    else if t.prevDirection = some opposite then
      { t with flipCount := t.flipCount + 1 }
    else
      t
  { t with prevDirection := some direction }

def update (t : Transitions) (_bar : Bar) : Option Signal → Transitions
  | none => t.close
  | some sig =>
    match sig.direction with
    | none => t.close
    | some .flat => t.close
    | some .long => t.take .long .short
    | some .short => t.take .short .long
    | some (.other _) => t

end Transitions

def economicsLoop (strategy : Strategy σ) (bars : List Bar) : Except PyError Transitions :=
  strategy.loop Transitions.update Transitions.start bars

/--
`_compute_economics_summary`.
-/
def computeEconomicsSummary (strategy : Strategy σ) (bars : List Bar) (feeBps slippageBps : ℚ)
    : Except PyError EconomicsSummary := do
  let t ← economicsLoop strategy bars
  let costSideCount := t.entryCount + t.exitCount + t.flipCount
  .ok {
    costSideCount
    entryCount := t.entryCount
    exitCount := t.exitCount
    flipCount := t.flipCount
    feeBps
    slippageBps
    assumedTotalCostBps := costSideCount * (feeBps + slippageBps)
  }

structure ReturnSummary where
  grossReturnTotal : ℚ
  netReturnTotal : ℚ
  costDeductionTotal : ℚ
  barsHeld : ℕ
  winningBars : ℕ
  losingBars : ℕ
deriving DecidableEq

def ReturnSummary.empty : ReturnSummary where
  grossReturnTotal := 0
  netReturnTotal := 0
  costDeductionTotal := 0
  barsHeld := 0
  winningBars := 0
  losingBars := 0

structure ReturnSeries where
  grossReturns : List ℚ
  netReturns : List ℚ
  barTimestamps : List String
  interval : Option String
deriving DecidableEq

def ReturnSeries.empty : ReturnSeries where
  grossReturns := []
  netReturns := []
  barTimestamps := []
  interval := some "unknown"

/--
The direction the return loop reads: a missing signal and a missing direction are flat.
-/
def readDirection : Option Signal → Direction
  | none => .flat
  | some sig => sig.direction.getD .flat

structure Positions where
  states : List Direction
  prevDirection : Option Direction
deriving DecidableEq

namespace Positions

def start : Positions where
  states := []
  prevDirection := none

def update (p : Positions) (_bar : Bar) (sig : Option Signal) : Positions :=
  let direction := readDirection sig
  -- the first signal that is not flat establishes the position
  let prevDirection :=
    if p.prevDirection = none ∧ direction ≠ .flat then some direction else p.prevDirection
  let states := p.states ++ [prevDirection.getD .flat]
  let prevDirection :=
    if direction ≠ .flat then
      some direction
    else if prevDirection ≠ none ∧ direction = .flat then
      none
    else
      prevDirection
  { states, prevDirection }

end Positions

/--
`position_states`, one for each bar; entry `i` is held from the close of bar `i - 1` to the close of
bar `i`.
-/
def positionStates (strategy : Strategy σ) (bars : List Bar) : Except PyError (List Direction) := do
  let p ← strategy.loop Positions.update Positions.start bars
  .ok p.states

def barReturn (position : Direction) (prevClose currClose : ℚ) : Except PyError ℚ :=
  match position with
  | .flat => .ok 0
  | .long =>
    if prevClose = 0 then .error .zeroDivisionError
    else .ok ((currClose - prevClose) / prevClose)
  | .short =>
    if prevClose = 0 then .error .zeroDivisionError
    else .ok (-(currClose - prevClose) / prevClose)
  | .other _ => .ok 0

/--
The variables of the return loop.
-/
structure Returns where
  grossReturnTotal : ℚ
  barsHeld : ℕ
  winningBars : ℕ
  losingBars : ℕ
  grossReturns : List ℚ
  barTimestamps : List String

namespace Returns

def start : Returns where
  grossReturnTotal := 1
  barsHeld := 0
  winningBars := 0
  losingBars := 0
  grossReturns := []
  barTimestamps := []

/--
One interval, from the bar before to this one.
-/
def add (r : Returns) (interval : (Bar × Bar) × Direction) : Except PyError Returns := do
  let ret ← barReturn interval.2 interval.1.1.close interval.1.2.close
  let held := interval.2 ≠ .flat
  .ok {
    grossReturnTotal := r.grossReturnTotal * (1 + ret)
    barsHeld := r.barsHeld + if held then 1 else 0
    winningBars := r.winningBars + if held ∧ 0 < ret then 1 else 0
    losingBars := r.losingBars + if held ∧ ret < 0 then 1 else 0
    grossReturns := r.grossReturns ++ [ret]
    barTimestamps := r.barTimestamps ++ [interval.1.2.timestamp]
  }

end Returns

/--
The intervals between adjacent bars, each with the position of its second bar.
-/
def intervals (bars : List Bar) (states : List Direction) : List ((Bar × Bar) × Direction) :=
  (bars.zip bars.tail).zip states.tail

/--
`_compute_return_summary`.
-/
def computeReturnSummary (strategy : Strategy σ) (bars : List Bar) (economics : EconomicsSummary)
    (interval : Option String) : Except PyError (ReturnSummary × ReturnSeries) := do
  if bars.length < 2 then
    .ok (ReturnSummary.empty, ReturnSeries.empty)
  else
    let states ← positionStates strategy bars
    let costPerEvent := (economics.feeBps + economics.slippageBps) / 10000
    let costDeductionTotal := economics.costSideCount * costPerEvent
    let r ← (intervals bars states).foldlM Returns.add Returns.start
    let grossReturnTotal := r.grossReturnTotal - 1
    let perBarNetCost := if 0 < r.barsHeld then costDeductionTotal / r.barsHeld else 0
    let netReturns := (r.grossReturns.zip states.tail).map
      (fun g => if g.2 ≠ .flat then g.1 - perBarNetCost else 0)
    let summary : ReturnSummary := {
      grossReturnTotal
      netReturnTotal := grossReturnTotal - costDeductionTotal
      costDeductionTotal
      barsHeld := r.barsHeld
      winningBars := r.winningBars
      losingBars := r.losingBars
    }
    let series : ReturnSeries := {
      grossReturns := r.grossReturns
      netReturns
      barTimestamps := r.barTimestamps
      interval
    }
    .ok (summary, series)

end Experiment
end Quantbot
