import Mathlib
import Quantbot.Util.JsonValue
import Quantbot.Util.Machine
import Quantbot.Paper.Timestamp.Basic
import Quantbot.Sqlite.ConfigRow

/-!
Strategies of the experiment runner: a strategy reads one bar at a time and may emit a signal.
-/

namespace Quantbot
namespace Experiment

open Sqlite (PyFloat)

structure Bar where
  timestamp : String
  openPrice : ℚ
  high : ℚ
  low : ℚ
  close : ℚ
  volume : ℚ
deriving DecidableEq

inductive Direction where
  | long
  | short
  | flat
  -- a strategy of another author may put any text here
  | other (text : String)
deriving DecidableEq

/--
`direction` is `none` where the attribute is `None`.
-/
structure Signal where
  timestamp : String
  symbol : JsonValue
  direction : Option Direction
  confidence : JsonValue

abbrev Strategy (σ : Type) :=
  Machine PyError σ Bar (Option Signal)

/--
`xs[i]`
-/
def pyIndex {α : Type} (xs : List α) (i : ℤ) : Except PyError α :=
  let j := if i < 0 then i + xs.length else i
  if j < 0 then
    .error .indexError
  else
    match xs[j.toNat]? with
    | some x => .ok x
    | none => .error .indexError

/--
The place of a slice bound in a list of `n` elements.
-/
def sliceBound (n : ℕ) (i : ℤ) : ℕ :=
  min n (if i < 0 then i + n else i).toNat

/--
`xs[start:stop]`
-/
def pySlice {α : Type} (xs : List α) (start stop : ℤ) : List α :=
  (xs.take (sliceBound xs.length stop)).drop (sliceBound xs.length start)

/--
`xs[start:]`
-/
def pySliceFrom {α : Type} (xs : List α) (start : ℤ) : List α :=
  xs.drop (sliceBound xs.length start)

/--
`x >= v`
-/
def atLeast (x : ℚ) : JsonValue → Except PyError Bool
  | .bool b => .ok ((if b then 1 else 0) ≤ x)
  | .int n => .ok (n ≤ x)
  | .float q => .ok (q ≤ x)
  | .nan => .ok false
  | .infinity negative => .ok negative
  | _ => .error .typeError

/--
`x < v`
-/
def lessThan (x : ℚ) : JsonValue → Except PyError Bool
  | .bool b => .ok (x < if b then 1 else 0)
  | .int n => .ok (x < n)
  | .float q => .ok (x < q)
  | .nan => .ok false
  | .infinity negative => .ok !negative
  | _ => .error .typeError

structure ThresholdStrategy where
  threshold : JsonValue
  symbol : JsonValue

namespace ThresholdStrategy

structure State where
  prevDirection : Option Direction

def signal (self : ThresholdStrategy) (bar : Bar) (direction : Direction) : Signal where
  timestamp := bar.timestamp
  symbol := self.symbol
  direction := some direction
  confidence := .float (1 / 2)

def onBar (self : ThresholdStrategy) (s : State) (bar : Bar)
    : Except PyError (Option Signal × State) := do
  let direction := if ← atLeast bar.close self.threshold then Direction.long else .short
  let emitted :=
    match s.prevDirection with
    | none => some (self.signal bar direction)
    | some prev => if direction ≠ prev then some (self.signal bar direction) else none
  .ok (emitted, { prevDirection := some direction })

def strategy (self : ThresholdStrategy) : Strategy State where
  init := { prevDirection := none }
  step := self.onBar

end ThresholdStrategy

structure MADeviationStrategy where
  maPeriod : ℤ
  symbol : JsonValue
  thresholdPct : JsonValue

namespace MADeviationStrategy

structure State where
  bars : List ℚ
  prevDirection : Option Direction

def signal (self : MADeviationStrategy) (bar : Bar) (direction : Direction) : Signal where
  timestamp := bar.timestamp
  symbol := self.symbol
  direction := some direction
  confidence := .float (1 / 2)

/--
The direction of a bar, once `bars` holds its close.
-/
def direction (self : MADeviationStrategy) (bars : List ℚ) (bar : Bar)
    : Except PyError Direction := do
  if self.maPeriod = 0 then
    .error .zeroDivisionError
  else
    let ma := (pySliceFrom bars (-self.maPeriod)).sum / self.maPeriod
    let deviationPct := if ma ≠ 0 then (bar.close - ma) / ma else 0
    if ← lessThan |deviationPct| self.thresholdPct then
      .ok .flat
    else
      .ok (if ma < bar.close then .long else .short)

def onBar (self : MADeviationStrategy) (s : State) (bar : Bar)
    : Except PyError (Option Signal × State) := do
  let bars := s.bars ++ [bar.close]
  if bars.length < self.maPeriod then
    .ok (none, { s with bars })
  else
    let direction ← self.direction bars bar
    let emitted :=
      match s.prevDirection with
      | none => if direction ≠ .flat then some (self.signal bar direction) else none
      | some prev =>
        if direction ≠ prev ∧ direction ≠ .flat then some (self.signal bar direction) else none
    .ok (emitted, { bars, prevDirection := some direction })

def strategy (self : MADeviationStrategy) : Strategy State where
  init := { bars := [], prevDirection := none }
  step := self.onBar

end MADeviationStrategy

structure RollingReturnBreakoutStrategy where
  rollingReturnPeriod : ℤ
  returnThreshold : PyFloat
  minHoldBars : ℤ
  confidence : JsonValue
  symbol : JsonValue

namespace RollingReturnBreakoutStrategy

structure State where
  bars : List ℚ
  prevDirection : Option Direction
  barsSinceSignal : ℤ

def signal (self : RollingReturnBreakoutStrategy) (bar : Bar) (direction : Direction) : Signal where
  timestamp := bar.timestamp
  symbol := self.symbol
  direction := some direction
  confidence := self.confidence

def directionOf (rollingReturn : ℚ) : PyFloat → Direction
  | .finite threshold =>
    if threshold < rollingReturn then
      .long
    else if rollingReturn < -threshold then
      .short
    else
      .flat
  | .infinity negative => if negative then .long else .flat
  | .nan => .flat

/--
The direction of a bar, once `bars` holds its close.
-/
def direction (self : RollingReturnBreakoutStrategy) (bars : List ℚ) (bar : Bar)
    : Except PyError Direction := do
  let pastClose ← pyIndex bars (-self.rollingReturnPeriod - 1)
  let rollingReturn := if pastClose ≠ 0 then (bar.close - pastClose) / pastClose else 0
  .ok (directionOf rollingReturn self.returnThreshold)

def onBar (self : RollingReturnBreakoutStrategy) (s : State) (bar : Bar)
    : Except PyError (Option Signal × State) := do
  let s := { s with bars := s.bars ++ [bar.close], barsSinceSignal := s.barsSinceSignal + 1 }
  if s.bars.length < self.rollingReturnPeriod + 1 then
    .ok (none, s)
  else
    let direction ← self.direction s.bars bar
    match s.prevDirection with
    | none =>
      if direction ≠ .flat then
        .ok (some (self.signal bar direction),
          { s with prevDirection := some direction, barsSinceSignal := 0 })
      else
        .ok (none, { s with prevDirection := some direction })
    | some prev =>
      if direction ≠ prev then
        if self.minHoldBars ≤ s.barsSinceSignal then
          .ok (if direction ≠ .flat then some (self.signal bar direction) else none,
            { s with prevDirection := some direction, barsSinceSignal := 0 })
        else
          .ok (none, s)
      else if direction = .flat then
        .ok (none, { s with prevDirection := none, barsSinceSignal := 0 })
      else
        .ok (none, s)

def strategy (self : RollingReturnBreakoutStrategy) : Strategy State where
  init := { bars := [], prevDirection := none, barsSinceSignal := 0 }
  step := self.onBar

end RollingReturnBreakoutStrategy

/--
The bars of the examples.
-/
def barClosing (close : ℚ) : Bar where
  timestamp := ""
  openPrice := close
  high := close
  low := close
  close := close
  volume := 0

end Experiment
end Quantbot
