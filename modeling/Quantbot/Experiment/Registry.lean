import Mathlib
import Quantbot.Experiment.Regime

/-!
The strategy registry: how a strategy is built from a name and parameters.
-/

namespace Quantbot
namespace Experiment

open Sqlite (PyFloat Literals)

namespace RegimeFiltered

structure State where
  parent : RollingReturnBreakoutStrategy.State
  rfbBars : List Bar

end RegimeFiltered

structure RegimeFilteredBreakoutStrategy where
  parent : RollingReturnBreakoutStrategy
  trendWindow : JsonValue
  trendThreshold : JsonValue
  allowedTrendRegimes : JsonValue

/--
`label in container`
-/
def memberOf (label : String) : JsonValue → Except PyError Bool
  | .arr items => .ok (items.any (fun v => v.asStr = some label))
  | .str s => .ok (decide (label.toList <:+: s.toList))
  | .obj fields => .ok (fields.any (fun f => f.1 = label))
  | _ => .error .typeError

namespace RegimeFilteredBreakoutStrategy

open RegimeFiltered (State)

variable (math : FloatMath) (self : RegimeFilteredBreakoutStrategy)

def delegate (s : State) (bar : Bar) : Except PyError (Option Signal × State) := do
  let r ← self.parent.onBar s.parent bar
  .ok (r.1, { s with parent := r.2 })

/--
The parent acts under an allowed label only.
-/
def gate (s : State) (bar : Bar) (label : String) : Except PyError (Option Signal × State) := do
  if ← memberOf label self.allowedTrendRegimes then
    self.delegate s bar
  else
    .ok (none, s)

/--
A window that is a float can be compared but not used to slice.
-/
def onBarFloat (s : State) (bar : Bar) (window : PyFloat)
    : Except PyError (Option Signal × State) := do
  let n : ℚ := s.rfbBars.length
  match window with
  | .nan => self.delegate s bar
  | .infinity negative => if negative then .error .typeError else self.delegate s bar
  | .finite x =>
    if x + 1 < n then
      .error .typeError
    else if n < x then
      self.delegate s bar
    else if ((computeLogReturns math s.rfbBars).length : ℚ) < x then
      let _ ← numeric self.trendThreshold
      self.gate s bar "unknown"
    else
      .error .typeError

def onBarInt (s : State) (bar : Bar) (window : ℤ) : Except PyError (Option Signal × State) := do
  let s :=
    if window + 1 < s.rfbBars.length then
      { s with rfbBars := pySliceFrom s.rfbBars (-(window + 1)) }
    else
      s
  if s.rfbBars.length < window then
    self.delegate s bar
  else
    let label ← computeTrendRegime (computeLogReturns math s.rfbBars) window self.trendThreshold
    self.gate s bar label

def onBar (s : State) (bar : Bar) : Except PyError (Option Signal × State) :=
  let s := { s with rfbBars := s.rfbBars ++ [bar] }
  match self.trendWindow with
  | .bool b => self.onBarInt math s bar (if b then 1 else 0)
  | .int n => self.onBarInt math s bar n
  | .float x => self.onBarFloat math s bar (.finite x)
  | .nan => self.onBarFloat math s bar .nan
  | .infinity negative => self.onBarFloat math s bar (.infinity negative)
  | _ => .error .typeError

def strategy : Strategy State where
  init := { parent := self.parent.strategy.init, rfbBars := [] }
  step := self.onBar math

end RegimeFilteredBreakoutStrategy

/--
The fields of the strategy classes that hold their state. They are not constructor parameters.
-/
def stateFields : List String :=
  ["_bars", "_prev_direction", "_bars_since_signal", "_rfb_bars"]

/--
Constructor parameters by name.
-/
structure Params where
  entries : List (String × JsonValue)
  noState : ∀ name ∈ entries.map Prod.fst, name ∉ stateFields

namespace Params

variable (params : Params)

def get? (name : String) : Option JsonValue :=
  params.entries.lookup name

def names : List String :=
  params.entries.map Prod.fst

theorem update_noState {extra : List (String × JsonValue)}
    (h : ∀ name ∈ extra.map Prod.fst, name ∉ stateFields)
    : ∀ name ∈ (extra ++ params.entries).map Prod.fst, name ∉ stateFields := by
  intro name hname
  rw [List.map_append, List.mem_append] at hname
  rcases hname with hname | hname
  . exact h name hname
  . exact params.noState name hname

/--
`{**params, **extra}`
-/
def update (extra : List (String × JsonValue))
    (h : ∀ name ∈ extra.map Prod.fst, name ∉ stateFields) : Params where
  entries := extra ++ params.entries
  noState := params.update_noState h

end Params

section conversions

variable (literals : Literals)

/--
`int(v)`
-/
def pyInt : JsonValue → Except PyError ℤ
  | .bool b => .ok (if b then 1 else 0)
  | .int n => .ok n
  | .float q => .ok (Sqlite.truncate q)
  | .nan => .error .valueError
  | .infinity _ => .error .overflowError
  | .str s =>
    match literals.int s with
    | some n => .ok n
    | none => .error .valueError
  | _ => .error .typeError

/--
`float(v)`
-/
def pyFloat : JsonValue → Except PyError PyFloat
  | .bool b => .ok (.finite (if b then 1 else 0))
  | .int n =>
    match floatOfInt n with
    | some q => .ok (.finite q)
    | none => .error .overflowError
  | .float q => .ok (.finite q)
  | .nan => .ok .nan
  | .infinity negative => .ok (.infinity negative)
  | .str s =>
    match literals.float s with
    | some x => .ok x
    | none => .error .valueError
  | _ => .error .typeError

end conversions

/--
A keyword that the signature does not have, or that binds the instance again.
-/
def refuses (params : Params) (accepted : List String) : Bool :=
  params.names.any (fun name => name ∉ accepted)

def bindsSelf (params : Params) : Bool :=
  params.names.any (fun name => name = "self")

def ThresholdStrategy.build (params : Params) : Except PyError ThresholdStrategy :=
  if bindsSelf params then
    .error .typeError
  else
    match params.get? "threshold" with
    | none => .error .typeError
    | some threshold =>
      .ok { threshold, symbol := (params.get? "symbol").getD (.str "TESTUSD") }

def MADeviationStrategy.build (literals : Literals) (params : Params)
    : Except PyError MADeviationStrategy := do
  if bindsSelf params then
    .error .typeError
  else
    let maPeriod ← pyInt literals ((params.get? "ma_period").getD (.int 20))
    .ok {
      maPeriod
      symbol := (params.get? "symbol").getD (.str "TESTUSD")
      thresholdPct := (params.get? "threshold_pct").getD (.float 0)
    }

namespace RollingReturnBreakoutStrategy

def accepted : List String :=
  ["rolling_return_period", "return_threshold", "min_hold_bars", "confidence", "symbol",
    "_split_index", "_test_start", "_test_end"]

/--
The generated constructor without its check of the keywords.
-/
def coerce (literals : Literals) (params : Params)
    : Except PyError RollingReturnBreakoutStrategy := do
  let rollingReturnPeriod ← pyInt literals ((params.get? "rolling_return_period").getD (.int 20))
  let returnThreshold ← pyFloat literals ((params.get? "return_threshold").getD (.float (1 / 20)))
  let minHoldBars ← pyInt literals ((params.get? "min_hold_bars").getD (.int 3))
  .ok {
    rollingReturnPeriod
    returnThreshold
    minHoldBars
    confidence := (params.get? "confidence").getD (.float (1 / 2))
    symbol := (params.get? "symbol").getD (.str "TESTUSD")
  }

def build (literals : Literals) (params : Params)
    : Except PyError RollingReturnBreakoutStrategy :=
  if refuses params accepted then
    .error .typeError
  else
    coerce literals params

end RollingReturnBreakoutStrategy

namespace RegimeFilteredBreakoutStrategy

def accepted : List String :=
  RollingReturnBreakoutStrategy.accepted
    ++ ["trend_window", "trend_threshold", "allowed_trend_regimes"]

def build (literals : Literals) (params : Params)
    : Except PyError RegimeFilteredBreakoutStrategy := do
  if refuses params accepted then
    .error .typeError
  else
    let parent ← RollingReturnBreakoutStrategy.coerce literals params
    .ok {
      parent
      trendWindow := (params.get? "trend_window").getD (.int 20)
      trendThreshold := (params.get? "trend_threshold").getD (.float (1 / 1000))
      allowedTrendRegimes := (params.get? "allowed_trend_regimes").getD (.arr [.str "uptrend"])
    }

end RegimeFilteredBreakoutStrategy

inductive BuiltStrategy where
  | threshold (self : ThresholdStrategy)
  | maDeviation (self : MADeviationStrategy)
  | rollingReturnBreakout (self : RollingReturnBreakoutStrategy)
  | regimeFilteredBreakout (self : RegimeFilteredBreakoutStrategy)

namespace BuiltStrategy

def State : BuiltStrategy → Type
  | threshold _ => ThresholdStrategy.State
  | maDeviation _ => MADeviationStrategy.State
  | rollingReturnBreakout _ => RollingReturnBreakoutStrategy.State
  | regimeFilteredBreakout _ => RegimeFiltered.State

def strategy (math : FloatMath) : (built : BuiltStrategy) → Strategy built.State
  | threshold self => self.strategy
  | maDeviation self => self.strategy
  | rollingReturnBreakout self => self.strategy
  | regimeFilteredBreakout self => self.strategy math

end BuiltStrategy

/--
`_build_strategy`.
-/
def buildStrategy (literals : Literals) (strategyName : String) (params : Params)
    : Except PyError BuiltStrategy := do
  if strategyName = "ThresholdStrategy" then
    .ok (.threshold (← ThresholdStrategy.build params))
  else if strategyName = "MADeviationStrategy" then
    .ok (.maDeviation (← MADeviationStrategy.build literals params))
  else if strategyName = "RollingReturnBreakoutStrategy" then
    .ok (.rollingReturnBreakout (← RollingReturnBreakoutStrategy.build literals params))
  else if strategyName = "RegimeFilteredBreakoutStrategy" then
    .ok (.regimeFilteredBreakout (← RegimeFilteredBreakoutStrategy.build literals params))
  else
    .error .valueError

end Experiment
end Quantbot
