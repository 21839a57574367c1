import Quantbot.Sandbox.Bundle
import Quantbot.Util.DecimalContext

/-!
The decisions of a rule on a path of prices and funding, and the accounts of a run. `none` is an
exception: an overflow, an index behind the end of a path, or the mean of nothing.
-/

namespace Quantbot

namespace Sandbox

section positions

variable (prices funding : List Decimal)

def Lookback.toNat (lookback : Lookback) : ℕ :=
  lookback.1.toNat

/--
`prices[t - 1] - prices[t - 1 - lookback]`
-/
def laggedChange (lookback : Lookback) (t : ℕ) : Option Decimal := do
  Decimal.sub (← prices[t - 1]?) (← prices[t - 1 - lookback.toNat]?)

/--
The sign of a signal outside of its deadband.
-/
def outside (signal : Decimal) (deadband : Deadband) : Option ℤ := do
  return if Decimal.le (← signal.abs) deadband.value then 0 else signal.sign

def laggedPosition (lookback : Lookback) (deadband : Deadband) (t : ℕ) : Option ℤ :=
  if t ≤ lookback.toNat then
    some 0
  else do
    outside (← laggedChange prices lookback t) deadband

/--
The threshold of the price is not computed where the funding is not crowded.
-/
def crowdedLong (laggedPriceChange priorFunding : Decimal) (priceDeadband fundingDeadband : Deadband)
    : Option Bool :=
  if Decimal.lt fundingDeadband.value priorFunding then
    priceDeadband.value.minus.map (Decimal.lt laggedPriceChange)
  else
    some false

def crowdingPosition (lookback : Lookback) (priceDeadband fundingDeadband : Deadband) (t : ℕ)
    : Option ℤ :=
  if t ≤ lookback.toNat then
    some 0
  else do
    let laggedPriceChange ← laggedChange prices lookback t
    let priorFunding ← funding[t - 1]?
    if ← crowdedLong laggedPriceChange priorFunding priceDeadband fundingDeadband then
      some (-1)
    else
      fundingDeadband.value.minus.map (fun threshold =>
        if Decimal.lt priorFunding threshold && Decimal.lt priceDeadband.value laggedPriceChange then
          1
        else
          0)

def positionFor (rule : Rule) (t : ℕ) : Option ℤ :=
  match rule with
  | .alwaysFlat => some 0
  | .alwaysLong => some 1
  | .alwaysShort => some (-1)
  | .laggedReturnSign lookback deadband => laggedPosition prices lookback deadband t
  | .laggedReturnFade lookback deadband =>
    (laggedPosition prices lookback deadband t).map (fun position => -position)
  | .fundingSignFade deadband =>
    if t = 0 then
      some 0
    else do
      (outside (← funding[t - 1]?) deadband).map (fun position => -position)
  | .fundingCrowdingReversal lookback priceDeadband fundingDeadband =>
    crowdingPosition prices funding lookback priceDeadband fundingDeadband t

end positions

section accounts

/--
The components of a run, one for each interval, and their sums.
-/
structure Accounts where
  positions : List ℤ
  priceComponents : List Decimal
  fundingComponents : List Decimal
  costs : List Decimal
  nets : List Decimal

/--
`positions[t - 1] if t else 0`
-/
def previous (positions : List ℤ) (t : ℕ) : ℤ :=
  if t = 0 then 0 else positions.getD (t - 1) 0

variable (prices funding : List Decimal)

def priceComponent (positions : List ℤ) (t : ℕ) : Option Decimal := do
  Decimal.mul (.ofInt (← positions[t]?)) (← Decimal.sub (← prices[t + 1]?) (← prices[t]?))

def fundingComponent (positions : List ℤ) (t : ℕ) : Option Decimal := do
  Decimal.mul (.ofInt (-(← positions[t]?))) (← funding[t]?)

def costComponent (positions : List ℤ) (t : ℕ) : Option Decimal := do
  Decimal.mul transactionCost (.ofInt |(← positions[t]?) - previous positions t|)

def netComponent (priceComponents fundingComponents costs : List Decimal) (t : ℕ)
    : Option Decimal := do
  Decimal.sub (← Decimal.add (← priceComponents[t]?) (← fundingComponents[t]?)) (← costs[t]?)

def accounts (rule : Rule) : Option Accounts := do
  let positions ← (List.range (prices.length - 1)).mapM (positionFor prices funding rule)
  let slots := List.range positions.length
  let priceComponents ← slots.mapM (priceComponent prices positions)
  let fundingComponents ← slots.mapM (fundingComponent funding positions)
  let costs ← slots.mapM (costComponent positions)
  let nets ← slots.mapM (netComponent priceComponents fundingComponents costs)
  return { positions, priceComponents, fundingComponents, costs, nets }

namespace Accounts

variable (a : Accounts)

def longSlotCount : ℕ :=
  a.positions.count 1

def shortSlotCount : ℕ :=
  a.positions.count (-1)

def flatSlotCount : ℕ :=
  a.positions.count 0

def activeSlotCount : ℕ :=
  a.longSlotCount + a.shortSlotCount

def turnoverCount : ℕ :=
  (List.range a.positions.length).countP (fun t => a.positions.getD t 0 ≠ previous a.positions t)

end Accounts

def average (values : List Decimal) : Option String := do
  let total ← Decimal.sum .zero values
  if values = [] then
    none
  else
    return (← total.divNat values.length).text

/--
`_result` as JSON. Its keys are in order.
-/
def result (variant : Variant) (scenario : Scenario) : Option JsonValue := do
  let a ← accounts scenario.prices scenario.funding variant.rule
  let meanCostDrag ← average a.costs
  let meanFundingComponent ← average a.fundingComponents
  let meanNet ← average a.nets
  let meanPriceComponent ← average a.priceComponents
  return .obj [
    ("active_slot_count", .int a.activeSlotCount),
    ("flat_slot_count", .int a.flatSlotCount),
    ("long_slot_count", .int a.longSlotCount),
    ("mean_cost_drag", .str meanCostDrag),
    ("mean_funding_component", .str meanFundingComponent),
    ("mean_net", .str meanNet),
    ("mean_price_component", .str meanPriceComponent),
    ("position_series_sha256", .str (canonicalDigest (.arr (a.positions.map .int)))),
    ("scenario_id", .str scenario.scenarioId),
    ("short_slot_count", .int a.shortSlotCount),
    ("turnover_count", .int a.turnoverCount),
    ("variant_id", .str variant.variantId.1)]

end accounts

end Sandbox

end Quantbot
