import Mathlib
import Quantbot.Util.JsonKeys

/-!
Weights by inverse volatility under a heat cap, over any ordered field with a square root function.
-/

namespace Quantbot
namespace Experiment
namespace Volnorm

variable {K : Type} [Field K] [LinearOrder K]

/--
A rolling window of log returns, with the statistics of the last update.
-/
structure VolatilityTracker (K : Type) [Field K] [LinearOrder K] where
  lookback : ℤ
  floor : K
  floor_pos : 0 < floor
  returns : List K
  mean : K
  m2 : K
  n : ℕ

/--
The arguments of the constructor, and the returns the tracker is fed with.
-/
structure ReturnHistory (K : Type) [Field K] [LinearOrder K] where
  lookback : ℤ
  floor : K
  floor_pos : 0 < floor
  returns : List K

namespace VolatilityTracker

def start (history : ReturnHistory K) : VolatilityTracker K where
  lookback := history.lookback
  floor := history.floor
  floor_pos := history.floor_pos
  returns := []
  mean := 0
  m2 := 0
  n := 0

/--
The statistics of a buffer, which an update computes anew.
-/
def recompute (self : VolatilityTracker K) (returns : List K) : VolatilityTracker K :=
  let n := returns.length
  let mean := returns.sum / (max 1 n : ℕ)
  { self with
    returns
    n
    mean
    m2 := (returns.map (fun value => (value - mean) ^ 2)).sum
  }

def update (self : VolatilityTracker K) (logReturn : K) : VolatilityTracker K :=
  let returns := self.returns ++ [logReturn]
  self.recompute (if self.lookback < returns.length then returns.drop 1 else returns)

def volatility (sqrt : K → K) (self : VolatilityTracker K) : K :=
  if self.n < 2 then
    self.floor
  else
    let variance := self.m2 / (self.n - 1)
    max (sqrt variance) self.floor

theorem volatility_pos (sqrt : K → K) (self : VolatilityTracker K) : 0 < self.volatility sqrt := by
  rw [volatility]
  split
  . exact self.floor_pos
  . exact lt_max_of_lt_right self.floor_pos

end VolatilityTracker

namespace ReturnHistory

def tracker (history : ReturnHistory K) : VolatilityTracker K :=
  history.returns.foldl VolatilityTracker.update (VolatilityTracker.start history)

/--
The returns that the window still holds.
-/
def window (history : ReturnHistory K) : List K :=
  history.returns.rtake history.lookback.toNat

end ReturnHistory

section weights

variable (sqrt : K → K) (volTrackers : List (String × VolatilityTracker K))

/--
The keys of a dict that is filled in the order of a list.
-/
def dictKeys (symbols : List String) : List String :=
  symbols.reverse.dedup.reverse

def rawWeight (symbol : String) : K :=
  match volTrackers.lookup symbol with
  | none => 1
  | some tracker => 1 / tracker.volatility sqrt

def weightOf (weights : List (String × K)) (symbol : String) : K :=
  (weights.lookup symbol).getD 0

/--
The sum over the active symbols that are in the dict of trackers.
-/
def portfolioHeat (weights : List (String × K)) (activeSymbols : List String) : K :=
  (activeSymbols.filterMap fun symbol => (volTrackers.lookup symbol).map
    fun tracker => weightOf weights symbol * tracker.volatility sqrt).sum

def computeVolNormedWeights (activeSymbols : List String) (heatCap : K) : List (String × K) :=
  if activeSymbols = [] then
    []
  else
    let symbols := dictKeys activeSymbols
    let rawWeights := symbols.map (fun symbol => (symbol, rawWeight sqrt volTrackers symbol))
    let totalRaw := (rawWeights.map Prod.snd).sum
    if totalRaw ≤ 0 then
      symbols.map (fun symbol => (symbol, 1 / (activeSymbols.length : K)))
    else
      let normWeights := rawWeights.map (fun weight => (weight.1, weight.2 / totalRaw))
      let heat := portfolioHeat sqrt volTrackers normWeights activeSymbols
      if heatCap < heat ∧ 0 < heat then
        normWeights.map (fun weight => (weight.1, weight.2 * (heatCap / heat)))
      else
        normWeights

end weights

end Volnorm
end Experiment
end Quantbot
