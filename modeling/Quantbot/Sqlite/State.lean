import Quantbot.Util.OrderedMap
import Quantbot.Paper.Engine.Run

/-!
The two mutable tables of the SQLite ledger: how `run_sqlite_accounting` rebuilds the engine state
from them and how it writes the state back.
-/

namespace Quantbot
namespace Sqlite

structure LedgerStateRow where
  watermarkBarTs : Option String
  realizedGross : ℚ
  feesCum : ℚ
  fundingCum : ℚ
  peakEquity : ℚ
deriving DecidableEq

structure OpenPositionRow where
  symbol : String
  position : Position
deriving DecidableEq

structure StateTables where
  ledgerState : LedgerStateRow
  openPositions : List OpenPositionRow
deriving DecidableEq

/--
The tables `initialize_database` creates.
-/
def StateTables.initial (initialEquity : ℚ) : StateTables where
  ledgerState := {
    watermarkBarTs := none
    realizedGross := 0
    feesCum := 0
    fundingCum := 0
    peakEquity := initialEquity
  }
  openPositions := []

/--
A stored peak of zero stands for no peak.
-/
def StateTables.engineState (tables : StateTables) (initialEquity : ℚ) : EngineState where
  watermarkBarTs := some (tables.ledgerState.watermarkBarTs.getD "")
  openPositions :=
    Std.ExtTreeMap.ofList (tables.openPositions.map (fun row => (row.symbol, row.position)))
  accumulators := {
    realizedGross := tables.ledgerState.realizedGross
    feesCum := tables.ledgerState.feesCum
    fundingCum := tables.ledgerState.fundingCum
  }
  peakEquity := some (if tables.ledgerState.peakEquity = 0 then
    initialEquity
  else
    tables.ledgerState.peakEquity)
  barsElapsed := 0

/--
`None` for the empty text, as in `new_watermark or None`.
-/
def textOrNull (s : String) : Option String :=
  if s = "" then none else some s

def newWatermark (r : EngineResult) : String :=
  (r.equity.map EquityRow.barTs).foldl max ""

/--
A run without an equity row rolls back.
-/
def StateTables.persist (tables : StateTables) (r : EngineResult) : StateTables :=
  if r.equity.isEmpty then
    tables
  else
    { ledgerState := {
        watermarkBarTs := textOrNull (newWatermark r)
        realizedGross := r.state.accumulators.realizedGross
        feesCum := r.state.accumulators.feesCum
        fundingCum := r.state.accumulators.fundingCum
        peakEquity := r.state.peakEquity.getD 0
      }
      openPositions := r.state.openPositions.toList.map (fun p => ⟨p.1, p.2⟩) }

theorem openPositions_roundTrip (m : OpenPositions)
    : Std.ExtTreeMap.ofList
        ((m.toList.map (fun p => OpenPositionRow.mk p.1 p.2)).map
          (fun row => (row.symbol, row.position)))
        =
      m := by
  rw [List.map_map]
  have : ((fun row : OpenPositionRow => (row.symbol, row.position))
      ∘ fun p : String × Position => OpenPositionRow.mk p.1 p.2) = id := by
    rfl
  rw [this, List.map_id]
  exact ofList_toList m

theorem textOrNull_getD (s : String) : (textOrNull s).getD "" = s := by
  unfold textOrNull
  split
  next h => exact h.symm
  . rfl

end Sqlite
end Quantbot
