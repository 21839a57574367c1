import Quantbot.Lab.ReplayAgrees
import Quantbot.Util.KeyedRows

/-!
`cross_check`: the rows of the engine and of the replay, filed under their keys and compared field by
field.
-/

namespace Quantbot

namespace CrossCheck

/--
The fields that the classes list, and the others that a disagreement can name.
-/
inductive Field
  | openPrice
  | fillPrice
  | qty
  | fee
  | fillTs
  | grossExposureUsd
  | side
  | kind
  | fundingCum
  | fundingAmount
  | fundingRate
  | fundingEvents
  | windowStart
  | windowEnd
  | rateAvailable
  | funding
  | equity
  | realizedGrossPnl
  | unrealizedPnl
  | feesCum
  | netPnl
  | grossPnl
  | numOpen
  | openSymbols
  | equityRowPresence
  | fillPresence
  | deferredBarTs
deriving DecidableEq

inductive Classification
  | qntyBugCandidate
  | checkerBugCandidate
  | specAmbiguity
  | timestampFillCostMismatch
deriving DecidableEq

def Classification.text : Classification → String
  | qntyBugCandidate => "QNTY_BUG_CANDIDATE"
  | checkerBugCandidate => "CHECKER_BUG_CANDIDATE"
  | specAmbiguity => "SPEC_AMBIGUITY"
  | timestampFillCostMismatch => "TIMESTAMP_FILL_COST_MISMATCH"

def costFields : List Field :=
  [.openPrice, .fillPrice, .qty, .fee, .fillTs, .grossExposureUsd, .side, .kind]

def fundingFields : List Field :=
  [.fundingCum, .fundingAmount, .fundingRate, .fundingEvents, .windowStart, .windowEnd,
    .rateAvailable, .funding]

def equityFields : List Field :=
  [.equity, .realizedGrossPnl, .unrealizedPnl, .feesCum, .netPnl, .grossPnl]

/--
A value of a row.
-/
inductive Cell
  | number (x : ℚ)
  | count (n : ℤ)
  | flag (b : Bool)
  | text (s : String)
  | texts (l : List String)
deriving DecidableEq

/--
The values that Python takes for a number.
-/
def Cell.toFloat : Cell → Option ℚ
  | number x => some x
  | count n => some n
  | flag b => some (if b then 1 else 0)
  | text _ => none
  | texts _ => none

structure Disagreement where
  barTs : String
  symbol : Option String
  field : Field
  engineValue : Option Cell
  replayValue : Option Cell
  delta : Option ℚ
  classification : Classification
deriving DecidableEq

end CrossCheck

/--
The rows of an `EngineResult`, whatever they are.
-/
structure EngineRows where
  fills : List FillRow
  positions : List PositionsRow
  trades : List TradeRow
  equity : List EquityRow
  funding : List FundingRow
  deferredBarTs : Option String
deriving DecidableEq

def EngineResult.rows (r : EngineResult) (cfg : PaperConfig) : EngineRows where
  fills := r.fills cfg
  positions := r.positions
  trades := r.trades
  equity := r.equity
  funding := r.funding
  deferredBarTs := r.deferredBarTs

open CrossCheck

/--
The compared values of a row. The engine's rows have those of the replay's.
-/
def ReplayEquity.get (e : ReplayEquity) : Field → Option Cell
  | .realizedGrossPnl => some (.number e.realizedGrossPnl)
  | .unrealizedPnl => some (.number e.unrealizedPnl)
  | .fundingCum => some (.number e.fundingCum)
  | .feesCum => some (.number e.feesCum)
  | .equity => some (.number e.equity)
  | .numOpen => some (.count e.numOpen)
  | _ => none

def ReplayPositions.get (p : ReplayPositions) : Field → Option Cell
  | .numOpen => some (.count p.numOpen)
  | .grossExposureUsd => some (.number p.grossExposureUsd)
  | .openSymbols => some (.texts p.openSymbols)
  | _ => none

def ReplayFill.get (f : ReplayFill) : Field → Option Cell
  | .fillTs => some (.text f.fillTs)
  | .side => some (.text f.side)
  | .kind => some (.text f.kind)
  | .qty => some (.number f.qty)
  | .openPrice => some (.number f.openPrice)
  | .fillPrice => some (.number f.fillPrice)
  | .fee => some (.number f.fee)
  | _ => none

abbrev FillKey :=
  String ×ₗ String ×ₗ String

def ReplayFill.fillKey (f : ReplayFill) : FillKey :=
  toLex (f.signalBarTs, toLex (f.symbol, f.kind))

def FillRow.fillKey (f : FillRow) : FillKey :=
  f.replay.fillKey

namespace CrossCheck

section classify

/--
Is an equity row internally self-consistent?
-/
def equityConsistent (row : ReplayEquity) (initial : ℚ) : Bool :=
  let recomputed :=
    initial + row.realizedGrossPnl - row.feesCum - row.fundingCum + row.unrealizedPnl
  |recomputed - row.equity| ≤ 1 / 10000

def classifyDisagreement (fieldName : Field) (engineEquityRow : Option EquityRow)
    (replayEquityRow : Option ReplayEquity) (initialEquity : ℚ) : Classification :=
  if fieldName ∈ costFields then
    .timestampFillCostMismatch
  else if fieldName ∈ fundingFields then
    .specAmbiguity
  else if fieldName ∈ equityFields then
    let engineOk := engineEquityRow.any (fun row => equityConsistent row.replay initialEquity)
    let replayOk := replayEquityRow.any (fun row => equityConsistent row initialEquity)
    if !replayOk then
      -- suspect the checker first
      .checkerBugCandidate
    else if !engineOk then
      .qntyBugCandidate
    else
      .specAmbiguity
  else
    .specAmbiguity

end classify

section compare

def asDelta (a b : Option Cell) : Option ℚ := do
  return (← (← a).toFloat) - (← (← b).toFloat)

def equityCmp : List Field :=
  [.realizedGrossPnl, .unrealizedPnl, .fundingCum, .feesCum, .equity, .numOpen]

def positionCmp : List Field :=
  [.numOpen, .grossExposureUsd, .openSymbols]

def fillCmp : List Field :=
  [.fillTs, .side, .qty, .openPrice, .fillPrice, .fee]

/--
The listed fields in which two rows differ.
-/
def fieldDiffs (fields : List Field) (ts : String) (symbol : Option String)
    (e r : Field → Option Cell) (classify : Field → Classification) : List Disagreement :=
  fields.filterMap (fun fld =>
    if e fld = r fld then
      none
    else
      some {
        barTs := ts
        symbol := symbol
        field := fld
        engineValue := e fld
        replayValue := r fld
        delta := asDelta (e fld) (r fld)
        classification := classify fld
      })

/--
A row that one of the two results does not have.
-/
def presenceDiff (ts : String) (symbol : Option String) (field : Field) (e r : Bool)
    (classification : Classification) : Disagreement where
  barTs := ts
  symbol := symbol
  field := field
  engineValue := some (.flag e)
  replayValue := some (.flag r)
  delta := none
  classification := classification

variable (engEq : Std.ExtTreeMap String EquityRow) (repEq : Std.ExtTreeMap String ReplayEquity)
  (initialEquity : ℚ)

/--
Classified by the equity rows of a bar.
-/
def classifyAt (ts : String) (field : Field) : Classification :=
  classifyDisagreement field engEq[ts]? repEq[ts]? initialEquity

def equityDiffs (ts : String) : List Disagreement :=
  match engEq[ts]?, repEq[ts]? with
  | some e, some r =>
    fieldDiffs equityCmp ts none e.replay.get r.get (classifyAt engEq repEq initialEquity ts)
  | e, r =>
    [presenceDiff ts none .equityRowPresence e.isSome r.isSome
      (classifyAt engEq repEq initialEquity ts .equityRowPresence)]

def positionDiffs (engPos : Std.ExtTreeMap String PositionsRow)
    (repPos : Std.ExtTreeMap String ReplayPositions) (ts : String) : List Disagreement :=
  match engPos[ts]?, repPos[ts]? with
  | some e, some r =>
    fieldDiffs positionCmp ts none e.replay.get r.get (classifyAt engEq repEq initialEquity ts)
  | _, _ => []

def fillDiffs (engFills : Std.ExtTreeMap FillKey FillRow)
    (repFills : Std.ExtTreeMap FillKey ReplayFill) (key : FillKey) : List Disagreement :=
  let ts := (ofLex key).1
  let sym := (ofLex (ofLex key).2).1
  match engFills[key]?, repFills[key]? with
  | some e, some r =>
    fieldDiffs fillCmp ts (some sym) e.replay.get r.get (classifyAt engEq repEq initialEquity ts)
  | e, r =>
    -- a missing fill is classified as one with another time
    [presenceDiff ts (some sym) .fillPresence e.isSome r.isSome
      (classifyAt engEq repEq initialEquity ts .fillTs)]

def deferredDiffs (engine replay : Option String) : List Disagreement :=
  if engine = replay then
    []
  else
    [{
      barTs := engine.getD "None"
      symbol := none
      field := .deferredBarTs
      engineValue := engine.map .text
      replayValue := replay.map .text
      delta := none
      classification := .timestampFillCostMismatch
    }]

end compare

protected def compare (engine : EngineRows) (replay : ReplayResult) (initialEquity : ℚ)
    : List Disagreement :=
  let engEq := rowsBy EquityRow.barTs engine.equity
  let repEq := rowsBy ReplayEquity.barTs replay.equity
  let engPos := rowsBy PositionsRow.barTs engine.positions
  let repPos := rowsBy ReplayPositions.barTs replay.positions
  let engFills := rowsBy FillRow.fillKey engine.fills
  let repFills := rowsBy ReplayFill.fillKey replay.fills
  (unionKeys engEq repEq).flatMap (equityDiffs engEq repEq initialEquity)
    ++ (unionKeys engPos repPos).flatMap (positionDiffs engEq repEq initialEquity engPos repPos)
    ++ (unionKeys engFills repFills).flatMap (fillDiffs engEq repEq initialEquity engFills repFills)
    ++ deferredDiffs engine.deferredBarTs replay.deferredBarTs

section report

inductive Verdict
  | pass
  | fail
  | inconclusive
deriving DecidableEq

structure Report where
  clean : Bool
  verdict : Verdict
  disagreements : List Disagreement
  byClass : Std.ExtTreeMap String ℕ
  note : String

def byClass (diffs : List Disagreement) : Std.ExtTreeMap String ℕ :=
  diffs.foldl (fun m d =>
    m.insert d.classification.text (m.getD d.classification.text 0 + 1)) ∅

def report (diffs : List Disagreement) : Report :=
  let byClass := byClass diffs
  let (verdict, note) :=
    if diffs = [] then
      (.pass, "engine and independent replay agree row-by-row")
    else if byClass.getD Classification.checkerBugCandidate.text 0 ≠ 0
        ∨ byClass.getD Classification.specAmbiguity.text 0 ≠ 0 then
      (.inconclusive, "disagreement requires triage (see classes)")
    else
      (.fail, "disagreement indicates the witness may be wrong")
  {
    clean := diffs = []
    verdict := verdict
    disagreements := diffs
    byClass := byClass
    note := note
  }

def crossCheck (cfg : PaperConfig) (perBarObs : List Obs) (prices : PriceBook)
    (fundingDf : List FundingEvent) (initialEquityUsd : Option ℚ) : Except PyError Report := do
  let initial := initialEquityUsd.getD cfg.initialEquityUsd
  let engineResult ← runEngine cfg perBarObs prices fundingDf (newState initial)
  let replayResult ← runReplay cfg perBarObs prices fundingDf (some initial) ""
  return report (CrossCheck.compare (engineResult.rows cfg) replayResult initial)

end report

end CrossCheck

end Quantbot
