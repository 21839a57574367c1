import Quantbot.Paper.Engine.Run
import Quantbot.Paper.Timestamp.Iso

/-!
`run_replay`: the accounting derived a second time, on plain dictionaries. Its price and funding
lookups are those of the engine under other names.
-/

namespace Quantbot

/--
`parse_instant` on the texts that `parse_bar_utc` reads.
-/
def parseInstant (ts : String) : Except PyError DateTime :=
  fromIsoFormat ts

structure ReplayPosition where
  entryPrice : ℚ
  qty : ℚ
  entryBarTs : String
  entryFillTs : String
  fundingAccrued : ℚ
  entryFee : ℚ
  holdBars : ℤ
deriving DecidableEq

structure ReplayFill where
  signalBarTs : String
  fillTs : String
  symbol : String
  side : String
  kind : String
  qty : ℚ
  openPrice : ℚ
  fillPrice : ℚ
  fee : ℚ
deriving DecidableEq

structure ReplayTrade where
  symbol : String
  entryBarTs : String
  exitBarTs : String
  qty : ℚ
  entryPrice : ℚ
  exitPrice : ℚ
  grossPnl : ℚ
  fees : ℚ
  funding : ℚ
  netPnl : ℚ
  holdBars : ℤ
deriving DecidableEq

structure ReplayFunding where
  fundingId : String
  symbol : String
  barTs : String
  windowStart : String
  windowEnd : String
  notionalUsd : ℚ
  fundingRate : ℚ
  fundingEvents : ℤ
  rateAvailable : Bool
  fundingAmount : ℚ
deriving DecidableEq

structure ReplayEquity where
  barTs : String
  realizedGrossPnl : ℚ
  unrealizedPnl : ℚ
  fundingCum : ℚ
  feesCum : ℚ
  equity : ℚ
  numOpen : ℤ
deriving DecidableEq

structure ReplayPositions where
  barTs : String
  openSymbols : List String
  numOpen : ℤ
  grossExposureUsd : ℚ
deriving DecidableEq

structure ReplayResult where
  fills : List ReplayFill
  positions : List ReplayPositions
  trades : List ReplayTrade
  equity : List ReplayEquity
  funding : List ReplayFunding
  deferredBarTs : Option String
deriving DecidableEq

def ReplayResult.empty : ReplayResult where
  fills := []
  positions := []
  trades := []
  equity := []
  funding := []
  deferredBarTs := none

/--
The variables of the loop.
-/
structure ReplayState where
  openPositions : Std.ExtTreeMap String ReplayPosition
  realizedGross : ℚ
  feesCum : ℚ
  fundingCum : ℚ
  watermark : String
  result : ReplayResult

/--
What an accrual changes of a position, what it costs, and the row it leaves.
-/
structure Accrual where
  pos : ReplayPosition
  amount : ℚ
  rows : List ReplayFunding

namespace ReplayState

def accrue (st : ReplayState) (sym : String) (accrual : ReplayPosition → Accrual) : ReplayState :=
  match st.openPositions[sym]? with
  | none => st
  | some pos =>
    let a := accrual pos
    { st with
      openPositions := st.openPositions.insert sym a.pos
      fundingCum := st.fundingCum + a.amount
      result := { st.result with funding := st.result.funding ++ a.rows } }

end ReplayState

section replayBar

variable (cfg : PaperConfig) (prices : PriceBook) (index : FundingIndex)

def replayIntervalStart (ts : String) (intervalHours : ℕ) : Except PyError String := do
  let dt ← (← parseInstant ts).subHours intervalHours
  return dt.strftime

/--
Funding on a held position up to the bar.
-/
def heldAccrual (windowStart ts sym : String) (pos : ReplayPosition) : Accrual :=
  let pos := { pos with holdBars := pos.holdBars + 1 }
  let mark := (prices.closeAt sym ts).getD pos.entryPrice
  let notionalAt := pos.qty * mark
  let effStart := max windowStart pos.entryFillTs
  if ts ≤ effStart then
    { pos := pos, amount := 0, rows := [] }
  else
    let (rate, numEvents, available) := fundingInInterval index sym effStart ts
    let amount := if available then notionalAt * rate else 0
    { pos := { pos with fundingAccrued := pos.fundingAccrued + amount }
      amount := amount
      rows := [{
        fundingId := sym ++ "|" ++ ts
        symbol := sym
        barTs := ts
        windowStart := effStart
        windowEnd := ts
        notionalUsd := roundDp 8 notionalAt
        fundingRate := roundDp 12 rate
        fundingEvents := numEvents
        rateAvailable := available
        fundingAmount := roundDp 8 amount
      }] }

/--
Funding on a position that leaves, from the bar to its exit fill.
-/
def tailAccrual (ts nextTs sym : String) (pos : ReplayPosition) : Accrual :=
  let stubMark := (prices.closeAt sym nextTs).getD pos.entryPrice
  let stubNotional := pos.qty * stubMark
  let (rate, numEvents, available) := fundingInInterval index sym ts nextTs
  let amount := if available then stubNotional * rate else 0
  { pos := { pos with fundingAccrued := pos.fundingAccrued + amount }
    amount := amount
    rows := [{
      fundingId := sym ++ "|" ++ ts ++ "|exit"
      symbol := sym
      barTs := ts
      windowStart := ts
      windowEnd := nextTs
      notionalUsd := roundDp 8 stubNotional
      fundingRate := roundDp 12 rate
      fundingEvents := numEvents
      rateAvailable := available
      fundingAmount := roundDp 8 amount
    }] }

/--
Unrealized PnL and gross exposure, with those of one more position if it has a close at the bar.
-/
def addMark (ts : String) (acc : ℚ × ℚ) (p : String × ReplayPosition) : ℚ × ℚ :=
  match prices.closeAt p.1 ts with
  | none => acc
  | some close => (acc.1 + (close - p.2.entryPrice) * p.2.qty, acc.2 + p.2.qty * close)

/--
The equity and the positions row, on the book before the fills.
-/
def ReplayState.mark (initial : ℚ) (ts : String) (st : ReplayState) : ReplayState :=
  let (unreal, grossExposure) := st.openPositions.toList.foldl (addMark prices ts) (0, 0)
  let equity := initial + st.realizedGross - st.feesCum - st.fundingCum + unreal
  { st with
    result := { st.result with
      equity := st.result.equity ++ [{
        barTs := ts
        realizedGrossPnl := roundDp 8 st.realizedGross
        unrealizedPnl := roundDp 8 unreal
        fundingCum := roundDp 8 st.fundingCum
        feesCum := roundDp 8 st.feesCum
        equity := roundDp 8 equity
        numOpen := st.openPositions.size
      }]
      positions := st.result.positions ++ [{
        barTs := ts
        openSymbols := st.openPositions.keys
        numOpen := st.openPositions.size
        grossExposureUsd := roundDp 8 grossExposure
      }] } }

def ReplayState.fillExit (ts : String) (st : ReplayState) (leg : String × String × ℚ)
    : ReplayState :=
  let (sym, nextTs, openPrice) := leg
  let fillPrice := openPrice * (1 - cfg.slip)
  match st.openPositions[sym]? with
  | none => st
  | some pos =>
    let fee := fillPrice * pos.qty * cfg.feeRate
    let gross := (fillPrice - pos.entryPrice) * pos.qty
    { st with
      openPositions := st.openPositions.erase sym
      realizedGross := st.realizedGross + gross
      feesCum := st.feesCum + fee
      result := { st.result with
        fills := st.result.fills ++ [{
          signalBarTs := ts
          fillTs := nextTs
          symbol := sym
          side := "SELL"
          kind := "exit"
          qty := roundDp 10 pos.qty
          openPrice := roundDp 8 openPrice
          fillPrice := roundDp 8 fillPrice
          fee := roundDp 8 fee
        }]
        trades := st.result.trades ++ [{
          symbol := sym
          entryBarTs := pos.entryBarTs
          exitBarTs := ts
          qty := roundDp 10 pos.qty
          entryPrice := roundDp 8 pos.entryPrice
          exitPrice := roundDp 8 fillPrice
          grossPnl := roundDp 8 gross
          fees := roundDp 8 (pos.entryFee + fee)
          funding := roundDp 8 pos.fundingAccrued
          netPnl := roundDp 8 (gross - (pos.entryFee + fee) - pos.fundingAccrued)
          holdBars := pos.holdBars
        }] } }

def ReplayState.fillEntry (ts : String) (st : ReplayState) (leg : String × String × ℚ)
    : Except PyError ReplayState :=
  let (sym, nextTs, openPrice) := leg
  let fillPrice := openPrice * (1 + cfg.slip)
  if fillPrice = 0 then
    .error .zeroDivisionError
  else
    let qty := cfg.notionalUsd / fillPrice
    let fee := fillPrice * qty * cfg.feeRate
    .ok { st with
      openPositions := st.openPositions.insert sym {
        entryPrice := fillPrice
        qty := qty
        entryBarTs := ts
        entryFillTs := nextTs
        fundingAccrued := 0
        entryFee := fee
        holdBars := 0
      }
      feesCum := st.feesCum + fee
      result := { st.result with
        fills := st.result.fills ++ [{
          signalBarTs := ts
          fillTs := nextTs
          symbol := sym
          side := "BUY"
          kind := "entry"
          qty := roundDp 10 qty
          openPrice := roundDp 8 openPrice
          fillPrice := roundDp 8 fillPrice
          fee := roundDp 8 fee
        }] } }

/--
The bars after `ts`, or none when one is missing.
-/
def resolveNext (ts : String) (symbols : List String) : Option (List (String × String × ℚ)) :=
  symbols.mapM (fun sym => (prices.nextBar sym ts).map (fun nb => (sym, nb)))

/--
`none` when the bar is deferred.
-/
def replayBar (initial : ℚ) (st : ReplayState) (obs : Obs)
    : Except PyError (Option ReplayState) := do
  let ts := obs.timestamp
  let desired := Std.ExtTreeSet.ofList obs.activeSymbols
  let entries := desired.toList.filter (fun sym => !st.openPositions.contains sym)
  let exits := st.openPositions.keys.filter (fun sym => !desired.contains sym)
  match resolveNext prices ts entries, resolveNext prices ts exits with
  | some entries, some exits =>
    let windowStart ← replayIntervalStart ts cfg.barIntervalHours
    let st := st.openPositions.keys.foldl
      (fun st sym => st.accrue sym (heldAccrual prices index windowStart ts sym)) st
    let st := exits.foldl
      (fun st leg => st.accrue leg.1 (tailAccrual prices index ts leg.2.1 leg.1)) st
    let st := st.mark prices initial ts
    let st := exits.foldl (ReplayState.fillExit cfg ts) st
    let st ← entries.foldlM (ReplayState.fillEntry cfg ts) st
    return some { st with watermark := ts }
  | _, _ => return none

def replayBars (initial : ℚ) : ReplayState → List Obs → Except PyError ReplayState
  | st, [] => return st
  | st, obs :: rest => do
    if obs.timestamp ≤ st.watermark then
      replayBars initial st rest
    else
      match ← replayBar cfg prices index initial st obs with
      | none => return { st with result := { st.result with deferredBarTs := some obs.timestamp } }
      | some st => replayBars initial st rest

end replayBar

def replayForward (forwardStart : DateTime) (perBarObs : List Obs) : Except PyError (List Obs) := do
  let dated ← perBarObs.mapM (fun obs => do return (← parseInstant obs.timestamp, obs))
  let forward := dated.filter (fun p => forwardStart ≤ p.1)
  return (forward.insertionSort obsInstantLe).map Prod.snd

def runReplay (cfg : PaperConfig) (perBarObs : List Obs) (prices : PriceBook)
    (fundingDf : List FundingEvent) (initialEquityUsd : Option ℚ) (watermarkBarTs : String)
    : Except PyError ReplayResult := do
  let index := buildFundingIndex fundingDf
  let forwardStart ← parseInstant cfg.forwardStartTs
  let forward ← replayForward forwardStart perBarObs
  let start : ReplayState := {
    openPositions := ∅
    realizedGross := 0
    feesCum := 0
    fundingCum := 0
    watermark := watermarkBarTs
    result := ReplayResult.empty
  }
  let final ← replayBars cfg prices index (initialEquityUsd.getD cfg.initialEquityUsd) start forward
  return final.result

end Quantbot
