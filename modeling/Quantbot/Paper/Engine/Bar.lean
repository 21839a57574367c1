import Quantbot.Util.Round
import Quantbot.Paper.Config
import Quantbot.Paper.Ids
import Quantbot.Paper.Engine.Market
import Std.Data.ExtTreeSet

/-!
One bar of the accounting engine: funding and marks on the book as it was before the bar's fills,
then the fills at the next bar's open.
-/

namespace Quantbot

def round8 (x : ℚ) : ℚ :=
  roundDp 8 x

def canonicalNetPnl (gross fees funding : ℚ) : ℚ :=
  round8 (round8 gross - round8 fees - round8 funding)

structure Position where
  entryFillId : String
  entryPrice : ℚ
  qty : ℚ
  entryBarTs : String
  entryFillTs : String
  fundingAccrued : ℚ
  entryFee : ℚ
  holdBars : ℤ
deriving DecidableEq

structure Accumulators where
  realizedGross : ℚ
  feesCum : ℚ
  fundingCum : ℚ
deriving DecidableEq

abbrev OpenPositions := Std.ExtTreeMap String Position

/--
The engine's working values between two bars.
-/
structure Book where
  watermark : String
  openPositions : OpenPositions
  acc : Accumulators
  peakEquity : ℚ

/--
One funding accrual before rounding.
-/
structure Charge where
  fundingId : String
  symbol : String
  windowStart : String
  windowEnd : String
  notional : ℚ
  rate : ℚ
  events : ℕ
  available : Bool
deriving DecidableEq

namespace Charge

def amount (c : Charge) : ℚ :=
  if c.available then c.notional * c.rate else 0

def row (c : Charge) (ts commitId : String) : FundingRow where
  fundingId := c.fundingId
  symbol := c.symbol
  barTs := ts
  barCommitId := commitId
  windowStart := c.windowStart
  windowEnd := c.windowEnd
  notionalUsd := round8 c.notional
  fundingRate := roundDp 12 c.rate
  fundingEvents := c.events
  rateAvailable := c.available
  fundingAmount := round8 c.amount

end Charge

/--
A position that leaves the book at this bar; `pos` has all its funding accrued.
-/
structure Exit where
  symbol : String
  pos : Position
  stub : Charge
  nextTs : String
  openPrice : ℚ
  fillPrice : ℚ
  fee : ℚ
deriving DecidableEq

namespace Exit

def gross (x : Exit) : ℚ :=
  (x.fillPrice - x.pos.entryPrice) * x.pos.qty

def fees (x : Exit) : ℚ :=
  x.pos.entryFee + x.fee

def fillRow (x : Exit) (cfg : PaperConfig) (ts commitId : String) : FillRow where
  fillId := fillId x.symbol ts "SELL" "exit"
  barCommitId := commitId
  signalBarTs := ts
  fillTs := x.nextTs
  symbol := x.symbol
  side := "SELL"
  kind := "exit"
  qty := roundDp 10 x.pos.qty
  openPrice := round8 x.openPrice
  fillPrice := round8 x.fillPrice
  slippageBps := cfg.slippageBps
  fee := round8 x.fee
  backfill := false

def tradeRow (x : Exit) (ts commitId : String) : TradeRow where
  tradeId := fillId x.symbol ts "SELL" "exit"
  barCommitId := commitId
  symbol := x.symbol
  entryFillId := x.pos.entryFillId
  exitFillId := fillId x.symbol ts "SELL" "exit"
  entryBarTs := x.pos.entryBarTs
  exitBarTs := ts
  qty := roundDp 10 x.pos.qty
  entryPrice := round8 x.pos.entryPrice
  exitPrice := round8 x.fillPrice
  grossPnl := round8 x.gross
  fees := round8 x.fees
  funding := round8 x.pos.fundingAccrued
  netPnl := canonicalNetPnl x.gross x.fees x.pos.fundingAccrued
  holdBars := x.pos.holdBars
  backfill := false

end Exit

structure Entry where
  symbol : String
  nextTs : String
  openPrice : ℚ
  fillPrice : ℚ
  qty : ℚ
  fee : ℚ
deriving DecidableEq

namespace Entry

def fillRow (e : Entry) (cfg : PaperConfig) (ts commitId : String) : FillRow where
  fillId := fillId e.symbol ts "BUY" "entry"
  barCommitId := commitId
  signalBarTs := ts
  fillTs := e.nextTs
  symbol := e.symbol
  side := "BUY"
  kind := "entry"
  qty := roundDp 10 e.qty
  openPrice := round8 e.openPrice
  fillPrice := round8 e.fillPrice
  slippageBps := cfg.slippageBps
  fee := round8 e.fee
  backfill := false

def position (e : Entry) (ts : String) : Position where
  entryFillId := fillId e.symbol ts "BUY" "entry"
  entryPrice := e.fillPrice
  qty := e.qty
  entryBarTs := ts
  entryFillTs := e.nextTs
  fundingAccrued := 0
  entryFee := e.fee
  holdBars := 0

end Entry

/--
One processed bar: the book and the observation it started from, and everything it computes,
unrounded.
-/
structure BarStep where
  before : Book
  obs : Obs
  commitId : String
  held : List Charge
  exits : List Exit
  entries : List Entry
  acc : Accumulators
  unrealized : ℚ
  grossExposure : ℚ
  equity : ℚ
  peakEquity : ℚ
  next : Book

namespace BarStep

def ts (b : BarStep) : String :=
  b.obs.timestamp

def openSymbols (b : BarStep) : List String :=
  b.before.openPositions.keys

def drawdown (b : BarStep) : ℚ :=
  if 0 < b.peakEquity then (b.peakEquity - b.equity) / b.peakEquity else 0

def charges (b : BarStep) : List Charge :=
  b.held ++ b.exits.map Exit.stub

def fundingRows (b : BarStep) : List FundingRow :=
  b.charges.map (fun c => c.row b.ts b.commitId)

def equityRow (b : BarStep) : EquityRow where
  barTs := b.ts
  barCommitId := b.commitId
  realizedGrossPnl := round8 b.acc.realizedGross
  unrealizedPnl := round8 b.unrealized
  fundingCum := round8 b.acc.fundingCum
  feesCum := round8 b.acc.feesCum
  equity := round8 b.equity
  drawdown := round8 b.drawdown
  numOpen := b.openSymbols.length

def positionsRow (b : BarStep) : PositionsRow where
  barTs := b.ts
  barCommitId := b.commitId
  openSymbols := b.openSymbols
  numOpen := b.openSymbols.length
  grossExposureUsd := round8 b.grossExposure

def fillRows (b : BarStep) (cfg : PaperConfig) : List FillRow :=
  b.exits.map (fun x => x.fillRow cfg b.ts b.commitId)
    ++ b.entries.map (fun e => e.fillRow cfg b.ts b.commitId)

def tradeRows (b : BarStep) : List TradeRow :=
  b.exits.map (fun x => x.tradeRow b.ts b.commitId)

end BarStep

/--
Funding of a held position up to bar `ts`; none while its entry fill is not in the past.
-/
def heldCharge (prices : PriceBook) (index : FundingIndex) (windowStart ts symbol : String)
    (pos : Position) : Option Charge :=
  let mark := (prices.closeAt symbol ts).getD pos.entryPrice
  let notionalAt := pos.qty * mark
  let effStart := max windowStart pos.entryFillTs
  if ts ≤ effStart then
    none
  else
    let (rate, numEvents, available) := fundingInInterval index symbol effStart ts
    some {
      fundingId := symbol ++ "|" ++ ts
      symbol := symbol
      windowStart := effStart
      windowEnd := ts
      notional := notionalAt
      rate := rate
      events := numEvents
      available := available
    }

/--
A position after the bar's mark: one more bar held, and its funding accrued.
-/
def accrueHeld (prices : PriceBook) (index : FundingIndex) (windowStart ts symbol : String)
    (pos : Position) : Position :=
  { pos with
    holdBars := pos.holdBars + 1
    fundingAccrued := pos.fundingAccrued
      + ((heldCharge prices index windowStart ts symbol pos).map Charge.amount).getD 0 }

/--
Funding between the exit signal at `ts` and the exit fill at `nextTs`.
-/
def exitCharge (prices : PriceBook) (index : FundingIndex) (ts nextTs symbol : String)
    (pos : Position) : Charge :=
  let stubMark := (prices.closeAt symbol nextTs).getD pos.entryPrice
  let stubNotional := pos.qty * stubMark
  let (rate, numEvents, available) := fundingInInterval index symbol ts nextTs
  { fundingId := symbol ++ "|" ++ ts ++ "|exit"
    symbol := symbol
    windowStart := ts
    windowEnd := nextTs
    notional := stubNotional
    rate := rate
    events := numEvents
    available := available }

def exitPosition (cfg : PaperConfig) (prices : PriceBook) (index : FundingIndex) (ts : String)
    (symbol : String) (pos : Position) (nextTs : String) (openPrice : ℚ) : Exit :=
  let stub := exitCharge prices index ts nextTs symbol pos
  let fillPrice := openPrice * (1 - cfg.slip)
  { symbol := symbol
    pos := { pos with fundingAccrued := pos.fundingAccrued + stub.amount }
    stub := stub
    nextTs := nextTs
    openPrice := openPrice
    fillPrice := fillPrice
    fee := fillPrice * pos.qty * cfg.feeRate }

def enterPosition (cfg : PaperConfig) (symbol nextTs : String) (openPrice : ℚ)
    : Except PyError Entry :=
  let fillPrice := openPrice * (1 + cfg.slip)
  if fillPrice = 0 then
    .error .zeroDivisionError
  else
    let qty := cfg.notionalUsd / fillPrice
    .ok {
      symbol := symbol
      nextTs := nextTs
      openPrice := openPrice
      fillPrice := fillPrice
      qty := qty
      fee := fillPrice * qty * cfg.feeRate
    }

/--
The open positions that have a close at `ts`, with that close.
-/
def markedPositions (prices : PriceBook) (ts : String) (positions : OpenPositions)
    : List (Position × ℚ) :=
  positions.toList.filterMap (fun p => (prices.closeAt p.1 ts).map (fun close => (p.2, close)))

/--
The bar's exits and entries with their T+1 bars, or none when one of those bars is missing.
-/
def resolveFills (prices : PriceBook) (ts : String) (desired : List String)
    (positions : OpenPositions)
    : Option (List ((String × Position) × String × ℚ) × List (String × String × ℚ)) := do
  let desired := Std.ExtTreeSet.ofList desired
  let entries := desired.toList.filter (fun symbol => !positions.contains symbol)
  let exits := positions.toList.filter (fun p => !desired.contains p.1)
  let entries ← entries.mapM (fun symbol => (prices.nextBar symbol ts).map (fun nb => (symbol, nb)))
  let exits ← exits.mapM (fun p => (prices.nextBar p.1 ts).map (fun nb => (p, nb)))
  return (exits, entries)

/--
Snapshot of the book at `ts` followed by the fills of the bar.
-/
def applyBar (cfg : PaperConfig) (prices : PriceBook) (index : FundingIndex) (book : Book)
    (obs : Obs) (commitId windowStart : String) (exits : List ((String × Position) × String × ℚ))
    (entries : List Entry) : BarStep :=
  let ts := obs.timestamp
  let held := book.openPositions.toList.filterMap
    (fun p => heldCharge prices index windowStart ts p.1 p.2)
  let accrued := book.openPositions.map (accrueHeld prices index windowStart ts)
  let exits := exits.map (fun x => exitPosition cfg prices index ts x.1.1
    (accrueHeld prices index windowStart ts x.1.1 x.1.2) x.2.1 x.2.2)
  let fundingCum := book.acc.fundingCum + (held.map Charge.amount).sum
    + (exits.map (fun x => x.stub.amount)).sum
  let marked := markedPositions prices ts book.openPositions
  let unrealized := (marked.map (fun m => (m.2 - m.1.entryPrice) * m.1.qty)).sum
  let grossExposure := (marked.map (fun m => m.1.qty * m.2)).sum
  let equity := cfg.initialEquityUsd + book.acc.realizedGross - book.acc.feesCum - fundingCum
    + unrealized
  let peakEquity := max book.peakEquity equity
  let closed := exits.foldl (fun m x => m.erase x.symbol) accrued
  { before := book
    obs := obs
    commitId := commitId
    held := held
    exits := exits
    entries := entries
    acc := { book.acc with fundingCum := fundingCum }
    unrealized := unrealized
    grossExposure := grossExposure
    equity := equity
    peakEquity := peakEquity
    next := {
      watermark := ts
      openPositions := entries.foldl (fun m e => m.insert e.symbol (e.position ts)) closed
      acc := {
        realizedGross := book.acc.realizedGross + (exits.map Exit.gross).sum
        feesCum := book.acc.feesCum + (exits.map Exit.fee).sum + (entries.map Entry.fee).sum
        fundingCum := fundingCum
      }
      peakEquity := peakEquity
    } }

/--
`none` when the bar is deferred because a T+1 open is missing.
-/
def processBar (cfg : PaperConfig) (prices : PriceBook) (index : FundingIndex) (book : Book)
    (obs : Obs) : Except PyError (Option BarStep) := do
  let ts := obs.timestamp
  let commitId := barCommitId obs ts cfg.engineVersion cfg.configHash
  match resolveFills prices ts obs.activeSymbols book.openPositions with
  | none => return none
  | some (exits, entries) =>
    let windowStart ← intervalStart ts cfg.barIntervalHours
    let entries ← entries.mapM (fun e => enterPosition cfg e.1 e.2.1 e.2.2)
    return some (applyBar cfg prices index book obs commitId windowStart exits entries)

end Quantbot
