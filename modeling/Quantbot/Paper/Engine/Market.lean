import Mathlib
import Quantbot.Paper.Timestamp.Basic
import Std.Data.ExtTreeMap

/-!
The two market inputs of the engine: the price book and the funding index.
-/

namespace Quantbot

structure Bar where
  timestamp : String
  openPrice : ℚ
  close : ℚ
deriving DecidableEq

structure PriceBook where
  barsBySymbol : Std.ExtTreeMap String (List Bar)

namespace PriceBook

def bars (book : PriceBook) (symbol : String) : List Bar :=
  book.barsBySymbol.getD symbol []

/--
The index keeps the last bar of each timestamp.
-/
def index (book : PriceBook) (symbol ts : String) : Option ℕ :=
  (book.bars symbol).zipIdx.foldl (fun acc b => if b.1.timestamp = ts then some b.2 else acc) none

def closeAt (book : PriceBook) (symbol ts : String) : Option ℚ := do
  let i ← book.index symbol ts
  let bar ← (book.bars symbol)[i]?
  some bar.close

/--
Timestamp and open of the bar after `ts`.
-/
def nextBar (book : PriceBook) (symbol ts : String) : Option (String × ℚ) := do
  let i ← book.index symbol ts
  let bar ← (book.bars symbol)[i + 1]?
  some (bar.timestamp, bar.openPrice)

end PriceBook

/--
A row of the funding table.
-/
structure FundingEvent where
  symbol : String
  dt : DateTime
  fundingRate : ℚ
deriving DecidableEq

abbrev FundingSeries := List (String × ℚ)

structure FundingIndex where
  series : String → FundingSeries

def fundingKeyLe (a b : String × ℚ) : Prop :=
  a.1 ≤ b.1

instance : DecidableRel fundingKeyLe :=
  fun a b => inferInstanceAs (Decidable (a.1 ≤ b.1))

def buildFundingIndex (fundingDf : List FundingEvent) : FundingIndex where
  series symbol :=
    (fundingDf.filterMap (fun row =>
      if row.symbol = symbol then some (row.dt.strftime, row.fundingRate) else none)).insertionSort
      fundingKeyLe

/--
`bisect.bisect_right` on a sorted list.
-/
def bisectRight (keys : List String) (x : String) : ℕ :=
  (keys.takeWhile (· ≤ x)).length

def fundingEventsIn (index : FundingIndex) (symbol startExclusive endInclusive : String)
    : FundingSeries :=
  let series := index.series symbol
  let keys := series.map Prod.fst
  let lo := bisectRight keys startExclusive
  let hi := bisectRight keys endInclusive
  (series.take hi).drop lo

/--
Total rate, number of events, and whether there was any event at all.
-/
def fundingInInterval (index : FundingIndex) (symbol startExclusive endInclusive : String)
    : ℚ × ℕ × Bool :=
  let events := fundingEventsIn index symbol startExclusive endInclusive
  if events.isEmpty then
    (0, 0, false)
  else
    ((events.map Prod.snd).sum, events.length, true)

/--
Exclusive start of the funding window that ends at bar `ts`.
-/
def intervalStart (ts : String) (intervalHours : ℕ) : Except PyError String := do
  let dt ← strptime (ts.toList.rdropWhile (· == 'Z'))
  let start ← dt.subHours intervalHours
  return start.strftime

end Quantbot
