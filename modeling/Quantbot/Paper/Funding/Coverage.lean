import Quantbot.Paper.Engine.Market
import Quantbot.Paper.Funding.Snapshot

/-!
`funding_coverage`: whether the source files back the funding windows of a batch.
-/

namespace Quantbot

inductive CoverageDecision where
  | coverageComplete
  | coverageNotRequired
  | coveragePartial
  | coverageMissing
deriving DecidableEq

/--
The fields of a funding row that the classifier reads.
-/
structure FundingWindowRow where
  fundingId : String
  symbol : String
  barTs : String
  windowStart : String
  windowEnd : String
  rateAvailable : Bool

structure CoverageRow where
  fundingId : String
  symbol : String
  barTs : String
  windowStart : String
  windowEnd : String
  rateAvailable : Bool
  sourceRowCount : ℕ
  sourceIssue : Option FundingReason
deriving DecidableEq

def CoverageRow.missing (row : CoverageRow) : Bool :=
  !row.rateAvailable || row.sourceIssue.isSome

structure FundingCoverageReport where
  perSymbol : List (String × CoverageDecision)
  missingWindows : List CoverageRow
  totalFundingRows : ℕ
  totalRateAvailableZero : ℕ
  totalRequiredIntervals : ℕ
  overallDecision : CoverageDecision
deriving DecidableEq

abbrev FundingWindowLoader := String → ℤ → ℤ → FundingTimestampWindowClassification

/--
The rows of one kind of funding file, for all symbols; an absent or unreadable file has none.
-/
def classifyCsvWindow (rows : List SourceRow) : FundingWindowLoader := fun symbol ws we =>
  let candidates := rows.filter (fun row => row.symbol = symbol ∧ ws ≤ row.fundingTimeMs
    ∧ row.fundingTimeMs < we + diagnosticLookaheadMs)
  classifyFundingTimestampsForWindow (candidates.map SourceRow.fundingTimeMs) ws we

/--
The timestamps of the in-memory funding table by their symbol.
-/
def classifySourceWindow (sourceBySymbol : String → List ℤ) : FundingWindowLoader :=
  fun symbol ws we =>
    let candidates := (sourceBySymbol symbol).filter (fun ts => ws ≤ ts
      ∧ ts < we + diagnosticLookaheadMs)
    classifyFundingTimestampsForWindow candidates ws we

section classifyRows

variable (loadWindow : FundingWindowLoader)

/--
A malformed row counts as one without a rate.
-/
def coverageRow (row : FundingWindowRow) : Except PyError CoverageRow := do
  let malformed := row.symbol = "" ∨ row.windowStart = "" ∨ row.windowEnd = ""
  let ws ← fromIsoFormat row.windowStart
  let we ← fromIsoFormat row.windowEnd
  let src := loadWindow row.symbol ws.epochMs we.epochMs
  return {
    fundingId := row.fundingId
    symbol := row.symbol
    barTs := row.barTs
    windowStart := row.windowStart
    windowEnd := row.windowEnd
    rateAvailable := if malformed then false else row.rateAvailable
    sourceRowCount := src.sourceRowCount
    sourceIssue := if src.cleanNetOfCarryAllowed then none else some src.reason
  }

def symbolDecision (rows : List CoverageRow) : CoverageDecision :=
  let missing := rows.filter CoverageRow.missing
  if missing = [] then
    .coverageComplete
  else if missing.length = rows.length then
    .coverageMissing
  else
    .coveragePartial

def sortedSymbols (symbols : List String) : List String :=
  symbols.dedup.insertionSort (· ≤ ·)

/--
The decision for each symbol of the pool, and for those that only the ledger has.
-/
def perSymbolDecision (pool : List CoverageRow) (onlyInLedger : List String)
    : List (String × CoverageDecision) :=
  (sortedSymbols (pool.map CoverageRow.symbol)).map (fun symbol =>
    (symbol, symbolDecision (pool.filter (fun row => row.symbol = symbol))))
  ++ (sortedSymbols onlyInLedger).map (fun symbol => (symbol, .coverageNotRequired))

def overallDecision (rows pool : List CoverageRow) (perSymbol : List (String × CoverageDecision))
    : CoverageDecision :=
  let decisions := perSymbol.map Prod.snd
  if pool = [] ∧ rows = [] then
    .coverageNotRequired
  else if .coverageMissing ∈ decisions then
    .coverageMissing
  else if .coveragePartial ∈ decisions then
    .coveragePartial
  else if decisions ≠ [] ∧ ∀ d ∈ decisions, d = .coverageComplete ∨ d = .coverageNotRequired then
    .coverageComplete
  else
    .coverageNotRequired

/--
An allow-list narrows the decisions by symbol.
-/
def classifyRowsWithLoader (rows : List FundingWindowRow) (symbols : Option (List String))
    : Except PyError FundingCoverageReport := do
  let rows ← rows.mapM (coverageRow loadWindow)
  let pool := match symbols with
    | some allowed => rows.filter (fun row => row.symbol ∈ allowed)
    | none => rows
  let onlyInLedger := match symbols with
    | some _ => []
    | none => (rows.map CoverageRow.symbol).filter (· ∉ pool.map CoverageRow.symbol)
  let perSymbol := perSymbolDecision pool onlyInLedger
  return {
    perSymbol := perSymbol
    missingWindows := rows.filter CoverageRow.missing
    totalFundingRows := rows.length
    totalRateAvailableZero := (rows.filter (fun row => !row.rateAvailable)).length
    totalRequiredIntervals := rows.length
    overallDecision := overallDecision rows pool perSymbol
  }

end classifyRows

section batch

def notRequiredReport (symbols : List String) : FundingCoverageReport where
  perSymbol := symbols.map (fun symbol => (symbol, .coverageNotRequired))
  missingWindows := []
  totalFundingRows := 0
  totalRateAvailableZero := 0
  totalRequiredIntervals := 0
  overallDecision := .coverageNotRequired

/--
The whole window that ends at the bar; a row without a timestamp has none.
-/
def requiredInterval (barIntervalHours : ℕ) (obs : Obs)
    : Except PyError (Option (DateTime × DateTime)) := do
  if obs.timestamp = "" then
    return none
  let we ← fromIsoFormat obs.timestamp
  let ws ← we.subHours barIntervalHours
  return some (ws, we)

def requiredIntervals (barIntervalHours : ℕ) (forwardObs : List Obs)
    : Except PyError (List (DateTime × DateTime)) := do
  let intervals ← forwardObs.mapM (requiredInterval barIntervalHours)
  return intervals.reduceOption.eraseDups

/--
The stamp of `minutes` after an instant.
-/
def stampAfter (dt : DateTime) (minutes : ℕ) : String :=
  String.ofList (isoOfEpochMs (dt.epochMs + 60000 * minutes)).toList.dropLast

/--
Whether the file of the interval length backs the window is asked before the source files are.
-/
def syntheticRow (csvs : ℕ → List SourceRow) (barIntervalHours : ℕ) (symbol : String)
    (interval : DateTime × DateTime) : FundingWindowRow :=
  let (ws, we) := interval
  let src := classifyCsvWindow (csvs barIntervalHours) symbol ws.epochMs we.epochMs
  { fundingId := "synthetic:" ++ symbol ++ ":" ++ ws.strftime
    symbol := symbol
    barTs := stampAfter ws (30 * barIntervalHours)
    windowStart := ws.strftime
    windowEnd := we.strftime
    rateAvailable := src.cleanNetOfCarryAllowed }

/--
`csvs` holds the rows of the files `<SYM>_<N>h_funding.csv` by their number of hours.
-/
def checkFundingCoverageForBatch (forwardObs : List Obs) (prices : PriceBook)
    (csvs : ℕ → List SourceRow) (symbols : Option (List String)) (barIntervalHours : ℕ)
    : Except PyError FundingCoverageReport := do
  if barIntervalHours = 0 ∨ 24 % barIntervalHours ≠ 0 then
    throw .valueError
  let keys := prices.barsBySymbol.keys
  let scope := match symbols with
    | some allowed => keys.filter (fun symbol => symbol ∈ allowed)
    | none => keys
  if scope = [] then
    return notRequiredReport []
  let intervals ← requiredIntervals barIntervalHours forwardObs
  if intervals = [] then
    return notRequiredReport scope
  let synthetic := scope.flatMap (fun symbol =>
    intervals.map (syntheticRow csvs barIntervalHours symbol))
  classifyRowsWithLoader (classifyCsvWindow (csvs 8)) synthetic (some scope)

end batch

end Quantbot
