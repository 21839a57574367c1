import Mathlib
import Quantbot.Paper.Funding.Time
import Quantbot.Paper.Ids
import Quantbot.Paper.Timestamp.Epoch

/-!
The window records of a funding source snapshot and the rows a bundle freezes from them.
-/

namespace Quantbot

structure SourceRow where
  symbol : String
  fundingTimeMs : ℤ
  sourceFilePath : String
  rowIndex : ℤ
  fundingRate : String
deriving DecidableEq

structure FundingWindow where
  symbol : String
  windowStart : DateTime
  windowEnd : DateTime
  requiredBy : String

namespace FundingWindow

def isoZ (dt : DateTime) : String :=
  dt.strftime ++ "Z"

def startMs (w : FundingWindow) : ℤ :=
  w.windowStart.epochMs

def endMs (w : FundingWindow) : ℤ :=
  w.windowEnd.epochMs

end FundingWindow

def diagnosticLookaheadMs : ℤ :=
  endpointSameSecondToleranceMs + 3

/--
The candidates of one window agree on symbol and window end, which come first in the source's key.
-/
def canonicalRowSortKey (row : SourceRow) : ℤ ×ₗ String ×ₗ ℤ :=
  toLex (row.fundingTimeMs, toLex (row.sourceFilePath, row.rowIndex))

def canonicalRowLe (a b : SourceRow) : Prop :=
  canonicalRowSortKey a ≤ canonicalRowSortKey b

instance : DecidableRel canonicalRowLe :=
  fun a b => inferInstanceAs (Decidable (canonicalRowSortKey a ≤ canonicalRowSortKey b))

def candidateRowsForWindow (sourceRows : List SourceRow) (window : FundingWindow) : List SourceRow :=
  (sourceRows.filter (fun row => row.symbol = window.symbol
    ∧ window.startMs ≤ row.fundingTimeMs
    ∧ row.fundingTimeMs < window.endMs + diagnosticLookaheadMs)).insertionSort canonicalRowLe

/--
The digest of the canonical JSON object of the row within the window.
-/
def sourceRowDigest (row : SourceRow) (window : FundingWindow) : String :=
  String.ofList (Sha256.hexdigest ("\x7b\"fundingTime_ms\":" ++ toString row.fundingTimeMs
    ++ ",\"funding_rate\":" ++ Json.quote row.fundingRate
    ++ ",\"row_index\":" ++ toString row.rowIndex
    ++ ",\"source_file_path\":" ++ Json.quote row.sourceFilePath
    ++ ",\"symbol\":" ++ Json.quote row.symbol
    ++ ",\"window_end\":" ++ Json.quote (FundingWindow.isoZ window.windowEnd) ++ "\x7d"))

structure AcceptedSourceRow where
  sourceFilePath : String
  sourceCsvRowIndex : ℤ
  sourceRowSha256 : String
deriving DecidableEq

def acceptedSourceRow (row : SourceRow) (window : FundingWindow) : AcceptedSourceRow where
  sourceFilePath := row.sourceFilePath
  sourceCsvRowIndex := row.rowIndex
  sourceRowSha256 := sourceRowDigest row window

structure WindowRecord where
  symbol : String
  windowStart : String
  windowEnd : String
  requiredBy : String
  acceptedSourceRow : Option AcceptedSourceRow
  canonicalEndpoint : Option String
  rawFundingTimeMs : Option ℤ
  canonicalTimestampUtc : Option String
  fundingRate : Option String
  sourceIssue : Option FundingReason
  reasonCodes : List String
deriving DecidableEq

def reasonCodeForTimestampReason : FundingReason → String
  | .missingSourceRow => "funding_source_missing"
  | .duplicateCanonicalEndpoint => "funding_source_duplicate_ambiguous"
  | .canonicalizedToOpenBoundary => "funding_timestamp_open_boundary"
  | .outsideTolerance => "funding_timestamp_outside_tolerance"
  | .accepted => ""

section windowRecord

def classified (window : FundingWindow) (row : SourceRow) : FundingTimestampClassification :=
  classifyFundingTimestampForWindow row.fundingTimeMs window.startMs window.endMs

def WindowRecord.base (window : FundingWindow) : WindowRecord where
  symbol := window.symbol
  windowStart := FundingWindow.isoZ window.windowStart
  windowEnd := FundingWindow.isoZ window.windowEnd
  requiredBy := window.requiredBy
  acceptedSourceRow := none
  canonicalEndpoint := none
  rawFundingTimeMs := none
  canonicalTimestampUtc := none
  fundingRate := none
  sourceIssue := none
  reasonCodes := []

def WindowRecord.refused (record : WindowRecord) (reason : FundingReason) : WindowRecord :=
  { record with sourceIssue := some reason, reasonCodes := [reasonCodeForTimestampReason reason] }

def endpointRows (window : FundingWindow) (candidates : List SourceRow) : List SourceRow :=
  candidates.filter (fun row => (classified window row).reason = .accepted
    ∧ (classified window row).canonicalEndpoint = some window.endMs)

def insideRows (window : FundingWindow) (candidates : List SourceRow) : List SourceRow :=
  candidates.filter (fun row => (classified window row).reason = .accepted
    ∧ (classified window row).canonicalEndpoint = none)

def rowsWithReason (window : FundingWindow) (candidates : List SourceRow) (reason : FundingReason)
    : List SourceRow :=
  candidates.filter (fun row => (classified window row).reason = reason)

/--
The row at the end of the window, else a refusal for one in the second of its start, else the first
row inside.
-/
def windowRecord (window : FundingWindow) (sourceRows : List SourceRow) : WindowRecord :=
  let candidates := candidateRowsForWindow sourceRows window
  let base := WindowRecord.base window
  match candidates with
  | [] => base.refused .missingSourceRow
  | first :: _ =>
    match endpointRows window candidates with
    | _ :: _ :: _ =>
      { base with canonicalEndpoint := some base.windowEnd }.refused .duplicateCanonicalEndpoint
    | [row] =>
      { base with
        acceptedSourceRow := some (acceptedSourceRow row window)
        canonicalEndpoint := some base.windowEnd
        rawFundingTimeMs := some row.fundingTimeMs
        canonicalTimestampUtc := some base.windowEnd
        fundingRate := some row.fundingRate }
    | [] =>
      match rowsWithReason window candidates .canonicalizedToOpenBoundary with
      | row :: _ =>
        { base with
          canonicalEndpoint := some base.windowStart
          rawFundingTimeMs := some row.fundingTimeMs
          canonicalTimestampUtc := some base.windowStart
          fundingRate := some row.fundingRate }.refused .canonicalizedToOpenBoundary
      | [] =>
        match insideRows window candidates with
        | row :: _ =>
          { base with
            acceptedSourceRow := some (acceptedSourceRow row window)
            rawFundingTimeMs := some row.fundingTimeMs
            canonicalTimestampUtc := some (isoOfEpochMs row.fundingTimeMs)
            fundingRate := some row.fundingRate }
        | [] =>
          let row := (rowsWithReason window candidates .outsideTolerance).headD first
          { base with
            rawFundingTimeMs := some row.fundingTimeMs
            fundingRate := some row.fundingRate }.refused .outsideTolerance

end windowRecord

structure FrozenRow where
  symbol : String
  windowStart : String
  windowEnd : String
  fundingRate : String
  rawFundingTimeMs : Option ℤ
  sourceFilePath : String
  sourceCsvRowIndex : ℤ
  sourceRowSha256 : String
deriving DecidableEq

/--
A record with an accepted row and a rate.
-/
def frozenRow (record : WindowRecord) : Option FrozenRow := do
  let accepted ← record.acceptedSourceRow
  let fundingRate ← record.fundingRate
  some {
    symbol := record.symbol
    windowStart := record.windowStart
    windowEnd := record.windowEnd
    fundingRate := fundingRate
    rawFundingTimeMs := record.rawFundingTimeMs
    sourceFilePath := accepted.sourceFilePath
    sourceCsvRowIndex := accepted.sourceCsvRowIndex
    sourceRowSha256 := accepted.sourceRowSha256
  }

def frozenRowKey (row : FrozenRow) : String ×ₗ String ×ₗ String :=
  toLex (row.symbol, toLex (row.windowStart, row.windowEnd))

def frozenRowLe (a b : FrozenRow) : Prop :=
  frozenRowKey a ≤ frozenRowKey b

instance : DecidableRel frozenRowLe :=
  fun a b => inferInstanceAs (Decidable (frozenRowKey a ≤ frozenRowKey b))

def frozenCanonicalRows (records : List WindowRecord) : List FrozenRow :=
  (records.filterMap frozenRow).insertionSort frozenRowLe

end Quantbot
