import Quantbot.Paper.Reconcile.Basic

/-!
Summaries, receipts and the provenance manifest.
-/

namespace Quantbot

def baselineNotReproduced : String :=
  "vol-normalized weights are not reproduced; portfolio heat/weights are not used for "
    ++ "sizing; a fixed $notional per active symbol is substituted; no compounding; no "
    ++ "shorting. This only tests the active-symbol fixed-notional baseline — a green paper "
    ++ "PnL does NOT validate the V2 vol-normalized edge."

def disclaimer : String :=
  "SIMULATION ONLY. These are paper fills on a frozen research observer. This is NOT "
    ++ "live trading, NOT realized money, and a positive paper result does NOT prove "
    ++ "real-money profitability or deployment readiness. This is the "
    ++ "'" ++ baselineLabel ++ "' baseline, NOT faithful Package V2 vol-normalized PnL: "
    ++ baselineNotReproduced

def summaryWith (cfg : PaperConfig) (status : SummaryStatus) (currentVerdict : String)
    : Summary where
  schemaVersion := schemaVersion
  status := status
  baselineLabel := baselineLabel
  forwardStartTs := cfg.forwardStartTs
  currentVerdict := currentVerdict
  disclaimer := disclaimer

def currentVerdict (closed : ℕ) (barsElapsed : ℤ) : String :=
  if closed = 0 then
    "INCONCLUSIVE — no closed paper trades yet"
  else if barsElapsed < 90 then
    "INCONCLUSIVE — insufficient forward bars (" ++ toString barsElapsed ++ " < 90)"
  else
    "MEASURED (simulation) — sufficient forward sample"

def computeOkSummary (cfg : PaperConfig) (trades : List TradeRow) (equity : List EquityRow)
    (openPositions : OpenPositions) (barsElapsed : ℤ) (fundingGaps : ℕ) : OkSummary :=
  let closed := trades.length
  let nets := trades.map TradeRow.netPnl
  let wins := nets.filter (fun n => 0 < n)
  let grossWin := wins.sum
  let grossLoss := -(nets.filter (fun n => n < 0)).sum
  let lastEquity := (equity.getLast?.map EquityRow.equity).getD cfg.initialEquityUsd
  { baselineNote := baselineNotReproduced
    barsElapsed := barsElapsed
    closedTrades := closed
    winrate := if 0 < closed then some (wins.length / closed) else none
    realizedNetPnl := if 0 < closed then round8 nets.sum else 0
    totalPnl := round8 (lastEquity - cfg.initialEquityUsd)
    maxDrawdown := round8 ((equity.map EquityRow.drawdown).max?.getD 0)
    profitFactor := if 0 < grossLoss then some (roundDp 6 (grossWin / grossLoss)) else none
    expectancy := if 0 < closed then some (round8 (nets.sum / closed)) else none
    openPositions := openPositions.keys
    numOpen := openPositions.size
    fundingGap := 0 < fundingGaps
    fundingGapCount := fundingGaps }

def computeSummary (cfg : PaperConfig) (trades : List TradeRow) (equity : List EquityRow)
    (openPositions : OpenPositions) (barsElapsed : ℤ) (fundingGaps : ℕ) : Summary :=
  summaryWith cfg
    (.ok (computeOkSummary cfg trades equity openPositions barsElapsed fundingGaps))
    (currentVerdict trades.length barsElapsed)

def runningSummary (cfg : PaperConfig) (runId startedAt previousWatermark : String) : Summary :=
  summaryWith cfg (.running runId startedAt "preflight" (some previousWatermark))
    ("RUNNING — run in flight; pre-run gates/ledger mutation started, final OK not yet "
      ++ "committed. A stale OK (if any) has been superseded by this marker.")

def configErrorPreflightMarker (runId startedAt : String) : Summary where
  schemaVersion := schemaVersion
  status := .running runId startedAt "preflight_config_error" none
  baselineLabel := baselineLabel
  forwardStartTs := "unknown"
  currentVerdict :=
    "RUNNING — preflight aborted: paper_config.json could not be loaded/validated. Any "
      ++ "stale OK has been superseded; this run wrote no ledger/state rows. Re-init the "
      ++ "write-once config (CONFIG_ERROR, CLI exit 3) and review before the next run."
  disclaimer := disclaimer

def abortedSummary (cfg : PaperConfig) (code reason abortedAt : String) : Summary :=
  summaryWith cfg (.aborted code reason abortedAt)
    ("ABORTED — " ++ code ++ " (no ledger rows written this run)")

def corruptSummary (cfg : PaperConfig) (failures : List Failure) (detectedAt : String)
    : Summary :=
  summaryWith cfg (.corruptLedger detectedAt failures failures.length)
    ("CORRUPT_LEDGER — " ++ toString failures.length
      ++ " reconcile failure(s); watermark NOT advanced, no OK published")

def noEligibleBarsSummary (cfg : PaperConfig) (reason checkedAt : String) : Summary :=
  summaryWith cfg (.noEligibleBarsYet reason checkedAt 0)
    ("NO_ELIGIBLE_BARS_YET — no bar has reached forward_start_ts; no ledger rows "
      ++ "written and no state/watermark created")

/--
What a receipt renders.
-/
inductive Receipt where
  | ok (summary : Summary) (lastTrades : List TradeRow) (fundingGaps : ℕ)
    (deferredBarTs : Option String) (generatedAt : String)
  | aborted (summary : Summary) (code reason : String)
  | corrupt (summary : Summary) (failures : List Failure)
  | noEligible (summary : Summary) (reason : String)
deriving DecidableEq

structure Provenance where
  runTs : String
  engineVersion : String
  baselineLabel : String
  gitSha : String
  status : String
  inputDigests : List (String × String)
  outputDigests : List (String × String)
  abort : Option (String × String)
  reconcileFailures : Option (List Failure)
deriving DecidableEq

/--
The files of the output directory whose digests a manifest pins.
-/
inductive Artifact where
  | config (cfg : PaperConfig)
  | fills (rows : List FillRow)
  | positions (rows : List PositionsRow)
  | trades (rows : List TradeRow)
  | equity (rows : List EquityRow)
  | funding (rows : List FundingRow)
  | snapshots (rows : List SnapshotRow)
  | state (state : EngineState)
  | summary (summary : Summary)
  | receipt (receipt : Receipt)

/--
The paper output directory. `staged` are the summaries moved aside, by file name.
-/
structure Dir where
  ledgers : Ledgers
  state : Option EngineState
  summary : Option Summary
  staged : Std.ExtTreeMap String Summary
  provenance : Option Provenance
  receipt : Option Receipt
  provenanceLog : List Provenance

def Dir.empty : Dir where
  ledgers := {
    fills := []
    trades := []
    funding := []
    positions := []
    equity := []
    snapshots := []
  }
  state := none
  summary := none
  staged := ∅
  provenance := none
  receipt := none
  provenanceLog := []

def sha256Hex (bytes : String) : String :=
  String.ofList (Sha256.hexdigest bytes)

section digests

-- the text an artifact occupies on disk
variable (bytes : Artifact → String)

def optionDigest (artifact : Option Artifact) : String :=
  match artifact with
  | none => "absent"
  | some artifact => sha256Hex (bytes artifact)

/--
An append-only file comes into being with its first row.
-/
def ledgerDigest {α : Type} (artifact : List α → Artifact) (rows : List α) : String :=
  optionDigest bytes (if rows = [] then none else some (artifact rows))

end digests

end Quantbot
