import Quantbot.Paper.Funding.Coverage
import Quantbot.Paper.Reconcile.Basic
import Quantbot.Paper.Timestamp.Epoch
import Quantbot.Paper.Verify.Trust

/-!
`verify`: the verdict over a frozen snapshot of the runner's artifacts.
-/

namespace Quantbot

/--
What a reader makes of one file. It refuses a file as corrupt, or lets an exception through.
-/
inductive Reading (α : Type) where
  | parsed (value : α)
  | corrupt (reason : String)
  | raises (e : PyError)

/--
The typed contents of the texts.
-/
structure Readers where
  config : FileState → Reading PaperConfig
  fills : FileState → Reading (List FillRow)
  trades : FileState → Reading (List TradeRow)
  funding : FileState → Reading (List FundingRow)
  positions : FileState → Reading (List PositionsRow)
  equity : FileState → Reading (List EquityRow)
  snapshots : FileState → Reading (List SnapshotRow)
  state : FileState → Reading (Option EngineState)
  summary : FileState → Reading (Option Summary)

/--
What one invocation finds: the config in place, then the live files before, during and after they
are copied, and how the funding sources cover a funding ledger.
-/
structure VerifyRun where
  now : DateTime
  runId : String
  staleAfterMs : ℤ
  bootstrap : Bool
  liveConfig : FileState
  first : Inputs
  copied : SnapshotFile → Option Bytes
  second : Inputs
  coverage : FileState → Except PyError CoverageDecision

namespace VerifyRun

/--
A file that was absent is not copied, and one that could not be copied stays absent.
-/
def inputs (run : VerifyRun) : Inputs := fun file =>
  if (rawDigest (run.first file)).present then
    ((run.copied file).map FileState.content).getD .absent
  else
    .absent

def unstable (run : VerifyRun) : List SnapshotFile :=
  snapshotFiles.filter (fun file => rawDigest (run.first file) ≠ rawDigest (run.second file))

end VerifyRun

inductive VerifyStatus where
  | ok
  | corrupt
  | incomplete
  | runningStale
  | configError
  | needsBootstrap
deriving DecidableEq

inductive FundingVerdict where
  | fail
  | cleanNetOfCarry
  | caveatedEngineSemantics
deriving DecidableEq

structure Parsed where
  ledgers : Ledgers
  state : Option EngineState
  summary : Option Summary
  failures : List VerifyFailure

section verdict

/--
The value with no failure, or the fallback with one.
-/
def settle {α : Type} (file : SnapshotFile) (fallback : α) (check : α → Option Failure)
    : Reading α → Except PyError (α × List VerifyFailure)
  | .parsed value =>
    match check value with
    | none => .ok (value, [])
    | some failure => .ok (fallback, [.accounting failure])
  | .corrupt reason => .ok (fallback, [.unparsed file.name reason])
  | .raises e => .error e

variable (readers : Readers) (inputs : Inputs)

def settleRows {α : Type} (file : LedgerFile) (checks : α → RowChecks)
    (reader : FileState → Reading (List α)) : Except PyError (List α × List VerifyFailure) :=
  settle (.ledger file) [] (malformedRow file.name checks) (reader (inputs (.ledger file)))

def parse : Except PyError Parsed := do
  let fills ← settleRows inputs .fills FillRow.checks readers.fills
  let trades ← settleRows inputs .trades TradeRow.checks readers.trades
  let funding ← settleRows inputs .funding FundingRow.checks readers.funding
  let positions ← settleRows inputs .positions PositionsRow.checks readers.positions
  let equity ← settleRows inputs .equity EquityRow.checks readers.equity
  let snapshots ← settleRows inputs .snapshots SnapshotRow.checks readers.snapshots
  let state ← settle .state none readStateObj (readers.state (inputs .state))
  let summary ← settle .summary none readSummaryObj (readers.summary (inputs .summary))
  return {
    ledgers := {
      fills := fills.1
      trades := trades.1
      funding := funding.1
      positions := positions.1
      equity := equity.1
      snapshots := snapshots.1
    }
    state := state.1
    summary := summary.1
    failures := fills.2 ++ trades.2 ++ funding.2 ++ positions.2 ++ equity.2 ++ snapshots.2
      ++ state.2 ++ summary.2
  }

/--
The contract of the config, or the reason it is refused.
-/
def loadConfig (file : FileState) : Except PyError (Except String PaperConfig) :=
  match readers.config file with
  | .parsed cfg => .ok (.ok cfg)
  | .corrupt reason => .ok (.error reason)
  | .raises e => .error e

def forwardStartOf (config : Except String PaperConfig) (otherwise : String) : String :=
  match config with
  | .ok cfg => cfg.forwardStartTs
  | .error _ => otherwise

/--
The state has caught up with the ledgers.
-/
def committed (config : Except String PaperConfig) (p : Parsed) : Bool :=
  config.isOk ∧ p.failures = []
    ∧ ∃ state ∈ p.state, ∃ latest ∈ Reconcile.latestEquityTs p.ledgers.equity,
      state.watermarkBarTs = some latest

def validationFailures (baseline : Option JsonObject) (config : Except String PaperConfig)
    (p : Parsed) : List VerifyFailure :=
  match config with
  | .error _ => []
  | .ok cfg =>
    if p.failures ≠ [] then
      []
    else
      (reconcile cfg p.ledgers p.summary).map .accounting
        ++ (reconcileStateAgainstLedgers cfg p.ledgers p.state (committed config p)).map .accounting
        ++ appendOnlyFailures inputs baseline
        ++ exactByteFailures inputs baseline p.ledgers.equity.length

/--
A runner marker that has outlived its window.
-/
def runningStale (run : VerifyRun) (summary : Option Summary) : Bool :=
  match summary with
  | some { status := .running _ startedAt _ _, .. } =>
    match startedAt.toList.getLast? with
    | some 'Z' =>
      match strptime startedAt.toList.dropLast with
      | .ok started => run.staleAfterMs < run.now.epochMs - started.epochMs
      | .error _ => false
    | _ => false
  | _ => false

def statusOf (run : VerifyRun) (baseline : Option JsonObject) (config : Except String PaperConfig)
    (p : Parsed) (failures : List VerifyFailure) : VerifyStatus :=
  match config with
  | .error _ => .configError
  | .ok _ =>
    if failures ≠ [] then
      .corrupt
    else if p.ledgers.equity = [] then
      .incomplete
    else if !committed config p then
      if runningStale run p.summary then .runningStale else .incomplete
    else if baseline = none ∧ !run.bootstrap then
      .needsBootstrap
    else
      .ok

def fundingVerdict (status : VerifyStatus) (coverage : CoverageDecision) : FundingVerdict :=
  if status ≠ .ok then
    .fail
  else if coverage ∈ [.coverageComplete, .coverageNotRequired] then
    .cleanNetOfCarry
  else
    .caveatedEngineSemantics

end verdict

structure VerifyReport where
  verifiedAt : String
  runId : String
  bootstrap : Bool
  trustedBaselinePresent : Bool
  forwardStartTs : String
  status : VerifyStatus
  committed : Bool
  barsCommitted : ℕ
  failures : List VerifyFailure
  outputDigests : List (String × String)
  appendOnlyDigests : List (String × RawDigest)
  coverage : CoverageDecision
  fundingVerdict : FundingVerdict

section verify

variable (readers : Readers) (run : VerifyRun)

/--
The report over the frozen snapshot.
-/
def terminalReport (baseline : Option JsonObject) (baselineCorrupt : Bool) (forwardStart : String)
    : Except PyError VerifyReport := do
  let inputs := run.inputs
  let config ← loadConfig readers (inputs .config)
  let p ← parse readers inputs
  let failures := (run.unstable.map (fun file => .unstable file.name))
    ++ p.failures
    ++ validationFailures inputs baseline config p
    ++ failIf baselineCorrupt .baselineCorrupt
  let status := statusOf run baseline config p failures
  let coverage ← run.coverage (inputs (.ledger .funding))
  return {
    verifiedAt := run.now.strftime ++ "Z"
    runId := run.runId
    bootstrap := run.bootstrap
    trustedBaselinePresent := baseline.isSome
    forwardStartTs := forwardStartOf config forwardStart
    status := status
    committed := committed config p
    barsCommitted := p.ledgers.equity.length
    failures := match config with
      | .ok _ => failures
      | .error reason => .configError reason :: failures
    outputDigests := snapshotFiles.map (fun file => (file.name, (rawDigest (inputs file)).sha256))
    appendOnlyDigests :=
      ledgerFiles.map (fun file => (file.name, rawDigest (inputs (.ledger file))))
    coverage := coverage
    fundingVerdict := fundingVerdict status coverage
  }

def RawDigest.pin (info : RawDigest) : JsonValue :=
  .obj [("bytes", .int info.bytes), ("lines", .int info.lines), ("sha256", .str info.sha256),
    ("present", .bool info.present)]

def trustedBaseline (report : VerifyReport) : JsonObject := [
  ("schema_version", .int schemaVersion),
  ("verifier_version", .str verifierVersion),
  ("baseline_label", .str baselineLabel),
  ("status", .str "OK"),
  ("verified_at", .str report.verifiedAt),
  ("run_id", .str report.runId),
  ("verify_run_dir", .str ("verify_runs/" ++ report.runId)),
  ("forward_start_ts", .str report.forwardStartTs),
  ("committed", .bool true),
  ("bars_committed", .int report.barsCommitted),
  ("append_only_digests", .obj (report.appendOnlyDigests.map (fun p => (p.1, p.2.pin)))),
  ("output_digests", .obj (report.outputDigests.map (fun p => (p.1, .str p.2))))]

/--
The pointer to the latest report.
-/
inductive VerifyPointer where
  | verifying (forwardStartTs : String)
  | terminal (report : VerifyReport)

structure VerifyDir where
  trusted : TrustFile
  pointer : Option VerifyPointer

def VerifyDir.publish (d : VerifyDir) (report : VerifyReport) : VerifyDir where
  trusted := if report.status = .ok then .json (.obj (trustedBaseline report)) else d.trusted
  pointer := some (.terminal report)

/--
The pointer says VERIFYING until the terminal report is written.
-/
def verify (d : VerifyDir) : VerifyDir × Except PyError VerifyReport :=
  let (baseline, baselineCorrupt) := readTrustedBaseline d.trusted
  match loadConfig readers run.liveConfig with
  | .error e => (d, .error e)
  | .ok liveConfig =>
    let forwardStart := forwardStartOf liveConfig "unknown"
    let d := { d with pointer := some (.verifying forwardStart) }
    match terminalReport readers run baseline baselineCorrupt forwardStart with
    | .error e => (d, .error e)
    | .ok report => (d.publish report, .ok report)

end verify

end Quantbot
