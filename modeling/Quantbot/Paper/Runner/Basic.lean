import Quantbot.Paper.Freshness
import Quantbot.Paper.Provenance
import Quantbot.Util.CrashTrace

/-!
`run_once` as the sequence of its file operations: every one an atomic replace, an unlink or the
append of one line.
-/

namespace Quantbot

inductive FileOp where
  | stageSummary (name : String)
  | unlinkStaged (name : String)
  | writeSummary (summary : Summary)
  | writeState (state : EngineState)
  | writeProvenance (prov : Provenance)
  | writeReceipt (receipt : Receipt)
  | appendProvenanceLog (prov : Provenance)
  | appendSnapshot (row : SnapshotRow)
  | appendFill (row : FillRow)
  | appendTrade (row : TradeRow)
  | appendFunding (row : FundingRow)
  | appendPositions (row : PositionsRow)
  | appendEquity (row : EquityRow)

namespace Dir

def stageSummary (d : Dir) (name : String) : Dir :=
  match d.summary with
  | none => d
  | some s => { d with summary := none, staged := d.staged.insert name s }

def apply (d : Dir) : FileOp → Dir
  | .stageSummary name => d.stageSummary name
  | .unlinkStaged name => { d with staged := d.staged.erase name }
  | .writeSummary summary => { d with summary := some summary }
  | .writeState state => { d with state := some state }
  | .writeProvenance prov => { d with provenance := some prov }
  | .writeReceipt receipt => { d with receipt := some receipt }
  | .appendProvenanceLog prov => { d with provenanceLog := d.provenanceLog ++ [prov] }
  | .appendSnapshot row =>
    { d with ledgers := { d.ledgers with snapshots := d.ledgers.snapshots ++ [row] } }
  | .appendFill row => { d with ledgers := { d.ledgers with fills := d.ledgers.fills ++ [row] } }
  | .appendTrade row =>
    { d with ledgers := { d.ledgers with trades := d.ledgers.trades ++ [row] } }
  | .appendFunding row =>
    { d with ledgers := { d.ledgers with funding := d.ledgers.funding ++ [row] } }
  | .appendPositions row =>
    { d with ledgers := { d.ledgers with positions := d.ledgers.positions ++ [row] } }
  | .appendEquity row =>
    { d with ledgers := { d.ledgers with equity := d.ledgers.equity ++ [row] } }

abbrev run (d : Dir) (ops : List FileOp) : Dir :=
  CrashTrace.run apply d ops

end Dir

/--
What one invocation finds outside the output directory: clocks, the observer's files, market data,
the verdict on the funding coverage, and which of the best-effort operations the system refuses.
-/
structure Invocation where
  runId : String
  runId_ne : runId ≠ ""
  startedAt : DateTime
  snapshotAt : DateTime
  provenanceAt : DateTime
  publishedAt : DateTime
  configLoads : Bool
  stageRefused : Bool
  globRefused : Bool
  unlinkRefused : String → Bool
  obsLog : ObservationLog
  ages : Ages
  prices : PriceBook
  fundingDf : List FundingEvent
  coverageGap : Option String
  sourceMtime : Option ℚ
  gitSha : String
  inputDigests : List (String × String)

def nowUtcStr (now : DateTime) : String :=
  now.strftime ++ "Z"

def stagedSummaryName (runId : String) : String :=
  ".paper_pnl_summary.json." ++ runId ++ ".preflight_previous"

section snapshots

/--
The reason of a divergence: a frozen bar that the observer now reports differently.
-/
def checkDivergence (existing : List SnapshotRow) (forwardObs : List Obs) : Option String :=
  forwardObs.findSome? (fun obs =>
    match lastWith SnapshotRow.barTs obs.timestamp existing with
    | none => none
    | some snap =>
      if snap.sourceObservationDigest = consumedRowDigest obs then
        none
      else
        some ("SIGNAL_SNAPSHOT_DIVERGENCE at bar " ++ obs.timestamp ++ ": frozen snapshot digest "
          ++ snap.sourceObservationDigest ++ " != current observation digest "
          ++ consumedRowDigest obs ++ ". The rolling observer window "
          ++ "recomputed an already-consumed bar to different values; refusing to "
          ++ "process to protect ledger provenance."))

def buildSnapshot (cfg : PaperConfig) (inv : Invocation) (obs : Obs) : SnapshotRow where
  snapshotId := snapshotId obs.timestamp
  barTs := obs.timestamp
  barCommitId := barCommitId obs obs.timestamp cfg.engineVersion cfg.configHash
  barIndex := obs.barIndex
  activeSymbols := obs.activeSymbols.insertionSort (· ≤ ·)
  portfolioHeat := obs.portfolioHeat
  heatCapTriggered := obs.heatCapTriggered
  weightedReturn := obs.weightedReturn
  sourceObservationDigest := consumedRowDigest obs
  sourceObservationMtime := inv.sourceMtime
  runTs := nowUtcStr inv.snapshotAt
  backfill := false

def buildSnapshots (cfg : PaperConfig) (inv : Invocation) (processed : List String)
    : List String → List Obs → List SnapshotRow
  | _, [] => []
  | seen, obs :: rest =>
    if obs.timestamp ∉ processed then
      buildSnapshots cfg inv processed seen rest
    else if snapshotId obs.timestamp ∈ seen then
      buildSnapshots cfg inv processed seen rest
    else
      buildSnapshot cfg inv obs
        :: buildSnapshots cfg inv processed (snapshotId obs.timestamp :: seen) rest

end snapshots

/--
The rows whose id is not on file yet.
-/
def freshRows {α : Type} (key : α → String) (existing rows : List α) : List α :=
  rows.filter (fun r => key r ∉ existing.map key)

/--
The observations not before the start, in the order of the file.
-/
def eligibleObs (forwardStart : DateTime) (perBarObs : List Obs) : Except PyError (List Obs) := do
  let dated ← perBarObs.mapM (fun obs => do return (← parseBarUtc obs.timestamp, obs))
  return (dated.filter (fun p => forwardStart ≤ p.1)).map Prod.snd

section runOnce

variable (bytes : Artifact → String) (cfg : PaperConfig)

section publish

def outputDigests (d : Dir) (overrides : List (String × String)) : List (String × String) :=
  let l := d.ledgers
  [("paper_config.json", sha256Hex (bytes (.config cfg))),
    ("paper_fills.jsonl", ledgerDigest bytes .fills l.fills),
    ("paper_positions.jsonl", ledgerDigest bytes .positions l.positions),
    ("paper_trades.jsonl", ledgerDigest bytes .trades l.trades),
    ("paper_equity.jsonl", ledgerDigest bytes .equity l.equity),
    ("paper_funding.jsonl", ledgerDigest bytes .funding l.funding),
    ("paper_signal_snapshots.jsonl", ledgerDigest bytes .snapshots l.snapshots),
    ("paper_position_state.json", optionDigest bytes (d.state.map .state)),
    ("paper_pnl_summary.json", optionDigest bytes (d.summary.map .summary)),
    ("paper_receipt.md", optionDigest bytes (d.receipt.map .receipt))].map
    (fun p => (p.1, (overrides.lookup p.1).getD p.2))

def buildProvenance (inv : Invocation) (d : Dir) (status : String)
    (abort : Option (String × String)) (reconcileFailures : Option (List Failure))
    (overrides : List (String × String)) : Provenance where
  runTs := nowUtcStr inv.provenanceAt
  engineVersion := cfg.engineVersion
  baselineLabel := baselineLabel
  gitSha := inv.gitSha
  status := status
  inputDigests := inv.inputDigests
  outputDigests := outputDigests bytes cfg d overrides
  abort := abort
  reconcileFailures := reconcileFailures

def terminalDigests (summary : Summary) (receipt : Receipt) : List (String × String) :=
  [("paper_pnl_summary.json", sha256Hex (bytes (.summary summary))),
    ("paper_receipt.md", sha256Hex (bytes (.receipt receipt)))]

/--
A terminal publication: the manifest, its log line, the receipt and last the summary.
-/
def publishTerminal (prov : Provenance) (summary : Summary) (receipt : Receipt) : List FileOp :=
  [.writeProvenance prov, .appendProvenanceLog prov, .writeReceipt receipt, .writeSummary summary]

def abort (inv : Invocation) (d : Dir) (code reason : String) : List FileOp :=
  let summary := abortedSummary cfg code reason (nowUtcStr inv.publishedAt)
  let receipt := Receipt.aborted summary code reason
  let prov := buildProvenance bytes cfg inv d "ABORTED" (some (code, reason)) none
    (terminalDigests bytes summary receipt)
  publishTerminal prov summary receipt

def corrupt (inv : Invocation) (d : Dir) (failures : List Failure) : List FileOp :=
  let summary := corruptSummary cfg failures (nowUtcStr inv.publishedAt)
  let receipt := Receipt.corrupt summary failures
  let prov := buildProvenance bytes cfg inv d "CORRUPT_LEDGER" none (some failures)
    (terminalDigests bytes summary receipt)
  publishTerminal prov summary receipt

def noEligibleBars (inv : Invocation) (d : Dir) (reason : String) : List FileOp :=
  let summary := noEligibleBarsSummary cfg reason (nowUtcStr inv.publishedAt)
  let receipt := Receipt.noEligible summary reason
  let prov := buildProvenance bytes cfg inv d "NO_ELIGIBLE_BARS_YET" none none
    (terminalDigests bytes summary receipt)
  publishTerminal prov summary receipt

end publish

section gates

/--
The manifest of a prior OK commit still pins the summary and the state.
-/
def checkProvenanceCommitted (d : Dir) (okSummary : Summary) : List Failure :=
  match d.provenance with
  | none => [.provenanceAbsent]
  | some prov =>
    let pinned (artifact actual : String) : List Failure :=
      failIf (prov.outputDigests.lookup artifact ≠ some actual)
        (.outputDigest artifact (prov.outputDigests.lookup artifact) actual)
    failIf (prov.status ≠ "OK") (.provenanceStatus prov.status)
      ++ pinned "paper_pnl_summary.json" (sha256Hex (bytes (.summary okSummary)))
      ++ pinned "paper_position_state.json" (optionDigest bytes (d.state.map .state))

/--
The prior summaries: the staged ones, or the one in place when none is staged.
-/
def priorSummaries (d : Dir) : List Summary :=
  match d.staged.toList with
  | [] => d.summary.toList
  | staged => staged.map Prod.snd

def checkExistingLedgers (d : Dir) : List Failure :=
  let prior := priorSummaries d
  let unreadable := d.ledgers.reads.reduceOption
    ++ (prior.filterMap validateSummaryShape)
    ++ (readStateObj d.state).toList
  if unreadable ≠ [] then
    unreadable
  else
    let okSummary := (prior.filter Summary.isOk).getLast?
    reconcile cfg d.ledgers d.summary
      ++ reconcileStateAgainstLedgers cfg d.ledgers d.state okSummary.isSome
      ++ match okSummary with
        | none => []
        | some s => checkProvenanceCommitted bytes d s

/--
The manifest on disk pins the bytes about to be committed, and the receipt is on disk.
-/
def checkOkCommitSemantics (d : Dir) (summary : Summary) (state : EngineState) (receipt : Receipt)
    : List Failure :=
  match validateSummaryShape summary with
  | some failure => [failure]
  | none =>
    failIf (!summary.isOk) .summaryNotOk
      ++ match d.provenance with
        | none => [.provenanceAbsent]
        | some prov =>
          let pinned (artifact bytes : String) : List Failure :=
            failIf (prov.outputDigests.lookup artifact ≠ some (sha256Hex bytes))
              (.outputDigest artifact (prov.outputDigests.lookup artifact) (sha256Hex bytes))
          pinned "paper_pnl_summary.json" (bytes (.summary summary))
            ++ pinned "paper_position_state.json" (bytes (.state state))
            ++ pinned "paper_receipt.md" (bytes (.receipt receipt))
            ++ match d.receipt with
              | none => [.receiptAbsent]
              | some onDisk =>
                failIf (bytes (.receipt onDisk) ≠ bytes (.receipt receipt)) .receiptMismatch

def finalIntegrityGate (d : Dir) (state : EngineState) (summary : Summary) (receipt : Receipt)
    : List Failure :=
  let l := d.ledgers
  match [l.readFills, l.readTrades, l.readEquity, l.readFunding, l.readPositions,
      l.readSnapshots].reduceOption.head? with
  | some failure => [failure]
  | none =>
    reconcile cfg l d.summary
      ++ Reconcile.stateFailures (some state) l cfg.initialEquityUsd true
      ++ checkOkCommitSemantics bytes d summary state receipt

end gates

/--
The preflight: the old summary is moved aside unread and RUNNING takes its place.
-/
def preflight (inv : Invocation) : List FileOp :=
  (if inv.stageRefused then [] else [.stageSummary (stagedSummaryName inv.runId)])
    ++ [.writeSummary (runningSummary cfg inv.runId (nowUtcStr inv.startedAt) "")]

def cleanupStaged (inv : Invocation) (d : Dir) : List FileOp :=
  (d.staged.keys.filter (fun name => !inv.unlinkRefused name)).map .unlinkStaged

/--
The rows of a run that are not on file yet.
-/
def newRows (inv : Invocation) (l : Ledgers) (forwardObs : List Obs) (result : EngineResult)
    : Ledgers where
  fills := freshRows FillRow.fillId l.fills (result.fills cfg)
  trades := freshRows TradeRow.tradeId l.trades result.trades
  funding := freshRows FundingRow.fundingId l.funding result.funding
  positions := freshRows PositionsRow.barTs l.positions result.positions
  equity := freshRows EquityRow.barTs l.equity result.equity
  snapshots := freshRows SnapshotRow.snapshotId l.snapshots
    (buildSnapshots cfg inv (result.equity.map EquityRow.barTs)
      (l.snapshots.map SnapshotRow.snapshotId) forwardObs)

/--
The appends, the snapshots of the bars first.
-/
def appendRows (rows : Ledgers) : List FileOp :=
  rows.snapshots.map .appendSnapshot
    ++ rows.fills.map .appendFill
    ++ rows.trades.map .appendTrade
    ++ rows.funding.map .appendFunding
    ++ rows.positions.map .appendPositions
    ++ rows.equity.map .appendEquity

def okSummary (d : Dir) (state : EngineState) : Summary :=
  let l := d.ledgers
  computeSummary cfg l.trades l.equity state.openPositions state.barsElapsed
    (l.funding.filter (fun f => !f.rateAvailable)).length

def okReceipt (inv : Invocation) (d : Dir) (result : EngineResult) : Receipt :=
  let l := d.ledgers
  .ok (okSummary cfg d result.state) (l.trades.drop (l.trades.length - 5))
    (l.funding.filter (fun f => !f.rateAvailable)).length result.deferredBarTs (nowUtcStr inv.publishedAt)

def okProvenance (inv : Invocation) (d : Dir) (result : EngineResult) : Provenance :=
  buildProvenance bytes cfg inv d "OK" none none
    [("paper_pnl_summary.json", sha256Hex (bytes (.summary (okSummary cfg d result.state)))),
      ("paper_position_state.json", sha256Hex (bytes (.state result.state))),
      ("paper_receipt.md", sha256Hex (bytes (.receipt (okReceipt cfg inv d result))))]

/--
The evidence of an OK run, and once the last gate has passed the state and the OK summary.
-/
def publishOk (inv : Invocation) (d : Dir) (result : EngineResult) : List FileOp :=
  let summary := okSummary cfg d result.state
  let receipt := okReceipt cfg inv d result
  let prov := okProvenance bytes cfg inv d result
  let evidence := [FileOp.writeProvenance prov, .writeReceipt receipt]
  let gated := d.run evidence
  let failures := finalIntegrityGate bytes cfg gated result.state summary receipt
  evidence
    ++ if failures ≠ [] then
        corrupt bytes cfg inv gated failures
      else
        [.appendProvenanceLog prov, .writeState result.state, .writeSummary summary]

/--
From the reconcile of the appended ledgers on. The rows are read back with the shapes checked.
-/
def publish (inv : Invocation) (d : Dir) (result : EngineResult) : List FileOp :=
  let failures := reconcile cfg d.ledgers d.summary
  if failures ≠ [] then
    corrupt bytes cfg inv d failures
  else
    match [d.ledgers.readTrades, d.ledgers.readEquity,
        d.ledgers.readFunding].reduceOption.head? with
    | some failure => corrupt bytes cfg inv d [failure]
    | none => publishOk bytes cfg inv d result

/--
The gates past freshness, then the engine and the appends. An exception ends the run where it is.
-/
def accountRows (inv : Invocation) (d : Dir) (forwardStart : DateTime) (perBarObs : List Obs)
    : List FileOp :=
  match eligibleObs forwardStart perBarObs with
  | .error _ => []
  | .ok forwardObs =>
    match checkDivergence d.ledgers.snapshots forwardObs with
    | some reason => abort bytes cfg inv d "SIGNAL_SNAPSHOT_DIVERGENCE" reason
    | none =>
      match inv.coverageGap with
      | some reason => abort bytes cfg inv d "FUNDING_COVERAGE_MISSING" reason
      | none =>
        match runEngine cfg perBarObs inv.prices inv.fundingDf
            (d.state.getD (newState cfg.initialEquityUsd)) with
        | .error _ => []
        | .ok result =>
          let appends := appendRows (newRows cfg inv d.ledgers forwardObs result)
          appends ++ publish bytes cfg inv (d.run appends) result

def account (inv : Invocation) (d : Dir) : List FileOp :=
  match parseBarUtc cfg.forwardStartTs with
  | .error _ => []
  | .ok forwardStart =>
    match checkFreshness cfg inv.ages forwardStart inv.obsLog with
    | .abort code reason => abort bytes cfg inv d code reason
    | .noEligibleBars reason => noEligibleBars bytes cfg inv d reason
    | .fresh =>
      match inv.obsLog with
      | .perBar perBarObs => accountRows bytes cfg inv d forwardStart perBarObs
      | _ => []

def healthFailures (inv : Invocation) (d : Dir) : List Failure :=
  failIf inv.stageRefused .notStaged
    ++ if inv.globRefused then [.notEnumerated] else checkExistingLedgers bytes cfg d

/--
After the preflight: the health gate over what is on disk, before anything is changed.
-/
def afterPreflight (inv : Invocation) (d : Dir) : List FileOp :=
  let failures := healthFailures bytes cfg inv d
  let cleanup := if inv.globRefused then [] else cleanupStaged inv d
  if failures ≠ [] then
    corrupt bytes cfg inv d failures ++ cleanup
  else
    cleanup ++ account bytes cfg inv (d.run cleanup)

/--
The operations of a run that nothing cuts. When the config does not load, a summary that is there
gives way to the marker, and nothing else is touched.
-/
def runOnce (inv : Invocation) (d : Dir) : List FileOp :=
  if !inv.configLoads then
    (d.summary.map (fun _ =>
      FileOp.writeSummary (configErrorPreflightMarker inv.runId (nowUtcStr inv.startedAt)))).toList
  else
    preflight cfg inv ++ afterPreflight bytes cfg inv (d.run (preflight cfg inv))

end runOnce

end Quantbot
