import Quantbot.Paper.Ledger
import Quantbot.Util.JsonValue
import Quantbot.Util.Sha256

/-!
The trusted baseline of the verifier: what it pins and how a frozen snapshot is held against it.
-/

namespace Quantbot

inductive LedgerFile where
  | fills
  | trades
  | funding
  | positions
  | equity
  | snapshots
deriving DecidableEq

def LedgerFile.name : LedgerFile → String
  | .fills => "paper_fills.jsonl"
  | .trades => "paper_trades.jsonl"
  | .funding => "paper_funding.jsonl"
  | .positions => "paper_positions.jsonl"
  | .equity => "paper_equity.jsonl"
  | .snapshots => "paper_signal_snapshots.jsonl"

def ledgerFiles : List LedgerFile :=
  [.fills, .trades, .funding, .positions, .equity, .snapshots]

inductive SnapshotFile where
  | config
  | ledger (file : LedgerFile)
  | state
  | summary
deriving DecidableEq

def SnapshotFile.name : SnapshotFile → String
  | .config => "paper_config.json"
  | .ledger file => file.name
  | .state => "paper_position_state.json"
  | .summary => "paper_pnl_summary.json"

def snapshotFiles : List SnapshotFile :=
  .config :: ledgerFiles.map .ledger ++ [.state, .summary]

inductive FileState where
  | absent
  | unreadable (reason : String)
  | content (data : Bytes)
deriving DecidableEq

structure RawDigest where
  present : Bool
  bytes : ℕ
  lines : ℕ
  sha256 : String
deriving DecidableEq

def rawDigest : FileState → RawDigest
  | .absent => { present := false, bytes := 0, lines := 0, sha256 := "absent" }
  | .unreadable reason =>
    { present := false, bytes := 0, lines := 0, sha256 := "unreadable:" ++ reason }
  | .content data =>
    { present := true
      bytes := data.length
      lines := data.count 10
      sha256 := sha256Bytes data }

/--
The files of the frozen input directory.
-/
abbrev Inputs := SnapshotFile → FileState

inductive VerifyFailure where
  | accounting (failure : Failure)
  | unparsed (file reason : String)
  | configError (reason : String)
  | unstable (file : String)
  | baselineCorrupt
  | trustedAbsent (file : String)
  | truncated (file : String) (bytes pinned : ℤ)
  | linesRemoved (file : String) (lines pinned : ℤ)
  | prefixUnreadable (file : String)
  | prefixChanged (file : String) (pinned : ℤ)
  | configChanged
  | stateChanged
deriving DecidableEq

section baseline

def verifierVersion : String :=
  "0.3.0"

/--
A trust file, down to what `json.loads` makes of its text.
-/
inductive TrustFile where
  | absent
  | unreadable
  | malformed
  | json (value : JsonValue)

def validPin (info : Option JsonValue) : Bool :=
  match info with
  | some (.obj info) =>
    (JsonObject.strictInt? info "bytes").any (0 ≤ ·)
      && (JsonObject.strictInt? info "lines").any (0 ≤ ·)
      && (JsonObject.str? info "sha256").any (· ≠ "")
      && match info.lookup "present" with
        | some (.bool _) => true
        | _ => false
  | _ => false

def validTrustedBaseline (o : JsonObject) : Bool :=
  JsonObject.str? o "status" = some "OK"
    && (o.lookup "schema_version").any (fun v => v.equalsInt schemaVersion)
    && JsonObject.str? o "baseline_label" = some baselineLabel
    && (JsonObject.str? o "verifier_version").any (· ≠ "")
    && (match o.lookup "committed" with
      | some (.bool true) => true
      | _ => false)
    && (JsonObject.strictInt? o "bars_committed").any (0 < ·)
    && (JsonObject.str? o "forward_start_ts").any (· ≠ "")
    && match o.lookup "append_only_digests" with
      | some (.obj pins) => ledgerFiles.all (fun file => validPin (pins.lookup file.name))
      | _ => false

/--
The baseline, and whether the file is there without being one.
-/
def readTrustedBaseline : TrustFile → Option JsonObject × Bool
  | .absent => (none, false)
  | .unreadable => (none, true)
  | .malformed => (none, true)
  | .json (.obj o) => if validTrustedBaseline o then (some o, false) else (none, true)
  | .json _ => (none, true)

end baseline

section failures

variable (inputs : Inputs)

/--
The frozen files under their names.
-/
def inputNamed (name : String) : FileState :=
  match ledgerFiles.find? (fun file => file.name = name) with
  | none => .absent
  | some file => inputs (.ledger file)

def pinFailures (name : String) (info : JsonValue) : List VerifyFailure :=
  match info with
  | .obj info =>
    if !(info.lookup "present").any JsonValue.truthy then
      []
    else
      match (info.lookup "bytes").bind JsonValue.asInt, JsonObject.str? info "sha256" with
      | some pinnedBytes, some pinnedSha =>
        if pinnedBytes < 0 then
          []
        else
          let current := rawDigest (inputNamed inputs name)
          if !current.present then
            [.trustedAbsent name]
          else if current.bytes < pinnedBytes then
            [.truncated name current.bytes pinnedBytes]
          else
            let pinnedLines := ((info.lookup "lines").bind JsonValue.asInt).getD current.lines
            if current.lines < pinnedLines then
              [.linesRemoved name current.lines pinnedLines]
            else
              match inputNamed inputs name with
              | .content data =>
                failIf (sha256Bytes (data.take pinnedBytes.toNat) ≠ pinnedSha)
                  (.prefixChanged name pinnedBytes)
              | _ => [.prefixUnreadable name]
      | _, _ => []
  | _ => []

/--
A ledger that was absent when the baseline was written is not constrained by it.
-/
def appendOnlyFailures (baseline : Option JsonObject) : List VerifyFailure :=
  match baseline.bind (fun o => (o.lookup "append_only_digests").bind JsonValue.asObj) with
  | none => []
  | some pinned => pinned.flatMap (fun p => pinFailures inputs p.1 p.2)

/--
The config is written once; the state changes with a new bar only.
-/
def exactByteFailures (baseline : Option JsonObject) (barsCommitted : ℕ) : List VerifyFailure :=
  match baseline with
  | none => []
  | some o =>
    match (o.lookup "output_digests").bind JsonValue.asObj with
    | none => []
    | some prior =>
      let state := rawDigest (inputs .state)
      failIf ((JsonObject.str? prior SnapshotFile.config.name).any
          (· ≠ (rawDigest (inputs .config)).sha256)) .configChanged
        ++ failIf ((o.lookup "bars_committed").any (fun v => v.equalsInt barsCommitted)
            ∧ state.present
            ∧ (JsonObject.str? prior SnapshotFile.state.name).any (· ≠ state.sha256)) .stateChanged

end failures

end Quantbot
