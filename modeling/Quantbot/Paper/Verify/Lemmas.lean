import Quantbot.Paper.Verify.Basic
import Quantbot.Util.MapM

/-!
What a run of the verifier asks of a snapshot, and what it leaves behind for the next one.
-/

namespace Quantbot

def returnsOk (readers : Readers) (run : VerifyRun) (d : VerifyDir) : Bool :=
  match (verify readers run d).2 with
  | .ok report => report.status = .ok
  | .error _ => false

/--
A file that was there is still there, with more bytes at its end at most.
-/
def Extends (earlier later : FileState) : Prop :=
  ∀ data, earlier = .content data → ∃ data', later = .content data' ∧ data <+: data'

instance : IsTrans FileState Extends where
  trans a b c hab hbc := by
    intro data ha
    obtain ⟨data', hb, hprefix⟩ := hab data ha
    obtain ⟨data'', hc, hprefix'⟩ := hbc data' hb
    exact ⟨data'', hc, hprefix.trans hprefix'⟩

/--
The snapshot of a later run keeps the ledgers and the config of an earlier one.
-/
structure Keeps (earlier later : VerifyRun) : Prop where
  ledgers : ∀ file, Extends (earlier.inputs (.ledger file)) (later.inputs (.ledger file))
  config : earlier.inputs .config = later.inputs .config

instance : IsTrans VerifyRun Keeps where
  trans _ _ _ hab hbc := {
    ledgers := fun file => IsTrans.trans _ _ _ (hab.ledgers file) (hbc.ledgers file)
    config := hab.config.trans hbc.config
  }

/--
The digests of the earlier config and ledgers are shared by no other text of the later snapshot that
they are compared with: its config, and the beginnings of its ledgers.
-/
structure Distinguishes (earlier later : VerifyRun) : Prop where
  config : ∀ data data', earlier.inputs .config = .content data →
    later.inputs .config = .content data' → sha256Bytes data' = sha256Bytes data → data' = data
  ledgers : ∀ file data data', earlier.inputs (.ledger file) = .content data →
    later.inputs (.ledger file) = .content data' →
    sha256Bytes (data'.take data.length) = sha256Bytes data → data'.take data.length = data

section pins

variable {inputs : Inputs} {info : RawDigest}

theorem inputNamed_name (file : LedgerFile) : inputNamed inputs file.name = inputs (.ledger file) := by
  cases file <;> rfl

theorem sha256Bytes_ne_absent (data : Bytes) : sha256Bytes data ≠ "absent" := by
  intro h
  have hlength := congrArg (fun s => s.toList.length) h
  simp [sha256Bytes] at hlength

/--
A ledger passes the pin of some bytes when it begins with as many bytes of the pinned digest and has
lost no line.
-/
theorem pinFailures_eq_nil {file : LedgerFile} {data : Bytes}
    : pinFailures inputs file.name (rawDigest (.content data)).pin = []
        ↔ ∃ data', inputs (.ledger file) = .content data' ∧ data.length ≤ data'.length
          ∧ data.count 10 ≤ data'.count 10
          ∧ sha256Bytes (data'.take data.length) = sha256Bytes data := by
  unfold pinFailures
  rw [inputNamed_name]
  cases inputs (.ledger file) with
  | absent =>
    simp [rawDigest, RawDigest.pin, List.lookup, JsonValue.truthy, JsonObject.str?, JsonValue.asInt,
      JsonValue.asStr]
  | unreadable reason =>
    simp [rawDigest, RawDigest.pin, List.lookup, JsonValue.truthy, JsonObject.str?, JsonValue.asInt,
      JsonValue.asStr]
  | content data' =>
    simp only [RawDigest.pin, rawDigest, List.lookup, String.reduceBEq, BEq.rfl, Option.any_some,
      JsonValue.truthy, Bool.not_true, Bool.false_eq_true, if_false, Option.bind_some,
      JsonValue.asInt, JsonObject.str?, JsonValue.asStr, Nat.cast_lt, Option.getD_some,
      Int.toNat_natCast, not_lt.mpr (Nat.cast_nonneg _), FileState.content.injEq, exists_eq_left']
    split
    . simp
      omega
    . split
      . simp
        omega
      . rw [failIf_eq_nil, not_not]
        constructor
        . intro h
          exact ⟨by omega, by omega, h⟩
        . intro h
          exact h.2.2

theorem pinFailures_of_absent (name : String) : pinFailures inputs name (rawDigest .absent).pin = [] :=
  rfl

end pins

section report

variable {readers : Readers} {run : VerifyRun} {baseline : Option JsonObject} {baselineCorrupt : Bool}
  {forwardStart : String} {report : VerifyReport}

/--
What a report pins, and what an OK one found no failure in.
-/
structure Certifies (run : VerifyRun) (baseline : Option JsonObject) (baselineCorrupt : Bool)
    (report : VerifyReport) : Prop where
  appendOnly : report.appendOnlyDigests
    = ledgerFiles.map (fun file => (file.name, rawDigest (run.inputs (.ledger file))))
  output : report.outputDigests
    = snapshotFiles.map (fun file => (file.name, (rawDigest (run.inputs file)).sha256))
  sound : report.status = .ok → baselineCorrupt = false
  appended : report.status = .ok → appendOnlyFailures run.inputs baseline = []
  exact : report.status = .ok → exactByteFailures run.inputs baseline report.barsCommitted = []

theorem statusOf_ok {config : Except String PaperConfig} {p : Parsed}
    {failures : List VerifyFailure} (h : statusOf run baseline config p failures = .ok)
    : failures = [] ∧ committed config p = true ∧ (baseline = none → run.bootstrap = true) := by
  unfold statusOf at h
  split at h
  . cases h
  . split at h
    . cases h
    . split at h
      . cases h
      . split at h
        . split at h <;> cases h
        . split at h
          . cases h
          . rename_i hfailures _ hcommitted hbaseline
            refine ⟨not_not.mp hfailures, by simpa using hcommitted, ?_⟩
            intro hnone
            simpa [hnone] using hbaseline

theorem committed_parsed {config : Except String PaperConfig} {p : Parsed}
    (h : committed config p = true) : ∃ cfg, config = .ok cfg ∧ p.failures = [] := by
  simp only [committed, Bool.decide_and, Bool.and_eq_true, decide_eq_true_eq] at h
  obtain ⟨hconfig, hparsed, -⟩ := h
  cases config with
  | error reason => cases hconfig
  | ok cfg => exact ⟨cfg, rfl, hparsed⟩

theorem validationFailures_eq_nil {inputs : Inputs} {cfg : PaperConfig} {p : Parsed}
    (hparsed : p.failures = []) (h : validationFailures inputs baseline (.ok cfg) p = [])
    : appendOnlyFailures inputs baseline = []
        ∧ exactByteFailures inputs baseline p.ledgers.equity.length = [] := by
  simp only [validationFailures, hparsed, ne_eq, not_true, if_false, List.append_eq_nil_iff] at h
  exact ⟨h.1.2, h.2⟩

theorem terminalReport_certifies
    (h : terminalReport readers run baseline baselineCorrupt forwardStart = .ok report)
    : Certifies run baseline baselineCorrupt report := by
  unfold terminalReport at h
  obtain ⟨config, -, h⟩ := bind_eq_ok.mp h
  obtain ⟨p, -, h⟩ := bind_eq_ok.mp h
  obtain ⟨coverage, -, h⟩ := bind_eq_ok.mp h
  cases h
  constructor
  case appendOnly => rfl
  case output => rfl
  all_goals
    intro hok
    obtain ⟨hfailures, hcommitted, -⟩ := statusOf_ok hok
    obtain ⟨cfg, rfl, hparsed⟩ := committed_parsed hcommitted
    simp only [List.append_eq_nil_iff, failIf_eq_nil] at hfailures
  case sound => simpa using hfailures.2
  case appended => exact (validationFailures_eq_nil hparsed hfailures.1.2).1
  case exact => exact (validationFailures_eq_nil hparsed hfailures.1.2).2

end report

section step

variable {readers : Readers} {run earlier later : VerifyRun} {d : VerifyDir}

/--
An OK run certifies its snapshot against the baseline it found and leaves its own behind.
-/
theorem verify_ok (h : returnsOk readers run d = true)
    : ∃ report, Certifies run (readTrustedBaseline d.trusted).1 (readTrustedBaseline d.trusted).2
          report
        ∧ report.status = .ok
        ∧ (verify readers run d).1.trusted = .json (.obj (trustedBaseline report)) := by
  unfold returnsOk verify at h
  unfold verify
  cases hlive : loadConfig readers run.liveConfig with
  | error e => simp [hlive] at h
  | ok live =>
    cases hreport : terminalReport readers run (readTrustedBaseline d.trusted).1
        (readTrustedBaseline d.trusted).2 (forwardStartOf live "unknown") with
    | error e => simp [hlive, hreport] at h
    | ok report =>
      have hok : report.status = .ok := by simpa [hlive, hreport] using h
      refine ⟨report, terminalReport_certifies hreport, hok, ?_⟩
      simp [hreport, VerifyDir.publish, hok]

theorem verify_not_ok (h : returnsOk readers run d = false)
    : (verify readers run d).1.trusted = d.trusted := by
  unfold returnsOk verify at h
  unfold verify
  cases hlive : loadConfig readers run.liveConfig with
  | error e => rfl
  | ok live =>
    cases hreport : terminalReport readers run (readTrustedBaseline d.trusted).1
        (readTrustedBaseline d.trusted).2 (forwardStartOf live "unknown") with
    | error e => simp [hreport]
    | ok report =>
      have hok : report.status ≠ .ok := by simpa [hlive, hreport] using h
      simp [hreport, VerifyDir.publish, hok]

theorem inputs_cases (run : VerifyRun) (file : SnapshotFile)
    : run.inputs file = .absent ∨ ∃ data, run.inputs file = .content data := by
  unfold VerifyRun.inputs
  split
  . cases run.copied file with
    | none => exact .inl rfl
    | some data => exact .inr ⟨data, rfl⟩
  . exact .inl rfl

theorem ledger_extends {report : VerifyReport} {b : Option JsonObject} {corrupt : Bool}
    (hpinned : Certifies earlier b corrupt report)
    (happended : appendOnlyFailures later.inputs (some (trustedBaseline report)) = [])
    (hdistinguishes : Distinguishes earlier later) (file : LedgerFile)
    : Extends (earlier.inputs (.ledger file)) (later.inputs (.ledger file)) := by
  intro data hdata
  have hlookup : ((trustedBaseline report).lookup "append_only_digests").bind JsonValue.asObj
      = some (report.appendOnlyDigests.map (fun p => (p.1, p.2.pin))) := rfl
  unfold appendOnlyFailures at happended
  rw [Option.bind_some, hlookup, hpinned.appendOnly] at happended
  simp only [List.flatMap_eq_nil_iff, List.mem_map, forall_exists_index, and_imp,
    forall_apply_eq_imp_iff₂] at happended
  have hpin := happended file (by cases file <;> decide)
  rw [hdata, pinFailures_eq_nil] at hpin
  obtain ⟨data', hdata', -, -, hsha⟩ := hpin
  refine ⟨data', hdata', ?_⟩
  rw [← hdistinguishes.ledgers file data data' hdata hdata' hsha]
  exact List.take_prefix _ _

theorem config_same {report : VerifyReport} {b : Option JsonObject} {corrupt : Bool} {bars : ℕ}
    (hpinned : Certifies earlier b corrupt report)
    (hexact : exactByteFailures later.inputs (some (trustedBaseline report)) bars = [])
    (hdistinguishes : Distinguishes earlier later)
    : earlier.inputs .config = later.inputs .config := by
  have hlookup : ((trustedBaseline report).lookup "output_digests").bind JsonValue.asObj
      = some (report.outputDigests.map (fun p => (p.1, .str p.2))) := rfl
  unfold exactByteFailures at hexact
  simp only [hlookup, List.append_eq_nil_iff, failIf_eq_nil, hpinned.output] at hexact
  have hsha : (rawDigest (earlier.inputs .config)).sha256
      = (rawDigest (later.inputs .config)).sha256 := by
    simpa [JsonObject.str?, snapshotFiles, List.lookup, SnapshotFile.name, JsonValue.asStr]
      using hexact.1
  rcases inputs_cases earlier .config with hearlier | ⟨data, hearlier⟩
  . rcases inputs_cases later .config with hlater | ⟨data', hlater⟩
    . rw [hearlier, hlater]
    . rw [hearlier, hlater] at hsha
      exact absurd hsha.symm (sha256Bytes_ne_absent data')
  . rcases inputs_cases later .config with hlater | ⟨data', hlater⟩
    . rw [hearlier, hlater] at hsha
      exact absurd hsha (sha256Bytes_ne_absent data)
    . rw [hearlier, hlater] at hsha ⊢
      rw [hdistinguishes.config data data' hearlier hlater hsha.symm]

/--
The baseline on disk is the one that `earlier` left behind.
-/
def Trusts (d : VerifyDir) (earlier : VerifyRun) : Prop :=
  ∃ report baseline corrupt, Certifies earlier baseline corrupt report
    ∧ d.trusted = .json (.obj (trustedBaseline report))

theorem trusts_after_ok (h : returnsOk readers run d = true)
    : Trusts (verify readers run d).1 run := by
  obtain ⟨report, hcertifies, -, htrusted⟩ := verify_ok h
  exact ⟨report, _, _, hcertifies, htrusted⟩

theorem readTrustedBaseline_sound {o : JsonObject}
    (h : (readTrustedBaseline (.json (.obj o))).2 = false)
    : (readTrustedBaseline (.json (.obj o))).1 = some o := by
  cases hvalid : validTrustedBaseline o with
  | false => simp [readTrustedBaseline, hvalid] at h
  | true => simp [readTrustedBaseline, hvalid]

theorem Trusts.keeps (htrusts : Trusts d earlier) (h : returnsOk readers later d = true)
    (hdistinguishes : Distinguishes earlier later) : Keeps earlier later := by
  obtain ⟨report, _, _, hpinned, htrusted⟩ := htrusts
  obtain ⟨report', hlater, hok, -⟩ := verify_ok h
  have hsound := hlater.sound hok
  have happended := hlater.appended hok
  have hexact := hlater.exact hok
  rw [htrusted] at hsound happended hexact
  rw [readTrustedBaseline_sound hsound] at happended hexact
  exact {
    ledgers := ledger_extends hpinned happended hdistinguishes
    config := config_same hpinned hexact hdistinguishes
  }

end step

section accepts

variable {readers : Readers} {run earlier : VerifyRun} {d : VerifyDir} {cfg : PaperConfig}
  {p : Parsed}

/--
A snapshot in which the accounting finds nothing wrong.
-/
structure Sound (readers : Readers) (run : VerifyRun) (cfg : PaperConfig) (p : Parsed) : Prop where
  live : (loadConfig readers run.liveConfig).isOk
  config : loadConfig readers (run.inputs .config) = .ok (.ok cfg)
  start : cfg.forwardStartTs ≠ ""
  parsed : parse readers run.inputs = .ok p
  wellFormed : p.failures = []
  committed : committed (.ok cfg) p = true
  reconciled : reconcile cfg p.ledgers p.summary = []
  state : reconcileStateAgainstLedgers cfg p.ledgers p.state true = []
  stable : run.first = run.second
  coverage : (run.coverage (run.inputs (.ledger .funding))).isOk

theorem unstable_eq_nil (h : run.first = run.second) : run.unstable = [] := by
  unfold VerifyRun.unstable
  rw [h]
  simp

theorem committed_equity {config : Except String PaperConfig} (h : committed config p = true)
    : p.ledgers.equity ≠ [] := by
  intro hnil
  simp [committed, hnil, Reconcile.latestEquityTs] at h

/--
What a sound run reports, up to the coverage of the funding.
-/
theorem Sound.terminalReport (h : Sound readers run cfg p) {baseline : Option JsonObject}
    (hbaseline : baseline = none → run.bootstrap = true)
    (happended : appendOnlyFailures run.inputs baseline = [])
    (hexact : exactByteFailures run.inputs baseline p.ledgers.equity.length = [])
    (forwardStart : String)
    : ∃ report, terminalReport readers run baseline false forwardStart = .ok report
        ∧ report.status = .ok ∧ report.forwardStartTs = cfg.forwardStartTs
        ∧ report.barsCommitted = p.ledgers.equity.length := by
  obtain ⟨coverage, hcoverage⟩ : ∃ c, run.coverage (run.inputs (.ledger .funding)) = .ok c := by
    cases hc : run.coverage (run.inputs (.ledger .funding)) with
    | error e =>
      have := h.coverage
      rw [hc] at this
      cases this
    | ok c => exact ⟨c, rfl⟩
  have hvalid : validationFailures run.inputs baseline (.ok cfg) p = [] := by
    simp [validationFailures, h.wellFormed, h.committed, h.reconciled, h.state, happended, hexact]
  unfold Quantbot.terminalReport
  simp only [h.config, h.parsed, hcoverage, bind, Except.bind, pure, Except.pure,
    unstable_eq_nil h.stable, h.wellFormed, hvalid]
  refine ⟨_, rfl, ?_, rfl, rfl⟩
  have hequity := committed_equity h.committed
  simp only [statusOf, List.map_nil, List.append_nil, failIf, Bool.false_eq_true, if_false, ne_eq,
    not_true, hequity, h.committed, Bool.not_true]
  rw [if_neg]
  rintro ⟨hnone, hbootstrap⟩
  simp [hbaseline hnone] at hbootstrap

theorem settle_parsed {α : Type} {file : SnapshotFile} {fallback value : α}
    {check : α → Option Failure} (h : check value = none)
    : settle file fallback check (.parsed value) = .ok (value, []) := by
  simp [settle, h]

theorem settleRows_parsed {α : Type} {inputs : Inputs} {file : LedgerFile} {checks : α → RowChecks}
    {reader : FileState → Reading (List α)} {rows : List α}
    (hread : reader (inputs (.ledger file)) = .parsed rows)
    (h : malformedRow file.name checks rows = none)
    : settleRows inputs file checks reader = .ok (rows, []) := by
  unfold settleRows
  rw [hread, settle_parsed h]

/--
The readings of artifacts that pass the checks on their values.
-/
theorem parse_eq {inputs : Inputs} {l : Ledgers} {state : Option EngineState}
    {summary : Option Summary}
    (hfills : readers.fills (inputs (.ledger .fills)) = .parsed l.fills)
    (htrades : readers.trades (inputs (.ledger .trades)) = .parsed l.trades)
    (hfunding : readers.funding (inputs (.ledger .funding)) = .parsed l.funding)
    (hpositions : readers.positions (inputs (.ledger .positions)) = .parsed l.positions)
    (hequity : readers.equity (inputs (.ledger .equity)) = .parsed l.equity)
    (hsnapshots : readers.snapshots (inputs (.ledger .snapshots)) = .parsed l.snapshots)
    (hstate : readers.state (inputs .state) = .parsed state)
    (hsummary : readers.summary (inputs .summary) = .parsed summary)
    (hreads : l.reads = List.replicate 6 none) (hstateShape : readStateObj state = none)
    (hsummaryShape : readSummaryObj summary = none)
    : parse readers inputs
        =
      .ok { ledgers := l, state := state, summary := summary, failures := [] } := by
  simp only [Ledgers.reads, List.replicate, List.cons.injEq] at hreads
  obtain ⟨hf, ht, hn, hp, he, hs, -⟩ := hreads
  unfold parse
  rw [hstate, hsummary, settleRows_parsed hfills hf, settleRows_parsed htrades ht,
    settleRows_parsed hfunding hn, settleRows_parsed hpositions hp, settleRows_parsed hequity he,
    settleRows_parsed hsnapshots hs, settle_parsed hstateShape, settle_parsed hsummaryShape]
  rfl

theorem rawDigest_sha256_ne (state : FileState) : (rawDigest state).sha256 ≠ "" := by
  cases state with
  | absent => decide
  | unreadable reason =>
    intro h
    have hlength := congrArg (fun s => s.toList.length) h
    simp [rawDigest] at hlength
  | content data =>
    intro h
    have hlength := congrArg (fun s => s.toList.length) h
    simp [rawDigest, sha256Bytes] at hlength

theorem validPin_rawDigest (state : FileState) : validPin (some (rawDigest state).pin) = true := by
  simp [validPin, RawDigest.pin, JsonObject.strictInt?, JsonObject.str?, List.lookup,
    JsonValue.strictInt, JsonValue.asStr, rawDigest_sha256_ne]

/--
The verifier reads back the baselines it writes.
-/
theorem validTrustedBaseline_written {report : VerifyReport} {baseline : Option JsonObject}
    {corrupt : Bool} (h : Certifies run baseline corrupt report) (hstart : report.forwardStartTs ≠ "")
    (hbars : 0 < report.barsCommitted) : validTrustedBaseline (trustedBaseline report) = true := by
  have hpins : ledgerFiles.all (fun file =>
      validPin ((report.appendOnlyDigests.map (fun p => (p.1, p.2.pin))).lookup file.name)) = true := by
    rw [h.appendOnly]
    simp [ledgerFiles, LedgerFile.name, List.lookup, validPin_rawDigest]
  have hstatus : JsonObject.str? (trustedBaseline report) "status" = some "OK" := rfl
  have hschema : (trustedBaseline report).lookup "schema_version" = some (.int schemaVersion) := rfl
  have hlabel : JsonObject.str? (trustedBaseline report) "baseline_label" = some baselineLabel := rfl
  have hversion : JsonObject.str? (trustedBaseline report) "verifier_version"
      = some verifierVersion := rfl
  have hcommitted : (trustedBaseline report).lookup "committed" = some (.bool true) := rfl
  have hcount : JsonObject.strictInt? (trustedBaseline report) "bars_committed"
      = some (report.barsCommitted : ℤ) := rfl
  have hforward : JsonObject.str? (trustedBaseline report) "forward_start_ts"
      = some report.forwardStartTs := rfl
  have hdigests : (trustedBaseline report).lookup "append_only_digests"
      = some (.obj (report.appendOnlyDigests.map (fun p => (p.1, p.2.pin)))) := rfl
  unfold validTrustedBaseline
  rw [hstatus, hschema, hlabel, hversion, hcommitted, hcount, hforward, hdigests]
  simp [JsonValue.equalsInt, JsonValue.asInt, hstart, hbars, verifierVersion, hpins]

/--
A ledger that was extended by whole bytes passes its pin.
-/
theorem pinFailures_of_extends {file : LedgerFile}
    (h : Extends (earlier.inputs (.ledger file)) (run.inputs (.ledger file)))
    : pinFailures run.inputs file.name (rawDigest (earlier.inputs (.ledger file))).pin = [] := by
  rcases inputs_cases earlier (.ledger file) with habsent | ⟨data, hdata⟩
  . rw [habsent]
    exact pinFailures_of_absent file.name
  . obtain ⟨data', hdata', hprefix⟩ := h data hdata
    rw [hdata, pinFailures_eq_nil]
    refine ⟨data', hdata', hprefix.length_le, hprefix.sublist.count_le 10, ?_⟩
    rw [← List.prefix_iff_eq_take.mp hprefix]

theorem appendOnlyFailures_of_keeps {report : VerifyReport} {baseline : Option JsonObject}
    {corrupt : Bool} (hpinned : Certifies earlier baseline corrupt report) (h : Keeps earlier run)
    : appendOnlyFailures run.inputs (some (trustedBaseline report)) = [] := by
  have hlookup : ((trustedBaseline report).lookup "append_only_digests").bind JsonValue.asObj
      = some (report.appendOnlyDigests.map (fun p => (p.1, p.2.pin))) := rfl
  unfold appendOnlyFailures
  rw [Option.bind_some, hlookup, hpinned.appendOnly]
  simp only [List.flatMap_eq_nil_iff, List.mem_map, forall_exists_index, and_imp,
    forall_apply_eq_imp_iff₂]
  intro file _
  exact pinFailures_of_extends (h.ledgers file)

theorem exactByteFailures_of_keeps {report : VerifyReport} {baseline : Option JsonObject}
    {corrupt : Bool} {bars : ℕ} (hpinned : Certifies earlier baseline corrupt report)
    (h : Keeps earlier run)
    (hstate : bars = report.barsCommitted → earlier.inputs .state = run.inputs .state)
    : exactByteFailures run.inputs (some (trustedBaseline report)) bars = [] := by
  have hlookup : ((trustedBaseline report).lookup "output_digests").bind JsonValue.asObj
      = some (report.outputDigests.map (fun p => (p.1, .str p.2))) := rfl
  have hbars : (trustedBaseline report).lookup "bars_committed"
      = some (.int report.barsCommitted) := rfl
  unfold exactByteFailures
  simp only [hlookup, hbars, List.append_eq_nil_iff, failIf_eq_nil, hpinned.output]
  constructor
  . simp [JsonObject.str?, snapshotFiles, ledgerFiles, SnapshotFile.name, JsonValue.asStr, h.config]
  . rintro ⟨hequal, -, hchanged⟩
    have hsame : bars = report.barsCommitted := by
      simpa [JsonValue.equalsInt, JsonValue.asInt, eq_comm] using hequal
    simp [JsonObject.str?, snapshotFiles, ledgerFiles, List.lookup, SnapshotFile.name, LedgerFile.name,
      JsonValue.asStr, hstate hsame] at hchanged

/--
A baseline of `earlier` that the verifier reads back, with its number of bars.
-/
def Anchored (d : VerifyDir) (earlier : VerifyRun) (bars : ℕ) : Prop :=
  ∃ report baseline corrupt, Certifies earlier baseline corrupt report
    ∧ d.trusted = .json (.obj (trustedBaseline report))
    ∧ validTrustedBaseline (trustedBaseline report) = true
    ∧ report.barsCommitted = bars

theorem Sound.verify (h : Sound readers run cfg p) {baseline : Option JsonObject}
    (hread : readTrustedBaseline d.trusted = (baseline, false))
    (hbaseline : baseline = none → run.bootstrap = true)
    (happended : appendOnlyFailures run.inputs baseline = [])
    (hexact : exactByteFailures run.inputs baseline p.ledgers.equity.length = [])
    : returnsOk readers run d = true
        ∧ Anchored (verify readers run d).1 run p.ledgers.equity.length := by
  cases hlive : loadConfig readers run.liveConfig with
  | error e =>
    have := h.live
    rw [hlive] at this
    cases this
  | ok live =>
    obtain ⟨report, hreport, hok, hstart, hbars⟩ :=
      h.terminalReport hbaseline happended hexact (forwardStartOf live "unknown")
    have hpinned := terminalReport_certifies hreport
    have hvalid := validTrustedBaseline_written hpinned (hstart ▸ h.start)
      (hbars ▸ List.length_pos_of_ne_nil (committed_equity h.committed))
    constructor
    . simp [returnsOk, Quantbot.verify, hread, hlive, hreport, hok]
    . refine ⟨report, baseline, false, hpinned, ?_, hvalid, hbars⟩
      simp [Quantbot.verify, hread, hlive, hreport, VerifyDir.publish, hok]

/--
An explicit bootstrap establishes trust in a sound snapshot.
-/
theorem Sound.bootstrap (h : Sound readers run cfg p) (hnone : d.trusted = .absent)
    (hbootstrap : run.bootstrap = true)
    : returnsOk readers run d = true
        ∧ Anchored (Quantbot.verify readers run d).1 run p.ledgers.equity.length :=
  h.verify (by rw [hnone]; rfl) (fun _ => hbootstrap) rfl rfl

/--
A sound snapshot that keeps what is trusted is trusted in turn.
-/
theorem Sound.append (h : Sound readers run cfg p) {bars : ℕ} (hanchored : Anchored d earlier bars)
    (hkeeps : Keeps earlier run)
    (hstate : p.ledgers.equity.length = bars → earlier.inputs .state = run.inputs .state)
    : returnsOk readers run d = true
        ∧ Anchored (Quantbot.verify readers run d).1 run p.ledgers.equity.length := by
  obtain ⟨report, _, _, hpinned, htrusted, hvalid, hbars⟩ := hanchored
  have hread : readTrustedBaseline d.trusted = (some (trustedBaseline report), false) := by
    rw [htrusted]
    simp [readTrustedBaseline, hvalid]
  apply h.verify hread
  . intro hnone
    cases hnone
  . exact appendOnlyFailures_of_keeps hpinned hkeeps
  . exact exactByteFailures_of_keeps hpinned hkeeps (hbars ▸ hstate)

end accepts

end Quantbot
