import Quantbot.Paper.Encoding
import Quantbot.Paper.Verify.Lemmas

/-!
The chain of trust over the runs of the verifier.
-/

namespace Quantbot

section runs

variable (readers : Readers)

/--
The directory after a sequence of runs.
-/
def VerifyDir.after (d : VerifyDir) (runs : List VerifyRun) : VerifyDir :=
  runs.foldl (fun d run => (verify readers run d).1) d

def okRuns : VerifyDir → List VerifyRun → List VerifyRun
  | _, [] => []
  | d, run :: runs =>
    if returnsOk readers run d then
      run :: okRuns (verify readers run d).1 runs
    else
      okRuns (verify readers run d).1 runs

end runs

def CollisionFree (runs : List VerifyRun) : Prop :=
  runs.Pairwise Distinguishes

section chain

variable {readers : Readers}

theorem okRuns_chain_from {runs : List VerifyRun} {earlier : VerifyRun} {d : VerifyDir}
    (htrusts : Trusts d earlier) (hfree : CollisionFree (earlier :: runs))
    : (earlier :: okRuns readers d runs).IsChain Keeps := by
  induction runs generalizing earlier d with
  | nil => exact List.IsChain.singleton earlier
  | cons run runs ih =>
    unfold CollisionFree at hfree ih
    rw [List.pairwise_cons, List.pairwise_cons] at hfree
    obtain ⟨hearlier, hrun, hruns⟩ := hfree
    unfold okRuns
    split
    . rename_i hok
      rw [List.isChain_cons_cons]
      constructor
      . exact htrusts.keeps hok (hearlier run List.mem_cons_self)
      . exact ih (trusts_after_ok hok) (List.pairwise_cons.mpr ⟨hrun, hruns⟩)
    . rename_i hnot
      apply ih
      . obtain ⟨report, baseline, corrupt, hpinned, htrusted⟩ := htrusts
        refine ⟨report, baseline, corrupt, hpinned, ?_⟩
        rw [verify_not_ok (Bool.not_eq_true _ ▸ hnot), htrusted]
      . exact List.pairwise_cons.mpr ⟨fun r hr => hearlier r (List.mem_cons_of_mem run hr), hruns⟩

theorem okRuns_chain {runs : List VerifyRun} (d : VerifyDir) (hfree : CollisionFree runs)
    : (okRuns readers d runs).IsChain Keeps := by
  induction runs generalizing d with
  | nil => exact List.IsChain.nil
  | cons run runs ih =>
    unfold okRuns
    split
    . rename_i hok
      exact okRuns_chain_from (trusts_after_ok hok) hfree
    . exact ih _ (List.pairwise_cons.mp hfree).2

/--
The OK runs keep what the earlier ones froze, and no other run touches the baseline.
-/
structure TrustChain (readers : Readers) (d : VerifyDir) (runs : List VerifyRun) : Prop where
  keeps : (okRuns readers d runs).Pairwise Keeps
  untouched : ∀ before run after, runs = before ++ run :: after →
    returnsOk readers run (d.after readers before) = false →
    (d.after readers (before ++ [run])).trusted = (d.after readers before).trusted

theorem trustChain (readers : Readers) (d : VerifyDir) (runs : List VerifyRun)
    (hfree : CollisionFree runs) : TrustChain readers d runs where
  keeps := by
    exact List.isChain_iff_pairwise.mp (okRuns_chain d hfree)
  untouched := by
    intro before run after _ hnot
    unfold VerifyDir.after
    rw [List.foldl_append]
    exact verify_not_ok hnot

end chain

section flatBar

/--
A reader for the one text that the files below hold, up to empty lines.
-/
def readAs {α : Type} (value : α) (missing : Reading α) : FileState → Reading α
  | .absent => missing
  | .unreadable reason => .corrupt reason
  | .content _ => .parsed value

def flatConfig : PaperConfig :=
  PaperConfig.build "2026-06-14T00:00:00Z" "cfg"

def flatSnapshot : SnapshotRow where
  snapshotId := "snapshot"
  barTs := "2026-06-14T00:00:00"
  barCommitId := "0123456789abcdef"
  barIndex := 1
  activeSymbols := []
  portfolioHeat := 0
  heatCapTriggered := false
  weightedReturn := 0
  sourceObservationDigest := "digest"
  sourceObservationMtime := some 0
  runTs := "2026-06-14T09:00:00Z"
  backfill := false

def flatPositions : PositionsRow where
  barTs := "2026-06-14T00:00:00"
  barCommitId := "0123456789abcdef"
  openSymbols := []
  numOpen := 0
  grossExposureUsd := 0

def flatEquity : EquityRow where
  barTs := "2026-06-14T00:00:00"
  barCommitId := "0123456789abcdef"
  realizedGrossPnl := 0
  unrealizedPnl := 0
  fundingCum := 0
  feesCum := 0
  equity := 10000
  drawdown := 0
  numOpen := 0

def flatLedgers : Ledgers where
  fills := []
  trades := []
  funding := []
  positions := [flatPositions]
  equity := [flatEquity]
  snapshots := [flatSnapshot]

/--
The state after a bar on which no symbol was active.
-/
def flatState : EngineState :=
  { newState 10000 with watermarkBarTs := some "2026-06-14T00:00:00", barsElapsed := 1 }

def flatParsed : Parsed where
  ledgers := flatLedgers
  state := some flatState
  summary := none
  failures := []

/--
The artifacts after that bar, and once an empty line has been appended to the equity ledger.
-/
def flatFiles (appended : Bool) : SnapshotFile → Option Bytes
  | .config => some (utf8Bytes flatConfig.json)
  | .ledger .snapshots => some (utf8Bytes (jsonl SnapshotRow.jsonl flatLedgers.snapshots))
  | .ledger .positions => some (utf8Bytes (jsonl PositionsRow.jsonl flatLedgers.positions))
  | .ledger .equity =>
    some (utf8Bytes (jsonl EquityRow.jsonl flatLedgers.equity) ++ if appended then [10] else [])
  | .ledger _ => none
  | .state => some (utf8Bytes flatState.json)
  | .summary => none

def flatInputs (appended : Bool) : Inputs :=
  fun file => ((flatFiles appended file).map FileState.content).getD .absent

def flatRun (appended : Bool) : VerifyRun where
  now := juneDay 15 0
  runId := "run"
  staleAfterMs := 3600000
  bootstrap := !appended
  liveConfig := flatInputs appended .config
  first := flatInputs appended
  copied := flatFiles appended
  second := flatInputs appended
  coverage := fun _ => .ok .coverageNotRequired

def flatReaders : Readers where
  config := readAs flatConfig (.corrupt "missing")
  fills := readAs [] (.parsed [])
  trades := readAs [] (.parsed [])
  funding := readAs [] (.parsed [])
  positions := readAs flatLedgers.positions (.parsed [])
  equity := readAs flatLedgers.equity (.parsed [])
  snapshots := readAs flatLedgers.snapshots (.parsed [])
  state := readAs (some flatState) (.parsed none)
  summary := readAs none (.parsed none)

theorem flatRun_inputs (appended : Bool) : (flatRun appended).inputs = flatInputs appended := by
  funext file
  have hpresent : ∀ data : Option Bytes,
      (if (rawDigest ((data.map FileState.content).getD .absent)).present then
          (data.map FileState.content).getD .absent
        else
          .absent)
        = (data.map FileState.content).getD .absent := by
    intro data
    cases data <;> simp [rawDigest]
  exact hpresent (flatFiles appended file)

theorem flat_parse (appended : Bool)
    : parse flatReaders (flatInputs appended) = .ok flatParsed :=
  parse_eq rfl rfl rfl rfl rfl rfl rfl rfl (by decide +kernel) (by decide +kernel) rfl

theorem flat_sound (appended : Bool) : Sound flatReaders (flatRun appended) flatConfig flatParsed where
  live := rfl
  config := by
    rw [flatRun_inputs]
    rfl
  start := by decide
  parsed := by
    rw [flatRun_inputs]
    exact flat_parse appended
  wellFormed := rfl
  committed := by decide +kernel
  reconciled := by decide +kernel
  state := by decide +kernel
  stable := rfl
  coverage := rfl

theorem flatInputs_same {file : SnapshotFile} (h : file ≠ .ledger .equity)
    : flatInputs true file = flatInputs false file := by
  have hfiles : flatFiles true file = flatFiles false file := by
    cases file with
    | ledger file => cases file <;> first | exact absurd rfl h | rfl
    | _ => rfl
  unfold flatInputs
  rw [hfiles]

theorem flat_keeps : Keeps (flatRun false) (flatRun true) where
  ledgers := by
    intro file data hdata
    rw [flatRun_inputs] at hdata ⊢
    by_cases hequity : file = .equity
    . subst hequity
      simp only [flatInputs, flatFiles, Bool.false_eq_true, if_false, List.append_nil,
        Option.map_some, Option.getD_some, FileState.content.injEq] at hdata
      subst hdata
      exact ⟨_, rfl, List.prefix_append _ _⟩
    . rw [flatInputs_same (by simpa using hequity)]
      exact ⟨data, hdata, List.prefix_refl data⟩
  config := by
    rw [flatRun_inputs, flatRun_inputs, flatInputs_same (by decide)]

theorem flat_distinguishes : Distinguishes (flatRun false) (flatRun true) where
  config := by
    intro data data' hdata hdata' _
    rw [← flat_keeps.config, hdata] at hdata'
    exact (FileState.content.inj hdata').symm
  ledgers := by
    intro file data data' hdata hdata' _
    obtain ⟨data'', hdata'', hprefix⟩ := flat_keeps.ledgers file data hdata
    rw [hdata''] at hdata'
    rw [← FileState.content.inj hdata']
    exact (List.prefix_iff_eq_take.mp hprefix).symm

/--
Both the bootstrap and the run after the append are OK.
-/
theorem trustChain_flat
    : TrustChain flatReaders ⟨.absent, none⟩ [flatRun false, flatRun true]
        ∧ okRuns flatReaders ⟨.absent, none⟩ [flatRun false, flatRun true]
          = [flatRun false, flatRun true] := by
  have hfree : CollisionFree [flatRun false, flatRun true] := by
    apply List.pairwise_pair.mpr
    exact flat_distinguishes
  have hfirst := (flat_sound false).bootstrap (d := ⟨.absent, none⟩) rfl rfl
  have hsecond := (flat_sound true).append hfirst.2 flat_keeps (fun _ => by
    rw [flatRun_inputs, flatRun_inputs, flatInputs_same (by decide)])
  refine ⟨trustChain _ _ _ hfree, ?_⟩
  simp [okRuns, hfirst.1, hsecond.1]

end flatBar

end Quantbot
