import Quantbot.Paper.HonestShapes
import Quantbot.Paper.Runner.Lemmas.Rows

/-!
An output directory over its whole life: unhindered invocations one after the other, those whose
gates stop them and those that account for bars.
-/

namespace Quantbot

open Reconcile CrashTrace

variable {bytes : Artifact → String} {cfg : PaperConfig} {range : String → PriceRange}
  {inv : Invocation} {d : Dir} {runs : List (RunInput × EngineResult)}

section newRows

variable {done bars : List BarStep} {snapshots : List SnapshotRow} {book final : Book}
  {M : PriceBook → FundingIndex → BarStep → Prop} {forwardObs : List Obs} {result : EngineResult}

/--
Rows with ids of their own are all fresh.
-/
theorem freshRows_of_nodup {α : Type} {key : α → String} {existing rows : List α}
    (h : ((existing ++ rows).map key).Nodup) : freshRows key existing rows = rows := by
  apply freshRows_eq_self
  intro r hr hmem
  rw [List.map_append, List.nodup_append'] at h
  exact h.2.2 hmem (List.mem_map_of_mem hr)

/--
If no snapshot of a processed observation is on file, each of them gets one.
-/
theorem buildSnapshots_eq {processed seen : List String}
    (hseen : ∀ obs ∈ forwardObs, obs.timestamp ∈ processed → snapshotId obs.timestamp ∉ seen)
    (hnodup : ((forwardObs.filter (fun obs => obs.timestamp ∈ processed)).map
      (fun obs => snapshotId obs.timestamp)).Nodup)
    : buildSnapshots cfg inv processed seen forwardObs
        = (forwardObs.filter (fun obs => obs.timestamp ∈ processed)).map (buildSnapshot cfg inv) := by
  induction forwardObs generalizing seen with
  | nil => rfl
  | cons obs rest ih =>
    rw [List.forall_mem_cons] at hseen
    unfold buildSnapshots
    by_cases hprocessed : obs.timestamp ∈ processed
    . rw [List.filter_cons_of_pos (by simpa using hprocessed)] at hnodup ⊢
      rw [List.map_cons, List.nodup_cons] at hnodup
      rw [if_neg (not_not.mpr hprocessed), if_neg (hseen.1 hprocessed), List.map_cons]
      congr 1
      apply ih
      . intro obs' hobs' hprocessed' hmem
        rw [List.mem_cons] at hmem
        rcases hmem with heq | hmem
        . apply hnodup.1
          rw [← heq]
          apply List.mem_map_of_mem (f := fun obs : Obs => snapshotId obs.timestamp)
          rw [List.mem_filter]
          exact ⟨hobs', by simpa using hprocessed'⟩
        . exact hseen.2 obs' hobs' hprocessed' hmem
      . exact hnodup.2
    . rw [List.filter_cons_of_neg (by simpa using hprocessed)] at hnodup ⊢
      rw [if_pos hprocessed]
      exact ih hseen.2 hnodup

/--
The observations of the log that a run processed are those of its bars.
-/
theorem filter_processed_perm (hobs : ∀ b ∈ bars, b.obs ∈ forwardObs)
    (hnodup : (forwardObs.map Obs.timestamp).Nodup) (hts : (bars.map BarStep.ts).Nodup)
    : (forwardObs.filter (fun obs => obs.timestamp ∈ bars.map BarStep.ts)).Perm
        (bars.map BarStep.obs) := by
  have hbars : (bars.map BarStep.obs).Nodup := by
    apply List.Nodup.of_map Obs.timestamp
    rw [List.map_map]
    exact hts
  rw [List.perm_ext_iff_of_nodup (hnodup.of_map.filter _) hbars]
  intro obs
  rw [List.mem_filter, decide_eq_true_eq, List.mem_map, List.mem_map]
  constructor
  . rintro ⟨hmem, b, hb, hts⟩
    exact ⟨b, hb, List.inj_on_of_nodup_map hnodup (hobs b hb) hmem hts⟩
  . rintro ⟨b, hb, rfl⟩
    exact ⟨hobs b hb, b, hb, rfl⟩

/--
The snapshots on file are those of the bars so far, under their own ids.
-/
structure FrozenAs (steps : List BarStep) (snapshots : List SnapshotRow) : Prop where
  frozen : FrozenBars steps snapshots
  named : ∀ s ∈ snapshots, s.snapshotId = snapshotId s.barTs

/--
What a run has to be told besides the market data for its snapshots to have the shape of one.
-/
structure Observed (inv : Invocation) (bars : List BarStep) : Prop where
  mtime : inv.sourceMtime.isSome
  barIndex : ∀ b ∈ bars, 0 ≤ b.obs.barIndex
  symbols : ∀ b ∈ bars, "" ∉ b.obs.activeSymbols
  stamped : ∀ b ∈ bars, ∃ d : DateTime, b.ts = d.strftime

theorem Observed.snapshot_shape (h : Observed inv bars) {b : BarStep} (hb : b ∈ bars)
    : (buildSnapshot cfg inv b.obs).checks.badFields = [] := by
  have hdigest : consumedRowDigest b.obs ≠ "" := by
    intro hempty
    have hlength := congrArg (fun s : String => s.toList.length) hempty
    simp [consumedRowDigest] at hlength
  have hid : snapshotId b.obs.timestamp ≠ "" := shortDigest_ne_empty _
  have hindex := h.barIndex b hb
  have hsymbols := h.symbols b hb
  have hts : parseableTimestamp b.obs.timestamp := parseable_of_stamped (h.stamped b hb)
  obtain ⟨mtime, hmtime⟩ := Option.isSome_iff_exists.mp h.mtime
  simp [RowChecks.badFields, SnapshotRow.checks, buildSnapshot, hdigest, hid, hindex, hsymbols,
    hts, hmtime, nowUtcStr_parseable]

theorem FrozenAs.extend (h : FrozenAs done snapshots) (hchain : Chain cfg M book (done ++ bars) final)
    (hids : ((done ++ bars).map (fun b => snapshotId b.ts)).Nodup) (hobserved : Observed inv bars)
    (hobs : ∀ b ∈ bars, b.obs ∈ forwardObs) (hnodup : (forwardObs.map Obs.timestamp).Nodup)
    : FrozenAs (done ++ bars) (snapshots ++ freshRows SnapshotRow.snapshotId snapshots
        (buildSnapshots cfg inv (bars.map BarStep.ts) (snapshots.map SnapshotRow.snapshotId)
          forwardObs)) := by
  have hts : (bars.map BarStep.ts).Nodup := by
    have hall := hchain.nodup_ts
    rw [List.map_append] at hall
    exact hall.of_append_right
  have hperm := filter_processed_perm hobs hnodup hts
  rw [List.map_append, List.nodup_append'] at hids
  -- no id of a new bar is one of the ids on file, which are those of the bars so far
  have holdIds : (snapshots.map SnapshotRow.snapshotId).Perm (done.map (fun b => snapshotId b.ts)) := by
    have hmap := h.frozen.barTs.map snapshotId
    rw [List.map_map, List.map_map] at hmap
    rw [List.map_congr_left h.named]
    exact hmap
  have hfresh : ∀ b ∈ bars, snapshotId b.ts ∉ snapshots.map SnapshotRow.snapshotId := by
    intro b hb hmem
    exact hids.2.2 (holdIds.mem_iff.mp hmem)
      (List.mem_map_of_mem (f := fun b : BarStep => snapshotId b.ts) hb)
  have hnewIds : ((bars.map BarStep.obs).map (fun obs => snapshotId obs.timestamp)).Nodup := by
    rw [List.map_map]
    exact hids.2.1
  have hbuilt : buildSnapshots cfg inv (bars.map BarStep.ts)
        (snapshots.map SnapshotRow.snapshotId) forwardObs
      = (forwardObs.filter (fun obs => obs.timestamp ∈ bars.map BarStep.ts)).map
          (buildSnapshot cfg inv) := by
    apply buildSnapshots_eq
    . intro obs _ hprocessed
      obtain ⟨b, hb, heq⟩ := List.mem_map.mp hprocessed
      rw [← heq]
      exact hfresh b hb
    . exact (hperm.map _).nodup_iff.mpr hnewIds
  have hrows := hperm.map (buildSnapshot cfg inv)
  rw [← hbuilt] at hrows
  have hself : freshRows SnapshotRow.snapshotId snapshots
        (buildSnapshots cfg inv (bars.map BarStep.ts) (snapshots.map SnapshotRow.snapshotId)
          forwardObs)
      = buildSnapshots cfg inv (bars.map BarStep.ts) (snapshots.map SnapshotRow.snapshotId)
          forwardObs := by
    apply freshRows_eq_self
    intro s hs
    rw [hrows.mem_iff, List.map_map, List.mem_map] at hs
    obtain ⟨b, hb, rfl⟩ := hs
    exact hfresh b hb
  rw [hself]
  have hbars : ∀ s ∈ buildSnapshots cfg inv (bars.map BarStep.ts)
      (snapshots.map SnapshotRow.snapshotId) forwardObs,
      ∃ b ∈ bars, s = buildSnapshot cfg inv b.obs := by
    intro s hs
    rw [hrows.mem_iff, List.map_map, List.mem_map] at hs
    obtain ⟨b, hb, rfl⟩ := hs
    exact ⟨b, hb, rfl⟩
  constructor
  case frozen =>
    constructor
    case bars =>
      rw [List.map_append, List.map_append]
      apply h.frozen.bars.append
      have hcommits : bars.map (fun b => (b.ts, b.commitId))
          = ((bars.map BarStep.obs).map (buildSnapshot cfg inv)).map
              (fun s => (s.barTs, s.barCommitId)) := by
        rw [List.map_map, List.map_map]
        apply List.map_congr_left
        intro b hb
        obtain ⟨prices, index, windowStart, -, hspec⟩ :=
          hchain.forall_spec b (List.mem_append_right _ hb)
        rw [hspec.commit]
        rfl
      rw [hcommits]
      exact hrows.map _
    case ids =>
      rw [List.map_append, List.nodup_append']
      refine ⟨h.frozen.ids, ?_, ?_⟩
      . rw [(hrows.map SnapshotRow.snapshotId).nodup_iff, List.map_map]
        exact hnewIds
      . intro id hold hnew
        obtain ⟨s, hs, rfl⟩ := List.mem_map.mp hnew
        obtain ⟨b, hb, rfl⟩ := hbars s hs
        exact hfresh b hb hold
    case shape =>
      intro s hs
      rw [List.mem_append] at hs
      rcases hs with hs | hs
      . exact h.frozen.shape s hs
      . obtain ⟨b, hb, rfl⟩ := hbars s hs
        exact hobserved.snapshot_shape hb
  case named =>
    intro s hs
    rw [List.mem_append] at hs
    rcases hs with hs | hs
    . exact h.named s hs
    . obtain ⟨b, -, rfl⟩ := hbars s hs
      rfl

variable (inv forwardObs) in
/--
The rows a run adds are all the rows of its bars.
-/
theorem append_newRows {l : Ledgers} (hl : l = stepsLedgers cfg done l.snapshots)
    (hchain : Chain cfg M book (done ++ result.bars) final)
    (hstamped : ∀ b ∈ done ++ result.bars, ∃ d : DateTime, b.ts = d.strftime)
    (hids : (((done ++ result.bars).flatMap (fun b => b.fillRows cfg)).map FillRow.fillId).Nodup)
    : l.append (newRows cfg inv l forwardObs result)
        = stepsLedgers cfg (done ++ result.bars)
            (l.snapshots ++ freshRows SnapshotRow.snapshotId l.snapshots
              (buildSnapshots cfg inv (result.bars.map BarStep.ts)
                (l.snapshots.map SnapshotRow.snapshotId) forwardObs)) := by
  have htrades := hids.sublist (tradeIds_sublist cfg (done ++ result.bars))
  have hfunding := hchain.fundingIds_nodup hstamped
  have hts := hchain.nodup_ts
  rw [List.flatMap_append] at hids htrades hfunding
  have hprocessed : result.equity.map EquityRow.barTs = result.bars.map BarStep.ts := by
    rw [EngineResult.equity, List.map_map]
    rfl
  have hfillRows : freshRows FillRow.fillId l.fills (result.fills cfg) = result.fills cfg := by
    rw [hl]
    exact freshRows_of_nodup hids
  have htradeRows : freshRows TradeRow.tradeId l.trades result.trades = result.trades := by
    rw [hl]
    exact freshRows_of_nodup htrades
  have hfundingRows : freshRows FundingRow.fundingId l.funding result.funding = result.funding := by
    rw [hl]
    exact freshRows_of_nodup hfunding
  have hpositionsRows : freshRows PositionsRow.barTs l.positions result.positions
      = result.positions := by
    rw [hl]
    apply freshRows_of_nodup
    rw [stepsLedgers, EngineResult.positions, ← List.map_append, List.map_map]
    exact hts
  have hequityRows : freshRows EquityRow.barTs l.equity result.equity = result.equity := by
    rw [hl]
    apply freshRows_of_nodup
    rw [stepsLedgers, EngineResult.equity, ← List.map_append, List.map_map]
    exact hts
  unfold Ledgers.append newRows
  rw [hfillRows, htradeRows, hfundingRows, hpositionsRows, hequityRows, hprocessed]
  rw [hl]
  simp only [stepsLedgers, EngineResult.fills, EngineResult.trades, EngineResult.funding,
    EngineResult.positions, EngineResult.equity, List.flatMap_append, List.map_append]

end newRows

section gated

/--
The reasons that come from outside are not empty.
-/
structure Worded (inv : Invocation) : Prop where
  heartbeat : ∀ p ∈ inv.ages.heartbeat, p.1 ≠ "" ∧ p.2 ≠ ""
  coverage : ∀ reason ∈ inv.coverageGap, reason ≠ ""

theorem checkRows_error {ages : Ages} {i : ℕ} {seen : List String} {rows : List Obs}
    {failure : String × String} (h : checkRows cfg ages i seen rows = .error failure)
    : failure.1 ≠ "" ∧ failure.2 ≠ "" := by
  have hrow (i : ℕ) (text : String) : rowReason i text ≠ "" := by
    apply append_left_ne_empty
    apply append_left_ne_empty
    apply append_left_ne_empty
    decide
  induction rows generalizing i seen with
  | nil => cases h
  | cons obs rest ih =>
    unfold checkRows at h
    split at h
    . cases h
      refine ⟨?_, hrow _ _⟩
      show "MALFORMED_BAR_TIMESTAMP" ≠ ""
      decide
    . split at h
      . cases h
        refine ⟨?_, hrow _ _⟩
        show "OFF_GRID_BAR" ≠ ""
        decide
      . split at h
        . cases h
          refine ⟨?_, hrow _ _⟩
          show "FUTURE_OBSERVATION" ≠ ""
          decide
        . split at h
          . cases h
            constructor
            . show "DUPLICATE_OBSERVATION_TS" ≠ ""
              decide
            . apply append_left_ne_empty
              apply append_left_ne_empty
              decide
          . cases hrest : checkRows cfg ages (i + 1) (obs.timestamp :: seen) rest with
            | ok dated =>
              rw [hrest] at h
              cases h
            | error failure' =>
              rw [hrest] at h
              cases h
              exact ih hrest

theorem checkFreshness_worded (hworded : Worded inv) {start : DateTime}
    : (∀ code reason, checkFreshness cfg inv.ages start inv.obsLog = .abort code reason →
        code ≠ "" ∧ reason ≠ "")
      ∧ ∀ reason, checkFreshness cfg inv.ages start inv.obsLog = .noEligibleBars reason →
        reason ≠ "" := by
  have hlog (exc : String)
      : "observation_log.json is not valid JSON: " ++ exc ≠ "" := by
    apply append_left_ne_empty
    decide
  cases hcase : inv.obsLog with
  | missing =>
    simp only [checkFreshness, FreshnessResult.abort.injEq, reduceCtorEq, false_imp_iff,
      implies_true, and_true]
    rintro code reason ⟨rfl, rfl⟩
    exact ⟨by decide, by decide⟩
  | malformed exc =>
    simp only [checkFreshness, FreshnessResult.abort.injEq, reduceCtorEq, false_imp_iff,
      implies_true, and_true]
    rintro code reason ⟨rfl, rfl⟩
    exact ⟨by decide, hlog exc⟩
  | noPerBarObs =>
    simp only [checkFreshness, FreshnessResult.abort.injEq, reduceCtorEq, false_imp_iff,
      implies_true, and_true]
    rintro code reason ⟨rfl, rfl⟩
    exact ⟨by decide, by decide⟩
  | perBar rows =>
    unfold checkFreshness
    dsimp only
    split
    . simp only [FreshnessResult.abort.injEq, reduceCtorEq, false_imp_iff, implies_true, and_true]
      rintro code reason ⟨rfl, rfl⟩
      exact ⟨by decide, by decide⟩
    . split
      next code' reason' hrows =>
        simp only [FreshnessResult.abort.injEq, reduceCtorEq, false_imp_iff, implies_true,
          and_true]
        rintro code reason ⟨rfl, rfl⟩
        exact checkRows_error hrows
      . split
        . simp only [FreshnessResult.abort.injEq, reduceCtorEq, false_imp_iff, implies_true,
            and_true]
          rintro code reason ⟨rfl, rfl⟩
          exact ⟨by decide, by decide⟩
        . split
          next code' reason' hheartbeat =>
            simp only [FreshnessResult.abort.injEq, reduceCtorEq, false_imp_iff, implies_true,
              and_true]
            rintro code reason ⟨rfl, rfl⟩
            exact hworded.heartbeat (code', reason') (by rw [hheartbeat]; rfl)
          . split
            . simp only [FreshnessResult.noEligibleBars.injEq, reduceCtorEq, false_imp_iff,
                implies_true, true_and]
              rintro reason rfl
              apply append_left_ne_empty
              decide
            . simp

theorem checkDivergence_worded {existing : List SnapshotRow} {forwardObs : List Obs}
    {reason : String} (h : checkDivergence existing forwardObs = some reason) : reason ≠ "" := by
  unfold checkDivergence at h
  obtain ⟨obs, -, hobs⟩ := List.exists_of_findSome?_eq_some h
  split at hobs
  . cases hobs
  . split at hobs
    . cases hobs
    . cases hobs
      simp only [ne_eq, String.append_eq_empty_iff, not_and]
      intro hempty
      simp at hempty

/--
The operations past the health gate of a run that a gate stops: none, or a terminal publication
that says why.
-/
inductive Stopped (bytes : Artifact → String) (cfg : PaperConfig) (inv : Invocation) (d : Dir)
    : List FileOp → Prop where
  | raised : Stopped bytes cfg inv d []
  | aborted (code reason : String) (code_ne : code ≠ "") (reason_ne : reason ≠ "")
      : Stopped bytes cfg inv d (abort bytes cfg inv d code reason)
  | noEligible (reason : String) (reason_ne : reason ≠ "")
      : Stopped bytes cfg inv d (noEligibleBars bytes cfg inv d reason)

theorem account_stopped (hworded : Worded inv)
    (hgated : ∀ perBarObs forwardObs result, ¬Accounted cfg inv d perBarObs forwardObs result)
    : Stopped bytes cfg inv d (account bytes cfg inv d) := by
  unfold account
  split
  . exact Stopped.raised
  next start hstart =>
    obtain ⟨habort, hnoEligible⟩ := @checkFreshness_worded cfg inv hworded start
    split
    next code reason hfresh =>
      obtain ⟨hcode, hreason⟩ := habort code reason hfresh
      exact Stopped.aborted code reason hcode hreason
    next reason hfresh => exact Stopped.noEligible reason (hnoEligible reason hfresh)
    next hfresh =>
      split
      next perBarObs hlog =>
        unfold accountRows
        split
        . exact Stopped.raised
        next forwardObs heligible =>
          split
          next reason hdivergence =>
            exact Stopped.aborted _ reason (by decide) (checkDivergence_worded hdivergence)
          next hdivergence =>
            split
            next reason hcoverage =>
              exact Stopped.aborted _ reason (by decide)
                (hworded.coverage reason (by rw [hcoverage]; rfl))
            next hcoverage =>
              split
              . exact Stopped.raised
              next result hengine =>
                exact absurd ⟨hlog, ⟨start, hstart, hfresh, heligible⟩, hdivergence, hcoverage,
                  hengine⟩ (hgated perBarObs forwardObs result)
      . exact Stopped.raised

end gated

section lane

/--
What a run that accounts for bars is given.
-/
structure OrderlyRun (cfg : PaperConfig) (range : String → PriceRange) (inv : Invocation)
    (result : EngineResult) : Prop where
  mtime : inv.sourceMtime.isSome
  barIndex : ∀ b ∈ result.bars, 0 ≤ b.obs.barIndex
  bars : ∀ b ∈ result.bars, Orderly cfg range inv.prices (buildFundingIndex inv.fundingDf) b

def Invocation.input (inv : Invocation) (perBarObs : List Obs) : RunInput where
  perBarObs := perBarObs
  prices := inv.prices
  fundingDf := inv.fundingDf

/--
The life of an output directory: unhindered invocations from an empty one, with the engine runs of
those that passed their gates, and whether the last one did.
-/
inductive LaneRuns (bytes : Artifact → String) (cfg : PaperConfig) (range : String → PriceRange)
    : Dir → List (RunInput × EngineResult) → Bool → Prop where
  | new : LaneRuns bytes cfg range Dir.empty [] false
  | stopped {d : Dir} {runs : List (RunInput × EngineResult)} {accounted : Bool}
      {inv : Invocation} (before : LaneRuns bytes cfg range d runs accounted)
      (unhindered : inv.Unhindered) (worded : Worded inv)
      (gated : ∀ perBarObs forwardObs result, ¬Accounted cfg inv d perBarObs forwardObs result)
      : LaneRuns bytes cfg range (d.run (runOnce bytes cfg inv d)) runs false
  | accounted {d : Dir} {runs : List (RunInput × EngineResult)} {accounted : Bool}
      {inv : Invocation} {perBarObs forwardObs : List Obs} {result : EngineResult}
      (before : LaneRuns bytes cfg range d runs accounted) (unhindered : inv.Unhindered)
      (passed : Accounted cfg inv d perBarObs forwardObs result)
      (orderly : OrderlyRun cfg range inv result)
      : LaneRuns bytes cfg range (d.run (runOnce bytes cfg inv d))
          (runs ++ [(inv.input perBarObs, result)]) true

/--
No two truncated digests collide, and no ledger is too long.
-/
structure Separate (cfg : PaperConfig) (runs : List (RunInput × EngineResult)) : Prop where
  fillIds : ((runsLedgers cfg runs []).fills.map FillRow.fillId).Nodup
  snapshotIds : ((runsBars runs).map (fun b => snapshotId b.ts)).Nodup
  short : ShortLedgers (runsLedgers cfg runs [])

def Summary.isCorrupt (s : Summary) : Bool :=
  match s.status with
  | .corruptLedger .. => true
  | _ => false

/--
What the invocations keep.
-/
structure LaneInv (bytes : Artifact → String) (cfg : PaperConfig) (range : String → PriceRange)
    (d : Dir) (runs : List (RunInput × EngineResult)) : Prop where
  ledgers : d.ledgers = runsLedgers cfg runs d.ledgers.snapshots
  frozen : FrozenAs (runsBars runs) d.ledgers.snapshots
  engine : EngineRuns cfg (newState cfg.initialEquityUsd) runs
    (d.state.getD (newState cfg.initialEquityUsd))
  market : OrderlyRuns cfg range runs
  unsaved : d.state = none → runs = []
  staged : d.staged = ∅
  shape : ∀ s ∈ d.summary, validateSummaryShape s = none ∧ s.isCorrupt = false
  committed : ∀ s ∈ d.summary, s.isOk → d.state ≠ none ∧ checkProvenanceCommitted bytes d s = []

theorem EngineRuns.snoc {state mid : EngineState} {input : RunInput} {result : EngineResult}
    (h : EngineRuns cfg state runs mid)
    (hrun : runEngine cfg input.perBarObs input.prices input.fundingDf mid = .ok result)
    : EngineRuns cfg state (runs ++ [(input, result)]) result.state := by
  induction h with
  | nil state => exact EngineRuns.cons hrun (EngineRuns.nil _)
  | cons run rest ih => exact EngineRuns.cons run (ih hrun)

theorem runsBars_snoc (runs : List (RunInput × EngineResult)) (input : RunInput)
    (result : EngineResult)
    : runsBars (runs ++ [(input, result)]) = runsBars runs ++ result.bars := by
  simp [runsBars]

theorem Separate.prefix {input : RunInput} {result : EngineResult}
    (h : Separate cfg (runs ++ [(input, result)])) : Separate cfg runs := by
  have hids := h.fillIds
  have hsnapshots := h.snapshotIds
  have hshort := h.short
  rw [runsLedgers_eq, runsBars_snoc] at hids hshort
  rw [runsBars_snoc, List.map_append] at hsnapshots
  simp only [stepsLedgers, List.flatMap_append, List.map_append] at hids
  obtain ⟨hfills, htrades, hfunding⟩ := hshort
  simp only [stepsLedgers, List.flatMap_append, List.length_append] at hfills htrades hfunding
  constructor
  case fillIds =>
    rw [runsLedgers_eq]
    exact hids.of_append_left
  case snapshotIds => exact hsnapshots.of_append_left
  case short =>
    rw [runsLedgers_eq]
    refine ⟨?_, ?_, ?_⟩
    . exact lt_of_le_of_lt (Nat.le_add_right _ _) hfills
    . exact lt_of_le_of_lt (Nat.le_add_right _ _) htrades
    . exact lt_of_le_of_lt (Nat.le_add_right _ _) hfunding

/--
What the ledgers of such runs and the state they leave pass.
-/
theorem EngineRuns.settled {final : EngineState} {snapshots : List SnapshotRow}
    (h : EngineRuns cfg (newState cfg.initialEquityUsd) runs final) (htame : Tame cfg range)
    (hmarket : OrderlyRuns cfg range runs) (hseparate : Separate cfg runs)
    (hfrozen : FrozenAs (runsBars runs) snapshots)
    : Reconciled cfg (runsLedgers cfg runs snapshots)
        ∧ stateFailures (some final) (runsLedgers cfg runs snapshots) cfg.initialEquityUsd true = []
        ∧ readStateObj (some final) = none ∧ "" ∉ final.openPositions.keys
        ∧ 0 ≤ final.barsElapsed := by
  have hshort : ShortLedgers (runsLedgers cfg runs snapshots) :=
    ⟨hseparate.short.fills, hseparate.short.trades, hseparate.short.funding⟩
  have hchain := h.chain hmarket
  have helapsed : 0 ≤ final.barsElapsed := by
    rw [h.barsElapsed]
    exact add_nonneg (le_refl 0) (Int.natCast_nonneg _)
  refine ⟨h.reconciled htame hmarket hfrozen.frozen hseparate.fillIds hshort, ?_, ?_, ?_, helapsed⟩
  . rw [runsLedgers_eq] at hshort ⊢
    rw [stateFailures_strict_eq_nil]
    exact h.stateTied hshort
  . rw [h.stored cfg.initialEquityUsd rfl]
    exact hchain.state_shape rfl rfl htame helapsed
  . exact hchain.symbols_ne rfl htame

theorem stateFailures_of_strict {state : EngineState} {l : Ledgers} {initialEquity : ℚ}
    (h : stateFailures (some state) l initialEquity true = []) (committed : Bool)
    : stateFailures (some state) l initialEquity committed = [] := by
  cases committed with
  | true => exact h
  | false =>
    unfold stateFailures at h ⊢
    rw [List.append_eq_nil_iff] at h ⊢
    exact ⟨h.1, rfl⟩

/--
The health gate of the next invocation finds nothing.
-/
theorem LaneInv.healthy (h : LaneInv bytes cfg range d runs) (hcfg : cfg.Contract)
    (htame : Tame cfg range) (hseparate : Separate cfg runs) (hun : inv.Unhindered)
    : checkExistingLedgers bytes cfg (d.run (preflight cfg inv)) = [] := by
  obtain ⟨hreconciled, hstrict, hstate, -, -⟩ :=
    h.engine.settled htame h.market hseparate h.frozen
  rw [← h.ledgers] at hreconciled hstrict
  have hmarker := running_shape hcfg inv
  have hprior : ∀ s ∈ priorSummaries (d.run (preflight cfg inv)),
      s = runningMarker cfg inv ∨ s ∈ d.summary := by
    intro s hs
    rw [run_preflight hun, h.staged] at hs
    unfold priorSummaries at hs
    dsimp only at hs
    split at hs
    . rw [Option.mem_toList] at hs
      cases hs
      exact .inl rfl
    . right
      obtain ⟨⟨name, s'⟩, hmem, rfl⟩ := List.mem_map.mp hs
      rw [mem_toList_iff] at hmem
      cases hsummary : d.summary with
      | none =>
        rw [hsummary, Option.elim_none, Std.ExtTreeMap.getElem?_empty] at hmem
        cases hmem
      | some s₀ =>
        rw [hsummary, Option.elim_some, Std.ExtTreeMap.getElem?_insert] at hmem
        split at hmem
        . rw [Option.mem_some_iff]
          exact Option.some_inj.mp hmem
        . rw [Std.ExtTreeMap.getElem?_empty] at hmem
          cases hmem
  rw [checkExistingLedgers_eq_nil]
  refine ⟨?_, ?_, ?_, ?_, ?_⟩
  . intro s hs
    rcases hprior s hs with rfl | hs
    . exact hmarker
    . exact (h.shape s hs).1
  . rw [run_preflight hun]
    cases hd : d.state with
    | none => rfl
    | some state =>
      rw [hd] at hstate
      exact hstate
  . rw [run_preflight hun]
    exact (reconcile_of_not_ok rfl hmarker).mpr hreconciled
  . rw [run_preflight hun]
    cases hd : d.state with
    | none =>
      have hequity : d.ledgers.equity = [] := by
        rw [h.ledgers, h.unsaved hd]
        rfl
      simp [stateFailures, hequity]
    | some state =>
      rw [hd] at hstrict
      exact stateFailures_of_strict hstrict _
  . intro s hs
    have hmem : s ∈ (priorSummaries (d.run (preflight cfg inv))).filter Summary.isOk :=
      List.mem_of_getLast? hs
    rw [List.mem_filter] at hmem
    rcases hprior s hmem.1 with rfl | hold
    . cases hmem.2
    . have hcommitted := (h.committed s hold hmem.2).2
      rw [run_preflight hun]
      exact hcommitted

theorem LaneInv.new : LaneInv bytes cfg range Dir.empty [] where
  ledgers := rfl
  frozen := ⟨⟨List.Perm.refl _, List.nodup_nil, by simp [Dir.empty]⟩, by simp [Dir.empty]⟩
  engine := EngineRuns.nil _
  market := by simp [OrderlyRuns]
  unsaved := by simp
  staged := rfl
  shape := by simp [Dir.empty]
  committed := by simp [Dir.empty]

/--
A gate stops the run: its summary says so, and nothing else that counts has changed.
-/
theorem LaneInv.stopped (h : LaneInv bytes cfg range d runs) (hcfg : cfg.Contract)
    (htame : Tame cfg range) (hseparate : Separate cfg runs) (hun : inv.Unhindered)
    (hworded : Worded inv)
    (hgated : ∀ perBarObs forwardObs result, ¬Accounted cfg inv d perBarObs forwardObs result)
    : LaneInv bytes cfg range (d.run (runOnce bytes cfg inv d)) runs := by
  have hopened : ∀ perBarObs forwardObs result,
      ¬Accounted cfg inv (d.run (opening cfg inv d)) perBarObs forwardObs result := by
    intro perBarObs forwardObs result haccounted
    rw [run_opening hun] at haccounted
    exact hgated perBarObs forwardObs result
      ⟨haccounted.log, haccounted.start, haccounted.divergence, haccounted.coverage,
        haccounted.engine⟩
  have hstopped : Stopped bytes cfg inv (d.run (opening cfg inv d))
      (account bytes cfg inv (d.run (opening cfg inv d))) :=
    account_stopped hworded hopened
  rw [runOnce_eq hun (h.healthy hcfg htame hseparate hun), Dir.run_append]
  have hkept {d' : Dir} {s : Summary} (hledgers : d'.ledgers = d.ledgers)
      (hstate : d'.state = d.state) (hstaged : d'.staged = ∅) (hsummary : d'.summary = some s)
      (hshape : validateSummaryShape s = none) (hcorrupt : s.isCorrupt = false)
      (hok : s.isOk = false) : LaneInv bytes cfg range d' runs := by
    constructor
    case ledgers =>
      rw [hledgers]
      exact h.ledgers
    case frozen =>
      rw [hledgers]
      exact h.frozen
    case engine =>
      rw [hstate]
      exact h.engine
    case market => exact h.market
    case unsaved =>
      rw [hstate]
      exact h.unsaved
    case staged => exact hstaged
    case shape =>
      intro s' hs'
      rw [hsummary] at hs'
      cases hs'
      exact ⟨hshape, hcorrupt⟩
    case committed =>
      intro s' hs' hok'
      rw [hsummary] at hs'
      cases hs'
      rw [hok] at hok'
      cases hok'
  revert hstopped
  generalize account bytes cfg inv (d.run (opening cfg inv d)) = ops
  intro hstopped
  cases hstopped with
  | raised =>
    rw [run_opening hun]
    exact hkept rfl rfl rfl rfl (running_shape hcfg inv) rfl rfl
  | aborted code reason code_ne reason_ne =>
    rw [run_opening hun]
    exact hkept rfl rfl rfl rfl (aborted_shape hcfg code_ne reason_ne inv.publishedAt) rfl rfl
  | noEligible reason reason_ne =>
    rw [run_opening hun]
    exact hkept rfl rfl rfl rfl (noEligible_shape hcfg reason_ne inv.publishedAt) rfl rfl

section accounted

variable {perBarObs forwardObs : List Obs} {result : EngineResult}

/--
The ledgers after the appends of an accounting run.
-/
def laneLedgers (cfg : PaperConfig) (inv : Invocation) (d : Dir) (forwardObs : List Obs)
    (result : EngineResult) : Ledgers :=
  d.ledgers.append (newRows cfg inv d.ledgers forwardObs result)

theorem LaneInv.append (h : LaneInv bytes cfg range d runs) (htame : Tame cfg range)
    (hseparate : Separate cfg (runs ++ [(inv.input perBarObs, result)]))
    (hpassed : Accounted cfg inv d perBarObs forwardObs result)
    (horderly : OrderlyRun cfg range inv result)
    : laneLedgers cfg inv d forwardObs result
          = runsLedgers cfg (runs ++ [(inv.input perBarObs, result)])
              (laneLedgers cfg inv d forwardObs result).snapshots
        ∧ FrozenAs (runsBars (runs ++ [(inv.input perBarObs, result)]))
            (laneLedgers cfg inv d forwardObs result).snapshots
        ∧ EngineRuns cfg (newState cfg.initialEquityUsd) (runs ++ [(inv.input perBarObs, result)])
            result.state
        ∧ OrderlyRuns cfg range (runs ++ [(inv.input perBarObs, result)]) := by
  have hengine : EngineRuns cfg (newState cfg.initialEquityUsd)
      (runs ++ [(inv.input perBarObs, result)]) result.state :=
    h.engine.snoc hpassed.engine
  have hmarket : OrderlyRuns cfg range (runs ++ [(inv.input perBarObs, result)]) := by
    intro p hp
    rw [List.mem_append, List.mem_singleton] at hp
    rcases hp with hp | rfl
    . exact h.market p hp
    . exact horderly.bars
  have hchain := hengine.chain hmarket
  have hstamped : ∀ b ∈ runsBars (runs ++ [(inv.input perBarObs, result)]),
      ∃ d : DateTime, b.ts = d.strftime := by
    intro b hb
    obtain ⟨prices, index, windowStart, market, -⟩ := hchain.forall_spec b hb
    exact market.stamped
  obtain ⟨start, hstart, hfresh, heligible⟩ := hpassed.start
  have hobs := runEngine_obs_mem hpassed.engine hstart heligible
  have hnodup : (forwardObs.map Obs.timestamp).Nodup := by
    rw [hpassed.log] at hfresh
    obtain ⟨rows, hrows, hfreshRows⟩ := checkFreshness_fresh hfresh
    cases hrows
    exact ((eligibleObs_sublist heligible).map Obs.timestamp).nodup hfreshRows.nodup
  have hobserved : Observed inv result.bars :=
    ⟨horderly.mtime, horderly.barIndex, fun b hb => (horderly.bars b hb).symbols,
      fun b hb => (horderly.bars b hb).stamped⟩
  have hids := hseparate.fillIds
  have hsnapshotIds := hseparate.snapshotIds
  have hl := h.ledgers
  rw [runsLedgers_eq] at hids hl
  rw [runsBars_snoc] at hchain hstamped hsnapshotIds hids
  have happended := append_newRows inv forwardObs hl hchain hstamped hids
  have hfrozen := h.frozen.extend hchain hsnapshotIds hobserved hobs hnodup
  rw [← laneLedgers] at happended
  have hsnapshots := congrArg Ledgers.snapshots happended
  rw [runsLedgers_eq, runsBars_snoc, hsnapshots]
  exact ⟨happended, hfrozen, hengine, hmarket⟩

/--
The run accounts for its bars and publishes OK.
-/
theorem LaneInv.completes (h : LaneInv bytes cfg range d runs) (hcfg : cfg.Contract)
    (htame : Tame cfg range) (hseparate : Separate cfg (runs ++ [(inv.input perBarObs, result)]))
    (hun : inv.Unhindered) (hpassed : Accounted cfg inv d perBarObs forwardObs result)
    (horderly : OrderlyRun cfg range inv result)
    : Completes bytes cfg inv d perBarObs forwardObs result := by
  obtain ⟨hledgers, hfrozen, hengine, hmarket⟩ := h.append htame hseparate hpassed horderly
  obtain ⟨hreconciled, hstrict, -, hsymbols, helapsed⟩ :=
    hengine.settled htame hmarket hseparate hfrozen
  rw [← hledgers] at hreconciled hstrict
  constructor
  case healthy => exact h.healthy hcfg htame hseparate.prefix hun
  case accounted => exact hpassed
  case publishable =>
    constructor
    case reconciles => exact (reconcile_of_not_ok rfl (running_shape hcfg inv)).mpr hreconciled
    case strict => exact hstrict
    case shape => exact okSummary_shape hcfg _ _ hsymbols helapsed _

theorem LaneInv.accounted (h : LaneInv bytes cfg range d runs) (hcfg : cfg.Contract)
    (htame : Tame cfg range) (hseparate : Separate cfg (runs ++ [(inv.input perBarObs, result)]))
    (hun : inv.Unhindered) (hpassed : Accounted cfg inv d perBarObs forwardObs result)
    (horderly : OrderlyRun cfg range inv result)
    : LaneInv bytes cfg range (d.run (runOnce bytes cfg inv d))
          (runs ++ [(inv.input perBarObs, result)])
        ∧ ∃ s ∈ (d.run (runOnce bytes cfg inv d)).summary, s.isOk := by
  obtain ⟨hledgers, hfrozen, hengine, hmarket⟩ := h.append htame hseparate hpassed horderly
  have hcompletes := h.completes hcfg htame hseparate hun hpassed horderly
  have hshape := hcompletes.publishable.shape
  rw [hcompletes.runOnce_eq hun, Dir.run_append, Dir.run_append, run_opening hun, run_appendRows]
  refine ⟨?_, _, rfl, rfl⟩
  constructor
  case ledgers => exact hledgers
  case frozen => exact hfrozen
  case engine => exact hengine
  case market => exact hmarket
  case unsaved =>
    intro hnone
    cases hnone
  case staged => rfl
  case shape =>
    rintro s ⟨⟩
    exact ⟨hshape, rfl⟩
  case committed =>
    rintro s ⟨⟩ -
    refine ⟨by simp [okOps, Dir.run, Dir.apply], ?_⟩
    obtain ⟨hsummary, hstate, -⟩ := @lookup_okProvenance bytes cfg
      { d with
        ledgers := d.ledgers.append (newRows cfg inv d.ledgers forwardObs result)
        summary := some (runningMarker cfg inv)
        staged := ∅ } inv result
    simp only [checkProvenanceCommitted, okOps, Dir.run, run_cons, run_nil, Dir.apply]
    rw [hsummary, hstate]
    simp [okProvenance, buildProvenance, optionDigest]

end accounted

theorem LaneRuns.laneInv {accounted : Bool} (h : LaneRuns bytes cfg range d runs accounted)
    (hcfg : cfg.Contract) (htame : Tame cfg range) (hseparate : Separate cfg runs)
    : LaneInv bytes cfg range d runs ∧ (accounted = true → ∃ s ∈ d.summary, s.isOk) := by
  induction h with
  | new => exact ⟨LaneInv.new, by simp⟩
  | stopped before unhindered worded gated ih =>
    have hinv := (ih hseparate).1.stopped hcfg htame hseparate unhindered worded gated
    exact ⟨hinv, by simp⟩
  | accounted before unhindered passed orderly ih =>
    obtain ⟨hinv, hok⟩ :=
      (ih hseparate.prefix).1.accounted hcfg htame hseparate unhindered passed orderly
    exact ⟨hinv, fun _ => hok⟩

end lane

section everyBar

/--
An invocation that finds the three bars of `everyBarInput`.
-/
def everyBarRun : Invocation :=
  { firstRun with
    obsLog := .perBar everyBarInput.perBarObs
    prices := fundedBook
    fundingDf := everyBarInput.fundingDf }

end everyBar

end Quantbot
