import Quantbot.Paper.Reconcile.Lemmas
import Quantbot.Paper.Runner.Lemmas.Files

/-!
The gates of a run and its publication.
-/

namespace Quantbot

open CrashTrace Reconcile

variable {bytes : Artifact → String} {cfg : PaperConfig} {d : Dir} {inv : Invocation}

section gates

variable {state : EngineState} {summary : Summary} {receipt : Receipt}

theorem finalIntegrityGate_eq_nil (h : finalIntegrityGate bytes cfg d state summary receipt = [])
    : reconcile cfg d.ledgers d.summary = []
        ∧ stateFailures (some state) d.ledgers cfg.initialEquityUsd true = []
        ∧ checkOkCommitSemantics bytes d summary state receipt = [] := by
  unfold finalIntegrityGate at h
  dsimp only at h
  split at h
  . cases h
  . simp only [List.append_eq_nil_iff] at h
    exact ⟨h.1.1, h.1.2, h.2⟩

theorem checkOkCommitSemantics_eq_nil
    (h : checkOkCommitSemantics bytes d summary state receipt = [])
    : validateSummaryShape summary = none ∧ ∃ prov, d.provenance = some prov
        ∧ prov.outputDigests.lookup "paper_pnl_summary.json"
          = some (sha256Hex (bytes (.summary summary)))
        ∧ prov.outputDigests.lookup "paper_position_state.json"
          = some (sha256Hex (bytes (.state state)))
        ∧ prov.outputDigests.lookup "paper_receipt.md"
          = some (sha256Hex (bytes (.receipt receipt))) := by
  unfold checkOkCommitSemantics at h
  cases hshape : validateSummaryShape summary with
  | some failure =>
    rw [hshape] at h
    cases h
  | none =>
    rw [hshape] at h
    cases hprov : d.provenance with
    | none =>
      rw [hprov] at h
      simp at h
    | some prov =>
      rw [hprov] at h
      simp only [List.append_eq_nil_iff, failIf_eq_nil, not_not] at h
      obtain ⟨-, ⟨⟨hsummary, hstate⟩, hreceipt⟩, -⟩ := h
      exact ⟨rfl, prov, rfl, hsummary, hstate, hreceipt⟩

/--
The committed summary among the prior ones.
-/
def priorOk (d : Dir) : Option Summary :=
  ((priorSummaries d).filter Summary.isOk).getLast?

theorem checkExistingLedgers_eq_nil
    : checkExistingLedgers bytes cfg d = []
        ↔ (∀ s ∈ priorSummaries d, validateSummaryShape s = none)
          ∧ readStateObj d.state = none
          ∧ reconcile cfg d.ledgers d.summary = []
          ∧ stateFailures d.state d.ledgers cfg.initialEquityUsd (priorOk d).isSome = []
          ∧ ∀ s ∈ priorOk d, checkProvenanceCommitted bytes d s = [] := by
  have hunreadable : d.ledgers.reads.reduceOption
        ++ (priorSummaries d).filterMap validateSummaryShape ++ (readStateObj d.state).toList = []
      ↔ (∀ o ∈ d.ledgers.reads, o = none)
        ∧ (∀ s ∈ priorSummaries d, validateSummaryShape s = none)
        ∧ readStateObj d.state = none := by
    rw [List.append_eq_nil_iff, List.append_eq_nil_iff, ← List.head?_eq_none_iff,
      reduceOption_head?_eq_none, List.filterMap_eq_nil_iff, Option.toList_eq_nil_iff, and_assoc]
  unfold checkExistingLedgers
  dsimp only
  split
  next hne =>
    rw [ne_eq, hunreadable] at hne
    constructor
    . intro h
      rw [← hunreadable] at hne
      exact absurd h hne
    . rintro ⟨hprior, hstate, hreconcile, -⟩
      have hreads := (reconcile_eq_nil_iff_reconciled.mp hreconcile).1.reads
      exact absurd ⟨hreads, hprior, hstate⟩ hne
  next hnil =>
    rw [ne_eq, not_not, hunreadable] at hnil
    obtain ⟨hreads, hprior, hstate⟩ := hnil
    rw [reconcileStateAgainstLedgers_of_reads hreads hstate, ← priorOk]
    simp only [List.append_eq_nil_iff]
    constructor
    . rintro ⟨⟨hreconcile, htied⟩, hcommitted⟩
      refine ⟨hprior, hstate, hreconcile, htied, ?_⟩
      intro s hs
      rw [Option.mem_def.mp hs] at hcommitted
      exact hcommitted
    . rintro ⟨_, _, hreconcile, htied, hcommitted⟩
      refine ⟨⟨hreconcile, htied⟩, ?_⟩
      split
      . rfl
      next s hs => exact hcommitted s hs

end gates

section publish

variable {result : EngineResult}

theorem lookup_okProvenance
    : (okProvenance bytes cfg inv d result).outputDigests.lookup "paper_pnl_summary.json"
          = some (sha256Hex (bytes (.summary (okSummary cfg d result.state))))
        ∧ (okProvenance bytes cfg inv d result).outputDigests.lookup "paper_position_state.json"
          = some (sha256Hex (bytes (.state result.state)))
        ∧ (okProvenance bytes cfg inv d result).outputDigests.lookup "paper_receipt.md"
          = some (sha256Hex (bytes (.receipt (okReceipt cfg inv d result)))) := by
  simp [okProvenance, buildProvenance, outputDigests, List.lookup]

/--
The checks an OK run has to pass once its rows are on file.
-/
structure Publishable (cfg : PaperConfig) (l : Ledgers) (summary : Option Summary)
    (state : EngineState) : Prop where
  reconciles : reconcile cfg l summary = []
  strict : stateFailures (some state) l cfg.initialEquityUsd true = []
  shape : validateSummaryShape (computeSummary cfg l.trades l.equity state.openPositions
    state.barsElapsed (l.funding.filter (fun f => !f.rateAvailable)).length) = none

instance (cfg : PaperConfig) (l : Ledgers) (summary : Option Summary) (state : EngineState)
    : Decidable (Publishable cfg l summary state) :=
  decidable_of_iff
    (reconcile cfg l summary = []
      ∧ stateFailures (some state) l cfg.initialEquityUsd true = []
      ∧ validateSummaryShape (computeSummary cfg l.trades l.equity state.openPositions
          state.barsElapsed (l.funding.filter (fun f => !f.rateAvailable)).length) = none)
    ⟨fun h => ⟨h.1, h.2.1, h.2.2⟩, fun h => ⟨h.reconciles, h.strict, h.shape⟩⟩

def okOps (bytes : Artifact → String) (cfg : PaperConfig) (inv : Invocation) (d : Dir)
    (result : EngineResult) : List FileOp :=
  [.writeProvenance (okProvenance bytes cfg inv d result),
    .writeReceipt (okReceipt cfg inv d result),
    .appendProvenanceLog (okProvenance bytes cfg inv d result),
    .writeState result.state,
    .writeSummary (okSummary cfg d result.state)]

theorem Publishable.reads {l : Ledgers} {summary : Option Summary} {state : EngineState}
    (h : Publishable cfg l summary state)
    : ∀ o ∈ [l.readFills, l.readTrades, l.readEquity, l.readFunding, l.readPositions,
        l.readSnapshots], o = none := by
  have hreads := (reconcile_eq_nil.mp h.reconciles).1
  intro o ho
  apply hreads o
  simp only [Ledgers.reconcileReads, List.mem_cons, List.not_mem_nil, or_false] at ho ⊢
  tauto

theorem publish_eq (h : Publishable cfg d.ledgers d.summary result.state)
    : publish bytes cfg inv d result = okOps bytes cfg inv d result := by
  have hreads := h.reads
  unfold publish
  dsimp only
  rw [if_neg (not_not.mpr h.reconciles)]
  have hread : [d.ledgers.readTrades, d.ledgers.readEquity,
      d.ledgers.readFunding].reduceOption.head? = none := by
    rw [reduceOption_head?_eq_none]
    intro o ho
    apply hreads o
    simp only [List.mem_cons, List.not_mem_nil, or_false] at ho ⊢
    tauto
  rw [hread]
  show publishOk bytes cfg inv d result = okOps bytes cfg inv d result
  have hgate : finalIntegrityGate bytes cfg
      (d.run [.writeProvenance (okProvenance bytes cfg inv d result),
        .writeReceipt (okReceipt cfg inv d result)])
      result.state (okSummary cfg d result.state) (okReceipt cfg inv d result) = [] := by
    have hall := reduceOption_head?_eq_none.mpr hreads
    obtain ⟨hsummary, hstate, hreceipt⟩ := @lookup_okProvenance bytes cfg d inv result
    unfold finalIntegrityGate
    simp only [Dir.run, run_cons, run_nil, Dir.apply]
    rw [hall]
    dsimp only
    rw [h.reconciles, h.strict]
    unfold checkOkCommitSemantics
    have hshape : validateSummaryShape (okSummary cfg d result.state) = none := h.shape
    rw [hshape]
    simp only [hsummary, hstate, hreceipt]
    simp [okSummary, computeSummary, summaryWith, Summary.isOk]
  unfold publishOk
  dsimp only
  rw [hgate]
  rfl

theorem publish_ends_ok (h : NotOk d)
    (hok : ∃ s ∈ (d.run (publish bytes cfg inv d result)).summary, s.isOk)
    : Publishable cfg d.ledgers d.summary result.state := by
  have hcorrupt {d' : Dir} (hd' : NotOk d') (failures : List Failure)
      : ¬∃ s ∈ (d'.run (corrupt bytes cfg inv d' failures)).summary, s.isOk := by
    rintro ⟨s, hs, hsok⟩
    have hops : ∀ op ∈ corrupt bytes cfg inv d' failures, op.Quiet := by
      intro op hop
      exact corrupt_quiet hop
    have hquiet := hd'.throughout hops
    rw [hquiet.end_state s hs] at hsok
    cases hsok
  unfold publish at hok
  dsimp only at hok
  split at hok
  . exact (hcorrupt h _ hok).elim
  next hreconcile =>
    split at hok
    . exact (hcorrupt h _ hok).elim
    . unfold publishOk at hok
      dsimp only at hok
      rw [Dir.run_append] at hok
      split at hok
      . have hgated : NotOk (d.run [.writeProvenance (okProvenance bytes cfg inv d result),
            .writeReceipt (okReceipt cfg inv d result)]) := by
          apply Throughout.end_state
          apply h.throughout
          simp [FileOp.Quiet]
        exact (hcorrupt hgated _ hok).elim
      next hgate =>
        rw [not_not] at hreconcile hgate
        obtain ⟨-, hstrict, hcommit⟩ := finalIntegrityGate_eq_nil hgate
        exact ⟨hreconcile, hstrict, (checkOkCommitSemantics_eq_nil hcommit).1⟩

end publish

end Quantbot
