import Quantbot.Util.MapM
import Quantbot.Paper.Runner.Lemmas.Run

/-!
A directory whose summary says OK holds the evidence for it, wherever runs were cut.
-/

namespace Quantbot

open CrashTrace Reconcile

variable (bytes : Artifact → String) (cfg : PaperConfig)

/--
What an OK summary stands for.
-/
structure OkEvidence (d : Dir) (s : Summary) : Prop where
  reconciles : reconcile cfg d.ledgers d.summary = []
  state : ∃ state, d.state = some state
    ∧ stateFailures (some state) d.ledgers cfg.initialEquityUsd true = []
    ∧ state.watermarkBarTs.getD "" = (latestEquityTs d.ledgers.equity).getD ""
  digests : ∃ prov state receipt, d.provenance = some prov ∧ d.state = some state
    ∧ d.receipt = some receipt
    ∧ prov.outputDigests.lookup "paper_pnl_summary.json" = some (sha256Hex (bytes (.summary s)))
    ∧ prov.outputDigests.lookup "paper_position_state.json" = some (sha256Hex (bytes (.state state)))
    ∧ prov.outputDigests.lookup "paper_receipt.md" = some (sha256Hex (bytes (.receipt receipt)))

def NoFalseOk (d : Dir) : Prop :=
  ∀ s ∈ d.summary, s.isOk → OkEvidence bytes cfg d s

variable {bytes cfg} {d : Dir} {inv : Invocation}

theorem NotOk.unclaimed (h : NotOk d) : NoFalseOk bytes cfg d := by
  intro s hs hok
  rw [h s hs] at hok
  cases hok

theorem NotOk.quiet (h : NotOk d) {ops : List FileOp} (hops : ∀ op ∈ ops, op.Quiet)
    : Throughout Dir.apply (NoFalseOk bytes cfg) d ops := by
  apply Throughout.mono (fun _ => NotOk.unclaimed)
  exact h.throughout hops

section gate

variable {state : EngineState} {summary : Summary} {receipt : Receipt}

theorem strict_watermark {initialEquity : ℚ}
    (h : stateFailures (some state) d.ledgers initialEquity true = [])
    : state.watermarkBarTs.getD "" = (latestEquityTs d.ledgers.equity).getD "" := by
  unfold stateFailures strictStateInvariants at h
  simp only [List.append_eq_nil_iff, if_true] at h
  obtain ⟨-, hstrict⟩ := h
  split at hstrict
  next hempty =>
    simp only [List.append_eq_nil_iff, failIf_eq_nil, not_not] at hstrict
    rw [hstrict.1.1.1, hempty]
    rfl
  . simp only [List.append_eq_nil_iff, failIf_eq_nil, not_not] at hstrict
    rw [← hstrict.1.1.1.1.1.1.1]
    rfl

/--
The winrate of the summary is null exactly when no trade is closed.
-/
theorem summaryFailures_okSummary : summaryFailures (some (okSummary cfg d state)) = [] := by
  have hclosed : (okSummary cfg d state).closedTrades = d.ledgers.trades.length := by
    rfl
  have hwinrate : (okSummary cfg d state).winrate = none ↔ d.ledgers.trades.length = 0 := by
    show (if 0 < d.ledgers.trades.length then _ else none) = none ↔ _
    split
    . constructor
      . intro h
        cases h
      . intro h
        omega
    . constructor
      . intro _
        omega
      . intro _
        rfl
  simp only [summaryFailures, List.append_eq_nil_iff, failIf_eq_nil, hclosed, ne_eq, hwinrate]
  omega

end gate

theorem NotOk.publishOk (h : NotOk d) (result : EngineResult)
    : Throughout Dir.apply (NoFalseOk bytes cfg) d (publishOk bytes cfg inv d result) := by
  unfold Quantbot.publishOk
  dsimp only
  rw [Throughout.append]
  have hevidence : Throughout Dir.apply NotOk d
      [.writeProvenance (okProvenance bytes cfg inv d result),
        .writeReceipt (okReceipt cfg inv d result)] := by
    apply h.throughout
    simp [FileOp.Quiet]
  refine ⟨hevidence.mono (fun _ => NotOk.unclaimed), ?_⟩
  have hgated := hevidence.end_state
  split
  . apply hgated.quiet
    intro op hop
    exact corrupt_quiet hop
  next hgate =>
    rw [not_not] at hgate
    obtain ⟨hreconcile, hstate, hcommit⟩ := finalIntegrityGate_eq_nil hgate
    obtain ⟨hshape, prov, hprov, hdigests⟩ := checkOkCommitSemantics_eq_nil hcommit
    have hreads := reconcile_eq_nil.mp hreconcile
    simp only [Throughout.cons, Throughout.nil]
    refine ⟨hgated.unclaimed, (hgated.apply (by trivial)).unclaimed,
      ((hgated.apply (by trivial)).apply (by trivial)).unclaimed, ?_⟩
    intro s hs _
    cases hs
    constructor
    . rw [reconcile_eq_nil]
      refine ⟨?_, hreads.2.1, summaryFailures_okSummary⟩
      have hledgers := hreads.1
      simp only [Ledgers.reconcileReads, List.forall_mem_cons, List.not_mem_nil, false_imp_iff,
        implies_true, and_true] at hledgers ⊢
      obtain ⟨h1, h2, h3, h4, h5, h6, -⟩ := hledgers
      exact ⟨h1, h2, h3, h4, h5, h6, hshape⟩
    . exact ⟨result.state, rfl, hstate, strict_watermark hstate⟩
    . exact ⟨prov, result.state, okReceipt cfg inv d result, hprov, rfl, rfl, hdigests⟩

theorem NotOk.publish (h : NotOk d) (result : EngineResult)
    : Throughout Dir.apply (NoFalseOk bytes cfg) d (publish bytes cfg inv d result) := by
  unfold Quantbot.publish
  dsimp only
  have hcorrupt (failures : List Failure)
      : Throughout Dir.apply (NoFalseOk bytes cfg) d (corrupt bytes cfg inv d failures) := by
    apply h.quiet
    intro op hop
    exact corrupt_quiet hop
  split
  . exact hcorrupt _
  . split
    . exact hcorrupt _
    . exact h.publishOk result

theorem NotOk.accountRows (h : NotOk d) (forwardStart : DateTime) (perBarObs : List Obs)
    : Throughout Dir.apply (NoFalseOk bytes cfg) d
        (accountRows bytes cfg inv d forwardStart perBarObs) := by
  unfold Quantbot.accountRows
  split
  . apply h.quiet
    simp
  next forwardObs _ =>
    split
    . apply h.quiet
      intro op hop
      exact abort_quiet hop
    . split
      . apply h.quiet
        intro op hop
        exact abort_quiet hop
      . split
        . apply h.quiet
          simp
        next result _ =>
          have happends : Throughout Dir.apply NotOk d
              (appendRows (newRows cfg inv d.ledgers forwardObs result)) := by
            apply h.throughout
            intro op hop
            exact appendRows_quiet hop
          dsimp only
          rw [Throughout.append]
          exact ⟨happends.mono (fun _ => NotOk.unclaimed), happends.end_state.publish result⟩

theorem NotOk.account (h : NotOk d)
    : Throughout Dir.apply (NoFalseOk bytes cfg) d (account bytes cfg inv d) := by
  unfold Quantbot.account
  split
  . apply h.quiet
    simp
  . split
    . apply h.quiet
      intro op hop
      exact abort_quiet hop
    . apply h.quiet
      intro op hop
      exact noEligibleBars_quiet hop
    . split
      . exact h.accountRows _ _
      . apply h.quiet
        simp

theorem NotOk.afterPreflight (h : NotOk d)
    : Throughout Dir.apply (NoFalseOk bytes cfg) d (afterPreflight bytes cfg inv d) := by
  have hcleanup : ∀ op ∈ (if inv.globRefused then [] else cleanupStaged inv d), op.Quiet := by
    split
    . simp
    . intro op hop
      exact cleanupStaged_quiet hop
  unfold Quantbot.afterPreflight
  dsimp only
  split
  . apply h.quiet
    intro op hop
    rw [List.mem_append] at hop
    rcases hop with hop | hop
    . exact corrupt_quiet hop
    . exact hcleanup op hop
  . rw [Throughout.append]
    have hthroughout := h.throughout hcleanup
    exact ⟨hthroughout.mono (fun _ => NotOk.unclaimed), hthroughout.end_state.account⟩

/--
Between the old summary and the RUNNING marker nothing else happens.
-/
theorem NoFalseOk.preflight (h : NoFalseOk bytes cfg d)
    : Throughout Dir.apply (NoFalseOk bytes cfg) d (preflight cfg inv)
        ∧ NotOk (d.run (preflight cfg inv)) := by
  have hmarker (d : Dir)
      : NotOk (d.apply (.writeSummary (runningSummary cfg inv.runId (nowUtcStr inv.startedAt) ""))) := by
    intro s hs
    cases hs
    rfl
  unfold Quantbot.preflight
  split
  . simp only [List.nil_append, Throughout.cons, Throughout.nil]
    exact ⟨⟨h, (hmarker d).unclaimed⟩, hmarker d⟩
  . have hstaged : NotOk (d.apply (.stageSummary (stagedSummaryName inv.runId))) := by
      unfold Dir.apply Dir.stageSummary
      dsimp only
      split
      next hnone =>
        intro s hs
        rw [hnone] at hs
        cases hs
      . intro s hs
        cases hs
    simp only [List.cons_append, List.nil_append, Throughout.cons, Throughout.nil]
    exact ⟨⟨h, hstaged.unclaimed, (hmarker _).unclaimed⟩, hmarker _⟩

theorem NoFalseOk.runOnce (h : NoFalseOk bytes cfg d)
    : Throughout Dir.apply (NoFalseOk bytes cfg) d (runOnce bytes cfg inv d) := by
  unfold Quantbot.runOnce
  split
  . cases hsummary : d.summary with
    | none => exact Throughout.nil.mpr h
    | some s =>
      simp only [Option.map_some, Option.toList_some, Throughout.cons, Throughout.nil]
      refine ⟨h, NotOk.unclaimed ?_⟩
      intro s' hs'
      cases hs'
      rfl
  . rw [Throughout.append]
    obtain ⟨hpreflight, hnotOk⟩ := h.preflight
    exact ⟨hpreflight, hnotOk.afterPreflight⟩

/--
In whatever directory runs leave behind, cut anywhere, an OK summary has its evidence.
-/
theorem noFalseOk {s : Summary}
    (hreach : Reachable Dir.apply (runOnce bytes cfg) Dir.empty d)
    (hsummary : d.summary = some s) (hok : s.isOk) : OkEvidence bytes cfg d s := by
  have hinit : NoFalseOk bytes cfg Dir.empty := by
    intro s hs
    cases hs
  have := hreach.invariant hinit (fun inv d hd => NoFalseOk.runOnce hd)
  exact this s hsummary hok

section firstRun

theorem firstRun_completes
    : ∃ result, Completes firstText firstConfig firstRun Dir.empty [firstObs] [firstObs] result := by
  have hstart : ∃ forwardStart, parseBarUtc firstConfig.forwardStartTs = .ok forwardStart
      ∧ decide (checkFreshness firstConfig firstRun.ages forwardStart firstRun.obsLog = .fresh
        ∧ eligibleObs forwardStart [firstObs] = .ok [firstObs]) := by
    apply exists_ok_of_any
    decide +kernel
  obtain ⟨forwardStart, hparse, hgates⟩ := hstart
  have hengine : ∃ result, runEngine firstConfig [firstObs] firstPrices []
        (newState firstConfig.initialEquityUsd) = .ok result
      ∧ decide (Publishable firstConfig
        (Dir.empty.ledgers.append
          (newRows firstConfig firstRun Dir.empty.ledgers [firstObs] result))
        (some (runningMarker firstConfig firstRun)) result.state) := by
    apply exists_ok_of_any
    decide +kernel
  obtain ⟨result, hresult, hpublishable⟩ := hengine
  refine ⟨result, ?_, ?_, of_decide_eq_true hpublishable⟩
  . decide +kernel
  . constructor
    . rfl
    . exact ⟨forwardStart, hparse, of_decide_eq_true hgates⟩
    . decide +kernel
    . rfl
    . exact hresult

/--
The first run ends in OK, with its evidence.
-/
theorem noFalseOk_firstRun
    : ∃ d s, Reachable Dir.apply (runOnce firstText firstConfig) Dir.empty d ∧ d.summary = some s
        ∧ s.isOk ∧ OkEvidence firstText firstConfig d s := by
  obtain ⟨result, hcompletes⟩ := firstRun_completes
  have hreach : Reachable Dir.apply (runOnce firstText firstConfig) Dir.empty
      (Dir.empty.run ((runOnce firstText firstConfig firstRun Dir.empty).take
        (runOnce firstText firstConfig firstRun Dir.empty).length)) :=
    Reachable.cut firstRun _ Reachable.init
  rw [List.take_length] at hreach
  have hend : ∃ s, (Dir.empty.run (runOnce firstText firstConfig firstRun Dir.empty)).summary
      = some s ∧ s.isOk := by
    rw [hcompletes.runOnce_eq firstRun_unhindered, ← List.append_assoc, Dir.run_append]
    exact ⟨_, rfl, rfl⟩
  obtain ⟨s, hs, hok⟩ := hend
  exact ⟨_, s, hreach, hs, hok, noFalseOk hreach hs hok⟩

end firstRun

end Quantbot
