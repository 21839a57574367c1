import Quantbot.Paper.HonestReconcile
import Quantbot.Paper.NoFalseOk

/-!
The summaries and the states a runner writes have the shapes its readers ask for.
-/

namespace Quantbot

open Reconcile

variable {cfg : PaperConfig} {inv : Invocation}

section summaries

theorem validateSummaryShape_eq_none {s : Summary}
    : validateSummaryShape s = none ↔ s.badFields = [] := by
  rw [validateSummaryShape, Option.map_eq_none_iff, List.head?_eq_none_iff]

theorem append_left_ne_empty {s : String} (h : s ≠ "") (t : String) : s ++ t ≠ "" := by
  intro heq
  rw [String.append_eq_empty_iff] at heq
  exact h heq.1

/--
The fields every summary has are sound if the config's start parses.
-/
theorem summaryWith_shape (hcfg : cfg.Contract) {status : SummaryStatus} {verdict : String}
    (hverdict : verdict ≠ "") (hstatus : status.badFields = [])
    : validateSummaryShape (summaryWith cfg status verdict) = none := by
  obtain ⟨start, hstart, -⟩ := hcfg.forwardStart_parses
  rw [validateSummaryShape_eq_none]
  have hparse : parseableBarTs cfg.forwardStartTs := by
    rw [parseableBarTs, hstart]
    rfl
  have hdisclaimer : disclaimer ≠ "" := by decide +kernel
  simp [Summary.badFields, summaryWith, hparse, hverdict, hstatus, hdisclaimer]

theorem nowUtcStr_parseable (now : DateTime) : parseableTimestamp (nowUtcStr now) :=
  parseableTimestamp_utc now

theorem running_shape (hcfg : cfg.Contract) (inv : Invocation)
    : validateSummaryShape (runningMarker cfg inv) = none := by
  apply summaryWith_shape hcfg
  . apply append_left_ne_empty
    decide
  . have hphase : "preflight" ≠ "" := by decide
    simp [SummaryStatus.badFields, inv.runId_ne, nowUtcStr_parseable, hphase]

theorem configError_shape (inv : Invocation)
    : validateSummaryShape (configErrorPreflightMarker inv.runId (nowUtcStr inv.startedAt))
        = none := by
  rw [validateSummaryShape_eq_none]
  have hdisclaimer : disclaimer ≠ "" := by decide +kernel
  have hphase : "preflight_config_error" ≠ "" := by decide
  simp [Summary.badFields, configErrorPreflightMarker, SummaryStatus.badFields,
    SummaryStatus.allowsUnknownStart, hdisclaimer, hphase, inv.runId_ne, nowUtcStr_parseable]

theorem aborted_shape (hcfg : cfg.Contract) {code reason : String} (hcode : code ≠ "")
    (hreason : reason ≠ "") (now : DateTime)
    : validateSummaryShape (abortedSummary cfg code reason (nowUtcStr now)) = none := by
  apply summaryWith_shape hcfg
  . apply append_left_ne_empty
    apply append_left_ne_empty
    decide
  . simp [SummaryStatus.badFields, hcode, hreason, nowUtcStr_parseable]

theorem noEligible_shape (hcfg : cfg.Contract) {reason : String} (hreason : reason ≠ "")
    (now : DateTime)
    : validateSummaryShape (noEligibleBarsSummary cfg reason (nowUtcStr now)) = none := by
  apply summaryWith_shape hcfg
  . apply append_left_ne_empty
    decide
  . simp [SummaryStatus.badFields, hreason, nowUtcStr_parseable]

theorem currentVerdict_ne (closed : ℕ) (barsElapsed : ℤ) : currentVerdict closed barsElapsed ≠ "" := by
  unfold currentVerdict
  split
  . decide
  . split
    . apply append_left_ne_empty
      apply append_left_ne_empty
      decide
    . decide

theorem okSummary_shape (hcfg : cfg.Contract) (trades : List TradeRow) (equity : List EquityRow)
    {openPositions : OpenPositions} (hsymbols : "" ∉ openPositions.keys) {barsElapsed : ℤ}
    (helapsed : 0 ≤ barsElapsed) (fundingGaps : ℕ)
    : validateSummaryShape
        (computeSummary cfg trades equity openPositions barsElapsed fundingGaps) = none := by
  apply summaryWith_shape hcfg (currentVerdict_ne _ _)
  have hnote : baselineNotReproduced ≠ "" := by decide +kernel
  have hsize : (openPositions.keys.length : ℤ) = openPositions.size := by
    rw [Std.ExtTreeMap.length_keys]
  simp [SummaryStatus.badFields, OkSummary.badFields, computeOkSummary, hnote, hsymbols, hsize,
    helapsed]

end summaries

section states

variable {range : String → PriceRange} {book final : Book} {steps : List BarStep}

theorem stamped_parses {ts : String} (h : ∃ d : DateTime, ts = d.strftime)
    : ts ≠ "" ∧ parseableBarTs ts := by
  obtain ⟨d, rfl⟩ := h
  constructor
  . intro hempty
    have hlength := length_strftime d
    rw [hempty] at hlength
    cases hlength
  . rw [parseableBarTs, parseBarUtc_strftime]
    rfl

theorem OrderlyPosition.badFields_eq_nil {symbol : String} {pos : Position}
    (h : OrderlyPosition cfg range symbol pos) (htame : Tame cfg range) (hhold : 0 ≤ pos.holdBars)
    : pos.badFields = [] := by
  obtain ⟨s, hid⟩ := h.id
  have hidne : pos.entryFillId ≠ "" := by
    rw [hid]
    exact shortDigest_ne_empty s
  have hprice := h.entered.price_pos htame
  have hqty := h.entered.qty_ge htame
  have hqty' : 0 < pos.qty := by linarith
  have hfee := h.entered.fee_nonneg htame
  obtain ⟨hbar, hbar'⟩ := stamped_parses h.entryBar
  obtain ⟨hfill, hfill'⟩ := stamped_parses h.entryFill
  simp [Position.badFields, hidne, hbar, hbar', hfill, hfill', hprice, hqty', hfee, hhold]

theorem Chain.watermark_stamped (h : Chain cfg (Orderly cfg range) book steps final)
    (hempty : book.watermark = "")
    : final.watermark = "" ∨ ∃ d : DateTime, final.watermark = d.strftime := by
  apply h.invariant (fun _ book' => book'.watermark = ""
    ∨ ∃ d : DateTime, book'.watermark = d.strftime) []
  . exact .inl hempty
  . intro done prices index windowStart b market _ hspec _
    rw [hspec.next_watermark]
    exact .inr market.stamped

/--
The state a chain of orderly bars is stored as can be read back.
-/
theorem Chain.state_shape (h : Chain cfg (Orderly cfg range) book steps final)
    (hopen : book.openPositions = ∅) (hwatermark : book.watermark = "") (htame : Tame cfg range)
    {barsElapsed : ℤ} (helapsed : 0 ≤ barsElapsed)
    : readStateObj (some (final.store barsElapsed)) = none := by
  rw [readStateObj, Option.bind_some, validateStateShape, Option.map_eq_none_iff,
    List.head?_eq_none_iff]
  have hmark : failIf (final.watermark ≠ "" ∧ !parseableBarTs final.watermark) "watermark_bar_ts"
      = [] := by
    rw [failIf_eq_nil]
    rcases h.watermark_stamped hwatermark with hempty | hstamped
    . simp [hempty]
    . simp [(stamped_parses hstamped).2]
  have hpositions : final.openPositions.toList.flatMap (fun p =>
      failIf (p.1 = "") "open_positions" ++ p.2.badFields) = [] := by
    rw [List.flatMap_eq_nil_iff]
    rintro ⟨symbol, pos⟩ hp
    rw [mem_toList_iff] at hp
    have hpos := h.orderlyPosition hopen htame hp
    have hcarried := h.carried hopen symbol pos hp
    have hhold : 0 ≤ pos.holdBars := by
      rw [hcarried.holdBars]
      exact Int.natCast_nonneg _
    rw [List.append_eq_nil_iff, failIf_eq_nil]
    exact ⟨hpos.symbol_ne, hpos.badFields_eq_nil htame hhold⟩
  unfold EngineState.badFields Book.store
  dsimp only
  rw [hmark, hpositions]
  simp [helapsed]

/--
No open symbol is empty.
-/
theorem Chain.symbols_ne (h : Chain cfg (Orderly cfg range) book steps final)
    (hopen : book.openPositions = ∅) (htame : Tame cfg range)
    : "" ∉ final.openPositions.keys := by
  intro hmem
  rw [Std.ExtTreeMap.mem_keys, ← Std.ExtTreeMap.isSome_getElem?_iff_mem] at hmem
  obtain ⟨pos, hpos⟩ := Option.isSome_iff_exists.mp hmem
  exact (h.orderlyPosition hopen htame hpos).symbol_ne rfl

end states

end Quantbot
