import Quantbot.Paper.Engine.Lemmas.Symbol
import Quantbot.Util.RoundedSums

/-!
The accumulators, the peak and the open positions of a book as sums over the bars that led to it.
-/

namespace Quantbot

variable {cfg : PaperConfig} {M : PriceBook → FundingIndex → BarStep → Prop} {book final : Book}
  {steps : List BarStep}

section split

/--
A bar of a run with the bars before it, which led to the book it started from, and those after it.
-/
structure SplitAt (cfg : PaperConfig) (M : PriceBook → FundingIndex → BarStep → Prop)
    (book : Book) (steps pre post : List BarStep) (b : BarStep) : Prop where
  eq : steps = pre ++ b :: post
  chain : Chain cfg M book pre b.before
  through : Chain cfg M book (pre ++ [b]) b.next
  spec : ∃ prices index windowStart, StepSpec cfg prices index windowStart b
  past : b.before.watermark < b.ts
  earlier : ∀ c ∈ pre, c.ts < b.ts
  later : ∀ c ∈ post, b.ts < c.ts

theorem Chain.split (h : Chain cfg M book steps final) {b : BarStep} (hb : b ∈ steps)
    : ∃ pre post, SplitAt cfg M book steps pre post b := by
  induction h with
  | nil => cases hb
  | @cons prices index book final obs step steps market past bar rest ih =>
    have hall := (Chain.cons market past bar rest).pairwise_ts
    rw [List.pairwise_cons] at hall
    obtain ⟨hbefore, hobs, windowStart, hspec⟩ := processBar_spec bar
    rw [List.mem_cons] at hb
    rcases hb with rfl | hb
    . refine ⟨[], steps, rfl, ?_, ?_, ⟨prices, index, windowStart, hspec⟩, ?_, ?_, hall.1⟩
      . rw [hbefore]
        exact Chain.nil book
      . exact Chain.cons market past bar (Chain.nil _)
      . rw [BarStep.ts, hbefore, hobs]
        exact past
      . simp
    . obtain ⟨pre, post, hsplit⟩ := ih hb
      refine ⟨step :: pre, post, ?_, Chain.cons market past bar hsplit.chain,
        Chain.cons market past bar hsplit.through, hsplit.spec, hsplit.past, ?_, hsplit.later⟩
      . rw [hsplit.eq, List.cons_append]
      . rw [List.forall_mem_cons]
        exact ⟨hall.1 b hb, hsplit.earlier⟩

variable {pre post : List BarStep} {b : BarStep}

theorem SplitAt.filter_lt (h : SplitAt cfg M book steps pre post b)
    : steps.filter (fun c => c.ts < b.ts) = pre := by
  rw [h.eq, List.filter_append, List.filter_cons_of_neg (by simp), List.filter_eq_self.mpr,
    List.filter_eq_nil_iff.mpr, List.append_nil]
  . intro c hc
    rw [decide_eq_true_eq, not_lt]
    exact (h.later c hc).le
  . intro c hc
    simpa using h.earlier c hc

theorem SplitAt.filter_le (h : SplitAt cfg M book steps pre post b)
    : steps.filter (fun c => c.ts ≤ b.ts) = pre ++ [b] := by
  rw [h.eq, List.filter_append, List.filter_cons_of_pos (by simp), List.filter_eq_self.mpr,
    List.filter_eq_nil_iff.mpr]
  . intro c hc
    rw [decide_eq_true_eq, not_le]
    exact h.later c hc
  . intro c hc
    simpa using (h.earlier c hc).le

end split

section totals

namespace BarStep

/--
The unrounded amounts behind the rows of the bar.
-/
def grosses (b : BarStep) : List ℚ :=
  b.exits.map Exit.gross

def feesPaid (b : BarStep) : List ℚ :=
  b.exits.map Exit.fee ++ b.entries.map Entry.fee

def amounts (b : BarStep) : List ℚ :=
  b.charges.map Charge.amount

theorem map_grossPnl (b : BarStep) : b.tradeRows.map TradeRow.grossPnl = b.grosses.map round8 := by
  rw [tradeRows, grosses, List.map_map, List.map_map]
  rfl

theorem map_fee (cfg : PaperConfig) (b : BarStep)
    : (b.fillRows cfg).map FillRow.fee = b.feesPaid.map round8 := by
  simp only [fillRows, feesPaid, List.map_append, List.map_map]
  rfl

theorem map_fundingAmount (b : BarStep)
    : b.fundingRows.map FundingRow.fundingAmount = b.amounts.map round8 := by
  rw [fundingRows, amounts, List.map_map, List.map_map]
  rfl

end BarStep

/--
The accumulators are the totals of the bars, and the peak is the greatest equity of them.
-/
structure BookTotals (peak : ℚ) (done : List BarStep) (book : Book) : Prop where
  realized : book.acc.realizedGross = (done.flatMap BarStep.grosses).sum
  fees : book.acc.feesCum = (done.flatMap BarStep.feesPaid).sum
  funding : book.acc.fundingCum = (done.flatMap BarStep.amounts).sum
  peak : book.peakEquity = (done.map BarStep.equity).foldl max peak

theorem Chain.bookTotals (h : Chain cfg M book steps final)
    (hzero : book.acc = { realizedGross := 0, feesCum := 0, fundingCum := 0 })
    : BookTotals book.peakEquity steps final := by
  apply h.invariant (fun done book' => BookTotals book.peakEquity done book') []
  . constructor <;> simp [hzero]
  . intro done prices index windowStart b _ _ hspec hdone
    constructor
    case realized =>
      rw [hspec.next_realized, hdone.realized, List.flatMap_append, List.flatMap_singleton,
        List.sum_append]
      rfl
    case fees =>
      rw [hspec.next_fees, hdone.fees, List.flatMap_append, List.flatMap_singleton,
        List.sum_append, BarStep.feesPaid, List.sum_append, add_assoc]
    case funding =>
      rw [hspec.next_funding, hdone.funding, List.flatMap_append, List.flatMap_singleton,
        List.sum_append]
      rfl
    case peak =>
      rw [hspec.next_peak, hdone.peak]
      simp

end totals

section carried

/--
The bars after `lo`.
-/
def barsAfter (steps : List BarStep) (lo : String) : List BarStep :=
  steps.filter (fun b => lo < b.ts)

def barsBetween (steps : List BarStep) (lo hi : String) : List BarStep :=
  steps.filter (fun b => lo < b.ts ∧ b.ts ≤ hi)

theorem barsAfter_append (steps steps' : List BarStep) (lo : String)
    : barsAfter (steps ++ steps') lo = barsAfter steps lo ++ barsAfter steps' lo :=
  List.filter_append ..

theorem barsAfter_singleton {b : BarStep} {lo : String} (h : lo < b.ts)
    : barsAfter [b] lo = [b] :=
  List.filter_cons_of_pos (decide_eq_true h)

theorem barsAfter_eq_nil {lo : String} (h : ∀ b ∈ steps, b.ts ≤ lo) : barsAfter steps lo = [] := by
  simp only [barsAfter, List.filter_eq_nil_iff, decide_eq_true_eq, not_lt]
  exact h

theorem SplitAt.barsBetween_eq {pre post : List BarStep} {b : BarStep}
    (h : SplitAt cfg M book steps pre post b) {lo : String} (hlo : lo < b.ts)
    : barsBetween steps lo b.ts = barsAfter pre lo ++ [b] := by
  have hfilter : barsBetween steps lo b.ts
      = barsAfter (steps.filter (fun c => c.ts ≤ b.ts)) lo := by
    unfold barsBetween barsAfter
    rw [List.filter_filter]
    apply List.filter_congr
    intro c _
    simp
  rw [hfilter, h.filter_le, barsAfter_append, barsAfter_singleton hlo]

/--
The funding charged to a symbol on the bars, unrounded.
-/
def chargedOn (steps : List BarStep) (symbol : String) : ℚ :=
  (steps.flatMap (fun b => b.amountsOf symbol)).sum

theorem chargedOn_append (steps steps' : List BarStep) (symbol : String)
    : chargedOn (steps ++ steps') symbol = chargedOn steps symbol + chargedOn steps' symbol := by
  simp [chargedOn]

@[simp]
theorem chargedOn_singleton (b : BarStep) (symbol : String)
    : chargedOn [b] symbol = b.charged symbol := by
  simp [chargedOn, BarStep.charged]

/--
An open position has been held for the bars after its entry and carries what they charged it.
-/
structure Carried (symbol : String) (done : List BarStep) (watermark : String) (pos : Position)
    : Prop where
  past : pos.entryBarTs ≤ watermark
  holdBars : pos.holdBars = (barsAfter done pos.entryBarTs).length
  funding : pos.fundingAccrued = chargedOn (barsAfter done pos.entryBarTs) symbol

theorem Carried.step {symbol : String} {done : List BarStep} {b : BarStep} {pos pos' : Position}
    (h : Carried symbol done b.before.watermark pos) (hpast : b.before.watermark < b.ts)
    (hsame : pos.SameEntry pos') (hhold : pos'.holdBars = pos.holdBars + 1)
    (haccrued : pos'.fundingAccrued = pos.fundingAccrued + b.charged symbol)
    : Carried symbol (done ++ [b]) b.ts pos' := by
  have hafter := h.past.trans_lt hpast
  constructor
  case past =>
    rw [hsame.entryBarTs]
    exact hafter.le
  case holdBars =>
    rw [hhold, h.holdBars, hsame.entryBarTs, barsAfter_append, barsAfter_singleton hafter]
    simp
  case funding =>
    rw [haccrued, h.funding, hsame.entryBarTs, barsAfter_append, barsAfter_singleton hafter,
      chargedOn_append, chargedOn_singleton]

theorem Chain.carried (h : Chain cfg M book steps final) (hempty : book.openPositions = ∅)
    (symbol : String)
    : ∀ pos ∈ final.openPositions[symbol]?, Carried symbol steps final.watermark pos := by
  have hinv := h.invariant (fun done book' => (∀ c ∈ done, c.ts ≤ book'.watermark)
      ∧ ∀ pos ∈ book'.openPositions[symbol]?, Carried symbol done book'.watermark pos) []
    (by
      rw [hempty, Std.ExtTreeMap.getElem?_empty]
      simp)
    (by
      rintro done prices index windowStart b - hpast hspec ⟨hdone, hcarried⟩
      rw [hspec.next_watermark]
      have hold : ∀ c ∈ done ++ [b], c.ts ≤ b.ts := by
        intro c hc
        rw [List.mem_append, List.mem_singleton] at hc
        rcases hc with hc | rfl
        . exact (hdone c hc).trans hpast.le
        . exact le_refl _
      refine ⟨hold, ?_⟩
      cases hspec.symbolStep symbol with
      | enter e mine empty next fills trades charges =>
        rw [next]
        rintro pos ⟨⟩
        have hnone := @barsAfter_eq_nil _ (e.position b.ts).entryBarTs hold
        refine ⟨le_refl _, ?_, ?_⟩
        . rw [hnone]
          rfl
        . rw [hnone]
          rfl
      | exit x pos mine held same hold accrued next fills trades =>
        rw [next]
        rintro pos ⟨⟩
      | hold pos pos' held same hold accrued next fills trades =>
        rw [next]
        rintro pos₁ ⟨⟩
        exact (hcarried pos (by rw [held]; rfl)).step hpast same hold accrued
      | idle empty next fills trades charges =>
        rw [next]
        rintro pos ⟨⟩)
  exact hinv.2

/--
A position that is left was held for the bars from its entry to the exit and charged what they
charged it.
-/
theorem Chain.closed (h : Chain cfg M book steps final) (hempty : book.openPositions = ∅)
    {b : BarStep} (hb : b ∈ steps) {x : Exit} (hx : x ∈ b.exits)
    : x.pos.entryBarTs < b.ts
        ∧ x.pos.holdBars = (barsBetween steps x.pos.entryBarTs b.ts).length
        ∧ x.pos.fundingAccrued = chargedOn (barsBetween steps x.pos.entryBarTs b.ts) x.symbol := by
  obtain ⟨pre, post, hsplit⟩ := h.split hb
  obtain ⟨prices, index, windowStart, hspec⟩ := hsplit.spec
  obtain ⟨pos, hheld, hsame, hhold, haccrued⟩ := hspec.exit_accrued hx
  have hcarried := hsplit.chain.carried hempty x.symbol pos (by rw [hheld]; rfl)
  have hafter := hcarried.step hsplit.past hsame hhold haccrued
  have hlt : x.pos.entryBarTs < b.ts := by
    rw [hsame.entryBarTs]
    exact hcarried.past.trans_lt hsplit.past
  have hbars : barsAfter (pre ++ [b]) x.pos.entryBarTs = barsAfter pre x.pos.entryBarTs ++ [b] := by
    rw [barsAfter_append, barsAfter_singleton hlt]
  rw [hsplit.barsBetween_eq hlt, ← hbars]
  exact ⟨hlt, hafter.holdBars, hafter.funding⟩

end carried

end Quantbot
