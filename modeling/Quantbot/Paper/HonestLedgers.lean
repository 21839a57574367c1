import Quantbot.Paper.AccountingFollows
import Quantbot.Paper.Engine.Lemmas.Accounts
import Quantbot.Paper.Engine.RoundTrips

/-!
The ledgers and the state that a sequence of runs leaves, against the checks of the verifier: the
columns follow from the ledgers below them and the state from the ledgers, as far as rounding goes.
-/

namespace Quantbot

open Reconcile

variable {cfg : PaperConfig} {M : PriceBook → FundingIndex → BarStep → Prop} {book final : Book}
  {steps : List BarStep}

/--
The ledgers of the bars.
-/
def stepsLedgers (cfg : PaperConfig) (steps : List BarStep) (snapshots : List SnapshotRow)
    : Ledgers where
  fills := steps.flatMap (fun b => b.fillRows cfg)
  trades := steps.flatMap BarStep.tradeRows
  funding := steps.flatMap BarStep.fundingRows
  positions := steps.map BarStep.positionsRow
  equity := steps.map BarStep.equityRow
  snapshots := snapshots

/--
The rows of all the runs, one run after the other.
-/
def runsLedgers (cfg : PaperConfig) (runs : List (RunInput × EngineResult))
    (snapshots : List SnapshotRow) : Ledgers where
  fills := runsFills cfg runs
  trades := runsTrades runs
  funding := runsFunding runs
  positions := runs.flatMap (fun p => p.2.positions)
  equity := runs.flatMap (fun p => p.2.equity)
  snapshots := snapshots

theorem runsLedgers_eq (cfg : PaperConfig) (runs : List (RunInput × EngineResult))
    (snapshots : List SnapshotRow)
    : runsLedgers cfg runs snapshots = stepsLedgers cfg (runsBars runs) snapshots := by
  simp only [runsLedgers, stepsLedgers, runsFills, runsTrades, runsFunding, runsBars,
    EngineResult.fills, EngineResult.trades, EngineResult.funding, EngineResult.positions,
    EngineResult.equity, List.flatMap_assoc, List.map_flatMap]

section rows

theorem filter_flatMap_ts {α : Type} {rows : BarStep → List α} (p : String → Bool)
    {key : α → String} (hkey : ∀ b ∈ steps, ∀ r ∈ rows b, key r = b.ts)
    : (steps.flatMap rows).filter (fun r => p (key r))
        = (steps.filter (fun b => p b.ts)).flatMap rows := by
  induction steps with
  | nil => rfl
  | cons b steps ih =>
    rw [List.forall_mem_cons] at hkey
    rw [List.flatMap_cons, List.filter_append, ih hkey.2, List.filter_cons]
    split
    next hp =>
      rw [List.flatMap_cons, List.filter_eq_self.mpr]
      intro r hr
      rw [hkey.1 r hr]
      exact hp
    next hp =>
      rw [List.filter_eq_nil_iff.mpr, List.nil_append]
      intro r hr
      rw [hkey.1 r hr]
      exact hp

theorem fillRows_ts (cfg : PaperConfig) {b : BarStep} {f : FillRow} (hf : f ∈ b.fillRows cfg)
    : f.signalBarTs = b.ts := by
  rw [BarStep.fillRows, List.mem_append, List.mem_map, List.mem_map] at hf
  rcases hf with ⟨x, -, rfl⟩ | ⟨e, -, rfl⟩ <;> rfl

theorem tradeRows_ts {b : BarStep} {t : TradeRow} (ht : t ∈ b.tradeRows) : t.exitBarTs = b.ts := by
  rw [BarStep.tradeRows, List.mem_map] at ht
  obtain ⟨x, -, rfl⟩ := ht
  rfl

theorem fundingRows_ts {b : BarStep} {r : FundingRow} (hr : r ∈ b.fundingRows)
    : r.barTs = b.ts := by
  rw [BarStep.fundingRows, List.mem_map] at hr
  obtain ⟨c, -, rfl⟩ := hr
  rfl

end rows

section drift

/--
Half a unit in the eighth place for each row.
-/
def drift (rows : ℕ) : ℚ :=
  rows * (1 / (2 * 10 ^ 8))

theorem drift_mono {m n : ℕ} (h : m ≤ n) : drift m ≤ drift n := by
  unfold drift
  gcongr

theorem drift_le_stateAccEps {n : ℕ} (h : n ≤ 20000) : drift n ≤ stateAccEps := by
  have hmono := drift_mono h
  have hbound : drift 20000 = stateAccEps := by
    norm_num [drift, stateAccEps]
  rwa [hbound] at hmono

theorem abs_sum_round8_sub_le (l : List ℚ) : |(l.map round8).sum - l.sum| ≤ drift l.length := by
  have h := roundDp.abs_sum_sub_le 8 id l
  rw [List.map_id] at h
  exact h

/--
A rounded total against the total of the rounded amounts.
-/
theorem abs_round8_sum_sub_le (l : List ℚ)
    : |round8 l.sum - (l.map round8).sum| ≤ drift (l.length + 1) := by
  have hround : |round8 l.sum - l.sum| ≤ 1 / (2 * 10 ^ 8) := roundDp.abs_sub_le 8 l.sum
  have hsum := abs_sum_round8_sub_le l
  rw [abs_sub_comm] at hsum
  have htri := abs_sub_le (round8 l.sum) l.sum (l.map round8).sum
  unfold drift at hsum ⊢
  push_cast
  linarith

theorem map_flatMap_round8 {α : Type} {rows : BarStep → List α} {value : α → ℚ}
    {amounts : BarStep → List ℚ} (h : ∀ b, (rows b).map value = (amounts b).map round8)
    (steps : List BarStep)
    : (steps.flatMap rows).map value = (steps.flatMap amounts).map round8 := by
  rw [List.map_flatMap, List.map_flatMap]
  congr 1
  exact funext h

theorem length_flatMap_amounts {α : Type} {rows : BarStep → List α} {value : α → ℚ}
    {amounts : BarStep → List ℚ} (h : ∀ b, (rows b).map value = (amounts b).map round8)
    (steps : List BarStep) : (steps.flatMap amounts).length = (steps.flatMap rows).length := by
  have hmap := congrArg List.length (map_flatMap_round8 h steps)
  rw [List.length_map, List.length_map] at hmap
  exact hmap.symm

/--
An accumulator against the total of the rows it sums up.
-/
theorem near_total {α : Type} {rows : BarStep → List α} {value : α → ℚ}
    {amounts : BarStep → List ℚ} (h : ∀ b, (rows b).map value = (amounts b).map round8)
    {done : List BarStep} {acc : ℚ} (hacc : acc = (done.flatMap amounts).sum)
    (hsize : (done.flatMap rows).length ≤ 20000)
    : |acc - ((done.flatMap rows).map value).sum| ≤ stateAccEps := by
  rw [hacc, map_flatMap_round8 h, abs_sub_comm]
  apply (abs_sum_round8_sub_le _).trans
  rw [length_flatMap_amounts h]
  exact drift_le_stateAccEps hsize

/--
The same for the accumulator as an equity row rounds it.
-/
theorem follows_of_total {α : Type} {rows : BarStep → List α} {value : α → ℚ}
    {amounts : BarStep → List ℚ} (h : ∀ b, (rows b).map value = (amounts b).map round8)
    {done : List BarStep} {acc : ℚ} (hacc : acc = (done.flatMap amounts).sum)
    (hsize : (done.flatMap rows).length < 20000)
    : |round8 acc - ((done.flatMap rows).map value).sum| ≤ stateAccEps := by
  rw [hacc, map_flatMap_round8 h]
  apply (abs_round8_sum_sub_le _).trans
  rw [length_flatMap_amounts h]
  exact drift_le_stateAccEps hsize

end drift

section follows

/--
Ledgers short enough for the roundings of their rows to stay below the tolerance.
-/
structure ShortLedgers (l : Ledgers) : Prop where
  fills : l.fills.length < 20000
  trades : l.trades.length < 20000
  funding : l.funding.length < 20000

variable {snapshots : List SnapshotRow} {pre post : List BarStep} {b : BarStep}

theorem length_flatMap_filter_le {α : Type} (rows : BarStep → List α) (p : BarStep → Bool)
    (steps : List BarStep)
    : ((steps.filter p).flatMap rows).length ≤ (steps.flatMap rows).length :=
  (List.Sublist.flatMap List.filter_sublist _).length_le

theorem SplitAt.realizedFollows (h : SplitAt cfg M book steps pre post b)
    (htotals : BookTotals book.peakEquity pre b.before)
    (hshort : (stepsLedgers cfg steps snapshots).trades.length < 20000)
    : RealizedFollows (stepsLedgers cfg steps snapshots).trades b.equityRow := by
  obtain ⟨prices, index, windowStart, hspec⟩ := h.spec
  have hfilter : (stepsLedgers cfg steps snapshots).trades.filter (fun t => t.exitBarTs < b.ts)
      = (steps.filter (fun c => c.ts < b.ts)).flatMap BarStep.tradeRows :=
    filter_flatMap_ts (fun ts => ts < b.ts) (fun _ _ _ ht => tradeRows_ts ht)
  have hsize := length_flatMap_filter_le BarStep.tradeRows (fun c => c.ts < b.ts) steps
  show |round8 b.acc.realizedGross - (((stepsLedgers cfg steps snapshots).trades.filter
    (fun t => t.exitBarTs < b.ts)).map TradeRow.grossPnl).sum| ≤ stateAccEps
  rw [hfilter]
  rw [h.filter_lt] at hsize ⊢
  apply follows_of_total BarStep.map_grossPnl
  . rw [hspec.acc]
    exact htotals.realized
  . exact hsize.trans_lt hshort

theorem SplitAt.feesCumFollow (h : SplitAt cfg M book steps pre post b)
    (htotals : BookTotals book.peakEquity pre b.before)
    (hshort : (stepsLedgers cfg steps snapshots).fills.length < 20000)
    : FeesCumFollow (stepsLedgers cfg steps snapshots).fills b.equityRow := by
  obtain ⟨prices, index, windowStart, hspec⟩ := h.spec
  have hfilter : (stepsLedgers cfg steps snapshots).fills.filter (fun f => f.signalBarTs < b.ts)
      = (steps.filter (fun c => c.ts < b.ts)).flatMap (fun c => c.fillRows cfg) :=
    filter_flatMap_ts (fun ts => ts < b.ts) (fun _ _ _ hf => fillRows_ts cfg hf)
  have hsize := length_flatMap_filter_le (fun c => c.fillRows cfg) (fun c => c.ts < b.ts) steps
  show |round8 b.acc.feesCum - (((stepsLedgers cfg steps snapshots).fills.filter
    (fun f => f.signalBarTs < b.ts)).map FillRow.fee).sum| ≤ stateAccEps
  rw [hfilter]
  rw [h.filter_lt] at hsize ⊢
  apply follows_of_total (BarStep.map_fee cfg)
  . rw [hspec.acc]
    exact htotals.fees
  . exact hsize.trans_lt hshort

theorem SplitAt.fundingCumFollows (h : SplitAt cfg M book steps pre post b)
    (htotals : BookTotals book.peakEquity (pre ++ [b]) b.next)
    (hshort : (stepsLedgers cfg steps snapshots).funding.length < 20000)
    : FundingCumFollows (stepsLedgers cfg steps snapshots).funding b.equityRow := by
  obtain ⟨prices, index, windowStart, hspec⟩ := h.spec
  have hfilter : (stepsLedgers cfg steps snapshots).funding.filter (fun r => r.barTs ≤ b.ts)
      = (steps.filter (fun c => c.ts ≤ b.ts)).flatMap BarStep.fundingRows :=
    filter_flatMap_ts (fun ts => ts ≤ b.ts) (fun _ _ _ hr => fundingRows_ts hr)
  have hsize := length_flatMap_filter_le BarStep.fundingRows (fun c => c.ts ≤ b.ts) steps
  show |round8 b.acc.fundingCum - (((stepsLedgers cfg steps snapshots).funding.filter
    (fun r => r.barTs ≤ b.ts)).map FundingRow.fundingAmount).sum| ≤ stateAccEps
  rw [hfilter]
  rw [h.filter_le] at hsize ⊢
  apply follows_of_total BarStep.map_fundingAmount
  . rw [hspec.acc]
    exact htotals.funding
  . exact hsize.trans_lt hshort

/--
The funding rows of a symbol on some of the bars.
-/
theorem map_fundingAmount_of (symbol : String) (b : BarStep)
    : (b.fundingRows.filter (fun r => r.symbol = symbol)).map FundingRow.fundingAmount
        = (b.amountsOf symbol).map round8 := by
  rw [BarStep.fundingRows, List.filter_map, List.map_map, BarStep.amountsOf, List.map_map]
  rfl

theorem filter_funding_symbol (p : String → Prop) [DecidablePred p] (symbol : String)
    (steps : List BarStep)
    : (steps.flatMap BarStep.fundingRows).filter (fun r => r.symbol = symbol ∧ p r.barTs)
        = (steps.filter (fun b => p b.ts)).flatMap
            (fun b => b.fundingRows.filter (fun r => r.symbol = symbol)) := by
  have hfilter : (steps.flatMap BarStep.fundingRows).filter (fun r => p r.barTs)
      = (steps.filter (fun b => p b.ts)).flatMap BarStep.fundingRows :=
    filter_flatMap_ts (fun ts => p ts) (fun _ _ _ hr => fundingRows_ts hr)
  rw [← List.filter_flatMap, ← hfilter, List.filter_filter]
  apply List.filter_congr
  intro r _
  simp

theorem length_fundingOf_le (p : String → Prop) [DecidablePred p] (symbol : String)
    (steps : List BarStep)
    : ((steps.filter (fun b => p b.ts)).flatMap
        (fun b => b.fundingRows.filter (fun r => r.symbol = symbol))).length
          ≤ (steps.flatMap BarStep.fundingRows).length := by
  rw [← filter_funding_symbol p symbol]
  exact List.length_filter_le _ _

theorem fundingFollows_of_exit {x : Exit}
    (hfunding : x.pos.fundingAccrued
      = chargedOn (barsBetween steps x.pos.entryBarTs b.ts) x.symbol)
    (hshort : (stepsLedgers cfg steps snapshots).funding.length < 20000)
    : FundingFollows (stepsLedgers cfg steps snapshots).funding (x.tradeRow b.ts b.commitId) := by
  have hrows : bookedFunding (stepsLedgers cfg steps snapshots).funding x.symbol x.pos.entryBarTs
      b.ts = (barsBetween steps x.pos.entryBarTs b.ts).flatMap
        (fun c => c.fundingRows.filter (fun r => r.symbol = x.symbol)) :=
    filter_funding_symbol (fun ts => x.pos.entryBarTs < ts ∧ ts ≤ b.ts) x.symbol steps
  show |round8 x.pos.fundingAccrued - fundingTotal (bookedFunding
    (stepsLedgers cfg steps snapshots).funding x.symbol x.pos.entryBarTs b.ts)| ≤ rederiveEps
  rw [hrows]
  apply follows_of_total (map_fundingAmount_of x.symbol) hfunding
  exact (length_fundingOf_le (fun ts => x.pos.entryBarTs < ts ∧ ts ≤ b.ts) x.symbol steps).trans_lt
    hshort

theorem drift_le_rederiveEps {n : ℕ} (h : n ≤ 20000) : drift n ≤ rederiveEps :=
  drift_le_stateAccEps h

variable (snapshots) in
/--
The fill that entered what an exit leaves.
-/
theorem Chain.entryFill (h : Chain cfg M book steps final) (hempty : book.openPositions = ∅)
    (hb : b ∈ steps) {x : Exit} (hx : x ∈ b.exits)
    : ∃ entry ∈ (stepsLedgers cfg steps snapshots).fills, EnteredAs x.symbol x.pos entry := by
  obtain ⟨pre, post, hsplit⟩ := h.split hb
  obtain ⟨prices, index, windowStart, hspec⟩ := hsplit.spec
  obtain ⟨pos, hheld, hsame, -, -⟩ := hspec.exit_accrued hx
  obtain ⟨open?, hinv⟩ := hsplit.chain.tripInv hempty x.symbol
  have hentered := hinv.held
  rw [hheld] at hentered
  cases hentered with
  | @some _ entry entered =>
    refine ⟨entry, ?_, entered.sameEntry hsame⟩
    have hmem := hinv.trips.mem_entry
    rw [List.mem_flatMap] at hmem
    obtain ⟨c, hc, hentry⟩ := hmem
    rw [stepsLedgers, List.mem_flatMap]
    refine ⟨c, ?_, List.mem_of_mem_filter hentry⟩
    rw [hsplit.eq]
    exact List.mem_append_left _ hc

variable (cfg snapshots) in
theorem exitFill_mem (hb : b ∈ steps) {x : Exit} (hx : x ∈ b.exits)
    : x.fillRow cfg b.ts b.commitId ∈ (stepsLedgers cfg steps snapshots).fills := by
  rw [stepsLedgers, List.mem_flatMap]
  exact ⟨b, hb, List.mem_append_left _ (List.mem_map_of_mem hx)⟩

theorem Chain.feesFollow (h : Chain cfg M book steps final) (hempty : book.openPositions = ∅)
    (hids : ((stepsLedgers cfg steps snapshots).fills.map FillRow.fillId).Nodup)
    (hb : b ∈ steps) {x : Exit} (hx : x ∈ b.exits)
    : FeesFollow (stepsLedgers cfg steps snapshots).fills (x.tradeRow b.ts b.commitId) := by
  obtain ⟨entry, hentry, entered⟩ := h.entryFill snapshots hempty hb hx
  refine ⟨entry, x.fillRow cfg b.ts b.commitId, ?_,
    lastWith_of_nodup hids (exitFill_mem cfg snapshots hb hx), ?_⟩
  . have hlast := lastWith_of_nodup hids hentry
    rw [← entered.id] at hlast
    exact hlast
  . show |round8 (x.pos.entryFee + x.fee) - (entry.fee + round8 x.fee)| ≤ rederiveEps
    rw [← entered.fee]
    have hsum := abs_round8_sum_sub_le [x.pos.entryFee, x.fee]
    simp only [List.sum_cons, List.sum_nil, List.map_cons, List.map_nil, add_zero,
      List.length_cons, List.length_nil] at hsum
    exact hsum.trans (drift_le_rederiveEps (by norm_num))

/--
Whatever the bars, every column of the ledgers follows from the ledgers below it.
-/
theorem Chain.accountingFollows (h : Chain cfg M book steps final)
    (hempty : book.openPositions = ∅)
    (hzero : book.acc = { realizedGross := 0, feesCum := 0, fundingCum := 0 })
    (hids : ((stepsLedgers cfg steps snapshots).fills.map FillRow.fillId).Nodup)
    (hshort : ShortLedgers (stepsLedgers cfg steps snapshots))
    : AccountingFollows (stepsLedgers cfg steps snapshots) := by
  have htrade : ∀ t ∈ (stepsLedgers cfg steps snapshots).trades, ∃ b ∈ steps, ∃ x ∈ b.exits,
      x.tradeRow b.ts b.commitId = t := by
    intro t ht
    simpa [stepsLedgers, BarStep.tradeRows] using ht
  have hequity : ∀ e ∈ (stepsLedgers cfg steps snapshots).equity, ∃ b ∈ steps, b.equityRow = e := by
    intro e he
    simpa [stepsLedgers] using he
  constructor
  case fees =>
    intro t ht
    obtain ⟨b, hb, x, hx, rfl⟩ := htrade t ht
    exact h.feesFollow hempty hids hb hx
  case funding =>
    intro t ht
    obtain ⟨b, hb, x, hx, rfl⟩ := htrade t ht
    exact fundingFollows_of_exit (h.closed hempty hb hx).2.2 hshort.funding
  case realized =>
    intro e he
    obtain ⟨b, hb, rfl⟩ := hequity e he
    obtain ⟨pre, post, hsplit⟩ := h.split hb
    exact hsplit.realizedFollows (hsplit.chain.bookTotals hzero) hshort.trades
  case feesCum =>
    intro e he
    obtain ⟨b, hb, rfl⟩ := hequity e he
    obtain ⟨pre, post, hsplit⟩ := h.split hb
    exact hsplit.feesCumFollow (hsplit.chain.bookTotals hzero) hshort.fills
  case fundingCum =>
    intro e he
    obtain ⟨b, hb, rfl⟩ := hequity e he
    obtain ⟨pre, post, hsplit⟩ := h.split hb
    exact hsplit.fundingCumFollows (hsplit.through.bookTotals hzero) hshort.funding

end follows

theorem everyBar_shortLedgers {r : EngineResult} {snapshots : List SnapshotRow}
    (htrades : r.trades.length = 1) (hfunding : r.funding.length = 2)
    (hfills : (r.fills fundedConfig).length = 2)
    : ShortLedgers (runsLedgers fundedConfig [(everyBarInput, r)] snapshots) := by
  constructor
  . simp [runsLedgers, runsFills, hfills]
  . simp [runsLedgers, runsTrades, htrades]
  . simp [runsLedgers, runsFunding, hfunding]

end Quantbot
