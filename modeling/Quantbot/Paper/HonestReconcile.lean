import Quantbot.Paper.HonestRows

/-!
The ledgers that runs over an orderly market leave pass `reconcile`.
-/

namespace Quantbot

open Reconcile

variable {cfg : PaperConfig} {range : String → PriceRange} {book final : Book}
  {steps : List BarStep} {snapshots : List SnapshotRow} {b : BarStep}

section equity

variable {M : PriceBook → FundingIndex → BarStep → Prop} {prices : PriceBook} {index : FundingIndex}
  {windowStart : String}

/--
The equity of a row from its own columns.
-/
theorem StepSpec.equity_identity (h : StepSpec cfg prices index windowStart b)
    : |recomputedEquity cfg b.equityRow - b.equityRow.equity| ≤ 1 / 10000 := by
  have hrealized := abs_le.mp (abs_round8_sub_le b.acc.realizedGross)
  have hfees := abs_le.mp (abs_round8_sub_le b.acc.feesCum)
  have hfunding := abs_le.mp (abs_round8_sub_le b.acc.fundingCum)
  have hunrealized := abs_le.mp (abs_round8_sub_le b.unrealized)
  have hequity := abs_le.mp (abs_round8_sub_le b.equity)
  have hsum := h.equity
  unfold recomputedEquity BarStep.equityRow
  dsimp only
  rw [abs_le]
  constructor <;> linarith

/--
The fees paid so far never fall.
-/
theorem Bounded.feesCum_le (h : Bounded cfg range prices index windowStart b)
    (htame : Tame cfg range) : b.before.acc.feesCum ≤ b.next.acc.feesCum := by
  have hexits : 0 ≤ (b.exits.map Exit.fee).sum := by
    apply List.sum_nonneg
    intro fee hfee
    obtain ⟨x, hx, rfl⟩ := List.mem_map.mp hfee
    exact (h.exit htame hx).fee_nonneg htame
  have hentries : 0 ≤ (b.entries.map Entry.fee).sum := by
    apply List.sum_nonneg
    intro fee hfee
    obtain ⟨e, he, rfl⟩ := List.mem_map.mp hfee
    exact (h.spec.entered h.market htame he).fee_nonneg htame
  rw [h.spec.next_fees]
  linarith

/--
The drawdown of a row, with the running peak of the rows instead of that of the engine.
-/
theorem StepSpec.drawdown_checked (h : StepSpec cfg prices index windowStart b)
    (hsolvent : 0 ≤ b.equity) {peak : ℚ} (hone : 1 ≤ peak) (hone' : 1 ≤ b.before.peakEquity)
    (hpeak : |peak - b.before.peakEquity| ≤ 1 / (2 * 10 ^ 8))
    : (-eps ≤ b.equityRow.drawdown ∧ b.equityRow.drawdown ≤ 1 + eps)
        ∧ |drawdownFrom (max peak b.equityRow.equity) b.equityRow.equity - b.equityRow.drawdown|
            ≤ drawdownEps := by
  have hengine : 1 ≤ b.peakEquity := by
    rw [h.peak, h.next_peak]
    exact hone'.trans (le_max_left _ _)
  have hle : b.equity ≤ b.peakEquity := by
    rw [h.peak, h.next_peak]
    exact le_max_right _ _
  have hrow : 1 ≤ max peak b.equityRow.equity := hone.trans (le_max_left _ _)
  have hequity : |b.equityRow.equity - b.equity| ≤ 1 / (2 * 10 ^ 8) := abs_round8_sub_le b.equity
  have hpeaks : |max peak b.equityRow.equity - b.peakEquity| ≤ 1 / (2 * 10 ^ 8) := by
    rw [h.peak, h.next_peak]
    exact abs_max_sub_max_le hpeak hequity
  have hshare := abs_div_sub_div_le hequity hpeaks hsolvent hle hengine hrow
  have hdrawdown : b.drawdown = 1 - b.equity / b.peakEquity := by
    unfold BarStep.drawdown
    rw [if_pos (by linarith), sub_div, div_self (by linarith)]
  have hbounds : 0 ≤ b.drawdown ∧ b.drawdown ≤ 1 := by
    have hratio : b.equity / b.peakEquity ≤ 1 := by
      rwa [div_le_one (by linarith)]
    have hnonneg : 0 ≤ b.equity / b.peakEquity := div_nonneg hsolvent (by linarith)
    rw [hdrawdown]
    constructor <;> linarith
  have hround : |b.equityRow.drawdown - b.drawdown| ≤ 1 / (2 * 10 ^ 8) :=
    abs_round8_sub_le b.drawdown
  have hfrom : drawdownFrom (max peak b.equityRow.equity) b.equityRow.equity
      = 1 - b.equityRow.equity / max peak b.equityRow.equity := by
    unfold drawdownFrom
    rw [if_pos (by linarith), sub_div, div_self (by linarith)]
  rw [abs_le] at hround hshare
  rw [hfrom, abs_le]
  norm_num [eps, drawdownEps]
  norm_num at hround hshare
  refine ⟨⟨?_, ?_⟩, ?_, ?_⟩ <;> linarith

theorem Chain.equityFailures_eq_nil (h : Chain cfg M book steps final)
    (hbars : ∀ b ∈ steps, ∃ prices index windowStart, Bounded cfg range prices index windowStart b)
    (htame : Tame cfg range) {peak : ℚ} {prevFees : Option ℚ} (hone : 1 ≤ peak)
    (hone' : 1 ≤ book.peakEquity) (hpeak : |peak - book.peakEquity| ≤ 1 / (2 * 10 ^ 8))
    (hfees : ∀ fees ∈ prevFees, fees ≤ round8 book.acc.feesCum)
    : equityFailures cfg peak prevFees (steps.map BarStep.equityRow) = [] := by
  induction h generalizing peak prevFees with
  | nil => rfl
  | @cons _ _ book final obs b steps market past bar rest ih =>
    rw [List.forall_mem_cons] at hbars
    obtain ⟨prices, index, windowStart, hbounded⟩ := hbars.1
    have hspec := hbounded.spec
    have hbefore := (processBar_before bar).1
    rw [← hbefore] at hone' hpeak hfees
    have hrow : |b.equityRow.equity - b.equity| ≤ 1 / (2 * 10 ^ 8) := abs_round8_sub_le b.equity
    obtain ⟨hrange, hdrawdown⟩ := hspec.drawdown_checked hbounded.market.solvent hone hone' hpeak
    have hpaid : b.equityRow.feesCum = round8 b.before.acc.feesCum := by
      show round8 b.acc.feesCum = _
      rw [hspec.acc]
    rw [List.map_cons, equityFailures, List.append_eq_nil_iff, equityRowFailures_eq_nil]
    refine ⟨⟨hspec.equity_identity, hrange, hdrawdown, ?_⟩, ?_⟩
    . intro fees hmem
      rw [hpaid]
      have hle := hfees fees hmem
      norm_num [eps]
      linarith
    . apply ih hbars.2
      . exact hone.trans (le_max_left _ _)
      . rw [hspec.next_peak]
        exact hone'.trans (le_max_left _ _)
      . rw [hspec.next_peak]
        exact abs_max_sub_max_le hpeak hrow
      . rintro fees ⟨⟩
        rw [hpaid]
        exact roundDp.mono (hbounded.feesCum_le htame)

end equity

section positions

variable {prices : PriceBook} {index : FundingIndex} {windowStart : String}

/--
After a bar only symbols of its observation are open.
-/
theorem StepSpec.next_active (h : StepSpec cfg prices index windowStart b) {symbol : String}
    {pos : Position} (hpos : b.next.openPositions[symbol]? = some pos)
    : symbol ∈ b.obs.activeSymbols := by
  rcases h.next_getElem? symbol with ⟨e, he, rfl, -⟩ | ⟨x, -, -, hnext⟩ | ⟨hexit, -, hnext⟩
  . obtain ⟨nb, -, hactive, -⟩ := h.entry_of_mem e he
    exact hactive
  . rw [hnext] at hpos
    cases hpos
  . rw [hnext, Option.map_eq_some_iff] at hpos
    obtain ⟨pos', hheld, -⟩ := hpos
    rw [h.mem_exits_symbols, hheld] at hexit
    by_contra hactive
    exact hexit ⟨rfl, hactive⟩

theorem Chain.breadth (h : Chain cfg (Orderly cfg range) book steps final)
    (hempty : book.openPositions = ∅) : final.openPositions.toList.length ≤ 100 := by
  apply h.invariant (fun _ book' => book'.openPositions.toList.length ≤ 100) []
  . rw [hempty]
    simp
  . intro done prices index windowStart b market _ hspec _
    have hnodup := map_toList_nodup b.next.openPositions
    have hsubset : b.next.openPositions.toList.map Prod.fst ⊆ b.obs.activeSymbols := by
      intro symbol hsymbol
      obtain ⟨p, hp, rfl⟩ := List.mem_map.mp hsymbol
      rw [mem_toList_iff] at hp
      exact hspec.next_active hp
    have hle := (hnodup.subperm hsubset).length_le
    rw [List.length_map] at hle
    exact hle.trans market.breadth

/--
What an open position cost, from its fill row.
-/
theorem Chain.entryNotional_eq {M : PriceBook → FundingIndex → BarStep → Prop}
    (h : Chain cfg M book steps final) (hempty : book.openPositions = ∅) {symbol : String}
    {pos : Position} (hpos : final.openPositions[symbol]? = some pos)
    : entryNotional (stepsLedgers cfg steps snapshots).fills symbol
        = round8 pos.entryPrice * roundDp 10 pos.qty := by
  obtain ⟨entry, hinv⟩ := h.tripInv hempty symbol
  have hheld := hinv.held
  have htrips := hinv.trips
  rw [hpos] at hheld
  rw [← filter_fills_symbol cfg steps snapshots] at htrips
  cases hheld with
  | @some _ entry entered =>
    rw [entryNotional, htrips.lastEntryFill, entered.price, entered.qty]
    rfl

/--
Exposure less unrealized profit is what the marked positions cost.
-/
theorem StepSpec.exposure_sub (h : StepSpec cfg prices index windowStart b)
    : b.grossExposure - b.unrealized
        = ((markedPositions prices b.ts b.before.openPositions).map
            (fun m => m.1.entryPrice * m.1.qty)).sum := by
  rw [h.grossExposure, h.unrealized]
  induction markedPositions prices b.ts b.before.openPositions with
  | nil => simp
  | cons m l ih =>
    simp only [List.map_cons, List.sum_cons]
    rw [← ih]
    ring

theorem Bounded.grossExposure_nonneg (h : Bounded cfg range prices index windowStart b)
    (htame : Tame cfg range) : 0 ≤ b.grossExposure := by
  rw [h.spec.grossExposure]
  apply List.sum_nonneg
  intro value hvalue
  obtain ⟨m, hm, rfl⟩ := List.mem_map.mp hvalue
  obtain ⟨⟨symbol, pos⟩, hp, hmark⟩ := List.mem_filterMap.mp hm
  rw [mem_toList_iff] at hp
  obtain ⟨close, hclose, rfl⟩ := Option.map_eq_some_iff.mp hmark
  have hqty := (h.held symbol pos hp).entered.qty_ge htame
  have hlo := (h.market.closes symbol b.ts close (le_refl b.ts) hclose).1
  exact mul_nonneg (by linarith) ((htame.lo_pos symbol).le.trans hlo)

variable (snapshots) in
theorem Chain.cost_near (h : Chain cfg (Orderly cfg range) book steps final)
    (hempty : book.openPositions = ∅) (htame : Tame cfg range)
    : |(final.openPositions.toList.map (fun p => p.2.entryPrice * p.2.qty)).sum
        - ((openBook (stepsLedgers cfg steps snapshots).fills).map
            (entryNotional (stepsLedgers cfg steps snapshots).fills)).sum| ≤ 9 / 10 ^ 3 := by
  rw [← h.openBook_eq hempty, ← Std.ExtTreeMap.map_fst_toList_eq_keys, List.map_map]
  have hnear := abs_sum_map_sub_le (l := final.openPositions.toList) (ε := 9 / 10 ^ 5)
    (f := fun p => p.2.entryPrice * p.2.qty)
    (g := entryNotional (stepsLedgers cfg steps snapshots).fills ∘ Prod.fst) (by
      intro p hp
      rw [mem_toList_iff] at hp
      have hentered := (h.orderlyPosition hempty htame hp).entered
      have hsized := hentered.sized htame hentered.lo_le hentered.le_hi
      rw [Function.comp_apply, h.entryNotional_eq hempty hp, abs_sub_comm]
      exact hsized.abs_value_sub_le)
  have hlength : (final.openPositions.toList.length : ℚ) ≤ 100 := by
    exact_mod_cast h.breadth hempty
  apply hnear.trans
  linarith

theorem SplitAt.bookBefore_eq {M : PriceBook → FundingIndex → BarStep → Prop}
    {pre post : List BarStep} (h : SplitAt cfg M book steps pre post b)
    : bookBefore (stepsLedgers cfg steps snapshots).fills b.ts
        = (stepsLedgers cfg pre snapshots).fills := by
  have hfilter : (stepsLedgers cfg steps snapshots).fills.filter (fun f => f.signalBarTs < b.ts)
      = (steps.filter (fun c => c.ts < b.ts)).flatMap (fun c => c.fillRows cfg) :=
    filter_flatMap_ts (fun ts => ts < b.ts) (fun _ _ _ hf => fillRows_ts cfg hf)
  rw [bookBefore, hfilter, h.filter_lt]
  rfl

theorem Chain.positionsChecked (h : Chain cfg (Orderly cfg range) book steps final)
    (hempty : book.openPositions = ∅) (htame : Tame cfg range) (hb : b ∈ steps)
    : PositionsChecked (stepsLedgers cfg steps snapshots).fills
        (stepsLedgers cfg steps snapshots).equity b.positionsRow := by
  obtain ⟨pre, post, hsplit⟩ := h.split hb
  obtain ⟨prices, index, windowStart, hbounded⟩ := h.bounded hempty htame hb
  have hbook : bookBefore (stepsLedgers cfg steps snapshots).fills b.positionsRow.barTs
      = (stepsLedgers cfg pre snapshots).fills :=
    hsplit.bookBefore_eq
  have hopen : b.openSymbols = openBook (stepsLedgers cfg pre snapshots).fills :=
    hsplit.chain.openBook_eq hempty
  constructor
  case openSymbols =>
    rw [hbook]
    exact hopen
  case numOpen =>
    rw [hbook, ← hopen]
    rfl
  case exposure =>
    intro e he
    have hnodup : ((stepsLedgers cfg steps snapshots).equity.map EquityRow.barTs).Nodup := by
      rw [stepsLedgers, List.map_map]
      exact h.nodup_ts
    have hrow : b.equityRow ∈ (stepsLedgers cfg steps snapshots).equity := List.mem_map_of_mem hb
    have hlast := lastWith_of_nodup hnodup hrow
    rw [show b.equityRow.barTs = b.positionsRow.barTs from rfl, he] at hlast
    cases hlast
    have hcost := hsplit.chain.cost_near snapshots hempty htame
    have hmarked : 0 ≤ b.grossExposure - b.unrealized
        ∧ b.grossExposure - b.unrealized
          ≤ (b.before.openPositions.toList.map (fun p => p.2.entryPrice * p.2.qty)).sum := by
      rw [hbounded.spec.exposure_sub]
      apply sum_map_filterMap_mem
      rintro ⟨symbol, pos⟩ hp
      rw [mem_toList_iff] at hp
      have hentered := (hbounded.held symbol pos hp).entered
      have hprice := hentered.price_pos htame
      have hqty := hentered.qty_ge htame
      refine ⟨mul_nonneg hprice.le (by linarith), ?_⟩
      intro m hm
      obtain ⟨close, -, rfl⟩ := Option.map_eq_some_iff.mp hm
      rfl
    have hgross := abs_le.mp (abs_round8_sub_le b.grossExposure)
    have hunrealized := abs_le.mp (abs_round8_sub_le b.unrealized)
    rw [hbook]
    rw [abs_le] at hcost
    show -exposureEps ≤ round8 b.grossExposure - round8 b.unrealized
      ∧ round8 b.grossExposure - round8 b.unrealized ≤ _ + exposureEps
    norm_num [exposureEps]
    constructor <;> linarith

end positions

section identities

variable {M : PriceBook → FundingIndex → BarStep → Prop}

/--
One frozen snapshot for each bar, with the bar's commit id.
-/
structure FrozenBars (steps : List BarStep) (snapshots : List SnapshotRow) : Prop where
  bars : (snapshots.map (fun s => (s.barTs, s.barCommitId))).Perm
    (steps.map (fun b => (b.ts, b.commitId)))
  ids : (snapshots.map SnapshotRow.snapshotId).Nodup
  shape : ∀ s ∈ snapshots, s.checks.badFields = []

theorem FrozenBars.barTs (h : FrozenBars steps snapshots)
    : (snapshots.map SnapshotRow.barTs).Perm (steps.map BarStep.ts) := by
  have hmap := h.bars.map Prod.fst
  rwa [List.map_map, List.map_map] at hmap

theorem validCommitId_shortDigest (s : String) : validCommitId (shortDigest s) := by
  unfold validCommitId
  simp only [length_shortDigest, true_and, decide_eq_true_eq, List.all_eq_true]
  intro c hc
  exact mem_shortDigest hc

theorem Chain.validCommitId (h : Chain cfg M book steps final) (hb : b ∈ steps)
    : Reconcile.validCommitId b.commitId := by
  obtain ⟨prices, index, windowStart, -, hspec⟩ := h.forall_spec b hb
  rw [hspec.commit]
  exact validCommitId_shortDigest _

theorem Chain.committed (h : Chain cfg M book steps final) (hfrozen : FrozenBars steps snapshots)
    (hb : b ∈ steps) : Committed snapshots b.ts b.commitId := by
  have hmem : (b.ts, b.commitId) ∈ snapshots.map (fun s => (s.barTs, s.barCommitId)) := by
    rw [hfrozen.bars.mem_iff]
    exact List.mem_map_of_mem hb
  obtain ⟨s, hs, heq⟩ := List.mem_map.mp hmem
  rw [Prod.mk.injEq] at heq
  have hnodup : (snapshots.map SnapshotRow.barTs).Nodup := hfrozen.barTs.nodup_iff.mpr h.nodup_ts
  have hlast := lastWith_of_nodup hnodup hs
  rw [heq.1] at hlast
  exact ⟨h.validCommitId hb, s, hlast, fun _ => heq.2.symm⟩

theorem Chain.commits (h : Chain cfg M book steps final) (hfrozen : FrozenBars steps snapshots)
    : Commits (stepsLedgers cfg steps snapshots) := by
  constructor
  case snapshots =>
    intro s hs
    have hmem : (s.barTs, s.barCommitId) ∈ steps.map (fun b => (b.ts, b.commitId)) := by
      rw [← hfrozen.bars.mem_iff]
      exact List.mem_map_of_mem hs
    obtain ⟨b, hb, heq⟩ := List.mem_map.mp hmem
    rw [Prod.mk.injEq] at heq
    rw [← heq.2]
    exact h.validCommitId hb
  case fills =>
    intro f hf
    obtain ⟨b, hb, hrow⟩ := List.mem_flatMap.mp hf
    rw [BarStep.fillRows, List.mem_append, List.mem_map, List.mem_map] at hrow
    rcases hrow with ⟨x, -, rfl⟩ | ⟨e, -, rfl⟩
    . exact h.committed hfrozen hb
    . exact h.committed hfrozen hb
  case trades =>
    intro t ht
    obtain ⟨b, hb, hrow⟩ := List.mem_flatMap.mp ht
    obtain ⟨x, -, rfl⟩ := List.mem_map.mp hrow
    exact h.committed hfrozen hb
  case funding =>
    intro r hr
    obtain ⟨b, hb, hrow⟩ := List.mem_flatMap.mp hr
    obtain ⟨c, -, rfl⟩ := List.mem_map.mp hrow
    exact h.committed hfrozen hb
  case positions =>
    intro p hp
    obtain ⟨b, hb, rfl⟩ := List.mem_map.mp hp
    exact h.committed hfrozen hb
  case equity =>
    intro e he
    obtain ⟨b, hb, rfl⟩ := List.mem_map.mp he
    exact h.committed hfrozen hb

theorem Chain.snapshotTie (h : Chain cfg M book steps final) (hfrozen : FrozenBars steps snapshots)
    : SnapshotTie (stepsLedgers cfg steps snapshots) := by
  have hequity : (stepsLedgers cfg steps snapshots).equity.map EquityRow.barTs
      = steps.map BarStep.ts := by
    rw [stepsLedgers, List.map_map]
    rfl
  constructor
  case unique => exact hfrozen.barTs.nodup_iff.mpr h.nodup_ts
  case equity =>
    intro e he
    have hmem := List.mem_map_of_mem (f := EquityRow.barTs) he
    rw [hequity] at hmem
    exact hfrozen.barTs.mem_iff.mpr hmem
  case snapshot =>
    intro s hs
    rw [hequity]
    exact hfrozen.barTs.mem_iff.mp (List.mem_map_of_mem hs)

/--
The ids of the trades are those of the exit fills.
-/
theorem tradeIds_sublist (cfg : PaperConfig) (steps : List BarStep)
    : ((steps.flatMap BarStep.tradeRows).map TradeRow.tradeId).Sublist
        ((steps.flatMap (fun b => b.fillRows cfg)).map FillRow.fillId) := by
  rw [List.map_flatMap, List.map_flatMap]
  apply List.Sublist.flatMap_right
  intro b _
  rw [BarStep.tradeRows, BarStep.fillRows, List.map_append, List.map_map, List.map_map]
  exact List.sublist_append_left _ _

theorem Chain.fundingIds_nodup (h : Chain cfg M book steps final)
    (hts : ∀ b ∈ steps, ∃ d : DateTime, b.ts = d.strftime)
    : ((steps.flatMap BarStep.fundingRows).map FundingRow.fundingId).Nodup := by
  have hids (b : BarStep) : b.fundingRows.map FundingRow.fundingId
      = b.charges.map Charge.fundingId := by
    rw [BarStep.fundingRows, List.map_map]
    rfl
  rw [List.map_flatMap, List.nodup_flatMap]
  constructor
  . intro b hb
    obtain ⟨prices, index, windowStart, -, hspec⟩ := h.forall_spec b hb
    rw [hids]
    exact hspec.fundingIds_nodup (hts b hb)
  . apply h.pairwise_ts.imp_of_mem
    intro b b' hb hb' hlt
    obtain ⟨prices, index, windowStart, -, hspec⟩ := h.forall_spec b hb
    obtain ⟨prices', index', windowStart', -, hspec'⟩ := h.forall_spec b' hb'
    rw [Function.onFun, hids, hids]
    intro id hid hid'
    obtain ⟨c, hc, rfl⟩ := List.mem_map.mp hid
    obtain ⟨c', hc', heq⟩ := List.mem_map.mp hid'
    have heq' := (hspec.chargeId hc).ts_eq (hspec'.chargeId hc') (hts b hb) (hts b' hb') heq.symm
    exact hlt.ne heq'

theorem Chain.unique (h : Chain cfg M book steps final) (hfrozen : FrozenBars steps snapshots)
    (hts : ∀ b ∈ steps, ∃ d : DateTime, b.ts = d.strftime)
    (hids : ((stepsLedgers cfg steps snapshots).fills.map FillRow.fillId).Nodup)
    : Unique (stepsLedgers cfg steps snapshots) where
  fills := hids
  trades := hids.sublist (tradeIds_sublist cfg steps)
  funding := h.fundingIds_nodup hts
  equity := by
    rw [stepsLedgers, List.map_map]
    exact h.nodup_ts
  positions := by
    rw [stepsLedgers, List.map_map]
    exact h.nodup_ts
  snapshots := hfrozen.ids

end identities

section checked

/--
A bar of the forward window.
-/
def Forward (cfg : PaperConfig) (b : BarStep) : Prop :=
  ∃ start d, parseBarUtc cfg.forwardStartTs = .ok start ∧ parseBarUtc b.ts = .ok d ∧ start ≤ d

variable {prices : PriceBook} {index : FundingIndex} {windowStart : String}

/--
A bar fills at a later bar.
-/
theorem Bounded.fill_later (h : Bounded cfg range prices index windowStart b) {f : FillRow}
    (hf : f ∈ b.fillRows cfg) : b.ts < f.fillTs ∧ ∃ d : DateTime, f.fillTs = d.strftime := by
  rw [BarStep.fillRows, List.mem_append, List.mem_map, List.mem_map] at hf
  rcases hf with ⟨x, hx, rfl⟩ | ⟨e, he, rfl⟩
  . obtain ⟨pos, nb, -, -, hnext, heq⟩ := h.spec.exit_of_mem x hx
    have hts : x.nextTs = nb.1 := by
      rw [heq]
      rfl
    show b.ts < x.nextTs ∧ ∃ d : DateTime, x.nextTs = d.strftime
    rw [hts]
    exact h.market.next x.symbol nb hnext
  . obtain ⟨nb, -, -, hnext, hok⟩ := h.spec.entry_of_mem e he
    have hts : e.nextTs = nb.1 := by
      rw [(enterPosition_ok hok).2]
    show b.ts < e.nextTs ∧ ∃ d : DateTime, e.nextTs = d.strftime
    rw [hts]
    exact h.market.next e.symbol nb hnext

theorem Bounded.fillChecked (h : Bounded cfg range prices index windowStart b)
    (htame : Tame cfg range) (hforward : Forward cfg b) {f : FillRow} (hf : f ∈ b.fillRows cfg)
    : FillChecked cfg f := by
  have hsound := h.fillRow_sound htame hf
  obtain ⟨hlater, d', hd'⟩ := h.fill_later hf
  obtain ⟨start, d, hstart, hd, hle⟩ := hforward
  constructor
  case backfill =>
    rw [BarStep.fillRows, List.mem_append, List.mem_map, List.mem_map] at hf
    rcases hf with ⟨x, -, rfl⟩ | ⟨e, -, rfl⟩ <;> rfl
  case forward =>
    obtain ⟨d₀, hts⟩ := h.market.stamped
    rw [hts, parseBarUtc_strftime] at hd
    cases hd
    rw [hts, hd', strftime_lt_strftime] at hlater
    unfold beforeBoundary
    rw [hstart, hd', parseBarUtc_strftime]
    simpa using (hle.trans_lt hlater).le
  case side => exact hsound.checked
  case qty => exact hsound.qty
  case fee => exact hsound.fee

theorem Chain.tradeChecked (h : Chain cfg (Orderly cfg range) book steps final)
    (hempty : book.openPositions = ∅) (htame : Tame cfg range)
    (hids : ((stepsLedgers cfg steps snapshots).fills.map FillRow.fillId).Nodup)
    (hb : b ∈ steps) {x : Exit} (hx : x ∈ b.exits)
    : TradeChecked (stepsLedgers cfg steps snapshots).fills (x.tradeRow b.ts b.commitId) := by
  obtain ⟨prices, index, windowStart, hbounded⟩ := h.bounded hempty htame hb
  have hsound := hbounded.tradeRow_sound htame hx
  obtain ⟨entry, hentry, entered⟩ := h.entryFill snapshots hempty hb hx
  have hexit := exitFill_mem cfg snapshots hb hx
  constructor
  case gross => exact hsound.gross
  case net => exact hsound.net
  case holdBars =>
    obtain ⟨hlt, hhold, -⟩ := h.closed hempty hb hx
    obtain ⟨pre, post, hsplit⟩ := h.split hb
    rw [hsplit.barsBetween_eq hlt] at hhold
    show 1 ≤ x.pos.holdBars
    rw [hhold, List.length_append, List.length_singleton]
    omega
  case entryRef =>
    show x.pos.entryFillId ∈ _
    rw [entered.id]
    exact List.mem_map_of_mem hentry
  case exitRef => exact List.mem_map_of_mem (f := FillRow.fillId) hexit
  case entryPrice =>
    intro f hf
    have hlast := lastWith_of_nodup hids hentry
    rw [← entered.id] at hlast
    rw [show (x.tradeRow b.ts b.commitId).entryFillId = x.pos.entryFillId from rfl, hlast] at hf
    cases hf
    show |entry.fillPrice - round8 x.pos.entryPrice| ≤ eps
    rw [entered.price, sub_self, abs_zero]
    norm_num [eps]
  case exitPrice =>
    intro f hf
    have hlast := lastWith_of_nodup hids hexit
    rw [show (x.tradeRow b.ts b.commitId).exitFillId = (x.fillRow cfg b.ts b.commitId).fillId from rfl,
      hlast] at hf
    cases hf
    show |round8 x.fillPrice - round8 x.fillPrice| ≤ eps
    rw [sub_self, abs_zero]
    norm_num [eps]

theorem Chain.fundingTotal_checked {M : PriceBook → FundingIndex → BarStep → Prop}
    (h : Chain cfg M book steps final)
    (hfollows : AccountingFollows (stepsLedgers cfg steps snapshots)) {e : EquityRow}
    (he : (stepsLedgers cfg steps snapshots).equity.getLast? = some e)
    : |fundingTotal (stepsLedgers cfg steps snapshots).funding - e.fundingCum| ≤ 1 / 10000 := by
  have hcum := hfollows.fundingCum e (List.mem_of_getLast? he)
  have hall : (stepsLedgers cfg steps snapshots).funding.filter (fun r => r.barTs ≤ e.barTs)
      = (stepsLedgers cfg steps snapshots).funding := by
    rw [List.filter_eq_self]
    intro r hr
    obtain ⟨b, hb, hrow⟩ := List.mem_flatMap.mp hr
    rw [fundingRows_ts hrow, decide_eq_true_eq]
    rw [stepsLedgers, List.getLast?_map, Option.map_eq_some_iff] at he
    obtain ⟨last, hlast, rfl⟩ := he
    obtain ⟨pre, rfl⟩ := List.getLast?_eq_some_iff.mp hlast
    have hsorted := h.pairwise_ts
    rw [List.pairwise_append] at hsorted
    rw [List.mem_append, List.mem_singleton] at hb
    rcases hb with hb | rfl
    . exact (hsorted.2.2 b hb last (List.mem_singleton_self last)).le
    . exact le_refl b.ts
  unfold FundingCumFollows at hcum
  rw [hall, abs_sub_comm] at hcum
  exact hcum

theorem Chain.ledgersChecked (h : Chain cfg (Orderly cfg range) book steps final)
    (hempty : book.openPositions = ∅)
    (hzero : book.acc = { realizedGross := 0, feesCum := 0, fundingCum := 0 })
    (hpeak : book.peakEquity = cfg.initialEquityUsd) (htame : Tame cfg range)
    (hforward : ∀ b ∈ steps, Forward cfg b) (hfrozen : FrozenBars steps snapshots)
    (hids : ((stepsLedgers cfg steps snapshots).fills.map FillRow.fillId).Nodup)
    (hshort : ShortLedgers (stepsLedgers cfg steps snapshots))
    : LedgersChecked cfg (stepsLedgers cfg steps snapshots) := by
  have hbars : ∀ b ∈ steps, ∃ prices index windowStart,
      Bounded cfg range prices index windowStart b :=
    fun b hb => h.bounded hempty htame hb
  have hstamped : ∀ b ∈ steps, ∃ d : DateTime, b.ts = d.strftime := by
    intro b hb
    obtain ⟨prices, index, windowStart, hbounded⟩ := hbars b hb
    exact hbounded.market.stamped
  constructor
  case unique => exact h.unique hfrozen hstamped hids
  case snapshots => exact h.snapshotTie hfrozen
  case commits => exact h.commits hfrozen
  case fills =>
    intro f hf
    obtain ⟨b, hb, hrow⟩ := List.mem_flatMap.mp hf
    obtain ⟨prices, index, windowStart, hbounded⟩ := hbars b hb
    exact hbounded.fillChecked htame (hforward b hb) hrow
  case trades =>
    intro t ht
    obtain ⟨b, hb, hrow⟩ := List.mem_flatMap.mp ht
    obtain ⟨x, hx, rfl⟩ := List.mem_map.mp hrow
    exact h.tradeChecked hempty htame hids hb hx
  case equity =>
    have hinitial := htame.initialEquity
    apply h.equityFailures_eq_nil hbars htame hinitial
    . rw [hpeak]
      exact hinitial
    . rw [hpeak, sub_self, abs_zero]
      positivity
    . rintro fees ⟨⟩
  case funding =>
    intro r hr
    obtain ⟨b, hb, hrow⟩ := List.mem_flatMap.mp hr
    obtain ⟨c, hc, rfl⟩ := List.mem_map.mp hrow
    obtain ⟨prices, index, windowStart, hbounded⟩ := hbars b hb
    exact (hbounded.chargeRow_sound htame hc).1
  case fundingTotal =>
    intro e he
    exact h.fundingTotal_checked (h.accountingFollows hempty hzero hids hshort) he
  case positions =>
    intro p hp
    obtain ⟨b, hb, rfl⟩ := List.mem_map.mp hp
    exact h.positionsChecked hempty htame hb

/--
Every row has the shape its reader asks for.
-/
theorem Chain.reads (h : Chain cfg (Orderly cfg range) book steps final)
    (hempty : book.openPositions = ∅) (htame : Tame cfg range)
    (hfrozen : FrozenBars steps snapshots)
    : ∀ o ∈ (stepsLedgers cfg steps snapshots).reads, o = none := by
  have hbars : ∀ b ∈ steps, ∃ prices index windowStart,
      Bounded cfg range prices index windowStart b :=
    fun b hb => h.bounded hempty htame hb
  simp only [Ledgers.reads, List.forall_mem_cons, List.not_mem_nil, false_imp_iff, implies_true,
    and_true]
  refine ⟨malformedRow_eq_none.mpr ?_, malformedRow_eq_none.mpr ?_, malformedRow_eq_none.mpr ?_,
    malformedRow_eq_none.mpr ?_, malformedRow_eq_none.mpr ?_,
    malformedRow_eq_none.mpr hfrozen.shape⟩
  . intro f hf
    obtain ⟨b, hb, hrow⟩ := List.mem_flatMap.mp hf
    obtain ⟨prices, index, windowStart, hbounded⟩ := hbars b hb
    exact (hbounded.fillRow_sound htame hrow).shape
  . intro t ht
    obtain ⟨b, hb, hrow⟩ := List.mem_flatMap.mp ht
    obtain ⟨x, hx, rfl⟩ := List.mem_map.mp hrow
    obtain ⟨prices, index, windowStart, hbounded⟩ := hbars b hb
    apply (hbounded.tradeRow_sound htame hx).shape
    show 0 ≤ x.pos.holdBars
    rw [(h.closed hempty hb hx).2.1]
    exact Int.natCast_nonneg _
  . intro r hr
    obtain ⟨b, hb, hrow⟩ := List.mem_flatMap.mp hr
    obtain ⟨c, hc, rfl⟩ := List.mem_map.mp hrow
    obtain ⟨prices, index, windowStart, hbounded⟩ := hbars b hb
    exact (hbounded.chargeRow_sound htame hc).2
  . intro p hp
    obtain ⟨b, hb, rfl⟩ := List.mem_map.mp hp
    obtain ⟨prices, index, windowStart, hbounded⟩ := hbars b hb
    rw [PositionsRow.badFields_eq_nil]
    refine ⟨roundDp.nonneg (hbounded.grossExposure_nonneg htame), Int.natCast_nonneg _,
      parseable_of_stamped hbounded.market.stamped, ?_⟩
    intro hmem
    rw [BarStep.positionsRow, BarStep.openSymbols, Std.ExtTreeMap.mem_keys,
      ← Std.ExtTreeMap.isSome_getElem?_iff_mem] at hmem
    obtain ⟨pos, hpos⟩ := Option.isSome_iff_exists.mp hmem
    exact (hbounded.held "" pos hpos).symbol_ne rfl
  . intro e he
    obtain ⟨b, hb, rfl⟩ := List.mem_map.mp he
    obtain ⟨prices, index, windowStart, hbounded⟩ := hbars b hb
    rw [EquityRow.badFields_eq_nil]
    refine ⟨roundDp.nonneg ?_, Int.natCast_nonneg _,
      parseable_of_stamped hbounded.market.stamped⟩
    unfold BarStep.drawdown
    split
    next hpeak =>
      apply div_nonneg _ hpeak.le
      rw [hbounded.spec.peak, hbounded.spec.next_peak, sub_nonneg]
      exact le_max_right _ _
    . exact le_refl 0

end checked

section runs

theorem runEngine_forward {perBarObs : List Obs} {prices : PriceBook}
    {fundingDf : List FundingEvent} {state : EngineState} {r : EngineResult}
    (h : runEngine cfg perBarObs prices fundingDf state = .ok r)
    : ∀ b ∈ r.bars, Forward cfg b := by
  obtain ⟨start, dated, hstart, hdated, hbars⟩ := runEngine_obs h
  intro b hb
  obtain ⟨p, hp, hle, hobs⟩ := hbars b hb
  have hparse := (datedObs.spec hdated).2 p hp
  rw [hobs] at hparse
  exact ⟨start, p.1, hstart, hparse, hle⟩

theorem EngineRuns.forward {state final : EngineState} {runs : List (RunInput × EngineResult)}
    (h : EngineRuns cfg state runs final) : ∀ b ∈ runsBars runs, Forward cfg b := by
  induction h with
  | nil state => simp [runsBars]
  | cons run rest ih =>
    intro b hb
    rw [runsBars, List.flatMap_cons, List.mem_append] at hb
    rcases hb with hb | hb
    . exact runEngine_forward run b hb
    . exact ih b hb

/--
Every bar of the runs is an orderly one.
-/
def OrderlyRuns (cfg : PaperConfig) (range : String → PriceRange)
    (runs : List (RunInput × EngineResult)) : Prop :=
  ∀ p ∈ runs, ∀ b ∈ p.2.bars, Orderly cfg range p.1.prices (buildFundingIndex p.1.fundingDf) b

theorem EngineRuns.reconciled {runs : List (RunInput × EngineResult)} {final : EngineState}
    (h : EngineRuns cfg (newState cfg.initialEquityUsd) runs final) (htame : Tame cfg range)
    (hmarket : OrderlyRuns cfg range runs) (hfrozen : FrozenBars (runsBars runs) snapshots)
    (hids : ((runsLedgers cfg runs snapshots).fills.map FillRow.fillId).Nodup)
    (hshort : ShortLedgers (runsLedgers cfg runs snapshots))
    : Reconciled cfg (runsLedgers cfg runs snapshots) := by
  have hchain := h.chain hmarket
  rw [runsLedgers_eq] at hids hshort ⊢
  constructor
  case reads => exact hchain.reads rfl htame hfrozen
  case checked => exact hchain.ledgersChecked rfl rfl rfl htame h.forward hfrozen hids hshort

end runs

section everyBar

theorem PriceBook.closeAt_mem {book : PriceBook} {symbol ts : String} {close : ℚ}
    (h : book.closeAt symbol ts = some close) : ∃ bar ∈ book.bars symbol, bar.close = close := by
  simp only [PriceBook.closeAt, Option.bind_eq_bind, Option.bind_eq_some_iff,
    Option.some.injEq] at h
  obtain ⟨i, -, bar, hbar, rfl⟩ := h
  exact ⟨bar, List.mem_of_getElem? hbar, rfl⟩

theorem PriceBook.nextBar_mem {book : PriceBook} {symbol ts : String} {nb : String × ℚ}
    (h : book.nextBar symbol ts = some nb)
    : ∃ bar ∈ book.bars symbol, nb = (bar.timestamp, bar.openPrice) := by
  simp only [PriceBook.nextBar, Option.bind_eq_bind, Option.bind_eq_some_iff,
    Option.some.injEq] at h
  obtain ⟨i, -, bar, hbar, rfl⟩ := h
  exact ⟨bar, List.mem_of_getElem? hbar, rfl⟩

def everyBarRange (_ : String) : PriceRange where
  lo := 90
  hi := 120

theorem everyBar_tame : Tame fundedConfig everyBarRange := by
  constructor <;> norm_num [fundedConfig, PaperConfig.build, everyBarRange]

/--
The book has bars of one symbol only.
-/
theorem fundedBook_bars {symbol : String} {bar : Bar} (h : bar ∈ fundedBook.bars symbol)
    : symbol = "BTCUSDT" ∧ 100 ≤ bar.openPrice ∧ bar.openPrice ≤ 110 ∧ 100 ≤ bar.close
        ∧ bar.close ≤ 110 := by
  by_cases hsymbol : symbol = "BTCUSDT"
  . subst hsymbol
    have hbars : ∀ bar ∈ fundedBook.bars "BTCUSDT", 100 ≤ bar.openPrice ∧ bar.openPrice ≤ 110
        ∧ 100 ≤ bar.close ∧ bar.close ≤ 110 := by
      decide +kernel
    exact ⟨rfl, hbars bar h⟩
  . have habsent : symbol ∉ fundedBook.barsBySymbol := by
      rw [fundedBook, Std.ExtTreeMap.mem_ofList]
      simpa using hsymbol
    rw [PriceBook.bars, Std.ExtTreeMap.getD_eq_fallback habsent] at h
    cases h

/--
What is left to check of a bar of `everyBarInput` when its prices are known to be in the range.
-/
def SteadyBar (b : BarStep) : Prop :=
  (parseBarUtc b.ts).toOption.any (fun d => b.ts = d.strftime)
    ∧ (∀ nb ∈ fundedBook.nextBar "BTCUSDT" b.ts,
      b.ts < nb.1 ∧ (parseBarUtc nb.1).toOption.any (fun d => nb.1 = d.strftime))
    ∧ (∀ c ∈ b.charges, |c.rate| ≤ 1) ∧ "" ∉ b.obs.activeSymbols
    ∧ b.obs.activeSymbols.length ≤ 100 ∧ 0 ≤ b.equity

instance (b : BarStep) : Decidable (SteadyBar b) := by
  unfold SteadyBar
  infer_instance

theorem stamped_of_any {ts : String}
    (h : (parseBarUtc ts).toOption.any (fun d => ts = d.strftime))
    : ∃ d : DateTime, ts = d.strftime := by
  rw [Option.any_eq_true] at h
  obtain ⟨d, -, hts⟩ := h
  exact ⟨d, of_decide_eq_true hts⟩

theorem SteadyBar.orderly (h : SteadyBar b) (index : FundingIndex)
    : Orderly fundedConfig everyBarRange fundedBook index b := by
  obtain ⟨hstamped, hnext, hrates, hsymbols, hbreadth, hsolvent⟩ := h
  have hslip : fundedConfig.slip = 5 / 10000 := rfl
  constructor
  case opens =>
    intro symbol nb hnb
    obtain ⟨bar, hbar, rfl⟩ := PriceBook.nextBar_mem hnb
    obtain ⟨-, hlo, hhi, -⟩ := fundedBook_bars hbar
    simp only [everyBarRange, hslip]
    constructor <;> linarith
  case closes =>
    intro symbol ts close _ hclose
    obtain ⟨bar, hbar, rfl⟩ := PriceBook.closeAt_mem hclose
    obtain ⟨-, -, -, hlo, hhi⟩ := fundedBook_bars hbar
    simp only [everyBarRange]
    constructor <;> linarith
  case rates => exact hrates
  case stamped => exact stamped_of_any hstamped
  case next =>
    intro symbol nb hnb
    obtain ⟨bar, hbar, -⟩ := PriceBook.nextBar_mem hnb
    obtain ⟨rfl, -⟩ := fundedBook_bars hbar
    exact ⟨(hnext nb hnb).1, stamped_of_any (hnext nb hnb).2⟩
  case symbols => exact hsymbols
  case breadth => exact hbreadth
  case solvent => exact hsolvent

/--
The snapshot that freezes a bar.
-/
def frozenBar (b : BarStep) : SnapshotRow where
  snapshotId := snapshotId b.ts
  barTs := b.ts
  barCommitId := b.commitId
  barIndex := b.obs.barIndex
  activeSymbols := b.obs.activeSymbols
  portfolioHeat := b.obs.portfolioHeat
  heatCapTriggered := b.obs.heatCapTriggered
  weightedReturn := b.obs.weightedReturn
  sourceObservationDigest := consumedRowDigest b.obs
  sourceObservationMtime := some 0
  runTs := "2026-06-15T09:00:00Z"
  backfill := false

/--
The same three bars at a thousandth of a cent, where 1000 dollars buy 10^8 units.
-/
def dustInput : RunInput :=
  { everyBarInput with
    prices := {
      barsBySymbol := Std.ExtTreeMap.ofList [("BTCUSDT", [
        Bar.mk "2026-06-14T00:00:00" (100 / 10 ^ 7) (101 / 10 ^ 7),
        Bar.mk "2026-06-14T08:00:00" (102 / 10 ^ 7) (103 / 10 ^ 7),
        Bar.mk "2026-06-14T16:00:00" (104 / 10 ^ 7) (105 / 10 ^ 7),
        Bar.mk "2026-06-15T00:00:00" (106 / 10 ^ 7) (107 / 10 ^ 7)])] } }

/--
The range of the prices is needed: with eight decimals of such a price the verifier cannot work out
the profit of the engine's own trade, and rejects it.
-/
theorem dust_run_rejected
    : ∃ r, runEngine fundedConfig dustInput.perBarObs dustInput.prices dustInput.fundingDf
          (newState fundedConfig.initialEquityUsd) = .ok r
        ∧ ∀ snapshots, reconcile fundedConfig
            (runsLedgers fundedConfig [(dustInput, r)] snapshots) none ≠ [] := by
  have hrun : ∃ r, runEngine fundedConfig dustInput.perBarObs dustInput.prices dustInput.fundingDf
        (newState fundedConfig.initialEquityUsd) = .ok r
      ∧ decide (∃ t ∈ r.trades,
        rederiveEps < |(t.exitPrice - t.entryPrice) * t.qty - t.grossPnl|) := by
    apply exists_ok_of_any
    decide +kernel
  obtain ⟨r, hr, hfacts⟩ := hrun
  obtain ⟨t, ht, hgross⟩ := of_decide_eq_true hfacts
  refine ⟨r, hr, ?_⟩
  intro snapshots hnil
  have hchecked := (reconcile_eq_nil_iff_reconciled.mp hnil).1.checked
  have htrade := hchecked.trades t (by simpa [runsLedgers, runsTrades] using ht)
  exact absurd htrade.gross (not_le.mpr hgross)

end everyBar

end Quantbot
