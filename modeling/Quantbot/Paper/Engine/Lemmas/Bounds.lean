import Quantbot.Paper.Engine.Lemmas.Accounts
import Quantbot.Paper.Timestamp.Lemmas

/-!
How large the prices, quantities, fees and rates of a bar are, given what the config and the market
data are.
-/

namespace Quantbot

/--
The lowest and the highest price a symbol is filled and marked at.
-/
structure PriceRange where
  lo : ℚ
  hi : ℚ

/--
A config and price ranges for which what rounding does to a product of a price and a quantity stays
below the tolerances.
-/
structure Tame (cfg : PaperConfig) (range : String → PriceRange) : Prop where
  notional : 1 ≤ cfg.notionalUsd
  initialEquity : 1 ≤ cfg.initialEquityUsd
  feeBps : 0 ≤ cfg.feeBps ∧ cfg.feeBps ≤ 10000
  slippageBps : 0 ≤ cfg.slippageBps ∧ cfg.slippageBps < 10000
  lo_pos : ∀ symbol, 0 < (range symbol).lo
  drift : ∀ symbol, (range symbol).hi / (2 * 10 ^ 10) + cfg.notionalUsd / (range symbol).lo / 10 ^ 8
    ≤ 9 / 10 ^ 5
  value : ∀ symbol, cfg.notionalUsd * (range symbol).hi ≤ 10 ^ 8 * (range symbol).lo

/--
A bar with its market data: prices from the bar on within the ranges, rates of at most 100%,
timestamps in the engine's own form, the next bar later than the bar, and equity left.
-/
structure Orderly (cfg : PaperConfig) (range : String → PriceRange) (prices : PriceBook)
    (_ : FundingIndex) (b : BarStep) : Prop where
  opens : ∀ symbol nb, prices.nextBar symbol b.ts = some nb →
    (range symbol).lo ≤ nb.2 * (1 - cfg.slip) ∧ nb.2 * (1 + cfg.slip) ≤ (range symbol).hi
  closes : ∀ symbol ts close, b.ts ≤ ts → prices.closeAt symbol ts = some close →
    (range symbol).lo ≤ close ∧ close ≤ (range symbol).hi
  rates : ∀ c ∈ b.charges, |c.rate| ≤ 1
  stamped : ∃ d : DateTime, b.ts = d.strftime
  next : ∀ symbol nb, prices.nextBar symbol b.ts = some nb →
    b.ts < nb.1 ∧ ∃ d : DateTime, nb.1 = d.strftime
  symbols : "" ∉ b.obs.activeSymbols
  breadth : b.obs.activeSymbols.length ≤ 100
  solvent : 0 ≤ b.equity

/--
A price and a quantity that rounding neither hides nor moves too far.
-/
structure Sized (price qty : ℚ) : Prop where
  price_ge : 1 / 10 ^ 4 ≤ price
  qty_ge : 1 / 10 ^ 7 ≤ qty
  drift : price / (2 * 10 ^ 10) + qty / 10 ^ 8 ≤ 9 / 10 ^ 5

/--
An entry at a price in the range.
-/
structure EnteredWithin (cfg : PaperConfig) (range : PriceRange) (price qty fee : ℚ) : Prop where
  lo_le : range.lo ≤ price
  le_hi : price ≤ range.hi
  qty_eq : qty = cfg.notionalUsd / price
  fee_eq : fee = price * qty * cfg.feeRate

variable {cfg : PaperConfig} {range : String → PriceRange} {prices : PriceBook}
  {index : FundingIndex} {windowStart : String} {b : BarStep}

section sized

variable {symbol : String} {price qty fee mark : ℚ}

theorem Tame.feeRate (h : Tame cfg range) : 0 ≤ cfg.feeRate ∧ cfg.feeRate ≤ 1 := by
  have hfee := h.feeBps
  unfold PaperConfig.feeRate
  constructor
  . exact div_nonneg hfee.1 (by norm_num)
  . rw [div_le_one (by norm_num)]
    exact hfee.2

theorem Tame.slip (h : Tame cfg range) : 0 ≤ cfg.slip ∧ cfg.slip < 1 := by
  have hslip := h.slippageBps
  unfold PaperConfig.slip
  constructor
  . exact div_nonneg hslip.1 (by norm_num)
  . rw [div_lt_one (by norm_num)]
    exact hslip.2

theorem Tame.notional_div (h : Tame cfg range) (symbol : String)
    : 0 < cfg.notionalUsd / (range symbol).lo :=
  div_pos (by linarith [h.notional]) (h.lo_pos symbol)

theorem Tame.hi_le (h : Tame cfg range) (symbol : String) : (range symbol).hi ≤ 18 * 10 ^ 5 := by
  have hdrift := h.drift symbol
  have hdiv := h.notional_div symbol
  linarith

theorem Tame.lo_ge (h : Tame cfg range) (hhi : 0 ≤ (range symbol).hi)
    : 1 / 10 ^ 4 ≤ (range symbol).lo := by
  have hdrift := h.drift symbol
  have hdiv : cfg.notionalUsd / (range symbol).lo ≤ 9000 := by
    linarith
  rw [div_le_iff₀ (h.lo_pos symbol)] at hdiv
  linarith [h.notional]

namespace EnteredWithin

theorem price_pos (h : EnteredWithin cfg (range symbol) price qty fee) (htame : Tame cfg range)
    : 0 < price :=
  (htame.lo_pos symbol).trans_le h.lo_le

theorem qty_le (h : EnteredWithin cfg (range symbol) price qty fee) (htame : Tame cfg range)
    : qty ≤ cfg.notionalUsd / (range symbol).lo := by
  have hnotional := htame.notional
  rw [h.qty_eq]
  exact div_le_div_of_nonneg_left (by linarith) (htame.lo_pos symbol) h.lo_le

theorem qty_ge (h : EnteredWithin cfg (range symbol) price qty fee) (htame : Tame cfg range)
    : 1 / 10 ^ 7 ≤ qty := by
  have hnotional := htame.notional
  rw [h.qty_eq, div_le_div_iff₀ (by norm_num) (h.price_pos htame)]
  linarith [htame.hi_le symbol, h.le_hi]

/--
The position at any price of the range.
-/
theorem sized (h : EnteredWithin cfg (range symbol) price qty fee) (htame : Tame cfg range)
    (hlo : (range symbol).lo ≤ mark) (hhi : mark ≤ (range symbol).hi) : Sized mark qty where
  price_ge := (htame.lo_ge ((htame.lo_pos symbol).le.trans (hlo.trans hhi))).trans hlo
  qty_ge := h.qty_ge htame
  drift := by
    have hdrift := htame.drift symbol
    have hqty := h.qty_le htame
    linarith

theorem value (h : EnteredWithin cfg (range symbol) price qty fee) (htame : Tame cfg range)
    (hlo : (range symbol).lo ≤ mark) (hhi : mark ≤ (range symbol).hi)
    : 1 / 10 ^ 8 ≤ qty * mark ∧ qty * mark ≤ 10 ^ 8 := by
  have hpos := h.price_pos htame
  have hnotional := htame.notional
  have hvalue := htame.value symbol
  have hmark : 0 < mark := (htame.lo_pos symbol).trans_le hlo
  have hprice : cfg.notionalUsd * price ≤ 10 ^ 8 * mark := by
    have hmul : cfg.notionalUsd * price ≤ cfg.notionalUsd * (range symbol).hi := by
      gcongr
      exact h.le_hi
    linarith
  have hmarked : cfg.notionalUsd * mark ≤ 10 ^ 8 * price := by
    have hmul : cfg.notionalUsd * mark ≤ cfg.notionalUsd * (range symbol).hi := by
      gcongr
    linarith [h.lo_le]
  have hone : price ≤ cfg.notionalUsd * price := le_mul_of_one_le_left hpos.le hnotional
  have hmul : mark ≤ cfg.notionalUsd * mark := le_mul_of_one_le_left hmark.le hnotional
  rw [h.qty_eq, div_mul_eq_mul_div]
  constructor
  . rw [div_le_div_iff₀ (by norm_num) hpos]
    nlinarith
  . rwa [div_le_iff₀ hpos]

theorem fee_nonneg (h : EnteredWithin cfg (range symbol) price qty fee) (htame : Tame cfg range)
    : 0 ≤ fee := by
  have hqty := h.qty_ge htame
  have hrate := htame.feeRate
  have hpos := h.price_pos htame
  rw [h.fee_eq]
  exact mul_nonneg (mul_nonneg hpos.le (by linarith)) hrate.1

end EnteredWithin

end sized

section fills

variable {symbol : String} {nb : String × ℚ}

/--
The T+1 open and the two fill prices slippage makes of it.
-/
theorem Orderly.open_bounds (h : Orderly cfg range prices index b) (htame : Tame cfg range)
    (hnext : prices.nextBar symbol b.ts = some nb)
    : 1 / 10 ^ 4 ≤ nb.2
        ∧ ((range symbol).lo ≤ nb.2 * (1 - cfg.slip) ∧ nb.2 * (1 - cfg.slip) ≤ (range symbol).hi)
        ∧ ((range symbol).lo ≤ nb.2 * (1 + cfg.slip) ∧ nb.2 * (1 + cfg.slip) ≤ (range symbol).hi) := by
  obtain ⟨hlo, hhi⟩ := h.opens symbol nb hnext
  have hslip := htame.slip
  have hpos : 0 < nb.2 * (1 - cfg.slip) := (htame.lo_pos symbol).trans_le hlo
  have hopen : 0 < nb.2 := pos_of_mul_pos_left hpos (by linarith)
  have hle : nb.2 * (1 - cfg.slip) ≤ nb.2 * (1 + cfg.slip) := by
    gcongr
    linarith
  have hclean : nb.2 * (1 - cfg.slip) ≤ nb.2 := by
    apply mul_le_of_le_one_right hopen.le
    linarith
  have hrange := htame.lo_ge ((htame.lo_pos symbol).le.trans (hlo.trans (hle.trans hhi)))
  exact ⟨hrange.trans (hlo.trans hclean), ⟨hlo, hle.trans hhi⟩, hlo.trans hle, hhi⟩

theorem StepSpec.entered (h : StepSpec cfg prices index windowStart b)
    (hmarket : Orderly cfg range prices index b) (htame : Tame cfg range) {e : Entry}
    (he : e ∈ b.entries) : EnteredWithin cfg (range e.symbol) e.fillPrice e.qty e.fee := by
  obtain ⟨nb, -, -, hnext, hok⟩ := h.entry_of_mem e he
  obtain ⟨-, -, hlo, hhi⟩ := hmarket.open_bounds htame hnext
  obtain ⟨-, heq⟩ := enterPosition_ok hok
  rw [heq]
  exact ⟨hlo, hhi, rfl, rfl⟩

end fills

section positions

variable {symbol : String} {pos : Position} {mark : ℚ}

/--
A position as an orderly bar enters it.
-/
structure OrderlyPosition (cfg : PaperConfig) (range : String → PriceRange) (symbol : String)
    (pos : Position) : Prop where
  entered : EnteredWithin cfg (range symbol) pos.entryPrice pos.qty pos.entryFee
  symbol_ne : symbol ≠ ""
  id : ∃ s, pos.entryFillId = shortDigest s
  entryBar : ∃ d : DateTime, pos.entryBarTs = d.strftime
  entryFill : ∃ d : DateTime, pos.entryFillTs = d.strftime

theorem OrderlyPosition.sameEntry {pos' : Position} (h : OrderlyPosition cfg range symbol pos)
    (hsame : pos.SameEntry pos') : OrderlyPosition cfg range symbol pos' := by
  unfold Position.SameEntry at hsame
  rw [← hsame]
  exact ⟨h.entered, h.symbol_ne, h.id, h.entryBar, h.entryFill⟩

theorem StepSpec.orderlyEntry (h : StepSpec cfg prices index windowStart b)
    (hmarket : Orderly cfg range prices index b) (htame : Tame cfg range) {e : Entry}
    (he : e ∈ b.entries) : OrderlyPosition cfg range e.symbol (e.position b.ts) where
  entered := h.entered hmarket htame he
  symbol_ne := by
    obtain ⟨nb, -, hactive, -⟩ := h.entry_of_mem e he
    intro hempty
    rw [hempty] at hactive
    exact hmarket.symbols hactive
  id := ⟨_, rfl⟩
  entryBar := hmarket.stamped
  entryFill := by
    obtain ⟨nb, -, -, hnext, hok⟩ := h.entry_of_mem e he
    show ∃ d : DateTime, e.nextTs = d.strftime
    rw [(enterPosition_ok hok).2]
    exact (hmarket.next e.symbol nb hnext).2

theorem Chain.orderlyPosition {book final : Book} {steps : List BarStep}
    (h : Chain cfg (Orderly cfg range) book steps final) (hempty : book.openPositions = ∅)
    (htame : Tame cfg range) (hpos : final.openPositions[symbol]? = some pos)
    : OrderlyPosition cfg range symbol pos := by
  rcases h.hasOrigin hpos with ⟨pos₀, hbefore, -⟩ | ⟨b, hb, e, he, rfl, hsame, -⟩
  . rw [hempty, Std.ExtTreeMap.getElem?_empty] at hbefore
    cases hbefore
  . obtain ⟨prices, index, windowStart, hmarket, hspec⟩ := h.forall_spec b hb
    exact (hspec.orderlyEntry hmarket htame he).sameEntry hsame

/--
A position is marked at a close, or at its entry price when there is none.
-/
theorem Orderly.mark_bounds (h : Orderly cfg range prices index b) {ts : String} (hts : b.ts ≤ ts)
    (hpos : OrderlyPosition cfg range symbol pos)
    : (range symbol).lo ≤ (prices.closeAt symbol ts).getD pos.entryPrice
        ∧ (prices.closeAt symbol ts).getD pos.entryPrice ≤ (range symbol).hi := by
  cases hclose : prices.closeAt symbol ts with
  | none => exact ⟨hpos.entered.lo_le, hpos.entered.le_hi⟩
  | some close => exact h.closes symbol ts close hts hclose

end positions

section bounded

/--
A processed bar with its market data, on a book of orderly positions.
-/
structure Bounded (cfg : PaperConfig) (range : String → PriceRange) (prices : PriceBook)
    (index : FundingIndex) (windowStart : String) (b : BarStep) : Prop where
  spec : StepSpec cfg prices index windowStart b
  market : Orderly cfg range prices index b
  held : ∀ symbol pos, b.before.openPositions[symbol]? = some pos →
    OrderlyPosition cfg range symbol pos

theorem Chain.bounded {book final : Book} {steps : List BarStep}
    (h : Chain cfg (Orderly cfg range) book steps final) (hempty : book.openPositions = ∅)
    (htame : Tame cfg range) (hb : b ∈ steps)
    : ∃ prices index windowStart, Bounded cfg range prices index windowStart b := by
  obtain ⟨pre, post, hsplit⟩ := h.split hb
  obtain ⟨prices, index, windowStart, hmarket, hspec⟩ := h.forall_spec b hb
  refine ⟨prices, index, windowStart, hspec, hmarket, ?_⟩
  intro symbol pos hpos
  exact hsplit.chain.orderlyPosition hempty htame hpos

/--
An exit at a price of the range, of an orderly position.
-/
structure OrderlyExit (cfg : PaperConfig) (range : String → PriceRange) (x : Exit) : Prop where
  pos : OrderlyPosition cfg range x.symbol x.pos
  open_ge : 1 / 10 ^ 4 ≤ x.openPrice
  lo_le : (range x.symbol).lo ≤ x.fillPrice
  le_hi : x.fillPrice ≤ (range x.symbol).hi
  fee_eq : x.fee = x.fillPrice * x.pos.qty * cfg.feeRate
  next : ∃ d : DateTime, x.nextTs = d.strftime

/--
A charge for a position worth between a millionth of a cent and 10^8 dollars.
-/
structure OrderlyCharge (c : Charge) : Prop where
  symbol_ne : c.symbol ≠ ""
  value_ge : 1 / 10 ^ 8 ≤ c.notional
  value_le : c.notional ≤ 10 ^ 8
  rate : |c.rate| ≤ 1
  start : ∃ d : DateTime, c.windowStart = d.strftime
  stop : ∃ d : DateTime, c.windowEnd = d.strftime

theorem OrderlyExit.fee_nonneg {x : Exit} (h : OrderlyExit cfg range x) (htame : Tame cfg range)
    : 0 ≤ x.fee := by
  have hprice := (htame.lo_pos x.symbol).trans_le h.lo_le
  have hqty := h.pos.entered.qty_ge htame
  rw [h.fee_eq]
  exact mul_nonneg (mul_nonneg hprice.le (by linarith)) htame.feeRate.1

theorem intervalStart_stamped {ts start : String} {intervalHours : ℕ}
    (h : intervalStart ts intervalHours = .ok start) : ∃ d : DateTime, start = d.strftime := by
  unfold intervalStart at h
  cases hdt : strptime (ts.toList.rdropWhile (· == 'Z')) with
  | error e =>
    simp [hdt, bind, Except.bind] at h
  | ok dt =>
    cases hstart : dt.subHours intervalHours with
    | error e =>
      simp [hdt, hstart, bind, Except.bind] at h
    | ok d =>
      simp only [hdt, hstart, bind, Except.bind, pure, Except.pure, Except.ok.injEq] at h
      exact ⟨d, h.symm⟩

theorem max_stamped {ts ts' : String} (h : ∃ d : DateTime, ts = d.strftime)
    (h' : ∃ d : DateTime, ts' = d.strftime) : ∃ d : DateTime, max ts ts' = d.strftime := by
  rcases max_choice ts ts' with heq | heq
  . rw [heq]
    exact h
  . rw [heq]
    exact h'

namespace Bounded

theorem exit (h : Bounded cfg range prices index windowStart b) (htame : Tame cfg range) {x : Exit}
    (hx : x ∈ b.exits) : OrderlyExit cfg range x := by
  obtain ⟨pos₀, hpos₀, hsame, -, -⟩ := h.spec.exit_accrued hx
  obtain ⟨pos, nb, -, -, hnext, heq⟩ := h.spec.exit_of_mem x hx
  obtain ⟨hopen, hexit, -⟩ := h.market.open_bounds htame hnext
  refine ⟨(h.held x.symbol pos₀ hpos₀).sameEntry hsame, ?_, ?_, ?_, ?_, ?_⟩
  . rw [heq]
    exact hopen
  . rw [heq]
    exact hexit.1
  . rw [heq]
    exact hexit.2
  . rw [heq]
    rfl
  . rw [heq]
    exact (h.market.next x.symbol nb hnext).2

theorem charge (h : Bounded cfg range prices index windowStart b) (htame : Tame cfg range)
    {c : Charge} (hc : c ∈ b.charges) : OrderlyCharge c := by
  have hrate := h.market.rates c hc
  rw [BarStep.charges, List.mem_append, h.spec.held, List.mem_filterMap, List.mem_map] at hc
  rcases hc with ⟨⟨symbol, pos⟩, hp, hcharge⟩ | ⟨x, hx, rfl⟩
  . rw [mem_toList_iff] at hp
    have hpos := h.held symbol pos hp
    obtain ⟨hlo, hhi⟩ := h.market.mark_bounds (le_refl b.ts) hpos
    obtain ⟨hge, hle⟩ := hpos.entered.value htame hlo hhi
    have hstart := max_stamped (intervalStart_stamped h.spec.window) hpos.entryFill
    unfold heldCharge at hcharge
    dsimp only at hcharge
    split at hcharge
    . cases hcharge
    . cases hcharge
      exact ⟨hpos.symbol_ne, hge, hle, hrate, hstart, h.market.stamped⟩
  . obtain ⟨pos, nb, hheld, -, hnext, heq⟩ := h.spec.exit_of_mem x hx
    have hpos := h.held x.symbol pos hheld
    obtain ⟨hlater, hnext⟩ := h.market.next x.symbol nb hnext
    obtain ⟨hlo, hhi⟩ := h.market.mark_bounds hlater.le hpos
    obtain ⟨hge, hle⟩ := hpos.entered.value htame hlo hhi
    rw [heq] at hrate ⊢
    exact ⟨hpos.symbol_ne, hge, hle, hrate, h.market.stamped, hnext⟩

end Bounded

end bounded

end Quantbot
