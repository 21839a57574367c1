import Quantbot.Paper.Engine.Lemmas.Bounds
import Quantbot.Paper.HonestState

/-!
The rows of an orderly bar, one by one, against the checks of a row.
-/

namespace Quantbot

open Reconcile

variable {cfg : PaperConfig} {range : String → PriceRange} {prices : PriceBook}
  {index : FundingIndex} {windowStart : String} {b : BarStep}

theorem roundDp.pos {n : ℕ} {x : ℚ} (h : 1 / 10 ^ n ≤ x) : 0 < roundDp n x := by
  have hgrid : OnDecimalGrid n (1 / 10 ^ n) := ⟨1, by simp⟩
  have hmono := roundDp.mono (n := n) h
  rw [hgrid.roundDp_self] at hmono
  exact lt_of_lt_of_le (by positivity) hmono

section sized

variable {price qty : ℚ}

theorem abs_round8_sub_le (x : ℚ) : |round8 x - x| ≤ 1 / (2 * 10 ^ 8) :=
  roundDp.abs_sub_le 8 x

/--
The two prices of a trade rounded, and the quantity.
-/
theorem Sized.abs_gross_sub_le {other : ℚ} (h : Sized price qty) (h' : Sized other qty)
    : |(round8 price - round8 other) * roundDp 10 qty - (price - other) * qty|
        ≤ 9 / 10 ^ 5 + 1 / 10 ^ 8 := by
  have hprice := abs_round8_sub_le price
  have hother := abs_round8_sub_le other
  rw [abs_sub_comm] at hother
  have hdiff : |round8 price - round8 other - (price - other)| ≤ 1 / 10 ^ 8 := by
    have htri := abs_add_le (round8 price - price) (other - round8 other)
    rw [show round8 price - price + (other - round8 other)
      = round8 price - round8 other - (price - other) by ring] at htri
    linarith
  have hmul := abs_mul_sub_mul_le hdiff (roundDp.abs_sub_le 10 qty)
  have hqty : 0 ≤ qty := by linarith [h.qty_ge]
  rw [abs_of_nonneg hqty] at hmul
  have hspread : |price - other| / (2 * 10 ^ 10) + qty / 10 ^ 8 ≤ 9 / 10 ^ 5 := by
    rcases abs_cases (price - other) with ⟨heq, -⟩ | ⟨heq, -⟩
    . rw [heq]
      linarith [h.drift, h'.price_ge]
    . rw [heq]
      linarith [h'.drift, h.price_ge]
  linarith

theorem Sized.abs_value_sub_le (h : Sized price qty)
    : |round8 price * roundDp 10 qty - price * qty| ≤ 9 / 10 ^ 5 := by
  have hmul := abs_mul_sub_mul_le (abs_round8_sub_le price) (roundDp.abs_sub_le 10 qty)
  have hqty := h.qty_ge
  have hprice : 0 ≤ price := by linarith [h.price_ge]
  have hqty' : 0 ≤ qty := by linarith
  rw [abs_of_nonneg hprice, abs_of_nonneg hqty'] at hmul
  have hdrift := h.drift
  linarith

theorem Sized.rounds_pos (h : Sized price qty) : 0 < round8 price ∧ 0 < roundDp 10 qty := by
  constructor
  . apply roundDp.pos
    linarith [h.price_ge]
  . apply roundDp.pos
    linarith [h.qty_ge]

/--
The fee a verifier works out from the rounded price and quantity.
-/
theorem Sized.abs_fee_sub_le (h : Sized price qty) (htame : Tame cfg range)
    : |round8 price * roundDp 10 qty * cfg.feeBps / 10000 - round8 (price * qty * cfg.feeRate)|
        ≤ rederiveEps := by
  have hvalue := h.abs_value_sub_le
  have hround := abs_round8_sub_le (price * qty * cfg.feeRate)
  rw [abs_sub_comm] at hround
  obtain ⟨hrate, hrate'⟩ := htame.feeRate
  have hfee : |round8 price * roundDp 10 qty * cfg.feeRate - price * qty * cfg.feeRate|
      ≤ 9 / 10 ^ 5 := by
    rw [← sub_mul, abs_mul, abs_of_nonneg hrate]
    calc |round8 price * roundDp 10 qty - price * qty| * cfg.feeRate
      _ ≤ |round8 price * roundDp 10 qty - price * qty| * 1 := by
        gcongr
      _ ≤ 9 / 10 ^ 5 := by
        rwa [mul_one]
  have htri := abs_sub_le (round8 price * roundDp 10 qty * cfg.feeRate)
    (price * qty * cfg.feeRate) (round8 (price * qty * cfg.feeRate))
  have heq : round8 price * roundDp 10 qty * cfg.feeBps / 10000
      = round8 price * roundDp 10 qty * cfg.feeRate := by
    unfold PaperConfig.feeRate
    ring
  rw [heq]
  apply htri.trans
  norm_num [rederiveEps]
  linarith

end sized

section fills

/--
The fill rows of a bar, as far as no other row is concerned.
-/
structure FillRowSound (cfg : PaperConfig) (f : FillRow) : Prop where
  checked : (f.kind = "entry" → f.side = "BUY") ∧ (f.kind = "exit" → f.side = "SELL")
  qty : 0 < f.qty
  fee : |expectedFee cfg f - f.fee| ≤ rederiveEps
  shape : f.checks.badFields = []

theorem shortDigest_ne_empty (s : String) : shortDigest s ≠ "" := by
  intro h
  have hlength := length_shortDigest s
  rw [h] at hlength
  cases hlength

theorem parseable_of_stamped {ts : String} (h : ∃ d : DateTime, ts = d.strftime)
    : parseableTimestamp ts := by
  obtain ⟨d, rfl⟩ := h
  exact parseableTimestamp_strftime d

namespace Bounded

theorem entryRow_sound (h : Bounded cfg range prices index windowStart b) (htame : Tame cfg range)
    {e : Entry} (he : e ∈ b.entries) : FillRowSound cfg (e.fillRow cfg b.ts b.commitId) := by
  have hpos := h.spec.orderlyEntry h.market htame he
  have hentered := h.spec.entered h.market htame he
  have hsized : Sized e.fillPrice e.qty := hentered.sized htame hentered.lo_le hentered.le_hi
  obtain ⟨nb, -, -, hnext, hok⟩ := h.spec.entry_of_mem e he
  have hopen : 1 / 10 ^ 4 ≤ e.openPrice := by
    rw [(enterPosition_ok hok).2]
    exact (h.market.open_bounds htame hnext).1
  obtain ⟨hprice, hqty⟩ := hsized.rounds_pos
  constructor
  case checked => simp [Entry.fillRow]
  case qty => exact hqty
  case fee =>
    have hfee := hsized.abs_fee_sub_le htame
    rw [← hentered.fee_eq] at hfee
    exact hfee
  case shape =>
    rw [FillRow.badFields_eq_nil]
    refine ⟨htame.slippageBps.1, roundDp.nonneg (hentered.fee_nonneg htame), hqty, ?_, hprice,
      shortDigest_ne_empty _, hpos.symbol_ne, parseable_of_stamped h.market.stamped,
      parseable_of_stamped hpos.entryFill, by simp [Entry.fillRow], by simp [Entry.fillRow]⟩
    apply roundDp.pos
    linarith

theorem exitRow_sound (h : Bounded cfg range prices index windowStart b) (htame : Tame cfg range)
    {x : Exit} (hx : x ∈ b.exits) : FillRowSound cfg (x.fillRow cfg b.ts b.commitId) := by
  have hexit := h.exit htame hx
  have hsized : Sized x.fillPrice x.pos.qty :=
    hexit.pos.entered.sized htame hexit.lo_le hexit.le_hi
  obtain ⟨hprice, hqty⟩ := hsized.rounds_pos
  constructor
  case checked => simp [Exit.fillRow]
  case qty => exact hqty
  case fee =>
    have hfee := hsized.abs_fee_sub_le htame
    rw [← hexit.fee_eq] at hfee
    exact hfee
  case shape =>
    rw [FillRow.badFields_eq_nil]
    refine ⟨htame.slippageBps.1, roundDp.nonneg (hexit.fee_nonneg htame), hqty, ?_, hprice,
      shortDigest_ne_empty _, hexit.pos.symbol_ne, parseable_of_stamped h.market.stamped,
      parseable_of_stamped hexit.next, by simp [Exit.fillRow], by simp [Exit.fillRow]⟩
    apply roundDp.pos
    linarith [hexit.open_ge]

theorem fillRow_sound (h : Bounded cfg range prices index windowStart b) (htame : Tame cfg range)
    {f : FillRow} (hf : f ∈ b.fillRows cfg) : FillRowSound cfg f := by
  rw [BarStep.fillRows, List.mem_append, List.mem_map, List.mem_map] at hf
  rcases hf with ⟨x, hx, rfl⟩ | ⟨e, he, rfl⟩
  . exact h.exitRow_sound htame hx
  . exact h.entryRow_sound htame he

end Bounded

end fills

section trades

/--
The trade rows of a bar, as far as no other row is concerned.
-/
structure TradeRowSound (t : TradeRow) : Prop where
  gross : |(t.exitPrice - t.entryPrice) * t.qty - t.grossPnl| ≤ rederiveEps
  net : |t.grossPnl - t.fees - t.funding - t.netPnl| ≤ eps
  shape : 0 ≤ t.holdBars → t.checks.badFields = []

theorem Bounded.tradeRow_sound (h : Bounded cfg range prices index windowStart b)
    (htame : Tame cfg range) {x : Exit} (hx : x ∈ b.exits)
    : TradeRowSound (x.tradeRow b.ts b.commitId) := by
  have hexit := h.exit htame hx
  have hentered := hexit.pos.entered
  have hsized : Sized x.fillPrice x.pos.qty := hentered.sized htame hexit.lo_le hexit.le_hi
  have hsized' : Sized x.pos.entryPrice x.pos.qty :=
    hentered.sized htame hentered.lo_le hentered.le_hi
  constructor
  case gross =>
    have hgross := hsized.abs_gross_sub_le hsized'
    have hround := abs_round8_sub_le x.gross
    rw [abs_sub_comm] at hround
    have htri := abs_sub_le ((round8 x.fillPrice - round8 x.pos.entryPrice) * roundDp 10 x.pos.qty)
      x.gross (round8 x.gross)
    apply htri.trans
    norm_num [rederiveEps]
    unfold Exit.gross at hround ⊢
    linarith
  case net =>
    have hgrid : OnDecimalGrid 8 (round8 x.gross - round8 x.fees - round8 x.pos.fundingAccrued) :=
      ((roundDp.onDecimalGrid 8 _).sub (roundDp.onDecimalGrid 8 _)).sub (roundDp.onDecimalGrid 8 _)
    show |round8 x.gross - round8 x.fees - round8 x.pos.fundingAccrued
      - canonicalNetPnl x.gross x.fees x.pos.fundingAccrued| ≤ eps
    have hnet : canonicalNetPnl x.gross x.fees x.pos.fundingAccrued
        = round8 x.gross - round8 x.fees - round8 x.pos.fundingAccrued :=
      hgrid.roundDp_self
    rw [hnet, sub_self, abs_zero]
    norm_num [eps]
  case shape =>
    intro hhold
    obtain ⟨s, hs⟩ := hexit.pos.id
    rw [TradeRow.badFields_eq_nil]
    refine ⟨?_, hsized.rounds_pos.2, hsized'.rounds_pos.1, hsized.rounds_pos.1, hhold,
      shortDigest_ne_empty _, hexit.pos.symbol_ne, ?_, shortDigest_ne_empty _,
      parseable_of_stamped hexit.pos.entryBar, parseable_of_stamped h.market.stamped⟩
    . exact roundDp.nonneg (add_nonneg (hentered.fee_nonneg htame) (hexit.fee_nonneg htame))
    . show x.pos.entryFillId ≠ ""
      rw [hs]
      exact shortDigest_ne_empty s

end trades

section funding

/--
A funding row agrees with itself and has the shape of one.
-/
theorem OrderlyCharge.row_sound {c : Charge} (h : OrderlyCharge c) {ts : String}
    (hts : ∃ d : DateTime, ts = d.strftime) (hid : c.fundingId ≠ "") (commitId : String)
    : |expectedAmount (c.row ts commitId) - (c.row ts commitId).fundingAmount| ≤ rederiveEps
        ∧ (c.row ts commitId).checks.badFields = [] := by
  constructor
  . have hround := abs_round8_sub_le c.amount
    rw [abs_sub_comm] at hround
    have hmul := abs_mul_sub_mul_le (abs_round8_sub_le c.notional) (roundDp.abs_sub_le 12 c.rate)
    have hnotional : 0 ≤ c.notional := by linarith [h.value_ge]
    rw [abs_of_nonneg hnotional] at hmul
    have hrate := h.rate
    have hvalue := h.value_le
    have hbound : |round8 c.notional * roundDp 12 c.rate - c.notional * c.rate| ≤ 6 / 10 ^ 5 := by
      linarith
    unfold expectedAmount Charge.row Charge.amount at *
    dsimp only at *
    split
    next havailable =>
      rw [if_pos havailable] at hround
      have htri := abs_sub_le (round8 c.notional * roundDp 12 c.rate) (c.notional * c.rate)
        (round8 (c.notional * c.rate))
      apply htri.trans
      norm_num [rederiveEps]
      linarith
    next hnot =>
      rw [if_neg hnot] at hround
      apply hround.trans
      norm_num [rederiveEps]
  . rw [FundingRow.badFields_eq_nil]
    exact ⟨roundDp.pos h.value_ge, Int.natCast_nonneg _, hid, h.symbol_ne,
      parseable_of_stamped hts, parseable_of_stamped h.start, parseable_of_stamped h.stop⟩

end funding

section fundingIds

theorem append_stamp_inj {symbol symbol' ts ts' : String} (hts : ∃ d : DateTime, ts = d.strftime)
    (hts' : ∃ d : DateTime, ts' = d.strftime) (h : symbol ++ "|" ++ ts = symbol' ++ "|" ++ ts')
    : symbol = symbol' ∧ ts = ts' := by
  obtain ⟨d, rfl⟩ := hts
  obtain ⟨d', rfl⟩ := hts'
  have hchars := congrArg String.toList h
  simp only [String.toList_append] at hchars
  have hlength : d.strftime.toList.length = d'.strftime.toList.length := by
    rw [length_strftime, length_strftime]
  obtain ⟨hfirst, hlast⟩ := List.append_inj' hchars hlength
  rw [List.append_left_inj, String.toList_inj] at hfirst
  rw [String.toList_inj] at hlast
  exact ⟨hfirst, hlast⟩

/--
The id of a mark's funding ends in a digit, that of an exit's in a letter.
-/
theorem append_stamp_ne_exit {s s' ts : String} (hts : ∃ d : DateTime, ts = d.strftime)
    : s ++ ts ≠ s' ++ "|exit" := by
  obtain ⟨d, rfl⟩ := hts
  intro h
  have hlast := congrArg (fun s : String => s.toList.getLast?) h
  have hexit : "|exit".toList.getLast? = some 't' := by decide
  simp only [String.toList_append, List.getLast?_append, getLast?_strftime, hexit,
    Option.some_or, Option.some.injEq] at hlast
  exact digit_ne (by decide) hlast

/--
What the id of a charge is made of.
-/
def Charge.IdOf (c : Charge) (ts : String) : Prop :=
  c.fundingId = c.symbol ++ "|" ++ ts ∨ c.fundingId = c.symbol ++ "|" ++ ts ++ "|exit"

theorem heldCharge_id {ts symbol : String} {pos : Position} {c : Charge}
    (h : heldCharge prices index windowStart ts symbol pos = some c)
    : c.fundingId = symbol ++ "|" ++ ts := by
  unfold heldCharge at h
  dsimp only at h
  split at h
  . cases h
  . cases h
    rfl

namespace StepSpec

theorem heldId (h : StepSpec cfg prices index windowStart b) {c : Charge} (hc : c ∈ b.held)
    : c.fundingId = c.symbol ++ "|" ++ b.ts := by
  rw [h.held, List.mem_filterMap] at hc
  obtain ⟨p, -, hcharge⟩ := hc
  rw [heldCharge_id hcharge, heldCharge_symbol hcharge]

theorem stubId (h : StepSpec cfg prices index windowStart b) {x : Exit} (hx : x ∈ b.exits)
    : x.stub.symbol = x.symbol ∧ x.stub.fundingId = x.symbol ++ "|" ++ b.ts ++ "|exit" := by
  obtain ⟨pos, nb, -, -, -, heq⟩ := h.exit_of_mem x hx
  rw [heq]
  exact ⟨rfl, rfl⟩

theorem chargeId (h : StepSpec cfg prices index windowStart b) {c : Charge} (hc : c ∈ b.charges)
    : c.IdOf b.ts := by
  rw [BarStep.charges, List.mem_append, List.mem_map] at hc
  rcases hc with hc | ⟨x, hx, rfl⟩
  . exact .inl (h.heldId hc)
  . right
    rw [(h.stubId hx).1]
    exact (h.stubId hx).2

theorem fundingIds_nodup (h : StepSpec cfg prices index windowStart b)
    (hts : ∃ d : DateTime, b.ts = d.strftime) : (b.charges.map Charge.fundingId).Nodup := by
  rw [BarStep.charges, List.map_append, List.map_map, List.nodup_append']
  refine ⟨?_, ?_, ?_⟩
  . rw [h.held, List.map_filterMap, List.nodup_iff_pairwise_ne]
    have hsymbols := map_toList_nodup b.before.openPositions
    rw [List.nodup_iff_pairwise_ne, List.pairwise_map] at hsymbols
    apply hsymbols.filterMap
    intro p p' hne id hid id' hid' heq
    obtain ⟨c, hc, rfl⟩ := Option.map_eq_some_iff.mp hid
    obtain ⟨c', hc', rfl⟩ := Option.map_eq_some_iff.mp hid'
    rw [heldCharge_id hc, heldCharge_id hc'] at heq
    exact hne (append_stamp_inj hts hts heq).1
  . have hexits := h.exits_nodup
    rw [List.nodup_iff_pairwise_ne, List.pairwise_map] at hexits ⊢
    apply hexits.imp_of_mem
    intro x x' hx hx' hne heq
    rw [Function.comp_apply, Function.comp_apply, (h.stubId hx).2, (h.stubId hx').2,
      String.append_left_inj] at heq
    exact hne (append_stamp_inj hts hts heq).1
  . intro id hheld hstub
    obtain ⟨c, hc, rfl⟩ := List.mem_map.mp hheld
    obtain ⟨x, hx, heq⟩ := List.mem_map.mp hstub
    rw [Function.comp_apply, (h.stubId hx).2, h.heldId hc] at heq
    exact append_stamp_ne_exit hts heq.symm

end StepSpec

theorem Charge.IdOf.ne_empty {c : Charge} {ts : String} (h : c.IdOf ts) : c.fundingId ≠ "" := by
  intro hempty
  have hbar : '|' ∈ c.fundingId.toList := by
    rcases h with h | h <;> rw [h] <;> simp
  rw [hempty] at hbar
  cases hbar

theorem Bounded.chargeRow_sound (h : Bounded cfg range prices index windowStart b)
    (htame : Tame cfg range) {c : Charge} (hc : c ∈ b.charges)
    : |expectedAmount (c.row b.ts b.commitId) - (c.row b.ts b.commitId).fundingAmount|
          ≤ rederiveEps
        ∧ (c.row b.ts b.commitId).checks.badFields = [] :=
  (h.charge htame hc).row_sound h.market.stamped (h.spec.chargeId hc).ne_empty b.commitId

/--
Charges of two bars never share an id.
-/
theorem Charge.IdOf.ts_eq {c c' : Charge} {ts ts' : String} (h : c.IdOf ts) (h' : c'.IdOf ts')
    (hts : ∃ d : DateTime, ts = d.strftime) (hts' : ∃ d : DateTime, ts' = d.strftime)
    (heq : c.fundingId = c'.fundingId) : ts = ts' := by
  rcases h with h | h <;> rcases h' with h' | h' <;> rw [h, h'] at heq
  . exact (append_stamp_inj hts hts' heq).2
  . exact absurd heq (append_stamp_ne_exit hts)
  . exact absurd heq.symm (append_stamp_ne_exit hts')
  . rw [String.append_left_inj] at heq
    exact (append_stamp_inj hts hts' heq).2

end fundingIds

end Quantbot
