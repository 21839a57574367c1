import Quantbot.Paper.Engine.Lemmas.Funding
import Quantbot.Paper.Engine.Lemmas.Origin

/-!
Everything one bar does to one symbol: its rows, and its position before and after.
-/

namespace Quantbot

variable {cfg : PaperConfig} {prices : PriceBook} {index : FundingIndex} {windowStart : String}
  {b : BarStep}

theorem Position.SameEntry.entryBarTs {pos pos' : Position} (h : pos.SameEntry pos')
    : pos'.entryBarTs = pos.entryBarTs := by
  unfold SameEntry at h
  rw [← h]

namespace BarStep

def fillsOf (b : BarStep) (cfg : PaperConfig) (symbol : String) : List FillRow :=
  (b.fillRows cfg).filter (fun r => r.symbol = symbol)

def tradesOf (b : BarStep) (symbol : String) : List TradeRow :=
  b.tradeRows.filter (fun t => t.symbol = symbol)

def chargesOf (b : BarStep) (symbol : String) : List Charge :=
  b.charges.filter (fun c => c.symbol = symbol)

/--
The funding a symbol is charged on the bar, unrounded.
-/
def amountsOf (b : BarStep) (symbol : String) : List ℚ :=
  (b.chargesOf symbol).map Charge.amount

def charged (b : BarStep) (symbol : String) : ℚ :=
  (b.amountsOf symbol).sum

theorem fillsOf_eq (symbol : String)
    : b.fillsOf cfg symbol
        = (b.exits.filter (fun x => x.symbol = symbol)).map (fun x => x.fillRow cfg b.ts b.commitId)
          ++ (b.entries.filter (fun e => e.symbol = symbol)).map
              (fun e => e.fillRow cfg b.ts b.commitId) := by
  rw [fillsOf, fillRows, List.filter_append, List.filter_map, List.filter_map]
  rfl

theorem tradesOf_eq (symbol : String)
    : b.tradesOf symbol
        = (b.exits.filter (fun x => x.symbol = symbol)).map
            (fun x => x.tradeRow b.ts b.commitId) := by
  rw [tradesOf, tradeRows, List.filter_map]
  rfl

end BarStep

/--
On one bar a symbol is entered, left, held, or not there at all.
-/
inductive SymbolStep (cfg : PaperConfig) (b : BarStep) (symbol : String) : Prop where
  | enter (e : Entry) (mine : e.symbol = symbol)
      (empty : b.before.openPositions[symbol]? = none)
      (next : b.next.openPositions[symbol]? = some (e.position b.ts))
      (fills : b.fillsOf cfg symbol = [e.fillRow cfg b.ts b.commitId])
      (trades : b.tradesOf symbol = []) (charges : b.chargesOf symbol = [])
  | exit (x : Exit) (pos : Position) (mine : x.symbol = symbol)
      (held : b.before.openPositions[symbol]? = some pos) (same : pos.SameEntry x.pos)
      (hold : x.pos.holdBars = pos.holdBars + 1)
      (accrued : x.pos.fundingAccrued = pos.fundingAccrued + b.charged symbol)
      (next : b.next.openPositions[symbol]? = none)
      (fills : b.fillsOf cfg symbol = [x.fillRow cfg b.ts b.commitId])
      (trades : b.tradesOf symbol = [x.tradeRow b.ts b.commitId])
  | hold (pos pos' : Position) (held : b.before.openPositions[symbol]? = some pos)
      (same : pos.SameEntry pos') (hold : pos'.holdBars = pos.holdBars + 1)
      (accrued : pos'.fundingAccrued = pos.fundingAccrued + b.charged symbol)
      (next : b.next.openPositions[symbol]? = some pos')
      (fills : b.fillsOf cfg symbol = []) (trades : b.tradesOf symbol = [])
  | idle (empty : b.before.openPositions[symbol]? = none)
      (next : b.next.openPositions[symbol]? = none)
      (fills : b.fillsOf cfg symbol = []) (trades : b.tradesOf symbol = [])
      (charges : b.chargesOf symbol = [])

namespace StepSpec

/--
What an exit leaves with: the position of the book after one more bar, its funding up to the exit
fill accrued.
-/
theorem exit_accrued (h : StepSpec cfg prices index windowStart b) {x : Exit} (hx : x ∈ b.exits)
    : ∃ pos, b.before.openPositions[x.symbol]? = some pos ∧ pos.SameEntry x.pos
        ∧ x.pos.holdBars = pos.holdBars + 1
        ∧ x.pos.fundingAccrued = pos.fundingAccrued + b.charged x.symbol := by
  obtain ⟨pos, nb, hpos, -, -, heq⟩ := h.exit_of_mem x hx
  have hcharges := h.filter_charges_of_exit hx
  refine ⟨pos, hpos, ?_, ?_, ?_⟩
  . rw [heq]
    rfl
  . rw [heq]
    rfl
  . unfold BarStep.charged BarStep.amountsOf BarStep.chargesOf
    rw [hcharges, hpos, List.map_append, List.sum_append, ← add_assoc]
    rw [heq]
    simp only [exitPosition, accrueHeld, Option.bind_some, List.map_cons, List.map_nil,
      List.sum_cons, List.sum_nil, add_zero]
    cases heldCharge prices index windowStart b.ts x.symbol pos <;> simp

theorem symbolStep_exit (h : StepSpec cfg prices index windowStart b) {x : Exit}
    (hx : x ∈ b.exits) (hnext : b.next.openPositions[x.symbol]? = none)
    : SymbolStep cfg b x.symbol := by
  obtain ⟨pos, hpos, hsame, hhold, haccrued⟩ := h.exit_accrued hx
  have hentry : x.symbol ∉ b.entries.map Entry.symbol := by
    rw [h.mem_entries_symbols, hpos]
    simp
  have hexits := filter_key_eq_singleton Exit.symbol h.exits_nodup hx
  refine .exit x pos rfl hpos hsame hhold haccrued hnext ?_ ?_
  . rw [BarStep.fillsOf_eq, hexits, filter_key_eq_nil Entry.symbol hentry]
    rfl
  . rw [BarStep.tradesOf_eq, hexits]
    rfl

theorem symbolStep_enter (h : StepSpec cfg prices index windowStart b) {e : Entry}
    (he : e ∈ b.entries) (hnone : b.before.openPositions[e.symbol]? = none)
    (hnext : b.next.openPositions[e.symbol]? = some (e.position b.ts))
    : SymbolStep cfg b e.symbol := by
  have hexit : e.symbol ∉ b.exits.map Exit.symbol := by
    rw [h.mem_exits_symbols, hnone]
    simp
  have hentries := filter_key_eq_singleton Entry.symbol h.entries_nodup he
  refine .enter e rfl hnone hnext ?_ ?_ ?_
  . rw [BarStep.fillsOf_eq, filter_key_eq_nil Exit.symbol hexit, hentries]
    rfl
  . rw [BarStep.tradesOf_eq, filter_key_eq_nil Exit.symbol hexit]
    rfl
  . rw [BarStep.chargesOf, h.filter_charges_of_not_exit hexit, hnone]
    rfl

theorem symbolStep (h : StepSpec cfg prices index windowStart b) (symbol : String)
    : SymbolStep cfg b symbol := by
  rcases h.next_getElem? symbol with ⟨e, he, rfl, hnone, hnext⟩ | ⟨x, hx, rfl, hnext⟩
    | ⟨hexit, hentry, hnext⟩
  . exact h.symbolStep_enter he hnone hnext
  . exact h.symbolStep_exit hx hnext
  . have hfills : b.fillsOf cfg symbol = [] := by
      rw [BarStep.fillsOf_eq, filter_key_eq_nil Exit.symbol hexit,
        filter_key_eq_nil Entry.symbol hentry]
      rfl
    have htrades : b.tradesOf symbol = [] := by
      rw [BarStep.tradesOf_eq, filter_key_eq_nil Exit.symbol hexit]
      rfl
    have hcharges := h.filter_charges_of_not_exit hexit
    cases hpos : b.before.openPositions[symbol]? with
    | none =>
      rw [hpos] at hnext hcharges
      exact .idle hpos hnext hfills htrades hcharges
    | some pos =>
      rw [hpos] at hnext hcharges
      refine .hold pos _ hpos
        (pos.sameEntry_refl.accrueHeld prices index windowStart b.ts symbol) rfl ?_ hnext hfills
        htrades
      unfold BarStep.charged BarStep.amountsOf BarStep.chargesOf
      rw [hcharges, Option.bind_some]
      unfold accrueHeld
      cases heldCharge prices index windowStart b.ts symbol pos <;> simp

end StepSpec

end Quantbot
