import Quantbot.Paper.Engine.Lemmas.Symbol
import Quantbot.Paper.FundingConservation

/-!
The fills of a symbol over any sequence of runs: entries and exits in turn, one trade for each pair.
-/

namespace Quantbot

/--
The exit fill closes what the entry fill opened, and the trade is about these two.
-/
structure Closes (entry exit : FillRow) (t : TradeRow) : Prop where
  trip : IsRoundTrip t entry exit
  id : t.tradeId = exit.fillId
  sides : entry.side = "BUY" ∧ exit.side = "SELL"
  order : entry.signalBarTs < exit.signalBarTs
  qty : exit.qty = entry.qty ∧ t.qty = entry.qty
  prices : t.entryPrice = entry.fillPrice ∧ t.exitPrice = exit.fillPrice
  net : t.netPnl = round8 (t.grossPnl - t.fees - t.funding)

/--
Fills in the order of their bars with the trades they make up, and the entry that is still open.
-/
inductive RoundTrips : List FillRow → List TradeRow → Option FillRow → Prop where
  | nil : RoundTrips [] [] none
  | enter {fills : List FillRow} {trades : List TradeRow} (entry : FillRow)
      (before : RoundTrips fills trades none) (kind : entry.kind = "entry")
      : RoundTrips (fills ++ [entry]) trades (some entry)
  | exit {fills : List FillRow} {trades : List TradeRow} {entry : FillRow} (exit : FillRow)
      (t : TradeRow) (before : RoundTrips fills trades (some entry)) (closes : Closes entry exit t)
      : RoundTrips (fills ++ [exit]) (trades ++ [t]) none

/--
What an open position keeps of its entry fill.
-/
structure EnteredAs (symbol : String) (pos : Position) (entry : FillRow) : Prop where
  symbol : entry.symbol = symbol
  kind : entry.kind = "entry"
  side : entry.side = "BUY"
  id : pos.entryFillId = entry.fillId
  bar : pos.entryBarTs = entry.signalBarTs
  fillTs : pos.entryFillTs = entry.fillTs
  qty : roundDp 10 pos.qty = entry.qty
  price : round8 pos.entryPrice = entry.fillPrice
  fee : round8 pos.entryFee = entry.fee

/--
The book holds a position exactly when an entry is open, and it is the one of that entry.
-/
inductive HeldAs (symbol : String) : Option Position → Option FillRow → Prop where
  | none : HeldAs symbol none none
  | some {pos : Position} {entry : FillRow} (entered : EnteredAs symbol pos entry)
      : HeldAs symbol (some pos) (some entry)

variable {cfg : PaperConfig} {prices : PriceBook} {index : FundingIndex} {windowStart : String}
  {b : BarStep} {symbol : String}

namespace RoundTrips

variable {fills : List FillRow} {trades : List TradeRow}

theorem mem_entry {entry : FillRow} (h : RoundTrips fills trades (some entry)) : entry ∈ fills := by
  cases h with
  | enter entry before kind => exact List.mem_append_right _ List.mem_cons_self

/--
One entry fill and one exit fill for each trade, and one entry fill more while an entry is open.
-/
theorem length_kinds {entry : Option FillRow} (h : RoundTrips fills trades entry)
    : (fills.filter (fun f => f.kind = "entry")).length = trades.length + entry.toList.length
        ∧
      (fills.filter (fun f => f.kind = "exit")).length = trades.length := by
  induction h with
  | nil => exact ⟨rfl, rfl⟩
  | enter entry before kind ih => simp [ih, kind]
  | exit exit t before closes ih => simp [ih, closes.trip.exit_kind]

theorem getLast?_entries {entry : FillRow} (h : RoundTrips fills trades (some entry))
    : (fills.filter (fun f => f.kind = "entry")).getLast? = some entry := by
  cases h with
  | enter entry before kind => simp [kind]

end RoundTrips

theorem HeldAs.isSome_eq {symbol : String} {pos : Option Position} {entry : Option FillRow}
    (h : HeldAs symbol pos entry) : pos.isSome = entry.isSome := by
  cases h <;> rfl

theorem EnteredAs.sameEntry {pos pos' : Position} {entry : FillRow}
    (h : EnteredAs symbol pos entry) (hsame : pos.SameEntry pos')
    : EnteredAs symbol pos' entry := by
  unfold Position.SameEntry at hsame
  rw [← hsame]
  exact ⟨h.symbol, h.kind, h.side, h.id, h.bar, h.fillTs, h.qty, h.price, h.fee⟩

theorem enteredAs_position (cfg : PaperConfig) (e : Entry) (ts commitId : String)
    : EnteredAs e.symbol (e.position ts) (e.fillRow cfg ts commitId) := by
  constructor <;> rfl

theorem EnteredAs.closes {x : Exit} {entry : FillRow} (h : EnteredAs x.symbol x.pos entry)
    {ts : String} (hpast : x.pos.entryBarTs < ts) (cfg : PaperConfig) (commitId : String)
    : Closes entry (x.fillRow cfg ts commitId) (x.tradeRow ts commitId) where
  trip := ⟨h.id.symm, h.symbol, h.kind, h.bar.symm, rfl, rfl, rfl, rfl⟩
  id := rfl
  sides := ⟨h.side, rfl⟩
  order := by
    rw [← h.bar]
    exact hpast
  qty := ⟨h.qty, h.qty⟩
  prices := ⟨h.price, rfl⟩
  net := rfl

section run

/--
The invariant: the rows of each symbol pair up, and the book holds what they left open.
-/
structure TripInv (cfg : PaperConfig) (symbol : String) (done : List BarStep) (book : Book)
    (entry : Option FillRow) : Prop where
  trips : RoundTrips (done.flatMap (fun b => b.fillsOf cfg symbol))
    (done.flatMap (fun b => b.tradesOf symbol)) entry
  held : HeldAs symbol book.openPositions[symbol]? entry
  past : ∀ pos ∈ book.openPositions[symbol]?, pos.entryBarTs ≤ book.watermark

theorem TripInv.initial {book : Book} (hempty : book.openPositions = ∅)
    : TripInv cfg symbol [] book none where
  trips := RoundTrips.nil
  held := by
    rw [hempty, Std.ExtTreeMap.getElem?_empty]
    exact HeldAs.none
  past := by
    rw [hempty, Std.ExtTreeMap.getElem?_empty]
    rintro pos ⟨⟩

theorem TripInv.step {done : List BarStep} {entry : Option FillRow}
    (hspec : StepSpec cfg prices index windowStart b) (hpast : b.before.watermark < b.ts)
    (h : TripInv cfg symbol done b.before entry)
    : ∃ entry', TripInv cfg symbol (done ++ [b]) b.next entry' := by
  have hheld := h.held
  cases hspec.symbolStep symbol with
  | enter e mine empty next fills trades charges =>
    subst mine
    rw [empty] at hheld
    cases hheld
    refine ⟨some (e.fillRow cfg b.ts b.commitId), ?_, ?_, ?_⟩
    . simp only [List.flatMap_append, List.flatMap_singleton, fills, trades, List.append_nil]
      exact RoundTrips.enter _ h.trips rfl
    . rw [next]
      exact HeldAs.some (enteredAs_position cfg e b.ts b.commitId)
    . rw [next, hspec.next_watermark]
      rintro pos ⟨⟩
      exact le_refl b.ts
  | exit x pos mine held same hold accrued next fills trades =>
    subst mine
    rw [held] at hheld
    cases hheld with
    | some entered =>
      have hentry : x.pos.entryBarTs < b.ts := by
        rw [same.entryBarTs]
        exact (h.past pos (by rw [held]; rfl)).trans_lt hpast
      refine ⟨none, ?_, ?_, ?_⟩
      . simp only [List.flatMap_append, List.flatMap_singleton, fills, trades]
        exact RoundTrips.exit _ _ h.trips ((entered.sameEntry same).closes hentry cfg b.commitId)
      . rw [next]
        exact HeldAs.none
      . rw [next]
        rintro pos' ⟨⟩
  | hold pos pos' held same hold accrued next fills trades =>
    rw [held] at hheld
    cases hheld with
    | @some _ entry entered =>
      refine ⟨some entry, ?_, ?_, ?_⟩
      . simp only [List.flatMap_append, List.flatMap_singleton, fills, trades, List.append_nil]
        exact h.trips
      . rw [next]
        exact HeldAs.some (entered.sameEntry same)
      . rw [next, hspec.next_watermark]
        rintro pos₁ ⟨⟩
        rw [same.entryBarTs]
        exact (h.past pos (by rw [held]; rfl)).trans hpast.le
  | idle empty next fills trades charges =>
    rw [empty] at hheld
    cases hheld
    refine ⟨none, ?_, ?_, ?_⟩
    . simp only [List.flatMap_append, List.flatMap_singleton, fills, trades, List.append_nil]
      exact h.trips
    . rw [next]
      exact HeldAs.none
    . rw [next]
      rintro pos' ⟨⟩

theorem Chain.tripInv {M : PriceBook → FundingIndex → BarStep → Prop} {book final : Book}
    {steps : List BarStep} (h : Chain cfg M book steps final) (hempty : book.openPositions = ∅)
    (symbol : String) : ∃ entry, TripInv cfg symbol steps final entry := by
  apply h.invariant (fun done book => ∃ entry, TripInv cfg symbol done book entry) []
  . exact ⟨none, TripInv.initial hempty⟩
  . rintro done prices index windowStart b - hpast hspec ⟨entry, hinv⟩
    exact hinv.step hspec hpast

end run

/--
Over every sequence of runs from the new state, the fills of each symbol are entries and exits in
turn, each exit closes the entry before it in one trade, and the book holds the last entry if it
is still open.
-/
theorem fills_roundTrips {cfg : PaperConfig} {runs : List (RunInput × EngineResult)}
    {final : EngineState} (hruns : EngineRuns cfg (newState cfg.initialEquityUsd) runs final)
    (symbol : String)
    : ∃ entry, RoundTrips ((runsFills cfg runs).filter (fun r => r.symbol = symbol))
          ((runsTrades runs).filter (fun t => t.symbol = symbol)) entry
        ∧
      HeldAs symbol final.openPositions[symbol]? entry := by
  have hchain : Chain cfg (fun _ _ _ => True) _ (runsBars runs) _ :=
    hruns.chain (fun _ _ _ _ => trivial)
  obtain ⟨entry, hinv⟩ := hchain.tripInv rfl symbol
  refine ⟨entry, ?_, hinv.held⟩
  have htrips := hinv.trips
  simp only [runsFills, runsTrades, EngineResult.fills, EngineResult.trades, List.filter_flatMap]
  simp only [runsBars, List.flatMap_assoc] at htrips
  exact htrips

/--
The run over the three bars of `everyBarInput`, which closes one trade.
-/
theorem everyBar_runs
    : ∃ r, EngineRuns fundedConfig (newState fundedConfig.initialEquityUsd) [(everyBarInput, r)]
          r.state
        ∧ r.trades.length = 1
        ∧ r.funding.length = 2
        ∧ ((r.fills fundedConfig).map FillRow.fillId).Nodup
        ∧ (r.fills fundedConfig).length = 2 := by
  have hfacts : ∃ r ∈ (runEngine fundedConfig everyBarInput.perBarObs everyBarInput.prices
      everyBarInput.fundingDf (newState fundedConfig.initialEquityUsd)).toOption,
      r.trades.length = 1 ∧ r.funding.length = 2
        ∧ ((r.fills fundedConfig).map FillRow.fillId).Nodup
        ∧ (r.fills fundedConfig).length = 2 := by
    decide +kernel
  obtain ⟨r, hr, hfacts⟩ := hfacts
  refine ⟨r, ?_, hfacts⟩
  cases hrun : runEngine fundedConfig everyBarInput.perBarObs everyBarInput.prices
      everyBarInput.fundingDf (newState fundedConfig.initialEquityUsd) with
  | error e =>
    rw [hrun] at hr
    cases hr
  | ok r' =>
    rw [hrun] at hr
    cases hr
    exact EngineRuns.cons hrun (EngineRuns.nil _)

theorem fills_roundTrips_everyBar
    : ∃ r, r.trades.length = 1 ∧ ∃ entry,
        RoundTrips ((runsFills fundedConfig [(everyBarInput, r)]).filter
            (fun f => f.symbol = "BTCUSDT"))
          ((runsTrades [(everyBarInput, r)]).filter (fun t => t.symbol = "BTCUSDT")) entry
        ∧
      HeldAs "BTCUSDT" r.state.openPositions["BTCUSDT"]? entry := by
  obtain ⟨r, hruns, hlength, -⟩ := everyBar_runs
  exact ⟨r, hlength, fills_roundTrips hruns "BTCUSDT"⟩

end Quantbot
