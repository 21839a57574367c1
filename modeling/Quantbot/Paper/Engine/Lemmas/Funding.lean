import Quantbot.Util.Windows
import Quantbot.Paper.Engine.Lemmas.Step

/-!
The funding windows booked for a position between its entry fill and its exit fill.
-/

namespace Quantbot

section index

theorem fundingEventsIn_eq_filter {index : FundingIndex} {symbol : String}
    (hsorted : (index.series symbol).Pairwise fundingKeyLe) (start stop : String)
    : fundingEventsIn index symbol start stop
        =
      (index.series symbol).filter (fun e => start < e.1 ∧ e.1 ≤ stop) := by
  rw [← sorted_slice_eq_filter Prod.fst hsorted start stop]
  unfold fundingEventsIn bisectRight
  simp only [List.takeWhile_map, List.length_map]
  rfl

instance : IsTrans (String × ℚ) fundingKeyLe :=
  ⟨fun _ _ _ hab hbc => le_trans hab hbc⟩

instance : Std.Total fundingKeyLe :=
  ⟨fun a b => le_total a.1 b.1⟩

theorem buildFundingIndex_sorted (fundingDf : List FundingEvent) (symbol : String)
    : ((buildFundingIndex fundingDf).series symbol).Pairwise fundingKeyLe := by
  apply List.pairwise_insertionSort

end index

variable {cfg : PaperConfig} {prices : PriceBook} {index : FundingIndex} {windowStart : String}
  {b : BarStep}

def FundingRow.window (r : FundingRow) : String × String :=
  (r.windowStart, r.windowEnd)

def Charge.window (c : Charge) : String × String :=
  (c.windowStart, c.windowEnd)

/--
The funding rows of `symbol` on the bars after `entryBarTs` up to `exitBarTs`.
-/
def bookedFunding (funding : List FundingRow) (symbol entryBarTs exitBarTs : String)
    : List FundingRow :=
  funding.filter (fun r => r.symbol = symbol ∧ entryBarTs < r.barTs ∧ r.barTs ≤ exitBarTs)

def stepsFunding (steps : List BarStep) : List FundingRow :=
  steps.flatMap BarStep.fundingRows

def bookedWindows (steps : List BarStep) (symbol entryBarTs exitBarTs : String)
    : List (String × String) :=
  (bookedFunding (stepsFunding steps) symbol entryBarTs exitBarTs).map FundingRow.window

/--
The bar is not further from the previous consumed one than one funding window reaches back, and an
exit fill comes after the entry fill and the exit signal.
-/
structure FundingContiguous (cfg : PaperConfig) (prices : PriceBook) (book : Book) (obs : Obs)
    : Prop where
  held : ∀ (symbol : String) (pos : Position) (windowStart : String),
    book.openPositions[symbol]? = some pos
      → intervalStart obs.timestamp cfg.barIntervalHours = .ok windowStart
      → pos.entryFillTs < obs.timestamp
      → max windowStart pos.entryFillTs
          = if pos.holdBars = 0 then pos.entryFillTs else max book.watermark pos.entryFillTs
  exit : ∀ (symbol : String) (pos : Position) (next : String × ℚ),
    book.openPositions[symbol]? = some pos
      → symbol ∉ obs.activeSymbols
      → prices.nextBar symbol obs.timestamp = some next
      → (pos.entryFillTs ≤ obs.timestamp ∧ obs.timestamp ≤ next.1)
          ∨ (obs.timestamp ≤ pos.entryFillTs ∧ next.1 ≤ obs.timestamp)

theorem heldCharge_symbol {ts symbol : String} {pos : Position} {c : Charge}
    (h : heldCharge prices index windowStart ts symbol pos = some c) : c.symbol = symbol := by
  unfold heldCharge at h
  dsimp only at h
  split at h
  . cases h
  . cases h
    rfl

theorem heldCharge_windows (prices : PriceBook) (index : FundingIndex)
    (windowStart ts symbol : String) (pos : Position)
    : (heldCharge prices index windowStart ts symbol pos).toList.map Charge.window
        =
      if ts ≤ max windowStart pos.entryFillTs then
        []
      else
        [(max windowStart pos.entryFillTs, ts)] := by
  unfold heldCharge
  dsimp only
  split <;> rfl

theorem filter_held {positions : OpenPositions} {ts symbol : String}
    : (positions.toList.filterMap (fun p => heldCharge prices index windowStart ts p.1 p.2)).filter
          (fun c => c.symbol = symbol)
        =
      (positions[symbol]?.bind (heldCharge prices index windowStart ts symbol)).toList := by
  have hfilter : ∀ l : List (String × Position),
      (l.filterMap (fun p => heldCharge prices index windowStart ts p.1 p.2)).filter
          (fun c => c.symbol = symbol)
        = (l.filter (fun p => p.1 = symbol)).filterMap
            (fun p => heldCharge prices index windowStart ts p.1 p.2) := by
    intro l
    induction l with
    | nil => rfl
    | cons p l ih =>
      rw [List.filterMap_cons]
      cases hc : heldCharge prices index windowStart ts p.1 p.2 with
      | none =>
        simp only
        rw [ih, List.filter_cons]
        split
        . rw [List.filterMap_cons, hc]
        . rfl
      | some c =>
        simp only
        rw [List.filter_cons, List.filter_cons, heldCharge_symbol hc, ih]
        split
        . rw [List.filterMap_cons, hc]
        . rfl
  rw [hfilter]
  cases hpos : positions[symbol]? with
  | none =>
    rw [filter_key_eq_nil]
    . rfl
    . intro hmem
      rw [List.mem_map] at hmem
      obtain ⟨p, hp, rfl⟩ := hmem
      rw [mem_toList_iff, hpos] at hp
      cases hp
  | some pos =>
    have hmem : (symbol, pos) ∈ positions.toList := by
      rw [mem_toList_iff]
      exact hpos
    have hsingle := filter_key_eq_singleton Prod.fst (map_toList_nodup positions) hmem
    rw [hsingle]
    simp only [List.filterMap_cons, List.filterMap_nil, Option.bind_some]
    cases heldCharge prices index windowStart ts symbol pos <;> rfl

namespace StepSpec

theorem filter_charges_of_not_exit (h : StepSpec cfg prices index windowStart b) {symbol : String}
    (hexit : symbol ∉ b.exits.map Exit.symbol)
    : b.charges.filter (fun c => c.symbol = symbol)
        =
      (b.before.openPositions[symbol]?.bind
        (heldCharge prices index windowStart b.ts symbol)).toList := by
  unfold BarStep.charges
  rw [List.filter_append, h.held, filter_held]
  have hstubs : (b.exits.map Exit.stub).filter (fun c => c.symbol = symbol) = [] := by
    rw [List.filter_eq_nil_iff]
    intro c hc hsymbol
    rw [List.mem_map] at hc
    obtain ⟨x, hx, rfl⟩ := hc
    obtain ⟨pos, nb, -, -, -, heq⟩ := h.exit_of_mem x hx
    apply hexit
    rw [List.mem_map]
    refine ⟨x, hx, ?_⟩
    rw [← of_decide_eq_true hsymbol]
    rw [heq]
    rfl
  rw [hstubs, List.append_nil]

theorem filter_charges_of_exit (h : StepSpec cfg prices index windowStart b) {x : Exit}
    (hx : x ∈ b.exits)
    : b.charges.filter (fun c => c.symbol = x.symbol)
        =
      (b.before.openPositions[x.symbol]?.bind
        (heldCharge prices index windowStart b.ts x.symbol)).toList ++ [x.stub] := by
  unfold BarStep.charges
  rw [List.filter_append, h.held, filter_held]
  congr 1
  have hstub : ∀ y ∈ b.exits, y.stub.symbol = y.symbol := by
    intro y hy
    obtain ⟨pos, nb, -, -, -, heq⟩ := h.exit_of_mem y hy
    rw [heq]
    rfl
  rw [List.filter_map]
  have hcongr : b.exits.filter ((fun c : Charge => decide (c.symbol = x.symbol)) ∘ Exit.stub)
      = b.exits.filter (fun y => y.symbol = x.symbol) := by
    apply List.filter_congr
    intro y hy
    simp [hstub y hy]
  rw [hcongr, filter_key_eq_singleton Exit.symbol h.exits_nodup hx]
  rfl

end StepSpec

theorem bookedWindows_append (steps steps' : List BarStep) (symbol lo hi : String)
    : bookedWindows (steps ++ steps') symbol lo hi
        =
      bookedWindows steps symbol lo hi ++ bookedWindows steps' symbol lo hi := by
  simp [bookedWindows, bookedFunding, stepsFunding]

theorem bookedWindows_singleton {lo hi : String} (symbol : String) (hlo : lo < b.ts)
    (hhi : b.ts ≤ hi)
    : bookedWindows [b] symbol lo hi
        =
      (b.charges.filter (fun c => c.symbol = symbol)).map Charge.window := by
  unfold bookedWindows bookedFunding stepsFunding
  rw [List.flatMap_singleton, BarStep.fundingRows, List.filter_map, List.map_map]
  have hcongr : b.charges.filter ((fun r : FundingRow =>
        decide (r.symbol = symbol ∧ lo < r.barTs ∧ r.barTs ≤ hi))
        ∘ fun c => c.row b.ts b.commitId)
      = b.charges.filter (fun c => c.symbol = symbol) := by
    apply List.filter_congr
    intro c _
    show decide (c.symbol = symbol ∧ lo < b.ts ∧ b.ts ≤ hi) = decide (c.symbol = symbol)
    rw [decide_eq_decide]
    exact ⟨fun h => h.1, fun h => ⟨h, hlo, hhi⟩⟩
  rw [hcongr]
  rfl

theorem bookedWindows_late {lo hi : String} (symbol : String) (hhi : hi < b.ts)
    : bookedWindows [b] symbol lo hi = [] := by
  unfold bookedWindows bookedFunding stepsFunding
  rw [List.flatMap_singleton, List.map_eq_nil_iff, List.filter_eq_nil_iff]
  intro r hr hcond
  simp only [BarStep.fundingRows, List.mem_map] at hr
  obtain ⟨c, -, rfl⟩ := hr
  have hle := (of_decide_eq_true hcond).2.2
  exact absurd hhi (not_lt.mpr hle)

/--
The upper bound does not matter beyond the last bar.
-/
theorem bookedWindows_bound {steps : List BarStep} {last hi : String}
    (hbars : ∀ b ∈ steps, b.ts ≤ last) (hlast : last ≤ hi) (symbol lo : String)
    : bookedWindows steps symbol lo hi = bookedWindows steps symbol lo last := by
  unfold bookedWindows bookedFunding
  congr 1
  apply List.filter_congr
  intro r hr
  simp only [stepsFunding, List.mem_flatMap, BarStep.fundingRows, List.mem_map] at hr
  obtain ⟨b, hb, c, -, rfl⟩ := hr
  have hle : (c.row b.ts b.commitId).barTs ≤ last := hbars b hb
  simp [hle, hle.trans hlast]

/--
The entry a position was opened by.
-/
def EnteredBy (steps : List BarStep) (symbol : String) (pos : Position) : Prop :=
  ∃ b ∈ steps, ∃ e ∈ b.entries,
    e.symbol = symbol
      ∧ pos.entryBarTs = b.ts
      ∧ pos.entryFillTs = e.nextTs
      ∧ pos.entryFillId = fillId symbol b.ts "BUY" "entry"

theorem EnteredBy.mono {steps : List BarStep} {symbol : String} {pos : Position}
    (h : EnteredBy steps symbol pos) (steps' : List BarStep)
    : EnteredBy (steps ++ steps') symbol pos := by
  obtain ⟨b, hb, hentry⟩ := h
  exact ⟨b, List.mem_append_left _ hb, hentry⟩

/--
What every open position and every closed one has been charged so far.
-/
structure FundingInv (done : List BarStep) (book : Book) : Prop where
  bars_le : ∀ b ∈ done, b.ts ≤ book.watermark
  entered : ∀ (symbol : String) (pos : Position), book.openPositions[symbol]? = some pos →
    EnteredBy done symbol pos ∧ pos.entryBarTs ≤ book.watermark ∧ 0 ≤ pos.holdBars
  unmarked : ∀ (symbol : String) (pos : Position), book.openPositions[symbol]? = some pos → pos.holdBars = 0 →
    bookedWindows done symbol pos.entryBarTs book.watermark = []
  marked : ∀ (symbol : String) (pos : Position), book.openPositions[symbol]? = some pos → pos.holdBars ≠ 0 →
    Covers (bookedWindows done symbol pos.entryBarTs book.watermark) pos.entryFillTs book.watermark
  closed : ∀ b ∈ done, ∀ x ∈ b.exits,
    EnteredBy done x.symbol x.pos
      ∧ Covers (bookedWindows done x.symbol x.pos.entryBarTs b.ts) x.pos.entryFillTs x.nextTs

/--
A mark at `ts` extends what is covered up to `ts`.
-/
theorem covers_mark (index : FundingIndex) {done : List BarStep} {book : Book} {obs : Obs} {symbol : String}
    {pos : Position} (hinv : FundingInv done book)
    (hcond : FundingContiguous cfg prices book obs) (hpast : book.watermark < obs.timestamp)
    (hpos : book.openPositions[symbol]? = some pos)
    (hwindow : intervalStart obs.timestamp cfg.barIntervalHours = .ok windowStart)
    : Covers
        (bookedWindows done symbol pos.entryBarTs book.watermark
          ++ (heldCharge prices index windowStart obs.timestamp symbol pos).toList.map
              Charge.window)
        pos.entryFillTs obs.timestamp := by
  rw [heldCharge_windows]
  by_cases hfill : pos.entryFillTs < obs.timestamp
  . have hmax := hcond.held symbol pos windowStart hpos hwindow hfill
    by_cases hzero : pos.holdBars = 0
    . rw [if_pos hzero] at hmax
      rw [hinv.unmarked symbol pos hpos hzero, hmax, if_neg (not_le.mpr hfill)]
      exact Covers.singleton _ _
    . rw [if_neg hzero] at hmax
      rw [hmax, if_neg (not_le.mpr (max_lt hpast hfill))]
      exact (hinv.marked symbol pos hpos hzero).snoc hpast.le
  . have hle : obs.timestamp ≤ pos.entryFillTs := not_lt.mp hfill
    rw [if_pos (hle.trans (le_max_right _ _)), List.append_nil]
    by_cases hzero : pos.holdBars = 0
    . rw [hinv.unmarked symbol pos hpos hzero]
      exact Covers.nil hle
    . exact (hinv.marked symbol pos hpos hzero).of_le (hpast.le.trans hle) hle

namespace FundingInv

variable {done : List BarStep}

theorem initial {book : Book} (hempty : book.openPositions = ∅) : FundingInv [] book := by
  constructor
  case bars_le | closed =>
    intro b hb
    cases hb
  all_goals
    intro symbol pos hpos
    rw [hempty] at hpos
    simp at hpos

/--
Every bar that meets the condition keeps the invariant.
-/
theorem step (hspec : StepSpec cfg prices index windowStart b)
    (hcond : FundingContiguous cfg prices b.before b.obs) (hpast : b.before.watermark < b.ts)
    (hinv : FundingInv done b.before) : FundingInv (done ++ [b]) b.next := by
  have hbars : ∀ c ∈ done ++ [b], c.ts ≤ b.ts := by
    intro c hc
    rw [List.mem_append, List.mem_singleton] at hc
    cases hc with
    | inl hmem => exact (hinv.bars_le c hmem).trans hpast.le
    | inr heq => rw [heq]
  have hold : ∀ symbol lo, bookedWindows done symbol lo b.ts
      = bookedWindows done symbol lo b.before.watermark := by
    intro symbol lo
    exact bookedWindows_bound hinv.bars_le hpast.le symbol lo
  -- an open position after the bar is the bar's entry or has been marked by it
  have hopen : ∀ symbol pos', b.next.openPositions[symbol]? = some pos' →
      (∃ e ∈ b.entries, e.symbol = symbol ∧ pos' = e.position b.ts)
        ∨
      (symbol ∉ b.exits.map Exit.symbol ∧ ∃ pos, b.before.openPositions[symbol]? = some pos
        ∧ pos' = accrueHeld prices index windowStart b.ts symbol pos) := by
    intro symbol pos' hpos'
    rcases hspec.next_getElem? symbol with ⟨e, he, hsymbol, -, hnext⟩ | ⟨x, -, -, hnext⟩
        | ⟨hexit, -, hnext⟩
    . left
      rw [hpos', Option.some.injEq] at hnext
      exact ⟨e, he, hsymbol, hnext⟩
    . rw [hpos'] at hnext
      cases hnext
    . right
      rw [hpos', eq_comm, Option.map_eq_some_iff] at hnext
      obtain ⟨pos, hpos, rfl⟩ := hnext
      exact ⟨hexit, pos, hpos, rfl⟩
  have hmarked : ∀ symbol pos, symbol ∉ b.exits.map Exit.symbol →
      b.before.openPositions[symbol]? = some pos →
      Covers (bookedWindows (done ++ [b]) symbol pos.entryBarTs b.ts) pos.entryFillTs b.ts := by
    intro symbol pos hexit hpos
    have hlt := (hinv.entered symbol pos hpos).2.1.trans_lt hpast
    rw [bookedWindows_append, bookedWindows_singleton symbol hlt (le_refl _),
      hspec.filter_charges_of_not_exit hexit, hpos, Option.bind_some, hold]
    exact covers_mark index hinv hcond hpast hpos hspec.window
  constructor
  case bars_le =>
    rw [hspec.next_watermark]
    exact hbars
  case entered =>
    intro symbol pos' hpos'
    rw [hspec.next_watermark]
    rcases hopen symbol pos' hpos' with ⟨e, he, hsymbol, rfl⟩ | ⟨-, pos, hpos, rfl⟩
    . refine ⟨⟨b, by simp, e, he, hsymbol, rfl, rfl, ?_⟩, le_refl _, le_refl _⟩
      rw [← hsymbol]
      rfl
    . obtain ⟨hentered, hle, hhold⟩ := hinv.entered symbol pos hpos
      refine ⟨hentered.mono [b], hle.trans hpast.le, ?_⟩
      simp only [accrueHeld]
      omega
  case unmarked =>
    intro symbol pos' hpos' hzero
    rcases hopen symbol pos' hpos' with ⟨e, he, hsymbol, rfl⟩ | ⟨-, pos, hpos, rfl⟩
    . have hnone : ∀ hi, bookedWindows (done ++ [b]) symbol b.ts hi = [] := by
        intro hi
        unfold bookedWindows bookedFunding
        rw [List.map_eq_nil_iff, List.filter_eq_nil_iff]
        intro r hr hrow
        simp only [stepsFunding, List.mem_flatMap, BarStep.fundingRows, List.mem_map] at hr
        obtain ⟨c, hc, charge, -, rfl⟩ := hr
        have hlt := (of_decide_eq_true hrow).2.1
        exact absurd (hbars c hc) (not_le.mpr hlt)
      exact hnone _
    . have := (hinv.entered symbol pos hpos).2.2
      simp only [accrueHeld] at hzero
      omega
  case marked =>
    intro symbol pos' hpos' hne
    rw [hspec.next_watermark]
    rcases hopen symbol pos' hpos' with ⟨e, he, hsymbol, rfl⟩ | ⟨hexit, pos, hpos, rfl⟩
    . exact absurd rfl hne
    . exact hmarked symbol pos hexit hpos
  case closed =>
    intro c hc x hx
    rw [List.mem_append, List.mem_singleton] at hc
    cases hc with
    | inl hmem =>
      obtain ⟨hentered, hcovers⟩ := hinv.closed c hmem x hx
      refine ⟨hentered.mono [b], ?_⟩
      rw [bookedWindows_append,
        bookedWindows_late x.symbol ((hinv.bars_le c hmem).trans_lt hpast), List.append_nil]
      exact hcovers
    | inr heq =>
      subst heq
      obtain ⟨pos, nb, hpos, hactive, hnext, heq⟩ := hspec.exit_of_mem x hx
      have hentry : x.pos.entryBarTs = pos.entryBarTs ∧ x.pos.entryFillTs = pos.entryFillTs
          ∧ x.pos.entryFillId = pos.entryFillId ∧ x.nextTs = nb.1
          ∧ x.stub.window = (c.ts, nb.1) := by
        rw [heq]
        exact ⟨rfl, rfl, rfl, rfl, rfl⟩
      obtain ⟨hbar, hfill, hid, hnextTs, hstub⟩ := hentry
      obtain ⟨hentered, hle, -⟩ := hinv.entered x.symbol pos hpos
      constructor
      . obtain ⟨d, hd, e, he, hfacts⟩ := hentered
        refine ⟨d, List.mem_append_left _ hd, e, he, ?_⟩
        rw [hbar, hfill, hid]
        exact hfacts
      . have hmark := covers_mark index hinv hcond hpast hpos hspec.window
        rw [hbar, hfill, hnextTs, bookedWindows_append,
          bookedWindows_singleton x.symbol (hle.trans_lt hpast) (le_refl _),
          hspec.filter_charges_of_exit hx, hpos, Option.bind_some, hold, List.map_append,
          List.map_cons, List.map_nil, hstub, ← List.append_assoc]
        rcases hcond.exit x.symbol pos nb hpos hactive hnext with ⟨hfillTs, hexitTs⟩
            | ⟨hfillTs, hexitTs⟩
        . exact hmark.append_window hfillTs hexitTs
        . exact (hmark.append_empty hexitTs).of_le hfillTs (hexitTs.trans hfillTs)

end FundingInv

end Quantbot
