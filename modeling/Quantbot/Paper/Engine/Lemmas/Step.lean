import Quantbot.Util.MapM
import Quantbot.Util.OrderedMap
import Quantbot.Paper.Engine.Lemmas.Run

/-!
What a processed bar does to each symbol.
-/

namespace Quantbot

variable {cfg : PaperConfig} {prices : PriceBook} {index : FundingIndex}

section resolveFills

variable {ts : String} {desired : List String} {positions : OpenPositions}
  {exits : List ((String × Position) × String × ℚ)} {legs : List (String × String × ℚ)}

theorem map_pair_eq_some {α β : Type} {o : Option α} {b : β} {x : β × α}
    (h : o.map (fun a => (b, a)) = some x) : x.1 = b ∧ o = some x.2 := by
  rw [Option.map_eq_some_iff] at h
  obtain ⟨a, ha, rfl⟩ := h
  exact ⟨rfl, ha⟩

theorem resolveFills_some (h : resolveFills prices ts desired positions = some (exits, legs))
    : List.Forall₂ (fun p x => x.1 = p ∧ prices.nextBar p.1 ts = some x.2)
        (positions.toList.filter (fun p => !desired.contains p.1)) exits
        ∧
      List.Forall₂ (fun symbol e => e.1 = symbol ∧ prices.nextBar symbol ts = some e.2)
        ((Std.ExtTreeSet.ofList desired).toList.filter (fun symbol => !positions.contains symbol))
        legs := by
  unfold resolveFills at h
  simp only [Std.ExtTreeSet.contains_ofList, Option.bind_eq_bind, Option.bind_eq_some_iff,
    Option.pure_def, Option.some.injEq, Prod.mk.injEq] at h
  obtain ⟨legs', hlegs, exits', hexits, rfl, rfl⟩ := h
  constructor
  . apply List.Forall₂.imp _ (mapM_eq_some hexits)
    intro p x hpx
    exact map_pair_eq_some hpx
  . apply List.Forall₂.imp _ (mapM_eq_some hlegs)
    intro symbol e hse
    exact map_pair_eq_some hse

end resolveFills

theorem enterPosition_ok {symbol nextTs : String} {openPrice : ℚ} {e : Entry}
    (h : enterPosition cfg symbol nextTs openPrice = .ok e)
    : openPrice * (1 + cfg.slip) ≠ 0
        ∧
      e = {
        symbol := symbol
        nextTs := nextTs
        openPrice := openPrice
        fillPrice := openPrice * (1 + cfg.slip)
        qty := cfg.notionalUsd / (openPrice * (1 + cfg.slip))
        fee := openPrice * (1 + cfg.slip) * (cfg.notionalUsd / (openPrice * (1 + cfg.slip)))
          * cfg.feeRate } := by
  unfold enterPosition at h
  dsimp only at h
  split at h
  . cases h
  next hne =>
    cases h
    exact ⟨hne, rfl⟩

theorem enterPosition_symbol {symbol nextTs : String} {openPrice : ℚ} {e : Entry}
    (h : enterPosition cfg symbol nextTs openPrice = .ok e) : e.symbol = symbol := by
  rw [(enterPosition_ok h).2]

/--
The fields of a processed bar in terms of the book and the observation it started from.
-/
structure StepSpec (cfg : PaperConfig) (prices : PriceBook) (index : FundingIndex)
    (windowStart : String) (b : BarStep) : Prop where
  window : intervalStart b.ts cfg.barIntervalHours = .ok windowStart
  commit : b.commitId = barCommitId b.obs b.ts cfg.engineVersion cfg.configHash
  held : b.held = b.before.openPositions.toList.filterMap
    (fun p => heldCharge prices index windowStart b.ts p.1 p.2)
  exit_of_mem : ∀ x ∈ b.exits, ∃ pos nb,
    b.before.openPositions[x.symbol]? = some pos
      ∧ x.symbol ∉ b.obs.activeSymbols
      ∧ prices.nextBar x.symbol b.ts = some nb
      ∧ x = exitPosition cfg prices index b.ts x.symbol
          (accrueHeld prices index windowStart b.ts x.symbol pos) nb.1 nb.2
  exits_symbols : b.exits.map Exit.symbol
    = (b.before.openPositions.toList.filter (fun p => !b.obs.activeSymbols.contains p.1)).map
        Prod.fst
  entry_of_mem : ∀ e ∈ b.entries, ∃ nb,
    b.before.openPositions[e.symbol]? = none
      ∧ e.symbol ∈ b.obs.activeSymbols
      ∧ prices.nextBar e.symbol b.ts = some nb
      ∧ enterPosition cfg e.symbol nb.1 nb.2 = .ok e
  entries_symbols : b.entries.map Entry.symbol
    = (Std.ExtTreeSet.ofList b.obs.activeSymbols).toList.filter
        (fun symbol => !b.before.openPositions.contains symbol)
  next_watermark : b.next.watermark = b.ts
  next_open : b.next.openPositions
    = b.entries.foldl (fun m e => m.insert e.symbol (e.position b.ts))
        (b.exits.foldl (fun m x => m.erase x.symbol)
          (b.before.openPositions.map (accrueHeld prices index windowStart b.ts)))
  next_realized : b.next.acc.realizedGross
    = b.before.acc.realizedGross + (b.exits.map Exit.gross).sum
  next_fees : b.next.acc.feesCum
    = b.before.acc.feesCum + (b.exits.map Exit.fee).sum + (b.entries.map Entry.fee).sum
  next_funding : b.next.acc.fundingCum
    = b.before.acc.fundingCum + (b.charges.map Charge.amount).sum
  next_peak : b.next.peakEquity = max b.before.peakEquity b.equity
  acc : b.acc = { b.before.acc with fundingCum := b.next.acc.fundingCum }
  unrealized : b.unrealized = ((markedPositions prices b.ts b.before.openPositions).map
    (fun m => (m.2 - m.1.entryPrice) * m.1.qty)).sum
  grossExposure : b.grossExposure = ((markedPositions prices b.ts b.before.openPositions).map
    (fun m => m.1.qty * m.2)).sum
  equity : b.equity = cfg.initialEquityUsd + b.acc.realizedGross - b.acc.feesCum
    - b.acc.fundingCum + b.unrealized
  peak : b.peakEquity = b.next.peakEquity

theorem processBar_spec {book : Book} {obs : Obs} {b : BarStep}
    (h : processBar cfg prices index book obs = .ok (some b))
    : b.before = book ∧ b.obs = obs ∧ ∃ windowStart, StepSpec cfg prices index windowStart b := by
  obtain ⟨exits, entries, legs, windowStart, hfills, hwindow, hentries, rfl⟩ := processBar_some h
  obtain ⟨hexits, hlegs⟩ := resolveFills_some hfills
  have henter := mapM_eq_ok hentries
  refine ⟨rfl, rfl, windowStart, ?_⟩
  constructor
  case window => exact hwindow
  case exit_of_mem =>
    intro x hx
    simp only [applyBar, List.mem_map] at hx
    obtain ⟨leg, hleg, rfl⟩ := hx
    obtain ⟨p, hp, hpair, hnext⟩ := forall₂_mem_right hexits hleg
    rw [List.mem_filter, mem_toList_iff] at hp
    subst hpair
    refine ⟨leg.1.2, leg.2, hp.1, ?_, hnext, rfl⟩
    show leg.1.1 ∉ obs.activeSymbols
    simpa using hp.2
  case exits_symbols =>
    simp only [applyBar, List.map_map]
    have hmap := forall₂_map_eq Prod.fst (fun x : (String × Position) × String × ℚ => x.1.1)
      hexits (by
        intro p x hpx
        rw [hpx.1])
    exact hmap
  case entry_of_mem =>
    intro e he
    obtain ⟨leg, hleg, hok⟩ := forall₂_mem_right henter he
    obtain ⟨symbol, hsymbol, rfl, hnext⟩ := forall₂_mem_right hlegs hleg
    rw [List.mem_filter, Std.ExtTreeSet.mem_toList, Std.ExtTreeSet.mem_ofList,
      List.contains_iff_mem] at hsymbol
    have hsym : e.symbol = leg.1 := enterPosition_symbol hok
    rw [hsym]
    refine ⟨leg.2, ?_, hsymbol.1, hnext, hok⟩
    show book.openPositions[leg.1]? = none
    apply Std.ExtTreeMap.getElem?_eq_none_of_contains_eq_false
    simpa using hsymbol.2
  case entries_symbols =>
    have hmap := forall₂_map_eq Prod.fst Entry.symbol henter (by
      intro leg e hok
      exact (enterPosition_symbol hok).symm)
    have hmap' := forall₂_map_eq id Prod.fst hlegs (by
      intro symbol leg hleg
      exact hleg.1.symm)
    rw [List.map_id] at hmap'
    exact hmap.trans hmap'
  case next_funding =>
    simp only [applyBar, BarStep.charges, List.map_append, List.sum_append, List.map_map]
    rw [add_assoc]
    rfl
  all_goals rfl

namespace StepSpec

variable {windowStart : String} {b : BarStep}

theorem exits_nodup (h : StepSpec cfg prices index windowStart b)
    : (b.exits.map Exit.symbol).Nodup := by
  rw [h.exits_symbols]
  apply List.Nodup.sublist _ (map_toList_nodup b.before.openPositions)
  apply List.Sublist.map
  apply List.filter_sublist

theorem entries_nodup (h : StepSpec cfg prices index windowStart b)
    : (b.entries.map Entry.symbol).Nodup := by
  rw [h.entries_symbols]
  apply List.Nodup.filter
  rw [List.nodup_iff_pairwise_ne]
  apply List.Pairwise.imp _ Std.ExtTreeSet.distinct_toList
  intro x y hxy heq
  rw [heq] at hxy
  exact hxy Std.compare_self

theorem mem_exits_symbols (h : StepSpec cfg prices index windowStart b) {symbol : String}
    : symbol ∈ b.exits.map Exit.symbol
        ↔
      b.before.openPositions[symbol]?.isSome ∧ symbol ∉ b.obs.activeSymbols := by
  rw [h.exits_symbols, List.mem_map]
  constructor
  . rintro ⟨p, hp, heq⟩
    rw [List.mem_filter, mem_toList_iff] at hp
    subst heq
    rw [hp.1]
    exact ⟨rfl, by simpa using hp.2⟩
  . rintro ⟨hsome, hactive⟩
    obtain ⟨pos, hpos⟩ := Option.isSome_iff_exists.mp hsome
    refine ⟨(symbol, pos), ?_, rfl⟩
    rw [List.mem_filter, mem_toList_iff]
    exact ⟨hpos, by simpa using hactive⟩

theorem mem_entries_symbols (h : StepSpec cfg prices index windowStart b) {symbol : String}
    : symbol ∈ b.entries.map Entry.symbol
        ↔
      b.before.openPositions[symbol]? = none ∧ symbol ∈ b.obs.activeSymbols := by
  rw [h.entries_symbols, List.mem_filter, Std.ExtTreeSet.mem_toList, Std.ExtTreeSet.mem_ofList,
    List.contains_iff_mem, and_comm]
  rw [getElem?_eq_none_iff, ← Std.ExtTreeMap.contains_iff_mem, Bool.not_eq_true,
    Bool.not_eq_true']

/--
The three ways a symbol can be in the book after the bar, or not be in it.
-/
theorem next_getElem? (h : StepSpec cfg prices index windowStart b) (symbol : String)
    : (∃ e ∈ b.entries, e.symbol = symbol
        ∧ b.before.openPositions[symbol]? = none
        ∧ b.next.openPositions[symbol]? = some (e.position b.ts))
      ∨
      (∃ x ∈ b.exits, x.symbol = symbol ∧ b.next.openPositions[symbol]? = none)
      ∨
      (symbol ∉ b.exits.map Exit.symbol
        ∧ symbol ∉ b.entries.map Entry.symbol
        ∧ b.next.openPositions[symbol]?
          = b.before.openPositions[symbol]?.map
              (accrueHeld prices index windowStart b.ts symbol)) := by
  rw [h.next_open]
  by_cases hentry : symbol ∈ b.entries.map Entry.symbol
  . left
    rw [List.mem_map] at hentry
    obtain ⟨e, he, rfl⟩ := hentry
    obtain ⟨-, hnone, -⟩ := h.entry_of_mem e he
    refine ⟨e, he, rfl, hnone, ?_⟩
    exact getElem?_foldl_insert_of_mem Entry.symbol _ h.entries_nodup _ he
  . right
    rw [getElem?_foldl_insert_of_not_mem Entry.symbol _ _ _ hentry, getElem?_foldl_erase]
    by_cases hexit : symbol ∈ b.exits.map Exit.symbol
    . left
      rw [if_pos hexit]
      rw [List.mem_map] at hexit
      obtain ⟨x, hx, heq⟩ := hexit
      exact ⟨x, hx, heq, rfl⟩
    . right
      rw [if_neg hexit, Std.ExtTreeMap.getElem?_map]
      exact ⟨hexit, hentry, rfl⟩

end StepSpec

/--
What holds of the book a run starts from, and is kept by every bar, holds of the book it ends with.
-/
theorem Chain.invariant {M : PriceBook → FundingIndex → BarStep → Prop} {book final : Book}
    {steps : List BarStep} (h : Chain cfg M book steps final)
    (P : List BarStep → Book → Prop) (done : List BarStep) (hinit : P done book)
    (hstep : ∀ done prices index windowStart b, M prices index b → b.before.watermark < b.ts
      → StepSpec cfg prices index windowStart b → P done b.before → P (done ++ [b]) b.next)
    : P (done ++ steps) final := by
  induction h generalizing done with
  | nil =>
    rw [List.append_nil]
    exact hinit
  | @cons prices index book final obs b steps market past bar _ ih =>
    obtain ⟨hbefore, hobs, windowStart, hspec⟩ := processBar_spec bar
    have hts : b.before.watermark < b.ts := by
      rw [BarStep.ts, hbefore, hobs]
      exact past
    have hnext := hstep done prices index windowStart b market hts hspec (by
      rw [hbefore]
      exact hinit)
    have hih := ih (done ++ [b]) hnext
    rwa [List.append_assoc, List.singleton_append] at hih

end Quantbot
