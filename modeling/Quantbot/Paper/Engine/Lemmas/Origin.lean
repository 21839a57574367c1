import Quantbot.Paper.Engine.Lemmas.Sort
import Quantbot.Paper.Engine.Lemmas.Step

/-!
Where open positions come from, and what a second run over the same bars does.
-/

namespace Quantbot

variable {cfg : PaperConfig} {M : PriceBook → FundingIndex → BarStep → Prop} {book final : Book}
  {steps : List BarStep}

namespace Chain

theorem forall_spec (h : Chain cfg M book steps final)
    : ∀ b ∈ steps, ∃ prices index windowStart, M prices index b
        ∧ StepSpec cfg prices index windowStart b := by
  have := h.invariant (fun done _ => ∀ b ∈ done, ∃ prices index windowStart, M prices index b
    ∧ StepSpec cfg prices index windowStart b) [] (by simp) (by
      intro done prices index windowStart b market _ hspec hdone b' hb'
      rw [List.mem_append, List.mem_singleton] at hb'
      rcases hb' with hb' | rfl
      . exact hdone b' hb'
      . exact ⟨prices, index, windowStart, market, hspec⟩)
  simpa using this

theorem lt_ts (h : Chain cfg M book steps final) : ∀ b ∈ steps, book.watermark < b.ts := by
  induction h with
  | nil => simp
  | cons market past bar rest ih =>
    rw [List.forall_mem_cons]
    refine ⟨(Chain.cons market past bar rest).watermark_lt_ts, ?_⟩
    intro b hb
    have := ih b hb
    rw [processBar_watermark bar] at this
    exact past.trans this

theorem ts_le_watermark (h : Chain cfg M book steps final)
    : ∀ b ∈ steps, b.ts ≤ final.watermark := by
  induction h with
  | nil => simp
  | cons market past bar rest ih =>
    rw [List.forall_mem_cons]
    refine ⟨?_, ih⟩
    have hle := rest.watermark_le
    obtain ⟨exits, entries, legs, windowStart, -, -, -, rfl⟩ := processBar_some bar
    exact hle

theorem pairwise_ts (h : Chain cfg M book steps final)
    : steps.Pairwise (fun a b => a.ts < b.ts) := by
  induction h with
  | nil => exact List.Pairwise.nil
  | cons market past bar rest ih =>
    rw [List.pairwise_cons]
    refine ⟨?_, ih⟩
    intro b hb
    have hlt := rest.lt_ts b hb
    obtain ⟨exits, entries, legs, windowStart, -, -, -, rfl⟩ := processBar_some bar
    exact hlt

theorem nodup_ts (h : Chain cfg M book steps final) : (steps.map BarStep.ts).Nodup := by
  rw [List.nodup_iff_pairwise_ne, List.pairwise_map]
  apply h.pairwise_ts.imp
  intro a b hab
  exact hab.ne

end Chain

/--
All that an accrual leaves alone.
-/
def Position.SameEntry (pos pos' : Position) : Prop :=
  { pos with fundingAccrued := pos'.fundingAccrued, holdBars := pos'.holdBars } = pos'

theorem Position.sameEntry_refl (pos : Position) : pos.SameEntry pos := by
  rfl

theorem Position.SameEntry.accrueHeld {pos pos' : Position} (h : pos.SameEntry pos')
    (prices : PriceBook) (index : FundingIndex) (windowStart ts symbol : String)
    : pos.SameEntry (accrueHeld prices index windowStart ts symbol pos') := by
  unfold SameEntry at h
  rw [← h]
  rfl

/--
An open position was open before the run, or one of its bars entered it.
-/
def HasOrigin (before : OpenPositions) (steps : List BarStep) (symbol : String) (pos : Position)
    : Prop :=
  (∃ pos₀, before[symbol]? = some pos₀ ∧ pos₀.SameEntry pos ∧ pos₀.holdBars ≤ pos.holdBars)
    ∨
  (∃ b ∈ steps, ∃ e ∈ b.entries, e.symbol = symbol ∧ (e.position b.ts).SameEntry pos
    ∧ 0 ≤ pos.holdBars)

theorem Chain.hasOrigin (h : Chain cfg M book steps final) {symbol : String} {pos : Position}
    (hpos : final.openPositions[symbol]? = some pos)
    : HasOrigin book.openPositions steps symbol pos := by
  have := h.invariant (fun done book' => ∀ (symbol : String) (pos : Position),
    book'.openPositions[symbol]? = some pos → HasOrigin book.openPositions done symbol pos) []
    (by
      intro symbol pos hpos
      exact .inl ⟨pos, hpos, pos.sameEntry_refl, le_refl _⟩)
    (by
      intro done prices index windowStart b _ _ hspec hdone symbol pos hpos
      rcases hspec.next_getElem? symbol with
        ⟨e, he, hsymbol, -, hnext⟩ | ⟨-, -, -, hnext⟩ | ⟨-, -, hnext⟩
      . rw [hnext] at hpos
        cases hpos
        exact .inr ⟨b, by simp, e, he, hsymbol, Position.sameEntry_refl _, le_refl _⟩
      . rw [hnext] at hpos
        cases hpos
      . rw [hnext, Option.map_eq_some_iff] at hpos
        obtain ⟨pos', hpos', rfl⟩ := hpos
        rcases hdone symbol pos' hpos' with ⟨pos₀, hbefore, hsame, hhold⟩
          | ⟨b', hb', e, he, hsymbol, hsame, hhold⟩
        . refine .inl ⟨pos₀, hbefore, hsame.accrueHeld prices index windowStart b.ts symbol, ?_⟩
          show pos₀.holdBars ≤ pos'.holdBars + 1
          omega
        . refine .inr ⟨b', List.mem_append_left _ hb', e, he, hsymbol,
            hsame.accrueHeld prices index windowStart b.ts symbol, ?_⟩
          show 0 ≤ pos'.holdBars + 1
          omega)
  exact this symbol pos hpos

section rerun

variable {prices : PriceBook} {index : FundingIndex}

theorem runBars.rerun {obs : List Obs} {r : List BarStep × Book × Option String}
    (h : runBars cfg prices index book obs = .ok r)
    : runBars cfg prices index r.2.1 obs = .ok ([], r.2) := by
  have happend := @runBars.append cfg prices index book obs []
  rw [List.append_nil, h] at happend
  simp only [bind, Except.bind] at happend
  cases hrerun : runBars cfg prices index r.2.1 obs with
  | error e =>
    rw [hrerun] at happend
    cases happend
  | ok r' =>
    rw [hrerun] at happend
    simp only [pure, Except.pure, Except.ok.injEq] at happend
    have hnil : r'.1 = [] := by
      have := congrArg Prod.fst happend
      simpa using this
    have hend : r'.2 = r.2 := by
      rw [happend]
    rw [← hend, ← hnil]

theorem runBars.obs_mem {obs : List Obs} {r : List BarStep × Book × Option String}
    (h : runBars cfg prices index book obs = .ok r) : ∀ b ∈ r.1, b.obs ∈ obs := by
  induction book, obs using barInduction cfg prices index generalizing r with
  | nil book =>
    rw [nil] at h
    cases h
    simp
  | skip book o rest hle ih =>
    rw [cons_skip rest hle] at h
    intro b hb
    exact List.mem_cons_of_mem o (ih h b hb)
  | error book o rest e hlt hbar =>
    rw [cons_error rest hlt hbar] at h
    cases h
  | defer book o rest hlt hbar =>
    rw [cons_defer rest hlt hbar] at h
    cases h
    simp
  | step book o rest s hlt hbar ih =>
    rw [cons_step rest hlt hbar] at h
    cases hrest : runBars cfg prices index s.next rest with
    | error e =>
      rw [hrest] at h
      cases h
    | ok r' =>
      rw [hrest] at h
      cases h
      rw [List.forall_mem_cons]
      constructor
      . rw [(processBar_spec hbar).2.1]
        exact List.mem_cons_self
      . intro b hb
        exact List.mem_cons_of_mem o (ih hrest b hb)

end rerun

section runEngine

variable {perBarObs : List Obs} {prices : PriceBook} {fundingDf : List FundingEvent}
  {state : EngineState} {r : EngineResult}

/--
A second run over the same bars has nothing left to do.
-/
theorem runEngine_rerun (h : runEngine cfg perBarObs prices fundingDf state = .ok r)
    : runEngine cfg perBarObs prices fundingDf r.state
        = .ok { bars := [], state := r.state, deferredBarTs := r.deferredBarTs } := by
  unfold runEngine at h ⊢
  cases hstart : parseBarUtc cfg.forwardStartTs with
  | error e =>
    rw [hstart] at h
    cases h
  | ok forwardStart =>
    cases hforward : forwardObs forwardStart perBarObs with
    | error e =>
      simp [hstart, hforward, bind, Except.bind] at h
    | ok forward =>
      simp only [hstart, hforward, bind, Except.bind, pure, Except.pure] at h ⊢
      cases hbars : runBars cfg prices (buildFundingIndex fundingDf)
          (state.load cfg.initialEquityUsd) forward with
      | error e =>
        rw [hbars] at h
        cases h
      | ok result =>
        rw [hbars] at h
        cases h
        rw [Book.load_store, runBars.rerun hbars]
        simp [Book.store]

theorem runEngine_obs (h : runEngine cfg perBarObs prices fundingDf state = .ok r)
    : ∃ forwardStart dated, parseBarUtc cfg.forwardStartTs = .ok forwardStart
        ∧ datedObs perBarObs = .ok dated
        ∧ ∀ b ∈ r.bars, ∃ p ∈ dated, forwardStart ≤ p.1 ∧ p.2 = b.obs := by
  unfold runEngine at h
  cases hstart : parseBarUtc cfg.forwardStartTs with
  | error e =>
    rw [hstart] at h
    cases h
  | ok forwardStart =>
    rw [hstart] at h
    simp only [bind, Except.bind, pure, Except.pure, forwardObs_eq] at h
    cases hdated : datedObs perBarObs with
    | error e =>
      rw [hdated] at h
      cases h
    | ok dated =>
      rw [hdated] at h
      simp only [Except.map] at h
      refine ⟨forwardStart, dated, rfl, rfl, ?_⟩
      intro b hb
      split at h
      . cases h
      next result hbars =>
        cases h
        have hmem := runBars.obs_mem hbars b hb
        rw [List.mem_map] at hmem
        obtain ⟨p, hp, hobs⟩ := hmem
        rw [List.mem_insertionSort, List.mem_filter, decide_eq_true_eq] at hp
        exact ⟨p, hp.1, hp.2, hobs⟩

end runEngine

end Quantbot
