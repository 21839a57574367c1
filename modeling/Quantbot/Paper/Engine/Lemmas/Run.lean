import Quantbot.Paper.Engine.Run

/-!
The bar loop: what one bar leaves alone, the watermark, and running on from where a prefix stopped.
-/

namespace Quantbot

variable {cfg : PaperConfig} {prices : PriceBook} {index : FundingIndex}

/--
What a processed bar can be.
-/
theorem processBar_some {book : Book} {obs : Obs} {step : BarStep}
    (h : processBar cfg prices index book obs = .ok (some step))
    : ∃ exits entries legs windowStart,
        resolveFills prices obs.timestamp obs.activeSymbols book.openPositions = some (exits, legs)
          ∧
        intervalStart obs.timestamp cfg.barIntervalHours = .ok windowStart
          ∧
        legs.mapM (fun e => enterPosition cfg e.1 e.2.1 e.2.2) = .ok entries
          ∧
        step = applyBar cfg prices index book obs
          (barCommitId obs obs.timestamp cfg.engineVersion cfg.configHash) windowStart exits
          entries := by
  unfold processBar at h
  dsimp only at h
  split at h
  . cases h
  next exits legs hfills =>
    cases hstart : intervalStart obs.timestamp cfg.barIntervalHours with
    | error e =>
      simp [hstart, bind, Except.bind] at h
    | ok windowStart =>
      cases hentries : legs.mapM (fun e => enterPosition cfg e.1 e.2.1 e.2.2) with
      | error e =>
        simp [hstart, hentries, bind, Except.bind] at h
      | ok entries =>
        simp only [hstart, hentries, bind, Except.bind, pure, Except.pure, Except.ok.injEq,
          Option.some.injEq] at h
        exact ⟨exits, entries, legs, windowStart, hfills, rfl, hentries, h.symm⟩

theorem processBar_watermark {book : Book} {obs : Obs} {step : BarStep}
    (h : processBar cfg prices index book obs = .ok (some step))
    : step.next.watermark = obs.timestamp := by
  obtain ⟨exits, entries, legs, windowStart, -, -, -, rfl⟩ := processBar_some h
  rfl

theorem processBar_before {book : Book} {obs : Obs} {step : BarStep}
    (h : processBar cfg prices index book obs = .ok (some step))
    : step.before = book ∧ step.obs = obs := by
  obtain ⟨exits, entries, legs, windowStart, -, -, -, rfl⟩ := processBar_some h
  exact ⟨rfl, rfl⟩

/--
A sequence of processed bars, each on the book the one before it left and past its watermark. `M`
holds of each of them and of the market data it was processed with.
-/
inductive Chain (cfg : PaperConfig) (M : PriceBook → FundingIndex → BarStep → Prop)
    : Book → List BarStep → Book → Prop where
  | nil (book : Book) : Chain cfg M book [] book
  | cons {prices : PriceBook} {index : FundingIndex} {book final : Book} {obs : Obs}
      {step : BarStep} {steps : List BarStep} (market : M prices index step)
      (past : book.watermark < obs.timestamp)
      (bar : processBar cfg prices index book obs = .ok (some step))
      (rest : Chain cfg M step.next steps final) : Chain cfg M book (step :: steps) final

namespace Chain

variable {M : PriceBook → FundingIndex → BarStep → Prop} {book final : Book} {steps : List BarStep}

theorem watermark_le (h : Chain cfg M book steps final) : book.watermark ≤ final.watermark := by
  induction h with
  | nil => exact le_refl _
  | cons _ past bar _ ih =>
    rw [processBar_watermark bar] at ih
    exact past.le.trans ih

theorem peakEquity_le (h : Chain cfg M book steps final) : book.peakEquity ≤ final.peakEquity := by
  induction h with
  | nil => exact le_refl _
  | cons _ _ bar _ ih =>
    obtain ⟨exits, entries, legs, windowStart, -, -, -, rfl⟩ := processBar_some bar
    exact (le_max_left _ _).trans ih

theorem foldl_max_ts (h : Chain cfg M book steps final)
    : (steps.map BarStep.ts).foldl max book.watermark = final.watermark := by
  induction h with
  | nil => rfl
  | cons _ past bar _ ih =>
    obtain ⟨exits, entries, legs, windowStart, -, -, -, rfl⟩ := processBar_some bar
    rw [List.map_cons, List.foldl_cons, max_eq_right]
    . exact ih
    . exact past.le

theorem eq_of_nil (h : Chain cfg M book [] final) : final = book := by
  cases h
  rfl

theorem watermark_lt_ts {step : BarStep} (h : Chain cfg M book (step :: steps) final)
    : book.watermark < step.ts := by
  cases h with
  | cons _ past bar _ =>
    obtain ⟨exits, entries, legs, windowStart, -, -, -, rfl⟩ := processBar_some bar
    exact past

theorem append {mid : Book} {steps' : List BarStep} (h : Chain cfg M book steps mid)
    (h' : Chain cfg M mid steps' final) : Chain cfg M book (steps ++ steps') final := by
  induction h with
  | nil => exact h'
  | cons market past bar _ ih => exact Chain.cons market past bar (ih h')

end Chain

namespace runBars

@[simp]
theorem nil (book : Book) : runBars cfg prices index book [] = .ok ([], book, none) := by
  rfl

theorem cons_skip {book : Book} {obs : Obs} (rest : List Obs) (h : obs.timestamp ≤ book.watermark)
    : runBars cfg prices index book (obs :: rest) = runBars cfg prices index book rest := by
  rw [runBars]
  simp [h]

theorem cons_error {book : Book} {obs : Obs} {e : PyError} (rest : List Obs)
    (h : ¬ obs.timestamp ≤ book.watermark) (hbar : processBar cfg prices index book obs = .error e)
    : runBars cfg prices index book (obs :: rest) = .error e := by
  rw [runBars]
  simp [h, hbar, bind, Except.bind]

theorem cons_defer {book : Book} {obs : Obs} (rest : List Obs)
    (h : ¬ obs.timestamp ≤ book.watermark) (hbar : processBar cfg prices index book obs = .ok none)
    : runBars cfg prices index book (obs :: rest) = .ok ([], book, some obs.timestamp) := by
  rw [runBars]
  simp [h, hbar, bind, Except.bind, pure, Except.pure]

theorem cons_step {book : Book} {obs : Obs} {step : BarStep} (rest : List Obs)
    (h : ¬ obs.timestamp ≤ book.watermark)
    (hbar : processBar cfg prices index book obs = .ok (some step))
    : runBars cfg prices index book (obs :: rest)
        =
      (runBars cfg prices index step.next rest).map (fun r => (step :: r.1, r.2)) := by
  rw [runBars]
  simp only [h, if_false, hbar, bind, Except.bind]
  cases runBars cfg prices index step.next rest <;> rfl

/--
The induction every fact about the loop goes by: one case for each way it treats its first bar.
-/
theorem barInduction (cfg : PaperConfig) (prices : PriceBook) (index : FundingIndex)
    {motive : Book → List Obs → Prop}
    (nil : ∀ book, motive book [])
    (skip : ∀ book obs rest, obs.timestamp ≤ book.watermark → motive book rest
      → motive book (obs :: rest))
    (error : ∀ book obs rest e, ¬ obs.timestamp ≤ book.watermark
      → processBar cfg prices index book obs = .error e → motive book (obs :: rest))
    (defer : ∀ book obs rest, ¬ obs.timestamp ≤ book.watermark
      → processBar cfg prices index book obs = .ok none → motive book (obs :: rest))
    (step : ∀ book obs rest step, ¬ obs.timestamp ≤ book.watermark
      → processBar cfg prices index book obs = .ok (some step) → motive step.next rest
      → motive book (obs :: rest))
    (book : Book) (obs : List Obs) : motive book obs := by
  induction obs generalizing book with
  | nil => exact nil book
  | cons o rest ih =>
    by_cases h : o.timestamp ≤ book.watermark
    . exact skip book o rest h (ih book)
    . cases hbar : processBar cfg prices index book o with
      | error e => exact error book o rest e h hbar
      | ok result =>
        cases result with
        | none => exact defer book o rest h hbar
        | some s => exact step book o rest s h hbar (ih s.next)

theorem chain {M : PriceBook → FundingIndex → BarStep → Prop} {book : Book} {obs : List Obs}
    {r : List BarStep × Book × Option String}
    (h : runBars cfg prices index book obs = .ok r) (hmarket : ∀ b ∈ r.1, M prices index b)
    : Chain cfg M book r.1 r.2.1 := by
  induction book, obs using barInduction cfg prices index generalizing r with
  | nil book =>
    rw [nil] at h
    cases h
    exact Chain.nil book
  | skip book o rest hle ih =>
    rw [cons_skip rest hle] at h
    exact ih h hmarket
  | error book o rest e hlt hbar =>
    rw [cons_error rest hlt hbar] at h
    cases h
  | defer book o rest hlt hbar =>
    rw [cons_defer rest hlt hbar] at h
    cases h
    exact Chain.nil book
  | step book o rest s hlt hbar ih =>
    rw [cons_step rest hlt hbar] at h
    cases hrest : runBars cfg prices index s.next rest with
    | error e =>
      rw [hrest] at h
      cases h
    | ok r' =>
      rw [hrest] at h
      cases h
      rw [List.forall_mem_cons] at hmarket
      exact Chain.cons hmarket.1 (not_le.mp hlt) hbar (ih hrest hmarket.2)

theorem watermark_le {book : Book} {obs : List Obs} {r : List BarStep × Book × Option String}
    (h : runBars cfg prices index book obs = .ok r) : book.watermark ≤ r.2.1.watermark := by
  have hchain : Chain cfg (fun _ _ _ => True) book r.1 r.2.1 := chain h (fun _ _ => trivial)
  exact hchain.watermark_le

/--
A run over `p ++ q` is a run over `p` followed by a run over the whole of `p ++ q` again: the
second one skips what the first one consumed, and stops again where the first one deferred.
-/
theorem append (book : Book) (p q : List Obs)
    : runBars cfg prices index book (p ++ q)
        =
      (do
        let r ← runBars cfg prices index book p
        let r' ← runBars cfg prices index r.2.1 (p ++ q)
        return (r.1 ++ r'.1, r'.2)) := by
  induction book, p using barInduction cfg prices index with
  | nil book =>
    simp [bind, Except.bind, pure, Except.pure]
    cases runBars cfg prices index book q <;> rfl
  | skip book o rest hle ih =>
    rw [List.cons_append, cons_skip _ hle, cons_skip _ hle, ih]
    cases hrest : runBars cfg prices index book rest with
    | error e => rfl
    | ok r =>
      simp only [bind, Except.bind]
      rw [cons_skip _ (hle.trans (watermark_le hrest))]
  | error book o rest e hlt hbar =>
    rw [List.cons_append, cons_error _ hlt hbar, cons_error _ hlt hbar]
    rfl
  | defer book o rest hlt hbar =>
    rw [List.cons_append, cons_defer _ hlt hbar, cons_defer _ hlt hbar]
    simp only [bind, Except.bind]
    rw [cons_defer _ hlt hbar]
    rfl
  | step book o rest s hlt hbar ih =>
    rw [List.cons_append, cons_step _ hlt hbar, cons_step _ hlt hbar, ih]
    cases hrest : runBars cfg prices index s.next rest with
    | error e => rfl
    | ok r =>
      have hle : o.timestamp ≤ r.2.1.watermark := by
        rw [← processBar_watermark hbar]
        exact watermark_le hrest
      simp only [bind, Except.bind, Except.map]
      rw [cons_skip _ hle]
      cases runBars cfg prices index r.2.1 (rest ++ q) <;> rfl

end runBars

/--
A successful run in terms of its bar loop.
-/
theorem runEngine_ok {cfg : PaperConfig} {perBarObs : List Obs} {prices : PriceBook}
    {fundingDf : List FundingEvent} {state : EngineState} {r : EngineResult}
    (h : runEngine cfg perBarObs prices fundingDf state = .ok r)
    : ∃ forward book,
        runBars cfg prices (buildFundingIndex fundingDf) (state.load cfg.initialEquityUsd) forward
            = .ok (r.bars, book, r.deferredBarTs)
          ∧
        r.state = book.store (state.barsElapsed + r.bars.length) := by
  unfold runEngine at h
  dsimp only at h
  cases hstart : parseBarUtc cfg.forwardStartTs with
  | error e =>
    rw [hstart] at h
    cases h
  | ok forwardStart =>
    cases hforward : forwardObs forwardStart perBarObs with
    | error e =>
      simp [hstart, hforward, bind, Except.bind] at h
    | ok forward =>
      cases hbars : runBars cfg prices (buildFundingIndex fundingDf)
          (state.load cfg.initialEquityUsd) forward with
      | error e =>
        simp [hstart, hforward, hbars, bind, Except.bind] at h
      | ok result =>
        simp only [hstart, hforward, hbars, bind, Except.bind, pure, Except.pure,
          Except.ok.injEq] at h
        rw [← h]
        exact ⟨forward, result.2.1, hbars, rfl⟩

theorem runEngine_chain {cfg : PaperConfig} {perBarObs : List Obs} {prices : PriceBook}
    {fundingDf : List FundingEvent} {state : EngineState} {r : EngineResult}
    {M : PriceBook → FundingIndex → BarStep → Prop}
    (h : runEngine cfg perBarObs prices fundingDf state = .ok r)
    (hmarket : ∀ b ∈ r.bars, M prices (buildFundingIndex fundingDf) b)
    : Chain cfg M (state.load cfg.initialEquityUsd) r.bars (r.state.load cfg.initialEquityUsd) := by
  obtain ⟨forward, book, hbars, hstate⟩ := runEngine_ok h
  rw [hstate, Book.load_store]
  exact runBars.chain hbars hmarket

theorem runEngine_eq_runBars {cfg : PaperConfig} {forwardStart : DateTime}
    {perBarObs forward : List Obs} (prices : PriceBook) (fundingDf : List FundingEvent)
    (state : EngineState) (hstart : parseBarUtc cfg.forwardStartTs = .ok forwardStart)
    (hforward : forwardObs forwardStart perBarObs = .ok forward)
    : runEngine cfg perBarObs prices fundingDf state
        =
      (runBars cfg prices (buildFundingIndex fundingDf) (state.load cfg.initialEquityUsd)
        forward).map (fun r => {
          bars := r.1
          state := r.2.1.store (state.barsElapsed + r.1.length)
          deferredBarTs := r.2.2 }) := by
  unfold runEngine
  simp only [hstart, hforward, bind, Except.bind, pure, Except.pure]
  cases runBars cfg prices (buildFundingIndex fundingDf) (state.load cfg.initialEquityUsd)
    forward <;> rfl

/--
What one run is given.
-/
structure RunInput where
  perBarObs : List Obs
  prices : PriceBook
  fundingDf : List FundingEvent

/--
Runs one after the other, each from the state the one before it left.
-/
inductive EngineRuns (cfg : PaperConfig)
    : EngineState → List (RunInput × EngineResult) → EngineState → Prop where
  | nil (state : EngineState) : EngineRuns cfg state [] state
  | cons {state final : EngineState} {input : RunInput} {r : EngineResult}
      {runs : List (RunInput × EngineResult)}
      (run : runEngine cfg input.perBarObs input.prices input.fundingDf state = .ok r)
      (rest : EngineRuns cfg r.state runs final) : EngineRuns cfg state ((input, r) :: runs) final

def runsBars (runs : List (RunInput × EngineResult)) : List BarStep :=
  runs.flatMap (fun p => p.2.bars)

theorem EngineRuns.chain {cfg : PaperConfig} {state final : EngineState}
    {runs : List (RunInput × EngineResult)} {M : PriceBook → FundingIndex → BarStep → Prop}
    (h : EngineRuns cfg state runs final)
    (hmarket : ∀ p ∈ runs, ∀ b ∈ p.2.bars, M p.1.prices (buildFundingIndex p.1.fundingDf) b)
    : Chain cfg M (state.load cfg.initialEquityUsd) (runsBars runs)
        (final.load cfg.initialEquityUsd) := by
  induction h with
  | nil state => exact Chain.nil _
  | cons run _ ih =>
    rw [List.forall_mem_cons] at hmarket
    have hfirst := runEngine_chain run hmarket.1
    exact hfirst.append (ih hmarket.2)

end Quantbot
