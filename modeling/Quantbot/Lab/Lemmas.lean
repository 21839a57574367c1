import Quantbot.Lab.Replay
import Quantbot.Paper.Engine.Lemmas.Step

/-!
One bar of the replay next to one bar of the engine.
-/

namespace Quantbot

section projections

def Position.replay (pos : Position) : ReplayPosition where
  entryPrice := pos.entryPrice
  qty := pos.qty
  entryBarTs := pos.entryBarTs
  entryFillTs := pos.entryFillTs
  fundingAccrued := pos.fundingAccrued
  entryFee := pos.entryFee
  holdBars := pos.holdBars

def FillRow.replay (f : FillRow) : ReplayFill where
  signalBarTs := f.signalBarTs
  fillTs := f.fillTs
  symbol := f.symbol
  side := f.side
  kind := f.kind
  qty := f.qty
  openPrice := f.openPrice
  fillPrice := f.fillPrice
  fee := f.fee

def TradeRow.replay (t : TradeRow) : ReplayTrade where
  symbol := t.symbol
  entryBarTs := t.entryBarTs
  exitBarTs := t.exitBarTs
  qty := t.qty
  entryPrice := t.entryPrice
  exitPrice := t.exitPrice
  grossPnl := t.grossPnl
  fees := t.fees
  funding := t.funding
  netPnl := t.netPnl
  holdBars := t.holdBars

def FundingRow.replay (r : FundingRow) : ReplayFunding where
  fundingId := r.fundingId
  symbol := r.symbol
  barTs := r.barTs
  windowStart := r.windowStart
  windowEnd := r.windowEnd
  notionalUsd := r.notionalUsd
  fundingRate := r.fundingRate
  fundingEvents := r.fundingEvents
  rateAvailable := r.rateAvailable
  fundingAmount := r.fundingAmount

def EquityRow.replay (e : EquityRow) : ReplayEquity where
  barTs := e.barTs
  realizedGrossPnl := e.realizedGrossPnl
  unrealizedPnl := e.unrealizedPnl
  fundingCum := e.fundingCum
  feesCum := e.feesCum
  equity := e.equity
  numOpen := e.numOpen

def PositionsRow.replay (p : PositionsRow) : ReplayPositions where
  barTs := p.barTs
  openSymbols := p.openSymbols
  numOpen := p.numOpen
  grossExposureUsd := p.grossExposureUsd

end projections

section loops

variable {γ : Type}

theorem foldl_accrue (sym : γ → String) (a : γ → ReplayPosition → Accrual) (pos : γ → ReplayPosition)
    {legs : List γ} (hnodup : (legs.map sym).Nodup) {st : ReplayState}
    (h : ∀ l ∈ legs, st.openPositions[sym l]? = some (pos l))
    : legs.foldl (fun st l => st.accrue (sym l) (a l)) st
        =
      { st with
        openPositions := legs.foldl (fun m l => m.insert (sym l) (a l (pos l)).pos) st.openPositions
        fundingCum := st.fundingCum + (legs.map (fun l => (a l (pos l)).amount)).sum
        result := { st.result with
          funding := st.result.funding ++ legs.flatMap (fun l => (a l (pos l)).rows) } } := by
  induction legs generalizing st with
  | nil => simp
  | cons l legs ih =>
    rw [List.map_cons, List.nodup_cons] at hnodup
    rw [List.forall_mem_cons] at h
    have hstep : st.accrue (sym l) (a l) = { st with
        openPositions := st.openPositions.insert (sym l) (a l (pos l)).pos
        fundingCum := st.fundingCum + (a l (pos l)).amount
        result := { st.result with
          funding := st.result.funding ++ (a l (pos l)).rows } } := by
      unfold ReplayState.accrue
      rw [h.1]
    rw [List.foldl_cons, hstep, ih hnodup.2]
    . simp [add_assoc]
    . intro l' hl'
      have hne : sym l ≠ sym l' := by
        intro heq
        apply hnodup.1
        rw [heq]
        exact List.mem_map_of_mem hl'
      rw [Std.ExtTreeMap.getElem?_insert]
      simp only [Std.compare_eq_iff_eq, hne, if_false]
      exact h.2 l' hl'

/--
The replay's row of a closed position: the net is rounded once, not derived from the rounded parts.
-/
def Exit.replayTrade (x : Exit) (ts commitId : String) : ReplayTrade :=
  { (x.tradeRow ts commitId).replay with
    netPnl := round8 (x.gross - x.fees - x.pos.fundingAccrued) }

variable {cfg : PaperConfig}

theorem foldl_fillExit {exits : List Exit} {ts : String} (commitId : String)
    (hnodup : (exits.map Exit.symbol).Nodup) {st : ReplayState}
    (hpos : ∀ x ∈ exits, st.openPositions[x.symbol]? = some x.pos.replay)
    (hfill : ∀ x ∈ exits, x.fillPrice = x.openPrice * (1 - cfg.slip)
      ∧ x.fee = x.fillPrice * x.pos.qty * cfg.feeRate)
    : exits.foldl (fun st x => st.fillExit cfg ts (x.symbol, x.nextTs, x.openPrice)) st
        =
      { st with
        openPositions := exits.foldl (fun m x => m.erase x.symbol) st.openPositions
        realizedGross := st.realizedGross + (exits.map Exit.gross).sum
        feesCum := st.feesCum + (exits.map Exit.fee).sum
        result := { st.result with
          fills := st.result.fills ++ exits.map (fun x => (x.fillRow cfg ts commitId).replay)
          trades := st.result.trades ++ exits.map (fun x => x.replayTrade ts commitId) } } := by
  induction exits generalizing st with
  | nil => simp
  | cons x exits ih =>
    rw [List.map_cons, List.nodup_cons] at hnodup
    rw [List.forall_mem_cons] at hpos hfill
    have hstep : st.fillExit cfg ts (x.symbol, x.nextTs, x.openPrice) = { st with
        openPositions := st.openPositions.erase x.symbol
        realizedGross := st.realizedGross + x.gross
        feesCum := st.feesCum + x.fee
        result := { st.result with
          fills := st.result.fills ++ [(x.fillRow cfg ts commitId).replay]
          trades := st.result.trades ++ [x.replayTrade ts commitId] } } := by
      unfold ReplayState.fillExit
      simp only [hpos.1]
      unfold Exit.replayTrade Exit.fees Exit.gross
      rw [hfill.1.2, hfill.1.1]
      simp only [Exit.fillRow, Exit.tradeRow, FillRow.replay, TradeRow.replay, Position.replay,
        Exit.gross, Exit.fees, round8]
      rw [hfill.1.2, hfill.1.1]
    rw [List.foldl_cons, hstep, ih hnodup.2]
    . simp [add_assoc]
    . intro y hy
      have hne : x.symbol ≠ y.symbol := by
        intro heq
        apply hnodup.1
        rw [heq]
        exact List.mem_map_of_mem hy
      rw [Std.ExtTreeMap.getElem?_erase]
      simp only [Std.compare_eq_iff_eq, hne, if_false]
      exact hpos.2 y hy
    . exact hfill.2

theorem foldlM_fillEntry {legs : List (String × String × ℚ)} {entries : List Entry} {ts : String}
    (commitId : String) (h : legs.mapM (fun e => enterPosition cfg e.1 e.2.1 e.2.2) = .ok entries)
    (st : ReplayState)
    : legs.foldlM (ReplayState.fillEntry cfg ts) st
        =
      .ok { st with
        openPositions :=
          entries.foldl (fun m e => m.insert e.symbol (e.position ts).replay) st.openPositions
        feesCum := st.feesCum + (entries.map Entry.fee).sum
        result := { st.result with
          fills := st.result.fills
            ++ entries.map (fun e => (e.fillRow cfg ts commitId).replay) } } := by
  have hlegs := mapM_eq_ok h
  clear h
  induction hlegs generalizing st with
  | nil => simp [pure, Except.pure]
  | @cons leg e legs entries hleg _ ih =>
    obtain ⟨hne, heq⟩ := enterPosition_ok hleg
    have hstep : ReplayState.fillEntry cfg ts st leg = .ok { st with
        openPositions := st.openPositions.insert e.symbol (e.position ts).replay
        feesCum := st.feesCum + e.fee
        result := { st.result with
          fills := st.result.fills ++ [(e.fillRow cfg ts commitId).replay] } } := by
      unfold ReplayState.fillEntry
      dsimp only
      rw [if_neg hne, heq]
      rfl
    rw [List.foldlM_cons, hstep]
    simp only [bind, Except.bind]
    rw [ih]
    simp [add_assoc]

theorem foldlM_fillEntry_error {legs : List (String × String × ℚ)} {err : PyError} (ts : String)
    (h : legs.mapM (fun e => enterPosition cfg e.1 e.2.1 e.2.2) = .error err) (st : ReplayState)
    : ∃ err', legs.foldlM (ReplayState.fillEntry cfg ts) st = .error err' := by
  induction legs generalizing st with
  | nil => cases h
  | cons leg legs ih =>
    rw [List.foldlM_cons]
    rw [List.mapM_cons] at h
    cases hstep : ReplayState.fillEntry cfg ts st leg with
    | error e => exact ⟨e, rfl⟩
    | ok st' =>
      have henter : ∃ e, enterPosition cfg leg.1 leg.2.1 leg.2.2 = .ok e := by
        unfold ReplayState.fillEntry at hstep
        unfold enterPosition
        dsimp only at hstep ⊢
        split at hstep
        . cases hstep
        next hne =>
          rw [if_neg hne]
          exact ⟨_, rfl⟩
      obtain ⟨e, he⟩ := henter
      rw [he] at h
      cases hlegs : legs.mapM (fun e => enterPosition cfg e.1 e.2.1 e.2.2) with
      | ok es =>
        rw [hlegs] at h
        cases h
      | error err' =>
        rw [hlegs] at h
        cases h
        exact ih hlegs st'

end loops

section accruals

variable {prices : PriceBook} {index : FundingIndex} {windowStart ts sym : String} {pos : Position}

theorem heldAccrual_replay (commitId : String)
    : heldAccrual prices index windowStart ts sym pos.replay
        =
      { pos := (accrueHeld prices index windowStart ts sym pos).replay
        amount := ((heldCharge prices index windowStart ts sym pos).map Charge.amount).getD 0
        rows := (heldCharge prices index windowStart ts sym pos).toList.map
          (fun c => (c.row ts commitId).replay) } := by
  unfold heldAccrual accrueHeld heldCharge
  dsimp only [Position.replay]
  by_cases hle : ts ≤ max windowStart pos.entryFillTs
  . rw [if_pos hle, if_pos hle]
    simp
  . rw [if_neg hle, if_neg hle]
    rfl

theorem tailAccrual_replay (commitId nextTs : String)
    : tailAccrual prices index ts nextTs sym pos.replay
        =
      { pos := { pos with
          fundingAccrued := pos.fundingAccrued
            + (exitCharge prices index ts nextTs sym pos).amount }.replay
        amount := (exitCharge prices index ts nextTs sym pos).amount
        rows := [((exitCharge prices index ts nextTs sym pos).row ts commitId).replay] } := by
  rfl

variable {positions : OpenPositions}

theorem foldl_heldAccrual (commitId : String) {st : ReplayState}
    (hopen : st.openPositions = positions.map (fun _ pos => pos.replay))
    : st.openPositions.keys.foldl
          (fun st sym => st.accrue sym (heldAccrual prices index windowStart ts sym)) st
        =
      { st with
        openPositions :=
          positions.map (fun sym pos => (accrueHeld prices index windowStart ts sym pos).replay)
        fundingCum := st.fundingCum + ((positions.toList.filterMap
          (fun p => heldCharge prices index windowStart ts p.1 p.2)).map Charge.amount).sum
        result := { st.result with
          funding := st.result.funding ++ (positions.toList.filterMap
            (fun p => heldCharge prices index windowStart ts p.1 p.2)).map
              (fun c => (c.row ts commitId).replay) } } := by
  have hkeys : st.openPositions.keys = positions.toList.map Prod.fst := by
    rw [hopen, Std.ExtTreeMap.keys_map, Std.ExtTreeMap.map_fst_toList_eq_keys]
  have hpos : ∀ p ∈ positions.toList, st.openPositions[p.1]? = some p.2.replay := by
    intro p hp
    rw [hopen, Std.ExtTreeMap.getElem?_map, mem_toList_iff.mp hp]
    rfl
  rw [hkeys, List.foldl_map]
  rw [foldl_accrue Prod.fst (fun p => heldAccrual prices index windowStart ts p.1)
    (fun p => p.2.replay) (map_toList_nodup positions) hpos]
  simp only [heldAccrual_replay commitId]
  congr 1
  . apply Std.ExtTreeMap.ext_getElem?
    intro k
    rw [Std.ExtTreeMap.getElem?_map]
    cases hk : positions[k]? with
    | some pos =>
      have hmem : (k, pos) ∈ positions.toList := mem_toList_iff.mpr hk
      exact getElem?_foldl_insert_of_mem Prod.fst
        (fun p => (accrueHeld prices index windowStart ts p.1 p.2).replay)
        (map_toList_nodup positions) _ hmem
    | none =>
      rw [getElem?_foldl_insert_of_not_mem Prod.fst]
      . rw [hopen, Std.ExtTreeMap.getElem?_map, hk]
        rfl
      . intro hmem
        obtain ⟨p, hp, rfl⟩ := List.mem_map.mp hmem
        rw [mem_toList_iff, hk] at hp
        cases hp
  . congr 1
    generalize positions.toList = l
    induction l with
    | nil => rfl
    | cons p l ih =>
      rw [List.map_cons, List.sum_cons, ih, List.filterMap_cons]
      cases heldCharge prices index windowStart ts p.1 p.2 <;> simp
  . congr 2
    generalize positions.toList = l
    induction l with
    | nil => rfl
    | cons p l ih =>
      rw [List.flatMap_cons, ih, List.filterMap_cons]
      cases heldCharge prices index windowStart ts p.1 p.2 <;> simp

end accruals

section marks

variable {prices : PriceBook} {ts : String}

theorem foldl_addMark (l : List (String × ReplayPosition)) (acc : ℚ × ℚ)
    : l.foldl (addMark prices ts) acc
        =
      (acc.1 + (l.map (fun p =>
          ((prices.closeAt p.1 ts).map (fun c => (c - p.2.entryPrice) * p.2.qty)).getD 0)).sum,
        acc.2
          + (l.map (fun p => ((prices.closeAt p.1 ts).map (fun c => p.2.qty * c)).getD 0)).sum) := by
  induction l generalizing acc with
  | nil => simp
  | cons p l ih =>
    rw [List.foldl_cons, ih, List.map_cons, List.map_cons, List.sum_cons, List.sum_cons]
    unfold addMark
    cases prices.closeAt p.1 ts <;> simp [add_assoc]

/--
What a mark reads of a position.
-/
def ReplayPosition.stake (pos : ReplayPosition) : ℚ × ℚ :=
  (pos.entryPrice, pos.qty)

/--
The accruals before the marks do not move them.
-/
theorem marks_eq {positions : OpenPositions} {m : Std.ExtTreeMap String ReplayPosition}
    (h : m.map (fun _ pos => pos.stake) = positions.map (fun _ pos => pos.replay.stake))
    : m.toList.foldl (addMark prices ts) (0, 0)
        =
      (((markedPositions prices ts positions).map (fun m => (m.2 - m.1.entryPrice) * m.1.qty)).sum,
        ((markedPositions prices ts positions).map (fun m => m.1.qty * m.2)).sum) := by
  have hlist := congrArg Std.ExtTreeMap.toList h
  rw [Std.ExtTreeMap.toList_map, Std.ExtTreeMap.toList_map] at hlist
  have hsum : ∀ g : String → ℚ × ℚ → ℚ,
      m.toList.map (fun p => g p.1 p.2.stake)
        = positions.toList.map (fun p => g p.1 p.2.replay.stake) := by
    intro g
    have := congrArg (List.map (fun p : String × ℚ × ℚ => g p.1 p.2)) hlist
    rwa [List.map_map, List.map_map] at this
  have hunreal := hsum (fun sym stake =>
    ((prices.closeAt sym ts).map (fun c => (c - stake.1) * stake.2)).getD 0)
  have hgross := hsum (fun sym stake => ((prices.closeAt sym ts).map (fun c => stake.2 * c)).getD 0)
  simp only [ReplayPosition.stake] at hunreal hgross
  rw [foldl_addMark, hunreal, hgross]
  unfold markedPositions
  generalize positions.toList = l
  induction l with
  | nil => simp
  | cons p l ih =>
    rw [List.map_cons, List.map_cons, List.sum_cons, List.sum_cons, List.filterMap_cons]
    simp only [zero_add, Prod.mk.injEq] at ih ⊢
    rw [ih.1, ih.2]
    cases prices.closeAt p.1 ts <;> simp [Position.replay]

end marks

end Quantbot
