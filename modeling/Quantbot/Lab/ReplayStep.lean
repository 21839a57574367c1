import Quantbot.Lab.Lemmas

/-!
The replay follows the engine bar by bar.
-/

namespace Quantbot

variable {cfg : PaperConfig} {prices : PriceBook} {index : FundingIndex} {book : Book}
  {st : ReplayState} {obs : Obs}

/--
The replay holds the engine's book.
-/
structure Replays (book : Book) (st : ReplayState) : Prop where
  openPositions : st.openPositions = book.openPositions.map (fun _ pos => pos.replay)
  realizedGross : st.realizedGross = book.acc.realizedGross
  feesCum : st.feesCum = book.acc.feesCum
  fundingCum : st.fundingCum = book.acc.fundingCum
  watermark : st.watermark = book.watermark

namespace Replays

theorem contains (h : Replays book st) (sym : String)
    : st.openPositions.contains sym = book.openPositions.contains sym := by
  rw [h.openPositions, Std.ExtTreeMap.contains_map]

theorem keys (h : Replays book st) : st.openPositions.keys = book.openPositions.keys := by
  rw [h.openPositions, Std.ExtTreeMap.keys_map]

end Replays

/--
The rows of one more bar.
-/
def ReplayResult.append (cfg : PaperConfig) (r : ReplayResult) (b : BarStep) : ReplayResult :=
  { r with
    fills := r.fills ++ (b.fillRows cfg).map FillRow.replay
    positions := r.positions ++ [b.positionsRow.replay]
    trades := r.trades ++ b.exits.map (fun x => x.replayTrade b.ts b.commitId)
    equity := r.equity ++ [b.equityRow.replay]
    funding := r.funding ++ b.fundingRows.map FundingRow.replay }

section resolve

theorem mapM_fst {α β γ : Type} (f : α → Option γ) (l : List (α × β))
    : (l.map Prod.fst).mapM (fun a => (f a).map (fun c => (a, c)))
        =
      (l.mapM (fun p => (f p.1).map (fun c => (p, c)))).map
        (fun legs => legs.map (fun x => (x.1.1, x.2))) := by
  induction l with
  | nil => rfl
  | cons p l ih =>
    rw [List.map_cons, List.mapM_cons, List.mapM_cons, ih]
    cases f p.1 with
    | none => rfl
    | some c =>
      cases l.mapM (fun p => (f p.1).map (fun c => (p, c))) <;> rfl

variable {ts : String} {desired : List String} {positions : OpenPositions}

/--
Both resolve the same bars after `ts`, or both miss one.
-/
theorem resolveFills_replay
    : resolveFills prices ts desired positions
        =
      (do
        let entries ← resolveNext prices ts
          ((Std.ExtTreeSet.ofList desired).toList.filter (fun symbol => !positions.contains symbol))
        let exits ← (positions.toList.filter
          (fun p => !(Std.ExtTreeSet.ofList desired).contains p.1)).mapM
            (fun p => (prices.nextBar p.1 ts).map (fun nb => (p, nb)))
        return (exits, entries)) := by
  rfl

theorem resolveNext_exits
    : resolveNext prices ts
          (positions.keys.filter (fun sym => !(Std.ExtTreeSet.ofList desired).contains sym))
        =
      ((positions.toList.filter
        (fun p => !(Std.ExtTreeSet.ofList desired).contains p.1)).mapM
          (fun p => (prices.nextBar p.1 ts).map (fun nb => (p, nb)))).map
            (fun exits => exits.map (fun x => (x.1.1, x.2))) := by
  unfold resolveNext
  rw [← Std.ExtTreeMap.map_fst_toList_eq_keys, List.filter_map]
  exact mapM_fst (fun sym => prices.nextBar sym ts) _

end resolve

section step

variable {ts windowStart commitId : String} {exits : List ((String × Position) × String × ℚ)}
  {entries : List Entry}

theorem foldl_tailAccrual (commitId : String) (held : String → Position → Position)
    (hnodup : (exits.map (fun x => x.1.1)).Nodup)
    (hpos : ∀ x ∈ exits, st.openPositions[x.1.1]? = some (held x.1.1 x.1.2).replay)
    {xs : List Exit} (hxs : xs = exits.map (fun x =>
      exitPosition cfg prices index ts x.1.1 (held x.1.1 x.1.2) x.2.1 x.2.2))
    : exits.foldl (fun st x => st.accrue x.1.1 (tailAccrual prices index ts x.2.1 x.1.1)) st
        =
      { st with
        openPositions := xs.foldl (fun m x => m.insert x.symbol x.pos.replay) st.openPositions
        fundingCum := st.fundingCum + (xs.map (fun x => x.stub.amount)).sum
        result := { st.result with
          funding := st.result.funding
            ++ (xs.map Exit.stub).map (fun c => (c.row ts commitId).replay) } } := by
  have hloop := @foldl_accrue ((String × Position) × String × ℚ) (fun x => x.1.1)
    (fun x => tailAccrual prices index ts x.2.1 x.1.1) (fun x => (held x.1.1 x.1.2).replay) exits
    hnodup st hpos
  rw [hloop]
  subst hxs
  simp only [tailAccrual_replay commitId, List.foldl_map, List.map_map]
  rw [← List.map_eq_flatMap]
  rfl

/--
The accruals of the bar leave the entry price and the quantity of each position alone.
-/
theorem stake_eq (hopen : st.openPositions
      = book.openPositions.map (fun sym pos => (accrueHeld prices index windowStart ts sym pos).replay))
    (hmem : ∀ x ∈ exits, book.openPositions[x.1.1]? = some x.1.2)
    {xs : List Exit} (hxs : xs = exits.map (fun x => exitPosition cfg prices index ts x.1.1
      (accrueHeld prices index windowStart ts x.1.1 x.1.2) x.2.1 x.2.2))
    (hnodup : (xs.map Exit.symbol).Nodup)
    : (xs.foldl (fun m x => m.insert x.symbol x.pos.replay) st.openPositions).map
          (fun _ pos => pos.stake)
        =
      book.openPositions.map (fun _ pos => pos.replay.stake) := by
  apply Std.ExtTreeMap.ext_getElem?
  intro k
  rw [Std.ExtTreeMap.getElem?_map, Std.ExtTreeMap.getElem?_map]
  by_cases hk : k ∈ xs.map Exit.symbol
  . obtain ⟨x, hx, rfl⟩ := List.mem_map.mp hk
    rw [getElem?_foldl_insert_of_mem Exit.symbol _ hnodup _ hx]
    rw [hxs] at hx
    obtain ⟨leg, hleg, rfl⟩ := List.mem_map.mp hx
    have hbook : book.openPositions[leg.1.1]? = some leg.1.2 := hmem leg hleg
    show some _ = (book.openPositions[leg.1.1]?).map _
    rw [hbook]
    rfl
  . rw [getElem?_foldl_insert_of_not_mem Exit.symbol _ _ _ hk, hopen, Std.ExtTreeMap.getElem?_map]
    cases book.openPositions[k]? <;> rfl

/--
The rows of the marks are those of the engine.
-/
theorem mark_eq {b : BarStep} (hstake : st.openPositions.map (fun _ pos => pos.stake)
      = b.before.openPositions.map (fun _ pos => pos.replay.stake))
    (hspec : StepSpec cfg prices index windowStart b)
    (hrealized : st.realizedGross = b.acc.realizedGross) (hfees : st.feesCum = b.acc.feesCum)
    (hfunding : st.fundingCum = b.acc.fundingCum)
    : st.mark prices cfg.initialEquityUsd b.ts
        =
      { st with
        result := { st.result with
          equity := st.result.equity ++ [b.equityRow.replay]
          positions := st.result.positions ++ [b.positionsRow.replay] } } := by
  have hkeys := congrArg Std.ExtTreeMap.keys hstake
  rw [Std.ExtTreeMap.keys_map, Std.ExtTreeMap.keys_map] at hkeys
  have hsize : (st.openPositions.size : ℤ) = b.openSymbols.length := by
    unfold BarStep.openSymbols
    rw [← hkeys, Std.ExtTreeMap.length_keys]
  unfold ReplayState.mark
  rw [marks_eq hstake]
  simp only [hsize, hrealized, hfees, hfunding, hkeys]
  rw [← hspec.unrealized, ← hspec.grossExposure, ← hspec.equity]
  rfl

/--
The book after the fills.
-/
theorem next_eq {b : BarStep} (hspec : StepSpec cfg prices index windowStart b)
    {m : Std.ExtTreeMap String ReplayPosition}
    (hm : ∀ sym, sym ∉ b.exits.map Exit.symbol → m[sym]? = b.before.openPositions[sym]?.map
      (fun pos => (accrueHeld prices index windowStart b.ts sym pos).replay))
    : b.entries.foldl (fun m e => m.insert e.symbol (e.position b.ts).replay)
          (b.exits.foldl (fun m x => m.erase x.symbol) m)
        =
      b.next.openPositions.map (fun _ pos => pos.replay) := by
  apply Std.ExtTreeMap.ext_getElem?
  intro sym
  rw [Std.ExtTreeMap.getElem?_map]
  by_cases hentry : sym ∈ b.entries.map Entry.symbol
  . obtain ⟨e, he, rfl⟩ := List.mem_map.mp hentry
    rw [hspec.next_open]
    rw [getElem?_foldl_insert_of_mem Entry.symbol _ hspec.entries_nodup _ he]
    rw [getElem?_foldl_insert_of_mem Entry.symbol _ hspec.entries_nodup _ he]
    rfl
  . rw [hspec.next_open]
    rw [getElem?_foldl_insert_of_not_mem Entry.symbol _ _ _ hentry, getElem?_foldl_erase]
    rw [getElem?_foldl_insert_of_not_mem Entry.symbol _ _ _ hentry, getElem?_foldl_erase]
    split
    . rfl
    next hexit =>
      rw [hm sym hexit, Std.ExtTreeMap.getElem?_map, Option.map_map]
      rfl

theorem replayBar_step (hrel : Replays book st)
    (hinterval : replayIntervalStart obs.timestamp cfg.barIntervalHours
      = intervalStart obs.timestamp cfg.barIntervalHours) {b : BarStep}
    (h : processBar cfg prices index book obs = .ok (some b))
    : ∃ st', replayBar cfg prices index cfg.initialEquityUsd st obs = .ok (some st')
        ∧ Replays b.next st'
        ∧ st'.result = st.result.append cfg b := by
  obtain ⟨hbefore, hobs, windowStart', hspec⟩ := processBar_spec h
  obtain ⟨exits, entries, legs, windowStart, hfills, hwindow, hentries, hb⟩ := processBar_some h
  have hts : b.ts = obs.timestamp := congrArg Obs.timestamp hobs
  have hsame : windowStart' = windowStart := by
    have := hspec.window
    rw [hts, hwindow] at this
    cases this
    rfl
  subst hsame
  have hexits : b.exits = exits.map (fun x => exitPosition cfg prices index b.ts x.1.1
      (accrueHeld prices index windowStart' b.ts x.1.1 x.1.2) x.2.1 x.2.2) := by
    rw [hts, hb]
    rfl
  have hentries' : b.entries = entries := by
    rw [hb]
    rfl
  -- the legs of both sides
  rw [resolveFills_replay] at hfills
  simp only [Option.bind_eq_bind, Option.bind_eq_some_iff, Option.pure_def, Option.some.injEq,
    Prod.mk.injEq] at hfills
  obtain ⟨legs', hlegs, exits', hexitLegs, rfl, rfl⟩ := hfills
  have hmem : ∀ x ∈ exits', book.openPositions[x.1.1]? = some x.1.2 := by
    intro x hx
    obtain ⟨p, hp, hpair⟩ := forall₂_mem_right (mapM_eq_some hexitLegs) hx
    obtain ⟨rfl, -⟩ := map_pair_eq_some hpair
    exact mem_toList_iff.mp (List.mem_of_mem_filter hp)
  have hnodup : (exits'.map (fun x => x.1.1)).Nodup := by
    have := hspec.exits_nodup
    rw [hexits, List.map_map] at this
    exact this
  -- the loops, one after the other
  have hheld := @foldl_heldAccrual prices index windowStart' b.ts book.openPositions b.commitId st
    hrel.openPositions
  generalize hst1 : st.openPositions.keys.foldl (fun st sym =>
    st.accrue sym (heldAccrual prices index windowStart' b.ts sym)) st = st1 at hheld
  have htail := @foldl_tailAccrual cfg prices index st1 b.ts exits' b.commitId
    (accrueHeld prices index windowStart' b.ts) hnodup (by
      intro x hx
      rw [hheld]
      show (book.openPositions.map _)[x.1.1]? = _
      rw [Std.ExtTreeMap.getElem?_map, hmem x hx]
      rfl) b.exits hexits
  generalize hst2 : exits'.foldl (fun st x =>
    st.accrue x.1.1 (tailAccrual prices index b.ts x.2.1 x.1.1)) st1 = st2 at htail
  have hheldRow : b.held = book.openPositions.toList.filterMap
      (fun p => heldCharge prices index windowStart' b.ts p.1 p.2) := by
    rw [hspec.held, hbefore]
  rw [← hheldRow] at hheld
  have hacc := hspec.acc
  have hfunding := hspec.next_funding
  unfold BarStep.charges at hfunding
  rw [List.map_append, List.sum_append, ← add_assoc, List.map_map] at hfunding
  have hmark := @mark_eq cfg prices index st2 windowStart' b (by
      rw [htail, hbefore]
      exact stake_eq (by rw [hheld]) hmem hexits hspec.exits_nodup) hspec (by
      rw [htail, hheld, hacc, hbefore]
      exact hrel.realizedGross) (by
      rw [htail, hheld, hacc, hbefore]
      exact hrel.feesCum) (by
      rw [htail, hheld, hacc, hfunding, hbefore, ← hrel.fundingCum]
      rfl)
  have hexitFill := @foldl_fillExit cfg b.exits b.ts b.commitId hspec.exits_nodup
    (st2.mark prices cfg.initialEquityUsd b.ts) (by
      intro x hx
      rw [hmark, htail]
      exact getElem?_foldl_insert_of_mem Exit.symbol _ hspec.exits_nodup _ hx) (by
      intro x hx
      obtain ⟨pos, nb, -, -, -, heq⟩ := hspec.exit_of_mem x hx
      rw [heq]
      exact ⟨rfl, rfl⟩)
  generalize hst4 : b.exits.foldl (fun st x =>
    st.fillExit cfg b.ts (x.symbol, x.nextTs, x.openPrice))
      (st2.mark prices cfg.initialEquityUsd b.ts) = st4 at hexitFill
  have hentryFill := @foldlM_fillEntry cfg legs' entries b.ts b.commitId hentries st4
  have hbar : replayBar cfg prices index cfg.initialEquityUsd st obs
      = (legs'.foldlM (ReplayState.fillEntry cfg b.ts) st4).map
          (fun st => some { st with watermark := b.ts }) := by
    unfold replayBar
    simp only [hrel.contains]
    rw [hlegs, hrel.keys, resolveNext_exits, hexitLegs]
    simp only [Option.map_some]
    rw [hinterval, hwindow]
    simp only [bind, Except.bind]
    rw [← hrel.keys, ← hts, hst1]
    simp only [List.foldl_map]
    rw [hst2]
    have hlegFill : exits'.foldl (fun st x => st.fillExit cfg b.ts (x.1.1, x.2))
        (st2.mark prices cfg.initialEquityUsd b.ts) = st4 := by
      rw [← hst4, hexits, List.foldl_map]
      rfl
    rw [hlegFill]
    cases legs'.foldlM (ReplayState.fillEntry cfg b.ts) st4 <;> rfl
  rw [hentryFill] at hbar
  refine ⟨_, hbar, ?_, ?_⟩
  . rw [hexitFill, hmark, ← hentries']
    constructor
    case openPositions =>
      apply next_eq hspec
      intro sym hexit
      rw [htail]
      show (b.exits.foldl _ st1.openPositions)[sym]? = _
      rw [getElem?_foldl_insert_of_not_mem Exit.symbol _ _ _ hexit, hheld, hbefore]
      rw [Std.ExtTreeMap.getElem?_map]
    case realizedGross =>
      rw [hspec.next_realized, hbefore, ← hrel.realizedGross, htail, hheld]
    case feesCum =>
      rw [hspec.next_fees, hbefore, ← hrel.feesCum, htail, hheld]
    case fundingCum =>
      rw [hfunding, hbefore, ← hrel.fundingCum, htail, hheld]
      rfl
    case watermark => exact hspec.next_watermark.symm
  . rw [hexitFill, hmark, ← hentries', htail, hheld]
    unfold ReplayResult.append BarStep.fillRows BarStep.fundingRows BarStep.charges
    simp only [List.map_append, List.map_map, List.append_assoc]
    rfl

end step

end Quantbot
