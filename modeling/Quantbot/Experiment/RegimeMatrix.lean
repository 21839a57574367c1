import Quantbot.Experiment.StageTwo

/-!
What the rows of the regime matrix and the carry scenarios say of the cells they come from.
-/

namespace Quantbot
namespace Experiment
namespace StageTwo

section building

variable (math : FloatMath)

/--
A cell as it is stored: under the key of its labels, with a known volatility and some return.
-/
structure Stored (key : String) (cell : CombinedRegimeCell) : Prop where
  key_eq : key = cell.volRegime ++ "_" ++ cell.trendRegime
  known : cell.volRegime = "low_vol" ∨ cell.volRegime = "high_vol"
  returns : cell.tsmmReturns ≠ []

/--
The dictionary that the cells are stored in.
-/
structure Built (cellsByRegime : CellsByRegime) : Prop where
  keys : (cellsByRegime.map Prod.fst).Nodup
  nonempty : ∀ entry ∈ cellsByRegime, entry.2 ≠ []
  stored : ∀ entry ∈ cellsByRegime, ∀ cell ∈ entry.2, Stored entry.1 cell

theorem stored_of_gridCell {vol : VolRegime} {trend : String} {args : SplitArgs}
    {r : String × CombinedRegimeCell} (h : gridCell math vol trend args = .ok (some r))
    : Stored r.1 r.2 := by
  obtain ⟨visits, -, h⟩ := bind_eq_ok.mp h
  dsimp only at h
  split at h
  . cases h
  . rename_i hreturns
    cases h
    rw [List.isEmpty_iff] at hreturns
    refine ⟨rfl, ?_, hreturns⟩
    obtain ⟨ret, hret⟩ := List.exists_mem_of_ne_nil _ hreturns
    obtain ⟨v, hv, -⟩ := List.mem_map.mp hret
    obtain ⟨hv, hcredited⟩ := List.mem_filter.mp hv
    have hknown := of_decide_eq_true (List.mem_filter.mp hv).2
    have hregime := (of_decide_eq_true hcredited).1
    rw [hregime] at hknown
    cases vol with
    | lowVol => exact .inl rfl
    | highVol => exact .inr rfl
    | unknown => exact absurd rfl hknown

theorem stored_of_splitCells {barsBySymbol : List (String × List Bar)} {refBars : List Bar}
    {split : WalkForwardSplit × ℕ} {cells : List (String × CombinedRegimeCell)}
    (h : splitCells math barsBySymbol refBars split = .ok cells) {r : String × CombinedRegimeCell}
    (hr : r ∈ cells) : Stored r.1 r.2 := by
  unfold splitCells at h
  dsimp only at h
  split at h
  . cases h
    cases hr
  . obtain ⟨first, -, h⟩ := bind_eq_ok.mp h
    obtain ⟨last, -, h⟩ := bind_eq_ok.mp h
    split at h
    . cases h
      cases hr
    . obtain ⟨vol, -, h⟩ := bind_eq_ok.mp h
      obtain ⟨trend, -, h⟩ := bind_eq_ok.mp h
      obtain ⟨grid, hgrid, h⟩ := bind_eq_ok.mp h
      cases h
      obtain ⟨cell, hcell, hsome⟩ := List.mem_filterMap.mp hr
      obtain ⟨params, -, hparams⟩ := forall₂_mem_right (mapM_eq_ok hgrid) hcell
      rw [id_eq] at hsome
      rw [hsome] at hparams
      exact stored_of_gridCell math hparams

theorem keys_appendAt {α : Type} (key : String) (a : α) (d : List (String × List α))
    : (appendAt key a d).map Prod.fst
        = if key ∈ d.map Prod.fst then d.map Prod.fst else d.map Prod.fst ++ [key] := by
  induction d with
  | nil => rfl
  | cons entry d ih =>
    obtain ⟨k, as⟩ := entry
    unfold appendAt
    by_cases hk : k = key
    . rw [if_pos hk, if_pos (by simp [hk])]
      rfl
    . rw [if_neg hk, List.map_cons, ih]
      have hcons : key ∈ ((k, as) :: d).map Prod.fst ↔ key ∈ d.map Prod.fst := by
        rw [List.map_cons, List.mem_cons, or_iff_right fun h => hk h.symm]
      by_cases hmem : key ∈ d.map Prod.fst
      . rw [if_pos hmem, if_pos (hcons.mpr hmem), List.map_cons]
      . rw [if_neg hmem, if_neg fun h => hmem (hcons.mp h), List.map_cons, List.cons_append]

/--
An entry of a dictionary after an item was appended: one as before, the item alone under a new key,
or the list that it was appended to.
-/
theorem mem_appendAt {α : Type} {key : String} {a : α} {d : List (String × List α)}
    {entry : String × List α} (h : entry ∈ appendAt key a d)
    : entry ∈ d ∨ entry = (key, [a]) ∨ ∃ as, (key, as) ∈ d ∧ entry = (key, as ++ [a]) := by
  induction d with
  | nil => exact .inr (.inl (List.mem_singleton.mp h))
  | cons e d ih =>
    obtain ⟨k, as⟩ := e
    unfold appendAt at h
    split at h
    . rename_i hk
      subst hk
      rcases List.mem_cons.mp h with rfl | h
      . exact .inr (.inr ⟨as, List.mem_cons_self, rfl⟩)
      . exact .inl (List.mem_cons_of_mem _ h)
    . rcases List.mem_cons.mp h with rfl | h
      . exact .inl List.mem_cons_self
      . rcases ih h with h | h | ⟨as', h, heq⟩
        . exact .inl (List.mem_cons_of_mem _ h)
        . exact .inr (.inl h)
        . exact .inr (.inr ⟨as', List.mem_cons_of_mem _ h, heq⟩)

theorem built_nil : Built [] where
  keys := List.nodup_nil
  nonempty := fun entry h => absurd h List.not_mem_nil
  stored := fun entry h => absurd h List.not_mem_nil

theorem Built.appendAt {cellsByRegime : CellsByRegime} (h : Built cellsByRegime)
    {r : String × CombinedRegimeCell} (hr : Stored r.1 r.2)
    : Built (appendAt r.1 r.2 cellsByRegime) where
  keys := by
    rw [keys_appendAt]
    split
    . exact h.keys
    . rename_i hnew
      rw [← List.concat_eq_append]
      exact h.keys.concat hnew
  nonempty := fun entry hentry => by
    rcases mem_appendAt hentry with hold | rfl | ⟨cells, -, rfl⟩
    . exact h.nonempty entry hold
    . exact List.cons_ne_nil _ _
    . exact List.append_ne_nil_of_right_ne_nil _ (List.cons_ne_nil _ _)
  stored := fun entry hentry cell hcell => by
    rcases mem_appendAt hentry with hold | rfl | ⟨cells, hcells, rfl⟩
    . exact h.stored entry hold cell hcell
    . rw [List.mem_singleton.mp hcell]
      exact hr
    . rcases List.mem_append.mp hcell with hcell | hcell
      . exact h.stored _ hcells cell hcell
      . rw [List.mem_singleton.mp hcell]
        exact hr

theorem built_foldl {cells : List (String × CombinedRegimeCell)} (hcells : ∀ r ∈ cells, Stored r.1 r.2)
    {cellsByRegime : CellsByRegime} (h : Built cellsByRegime)
    : Built (cells.foldl (fun cellsByRegime cell => appendAt cell.1 cell.2 cellsByRegime)
        cellsByRegime) := by
  induction cells generalizing cellsByRegime with
  | nil => exact h
  | cons r cells ih =>
    obtain ⟨hr, hcells⟩ := List.forall_mem_cons.mp hcells
    exact ih hcells (h.appendAt hr)

theorem built_of_compute {barsBySymbol : List (String × List Bar)} {refBars : List Bar}
    {splits : List WalkForwardSplit} {cellsByRegime : CellsByRegime}
    (h : computeCombinedRegimeMatrix math barsBySymbol refBars splits = .ok cellsByRegime)
    : Built cellsByRegime := by
  obtain ⟨cells, hcells, h⟩ := bind_eq_ok.mp h
  cases h
  refine built_foldl (fun r hr => ?_) built_nil
  obtain ⟨l, hl, hrl⟩ := List.mem_flatten.mp hr
  obtain ⟨split, -, hsplit⟩ := forall₂_mem_right (mapM_eq_ok hcells) hl
  exact stored_of_splitCells math hsplit hrl

end building

section rows

variable (draw : ℕ → ℕ → ℕ → ℕ)

theorem splitOnce_low (trend : String)
    : splitOnce ("low_vol" ++ "_" ++ trend) = .ok ("low", "vol_" ++ trend) := by
  have hrest : String.ofList ('v' :: 'o' :: 'l' :: '_' :: trend.toList) = "vol_" ++ trend := by
    rw [← String.toList_inj, String.toList_ofList, String.toList_append]
    rfl
  rw [splitOnce, String.toList_append, List.span_eq_takeWhile_dropWhile, ← hrest]
  rfl

theorem splitOnce_high (trend : String)
    : splitOnce ("high_vol" ++ "_" ++ trend) = .ok ("high", "vol_" ++ trend) := by
  have hrest : String.ofList ('v' :: 'o' :: 'l' :: '_' :: trend.toList) = "vol_" ++ trend := by
    rw [← String.toList_inj, String.toList_ofList, String.toList_append]
    rfl
  rw [splitOnce, String.toList_append, List.span_eq_takeWhile_dropWhile, ← hrest]
  rfl

/--
The volatility in the row of a key is the part of its label before the first underscore.
-/
theorem aggregateRow_built {cellsByRegime : CellsByRegime} (h : Built cellsByRegime)
    {entry : String × List CombinedRegimeCell} (hentry : entry ∈ cellsByRegime)
    : ∃ row, aggregateRow draw entry = .ok (some row) ∧ row.regimeKey = entry.1
        ∧ row.trialCount = (entry.2.map CombinedRegimeCell.trialCount).sum
        ∧ (row.volRegime = "low" ∨ row.volRegime = "high") := by
  obtain ⟨key, cells⟩ := entry
  obtain ⟨cell, hcell⟩ := List.exists_mem_of_ne_nil _ (h.nonempty _ hentry)
  have hstored := h.stored _ hentry cell hcell
  have hcells : ¬cells.isEmpty = true := fun hempty => h.nonempty _ hentry (List.isEmpty_iff.mp hempty)
  have hreturns : ¬(cells.flatMap CombinedRegimeCell.tsmmReturns).isEmpty = true := fun hempty =>
    hstored.returns (List.flatMap_eq_nil_iff.mp (List.isEmpty_iff.mp hempty) cell hcell)
  have hsplit : ∃ vol trend, splitOnce key = .ok (vol, trend) ∧ (vol = "low" ∨ vol = "high") := by
    rw [show key = _ from hstored.key_eq]
    rcases hstored.known with hlow | hhigh
    . rw [hlow, splitOnce_low]
      exact ⟨_, _, rfl, .inl rfl⟩
    . rw [hhigh, splitOnce_high]
      exact ⟨_, _, rfl, .inr rfl⟩
  obtain ⟨vol, trend, hsplit, hvol⟩ := hsplit
  unfold aggregateRow
  dsimp only
  rw [if_neg hcells, hsplit, ok_bind]
  dsimp only
  rw [if_neg hreturns]
  refine ⟨_, rfl, rfl, ?_, hvol⟩
  rw [List.length_flatMap]
  rfl

/--
A row names the regimes of the cells under its key.
-/
def NamesRegimes (cellsByRegime : CellsByRegime) (row : RegimeRow) : Prop :=
  ∃ cells, (row.regimeKey, cells) ∈ cellsByRegime
    ∧ ∀ cell ∈ cells, row.volRegime = cell.volRegime ∧ row.trendRegime = cell.trendRegime

/--
A row counts the trials of the cells under its key.
-/
def CountsTrials (cellsByRegime : CellsByRegime) (row : RegimeRow) : Prop :=
  ∃ cells, (row.regimeKey, cells) ∈ cellsByRegime
    ∧ row.trialCount = (cells.map CombinedRegimeCell.trialCount).sum

theorem aggregateRegimeMatrix_built {cellsByRegime : CellsByRegime} (h : Built cellsByRegime)
    : ∃ rows, aggregateRegimeMatrix draw cellsByRegime = .ok rows
        ∧ (∀ row ∈ rows, CountsTrials cellsByRegime row)
        ∧ ((∀ row ∈ rows, NamesRegimes cellsByRegime row) ↔ cellsByRegime = []) := by
  obtain ⟨rows, hrows⟩ := exists_mapM_ok (f := aggregateRow draw) fun entry hentry => by
    obtain ⟨row, hrow, -⟩ := aggregateRow_built draw h hentry
    exact ⟨some row, hrow⟩
  have hall := mapM_eq_ok hrows
  -- the entry of every row, with what its row is
  have hrow {row : RegimeRow} (hmem : row ∈ rows.filterMap id)
      : ∃ entry ∈ cellsByRegime, row.regimeKey = entry.1
          ∧ row.trialCount = (entry.2.map CombinedRegimeCell.trialCount).sum
          ∧ (row.volRegime = "low" ∨ row.volRegime = "high") := by
    obtain ⟨some', hsome, hid⟩ := List.mem_filterMap.mp hmem
    obtain ⟨entry, hentry, heq⟩ := forall₂_mem_right hall hsome
    obtain ⟨row', hrow', hrest⟩ := aggregateRow_built draw h hentry
    rw [show some' = some row from hid, hrow'] at heq
    cases heq
    exact ⟨entry, hentry, hrest⟩
  refine ⟨rows.filterMap id, ?_, fun row hmem => ?_, fun hnames => ?_, fun hnil => ?_⟩
  . rw [aggregateRegimeMatrix, hrows, ok_bind]
  . obtain ⟨entry, hentry, hkey, hcount, -⟩ := hrow hmem
    exact ⟨entry.2, by rwa [hkey], hcount⟩
  . by_contra hne
    obtain ⟨entry, hentry⟩ := List.exists_mem_of_ne_nil _ hne
    obtain ⟨row, haggregate, -, -, hvol⟩ := aggregateRow_built draw h hentry
    obtain ⟨some', hsome, heq⟩ := forall₂_mem_left hall hentry
    rw [haggregate] at heq
    cases heq
    obtain ⟨cells, hcells, hnamed⟩ := hnames row (List.mem_filterMap.mpr ⟨_, hsome, rfl⟩)
    obtain ⟨cell, hcell⟩ := List.exists_mem_of_ne_nil _ (h.nonempty _ hcells)
    have hknown := (h.stored _ hcells cell hcell).known
    rw [← (hnamed cell hcell).1] at hknown
    rcases hvol with hvol | hvol <;>
      . rw [hvol] at hknown
        revert hknown
        decide
  . subst hnil
    cases hall
    exact fun row hmem => absurd hmem List.not_mem_nil

end rows

section scenarios

/--
A scenario counts the returns above the cost per bar that it reports.
-/
structure Counts (cellsByRegime : CellsByRegime) (result : CarryStressResult) : Prop where
  total : result.totalInstances
    = ((cellsByRegime.flatMap Prod.snd).map CombinedRegimeCell.trialCount).sum
  positive : result.positiveNetInstances
    = (allReturns cellsByRegime).countP (fun ret => result.carryPerBar < ret)

/--
The scenarios that are reported; the real one is missing where the table is empty.
-/
def scenarios (cellsByRegime : CellsByRegime) (table : CarryTable) : List CarryStressResult :=
  applyCarryStress cellsByRegime ++ ((applyRealCarryStress cellsByRegime table).toOption.getD [])

/--
Every scenario counts by its own cost, and a larger cost never leaves more positive returns.
-/
structure CarryFaithful (cellsByRegime : CellsByRegime) (table : CarryTable) : Prop where
  counts : ∀ result ∈ scenarios cellsByRegime table, Counts cellsByRegime result
  antitone : ∀ result ∈ scenarios cellsByRegime table, ∀ result' ∈ scenarios cellsByRegime table,
    result.carryPerBar < result'.carryPerBar →
      result'.positiveNetInstances ≤ result.positiveNetInstances

/--
No return lies between the cost that is paid and the cost that is reported.
-/
def NoReturnBetween (cellsByRegime : CellsByRegime) (table : CarryTable) : Prop :=
  ∀ ret ∈ allReturns cellsByRegime, perBar (meanOfSymbols table) < ret ↔ perBar (meanAnnDrag table) < ret

theorem length_allReturns (cellsByRegime : CellsByRegime)
    : (allReturns cellsByRegime).length
        = ((cellsByRegime.flatMap Prod.snd).map CombinedRegimeCell.trialCount).sum := by
  rw [allReturns, ← List.flatMap_assoc, List.length_flatMap]
  rfl

theorem positiveNet_eq (cellsByRegime : CellsByRegime) (carryPerBar : ℚ)
    : positiveNet cellsByRegime carryPerBar
        = (allReturns cellsByRegime).countP (fun ret => carryPerBar < ret) :=
  List.countP_congr fun ret _ => by simp

/--
Two bounds leave as many numbers above them exactly when none lies between them.
-/
theorem countP_lt_inj {l : List ℚ} {a b : ℚ}
    (h : l.countP (fun x => a < x) = l.countP (fun x => b < x)) : ∀ x ∈ l, a < x ↔ b < x := by
  wlog hle : a ≤ b generalizing a b
  . exact fun x hx => (this h.symm (le_of_not_ge hle) x hx).symm
  . induction l with
    | nil => exact fun x hx => absurd hx List.not_mem_nil
    | cons y l ih =>
      have hmono : l.countP (fun x => b < x) ≤ l.countP (fun x => a < x) :=
        List.countP_mono_left fun x _ hx => decide_eq_true (hle.trans_lt (of_decide_eq_true hx))
      rw [List.countP_cons, List.countP_cons] at h
      simp only [decide_eq_true_eq] at h
      have hy : a < y ↔ b < y := by
        refine ⟨fun ha => ?_, hle.trans_lt⟩
        by_contra hb
        rw [if_pos ha, if_neg hb] at h
        omega
      refine List.forall_mem_cons.mpr ⟨hy, ih ?_⟩
      simp only [hy] at h
      omega

theorem appendAt_ne_nil {α : Type} (key : String) (a : α) (d : List (String × List α))
    : appendAt key a d ≠ [] := by
  cases d with
  | nil => exact List.cons_ne_nil _ _
  | cons entry d =>
    unfold appendAt
    split <;> exact List.cons_ne_nil _ _

theorem foldl_appendAt_ne_nil (rows : CarryTable) {d : List (String × List ℚ)} (h : d ≠ [])
    : rows.foldl (fun bySymbol row => appendAt row.1.1 row.2 bySymbol) d ≠ [] := by
  induction rows generalizing d with
  | nil => exact h
  | cons row rows ih => exact ih (appendAt_ne_nil _ _ _)

/--
Without a symbol there is no period either.
-/
theorem symbolMeanCarry_eq_nil {table : CarryTable} (h : symbolMeanCarry table = [])
    : carryLookup table = [] := by
  unfold symbolMeanCarry at h
  rw [List.map_eq_nil_iff] at h
  cases hlookup : carryLookup table with
  | nil => rfl
  | cons row rows =>
    rw [hlookup, List.foldl_cons] at h
    exact absurd h (foldl_appendAt_ne_nil rows (appendAt_ne_nil _ _ _))

theorem carryFaithful_iff (cellsByRegime : CellsByRegime) (table : CarryTable)
    : CarryFaithful cellsByRegime table ↔ NoReturnBetween cellsByRegime table := by
  constructor
  . intro h ret hret
    by_cases hempty : symbolMeanCarry table = []
    . rw [meanOfSymbols, meanAnnDrag, hempty, symbolMeanCarry_eq_nil hempty]
      rfl
    . have hreal : applyRealCarryStress cellsByRegime table = .ok [realCarryResult cellsByRegime table] :=
        if_neg fun h => hempty (List.isEmpty_iff.mp h.1)
      have hmem : realCarryResult cellsByRegime table ∈ scenarios cellsByRegime table := by
        rw [scenarios, hreal]
        exact List.mem_append_right _ List.mem_cons_self
      have hcount := (h.counts _ hmem).positive
      rw [realCarryResult, positiveNet_eq] at hcount
      exact countP_lt_inj hcount ret hret
  . intro h
    have hcounts : ∀ result ∈ scenarios cellsByRegime table, Counts cellsByRegime result := by
      intro result hresult
      rcases List.mem_append.mp hresult with hresult | hresult
      . obtain ⟨scenario, -, rfl⟩ := List.mem_map.mp hresult
        exact ⟨length_allReturns _, positiveNet_eq _ _⟩
      . unfold applyRealCarryStress at hresult
        split at hresult
        . cases hresult
        . cases List.mem_singleton.mp hresult
          refine ⟨length_allReturns _, (positiveNet_eq _ _).trans ?_⟩
          refine List.countP_congr fun ret hret => ?_
          simp only [decide_eq_true_eq]
          exact h ret hret
    refine ⟨hcounts, fun result hresult result' hresult' hless => ?_⟩
    rw [(hcounts result hresult).positive, (hcounts result' hresult').positive]
    refine List.countP_mono_left fun ret _ hret => ?_
    exact decide_eq_true (hless.trans (of_decide_eq_true hret))

end scenarios

/--
The rows of a matrix count their trials, and name the regimes of their cells only where there is no
row; the scenarios are faithful where no return lies between the two averages of the carry table.
-/
theorem regime_matrix_faithful_iff (math : FloatMath) (draw : ℕ → ℕ → ℕ → ℕ)
    {barsBySymbol : List (String × List Bar)} {refBars : List Bar} {splits : List WalkForwardSplit}
    {cellsByRegime : CellsByRegime}
    (h : computeCombinedRegimeMatrix math barsBySymbol refBars splits = .ok cellsByRegime)
    (table : CarryTable)
    : (∃ rows, aggregateRegimeMatrix draw cellsByRegime = .ok rows
        ∧ (∀ row ∈ rows, CountsTrials cellsByRegime row)
        ∧ ((∀ row ∈ rows, NamesRegimes cellsByRegime row) ↔ cellsByRegime = []))
      ∧ (CarryFaithful cellsByRegime table ↔ NoReturnBetween cellsByRegime table) :=
  ⟨aggregateRegimeMatrix_built draw (built_of_compute math h), carryFaithful_iff _ _⟩

section examples

/--
One symbol at one until its last bar, which doubles the price.
-/
def doublingBars : List (String × List Bar) :=
  [("BTCUSDT", List.replicate 21 (barClosing 1) ++ [barClosing 2])]

def doublingMatrix : Except PyError CellsByRegime :=
  computeCombinedRegimeMatrix sampleMath doublingBars
    (List.replicate 21 (barClosing 1) ++ [barClosing 2]) [⟨0, 0, 0, 22⟩]

/--
Two periods of a symbol without drag and one of a symbol with a large one.
-/
def unevenTable : CarryTable :=
  [(("A", "BEAR"), 0), (("A", "BULL"), 0), (("B", "BEAR"), 16425000)]

theorem doublingMatrix_rows
    : ∃ cellsByRegime, doublingMatrix = .ok cellsByRegime
        ∧ cellsByRegime ≠ [] ∧ positiveNet cellsByRegime (perBar (meanOfSymbols unevenTable)) = 0
        ∧ (allReturns cellsByRegime).countP (fun ret => perBar (meanAnnDrag unevenTable) < ret) = 2 := by
  obtain ⟨cellsByRegime, hcells, h⟩ := exists_ok_of_any
    (show doublingMatrix.toOption.any (fun cellsByRegime => cellsByRegime.length = 1
      ∧ positiveNet cellsByRegime (perBar (meanOfSymbols unevenTable)) = 0
      ∧ (allReturns cellsByRegime).countP (fun ret => perBar (meanAnnDrag unevenTable) < ret) = 2)
      by decide +kernel)
  obtain ⟨hlength, hrest⟩ := of_decide_eq_true h
  refine ⟨cellsByRegime, hcells, ?_, hrest⟩
  rintro rfl
  cases hlength

theorem regime_matrix_example
    : ∃ cellsByRegime, doublingMatrix = .ok cellsByRegime
        ∧ (∃ rows, aggregateRegimeMatrix (fun _ _ _ => 0) cellsByRegime = .ok rows
          ∧ (∀ row ∈ rows, CountsTrials cellsByRegime row)
          ∧ ((∀ row ∈ rows, NamesRegimes cellsByRegime row) ↔ cellsByRegime = []))
        ∧ (CarryFaithful cellsByRegime unevenTable ↔ NoReturnBetween cellsByRegime unevenTable) := by
  obtain ⟨cellsByRegime, hcells, -⟩ := doublingMatrix_rows
  exact ⟨cellsByRegime, hcells, regime_matrix_faithful_iff sampleMath _ hcells unevenTable⟩

/--
The row of the high volatility names the regimes "high" and "vol_uptrend", and the real scenario
counts no return above the cost that it reports, where there are two.
-/
theorem high_vol_split_at_underscore
    : ∃ cellsByRegime, doublingMatrix = .ok cellsByRegime
        ∧ (∃ rows, aggregateRegimeMatrix (fun _ _ _ => 0) cellsByRegime = .ok rows
          ∧ ¬∀ row ∈ rows, NamesRegimes cellsByRegime row)
        ∧ ¬CarryFaithful cellsByRegime unevenTable := by
  obtain ⟨cellsByRegime, hcells, hne, happlied, hreported⟩ := doublingMatrix_rows
  obtain ⟨rows, hrows, -, hnames⟩ :=
    aggregateRegimeMatrix_built (fun _ _ _ => 0) (built_of_compute sampleMath hcells)
  refine ⟨cellsByRegime, hcells, ⟨rows, hrows, fun h => hne (hnames.mp h)⟩, fun h => ?_⟩
  have hbetween := (carryFaithful_iff cellsByRegime unevenTable).mp h
  rw [positiveNet_eq, List.countP_eq_zero] at happlied
  have hnone : (allReturns cellsByRegime).countP
      (fun ret => perBar (meanAnnDrag unevenTable) < ret) = 0 := by
    refine List.countP_eq_zero.mpr fun ret hret habove => happlied ret hret ?_
    exact decide_eq_true ((hbetween ret hret).mpr (of_decide_eq_true habove))
  omega

end examples

end StageTwo
end Experiment
end Quantbot
