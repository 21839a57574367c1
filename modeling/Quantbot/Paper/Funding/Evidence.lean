import Quantbot.Paper.Engine.Lemmas.Funding
import Quantbot.Paper.Funding.Snapshot
import Quantbot.Paper.Timestamp.Lemmas
import Quantbot.Util.Sort

/-!
What the frozen row of a clean window leaves out of the rate the engine charged for it.
-/

namespace Quantbot

open List

/--
The funding table holds the row under its second.
-/
structure Loads (float : String → ℚ) (row : SourceRow) (event : FundingEvent) : Prop where
  symbol : event.symbol = row.symbol
  rate : event.fundingRate = float row.fundingRate
  since : event.dt.epochMs ≤ row.fundingTimeMs
  before : row.fundingTimeMs < event.dt.epochMs + 1000

/--
The funding table is loaded from the source rows, in an order of its own.
-/
def LoadedFrom (float : String → ℚ) (fundingDf : List FundingEvent) (sourceRows : List SourceRow)
    : Prop :=
  ∃ rows, rows ~ sourceRows ∧ Forall₂ (Loads float) rows fundingDf

/--
The naive stamp of the instant, or the one with its zone.
-/
def Spells (ts : String) (dt : DateTime) : Prop :=
  ts = dt.strftime ∨ ts = dt.strftime ++ "Z"

namespace Spells

variable {ts : String} {dt : DateTime} (h : Spells ts dt)
include h

theorem lt_strftime (d : DateTime) : ts < d.strftime ↔ dt < d := by
  rcases h with rfl | rfl
  . exact strftime_lt_strftime
  . exact utc_lt_strftime

theorem strftime_le (d : DateTime) : d.strftime ≤ ts ↔ d ≤ dt := by
  rw [← not_lt, h.lt_strftime d, not_lt]

end Spells

namespace FundingWindow

/--
A row in the second of the start is not charged, one in the second of the end is.
-/
def Charges (w : FundingWindow) (row : SourceRow) : Prop :=
  row.symbol = w.symbol ∧ w.startMs + 1000 ≤ row.fundingTimeMs ∧ row.fundingTimeMs < w.endMs + 1000

instance (w : FundingWindow) : DecidablePred w.Charges :=
  fun _ => inferInstanceAs (Decidable (_ ∧ _ ∧ _))

def AtEnd (w : FundingWindow) (row : SourceRow) : Prop :=
  w.Charges row ∧ w.endMs ≤ row.fundingTimeMs

instance (w : FundingWindow) : DecidablePred w.AtEnd :=
  fun _ => inferInstanceAs (Decidable (_ ∧ _))

def Inside (w : FundingWindow) (row : SourceRow) : Prop :=
  w.Charges row ∧ row.fundingTimeMs < w.endMs

instance (w : FundingWindow) : DecidablePred w.Inside :=
  fun _ => inferInstanceAs (Decidable (_ ∧ _))

/--
The charged rows before the end, without the first of them where none lies at the end.
-/
def unfrozen (w : FundingWindow) (sourceRows : List SourceRow) : List SourceRow :=
  let inside := (sourceRows.filter w.Inside).insertionSort canonicalRowLe
  if sourceRows.any w.AtEnd then inside else inside.tail

variable {w : FundingWindow} {row : SourceRow} {sourceRows : List SourceRow}

theorem atEnd_iff (hsymbol : row.symbol = w.symbol) (hstart : w.startMs ≤ row.fundingTimeMs)
    : w.AtEnd row
        ↔
      (classified w row).reason = .accepted
        ∧ (classified w row).canonicalEndpoint = some w.endMs := by
  unfold classified
  rw [classify_atEnd hstart]
  simp only [AtEnd, Charges, hsymbol, true_and]
  omega

theorem inside_iff (hsymbol : row.symbol = w.symbol) (hstart : w.startMs ≤ row.fundingTimeMs)
    : w.Inside row
        ↔
      (classified w row).reason = .accepted ∧ (classified w row).canonicalEndpoint = none := by
  unfold classified
  rw [classify_inside hstart]
  simp only [Inside, Charges, hsymbol, true_and]
  omega

theorem charges_iff : w.Charges row ↔ w.AtEnd row ∨ w.Inside row := by
  unfold AtEnd Inside
  have := le_or_gt w.endMs row.fundingTimeMs
  tauto

instance : IsTrans SourceRow canonicalRowLe :=
  ⟨fun _ _ _ hab hbc => le_trans hab hbc⟩

instance : Std.Total canonicalRowLe :=
  ⟨fun a b => le_total (canonicalRowSortKey a) (canonicalRowSortKey b)⟩

/--
The candidates are the rows that may be charged, and a few around them.
-/
theorem filter_candidates {p : SourceRow → Prop} [DecidablePred p] (h : ∀ row, p row → w.Charges row)
    : (candidateRowsForWindow sourceRows w).filter p
        =
      (sourceRows.filter p).insertionSort canonicalRowLe := by
  unfold candidateRowsForWindow
  rw [filter_insertionSort, List.filter_filter]
  congr 1
  apply List.filter_congr
  intro row _
  have hcharged := h row
  unfold Charges diagnosticLookaheadMs endpointSameSecondToleranceMs at *
  by_cases hp : p row
  . have := hcharged hp
    simp only [hp, this, decide_true, true_and, Bool.true_and, decide_eq_true_eq]
    omega
  . simp [hp]

theorem mem_candidates (h : row ∈ candidateRowsForWindow sourceRows w)
    : row.symbol = w.symbol ∧ w.startMs ≤ row.fundingTimeMs := by
  unfold candidateRowsForWindow at h
  rw [List.mem_insertionSort, List.mem_filter, decide_eq_true_eq] at h
  exact ⟨h.2.1, h.2.2.1⟩

theorem endpointRows_eq
    : endpointRows w (candidateRowsForWindow sourceRows w)
        =
      (sourceRows.filter w.AtEnd).insertionSort canonicalRowLe := by
  rw [← filter_candidates (fun row h => h.1)]
  apply List.filter_congr
  intro row hmem
  obtain ⟨hsymbol, hstart⟩ := mem_candidates hmem
  rw [decide_eq_decide, atEnd_iff hsymbol hstart]

theorem insideRows_eq
    : insideRows w (candidateRowsForWindow sourceRows w)
        =
      (sourceRows.filter w.Inside).insertionSort canonicalRowLe := by
  rw [← filter_candidates (fun row h => h.1)]
  apply List.filter_congr
  intro row hmem
  obtain ⟨hsymbol, hstart⟩ := mem_candidates hmem
  rw [decide_eq_decide, inside_iff hsymbol hstart]

end FundingWindow

/--
The record takes its rate from the row.
-/
structure WindowRecord.Freezes (record : WindowRecord) (window : FundingWindow) (row : SourceRow)
    : Prop where
  accepted : record.acceptedSourceRow = some (Quantbot.acceptedSourceRow row window)
  rate : record.fundingRate = some row.fundingRate

section windowRecord

variable {w : FundingWindow} {sourceRows : List SourceRow}

/--
A clean record freezes the one row at the end or, without one, the first row inside.
-/
theorem windowRecord_clean (hclean : (windowRecord w sourceRows).reasonCodes = [])
    : ∃ row, (windowRecord w sourceRows).Freezes w row
        ∧ (endpointRows w (candidateRowsForWindow sourceRows w) = [row]
          ∨ endpointRows w (candidateRowsForWindow sourceRows w) = []
            ∧ (insideRows w (candidateRowsForWindow sourceRows w)).head? = some row) := by
  unfold windowRecord at hclean ⊢
  generalize hcandidates : candidateRowsForWindow sourceRows w = candidates at hclean ⊢
  cases candidates with
  | nil => simp [WindowRecord.refused] at hclean
  | cons first rest =>
    simp only at hclean ⊢
    split at hclean
    . simp [WindowRecord.refused] at hclean
    . rename_i row hend
      exact ⟨row, ⟨rfl, rfl⟩, .inl hend⟩
    . rename_i hend
      split at hclean
      . simp [WindowRecord.refused] at hclean
      . split at hclean
        . rename_i row rows hinside
          exact ⟨row, ⟨rfl, rfl⟩, .inr ⟨hend, by rw [hinside]; rfl⟩⟩
        . simp [WindowRecord.refused] at hclean

end windowRecord

section total

variable {float : String → ℚ}

def SourceRow.rate (float : String → ℚ) (row : SourceRow) : ℚ :=
  float row.fundingRate

def totalRate (float : String → ℚ) (rows : List SourceRow) : ℚ :=
  (rows.map (SourceRow.rate float)).sum

theorem totalRate_perm {rows rows' : List SourceRow} (h : rows ~ rows')
    : totalRate float rows = totalRate float rows' :=
  (h.map _).sum_eq

theorem fundingInInterval_total (index : FundingIndex) (symbol start stop : String)
    : (fundingInInterval index symbol start stop).1
        =
      ((fundingEventsIn index symbol start stop).map Prod.snd).sum := by
  unfold fundingInInterval
  cases fundingEventsIn index symbol start stop <;> rfl

variable {start stop : String} {w : FundingWindow}

/--
The engine compares stamps to the second.
-/
theorem Loads.charged_iff {row : SourceRow} {event : FundingEvent} (h : Loads float row event)
    (hstart : Spells start w.windowStart) (hstop : Spells stop w.windowEnd)
    : event.symbol = w.symbol ∧ start < event.dt.strftime ∧ event.dt.strftime ≤ stop
        ↔ w.Charges row := by
  have := h.since
  have := h.before
  have := event.dt.epochMs_emod
  have := w.windowStart.epochMs_emod
  have := w.windowEnd.epochMs_emod
  rw [hstart.lt_strftime, hstop.strftime_le, h.symbol]
  rw [← DateTime.epochMs_strictMono.lt_iff_lt, ← DateTime.epochMs_strictMono.le_iff_le]
  unfold FundingWindow.Charges FundingWindow.startMs FundingWindow.endMs
  apply and_congr_right
  intro
  apply and_congr <;> omega

theorem charged_events {rows : List SourceRow} {fundingDf : List FundingEvent}
    (h : Forall₂ (Loads float) rows fundingDf) (hstart : Spells start w.windowStart)
    (hstop : Spells stop w.windowEnd)
    : (((fundingDf.filterMap (fun row =>
          if row.symbol = w.symbol then some (row.dt.strftime, row.fundingRate) else none)).filter
            (fun e => start < e.1 ∧ e.1 ≤ stop)).map Prod.snd)
        =
      (rows.filter w.Charges).map (SourceRow.rate float) := by
  induction h with
  | nil => rfl
  | @cons row event rows events hload _ ih =>
    have hcharged := hload.charged_iff hstart hstop
    rw [List.filterMap_cons, List.filter_cons]
    by_cases hsymbol : event.symbol = w.symbol
    . simp only [hsymbol, true_and] at hcharged
      simp only [hsymbol, if_true, List.filter_cons, hcharged, decide_eq_true_eq]
      split
      . rw [List.map_cons, List.map_cons, ih, hload.rate]
        rfl
      . exact ih
    . have hnot : ¬w.Charges row := by
        rw [← hcharged]
        tauto
      simp only [hsymbol, hnot, if_false, decide_false]
      exact ih

/--
The engine charges the rows of the symbol in the seconds after the start, up to that of the end.
-/
theorem fundingInInterval_loaded {fundingDf : List FundingEvent} {sourceRows : List SourceRow}
    (hloaded : LoadedFrom float fundingDf sourceRows) (hstart : Spells start w.windowStart)
    (hstop : Spells stop w.windowEnd)
    : (fundingInInterval (buildFundingIndex fundingDf) w.symbol start stop).1
        =
      totalRate float (sourceRows.filter w.Charges) := by
  obtain ⟨rows, hperm, hloads⟩ := hloaded
  rw [fundingInInterval_total, fundingEventsIn_eq_filter (buildFundingIndex_sorted _ _)]
  rw [← totalRate_perm (hperm.filter _)]
  unfold totalRate
  rw [← charged_events hloads hstart hstop]
  apply List.Perm.sum_eq
  apply List.Perm.map
  apply List.Perm.filter
  apply List.perm_insertionSort

theorem totalRate_charged (sourceRows : List SourceRow)
    : totalRate float (sourceRows.filter w.Charges)
        =
      totalRate float (sourceRows.filter w.AtEnd) + totalRate float (sourceRows.filter w.Inside) := by
  unfold totalRate
  induction sourceRows with
  | nil => simp
  | cons row rows ih =>
    have hcharged : w.Charges row ↔ w.AtEnd row ∨ w.Inside row := FundingWindow.charges_iff
    have hdisjoint : w.AtEnd row → ¬w.Inside row := fun hend hinside => by
      have := hend.2
      have := hinside.2
      omega
    rw [List.filter_cons, List.filter_cons, List.filter_cons]
    by_cases hend : w.AtEnd row
    . simp only [hcharged, hend, hdisjoint hend, or_false, decide_true, decide_false, if_true,
        List.map_cons, List.sum_cons, ih]
      simp [add_assoc]
    . by_cases hinside : w.Inside row
      . simp only [hcharged, hend, hinside, or_true, decide_true, decide_false, if_true,
          List.map_cons, List.sum_cons, ih]
        simp [add_left_comm]
      . simp only [hcharged, hend, hinside, or_false, decide_false, Bool.false_eq_true, if_false]
        exact ih

theorem totalRate_sorted (rows : List SourceRow)
    : totalRate float (rows.insertionSort canonicalRowLe) = totalRate float rows :=
  totalRate_perm (List.perm_insertionSort _ rows)

/--
What a clean record freezes and what it leaves out make up the charged rate.
-/
theorem clean_charged {sourceRows : List SourceRow}
    (hclean : (windowRecord w sourceRows).reasonCodes = [])
    : ∃ row, (windowRecord w sourceRows).Freezes w row
        ∧ totalRate float (sourceRows.filter w.Charges)
            =
          row.rate float + totalRate float (w.unfrozen sourceRows) := by
  obtain ⟨row, hfreezes, hchosen⟩ := windowRecord_clean hclean
  rw [FundingWindow.endpointRows_eq, FundingWindow.insideRows_eq] at hchosen
  refine ⟨row, hfreezes, ?_⟩
  rw [totalRate_charged, ← totalRate_sorted (sourceRows.filter w.AtEnd),
    ← totalRate_sorted (sourceRows.filter w.Inside)]
  unfold FundingWindow.unfrozen
  rcases hchosen with hend | ⟨hend, hinside⟩
  . have hmem : row ∈ sourceRows.filter w.AtEnd := by
      rw [← List.mem_insertionSort canonicalRowLe, hend]
      exact List.mem_singleton_self row
    have hany : sourceRows.any w.AtEnd = true := by
      rw [List.any_eq_true]
      exact ⟨row, List.mem_of_mem_filter hmem, (List.mem_filter.mp hmem).2⟩
    rw [hend, hany]
    simp [totalRate]
  . have hnone : sourceRows.filter w.AtEnd = [] := by
      have hlength := congrArg List.length hend
      rw [List.length_insertionSort] at hlength
      exact List.length_eq_zero_iff.mp hlength
    have hany : sourceRows.any w.AtEnd = false := by
      rw [List.any_eq_false]
      exact List.filter_eq_nil_iff.mp hnone
    obtain ⟨rest, hrest⟩ := List.head?_eq_some_iff.mp hinside
    rw [hend, hany, hrest]
    simp [totalRate]

end total

/--
The record carries the rate, and so does the row that a bundle with the record freezes from it.
-/
structure WindowRecord.AccountsFor (record : WindowRecord) (float : String → ℚ) (charged : ℚ) : Prop where
  rate : record.fundingRate.map float = some charged
  frozen : ∀ records, record ∈ records → ∃ row ∈ frozenCanonicalRows records,
    frozenRow record = some row ∧ float row.fundingRate = charged

theorem WindowRecord.Freezes.accountsFor_iff {record : WindowRecord} {w : FundingWindow}
    {row : SourceRow} (h : record.Freezes w row) (float : String → ℚ) (charged : ℚ)
    : record.AccountsFor float charged ↔ row.rate float = charged := by
  constructor
  . intro haccounts
    have hrate := haccounts.rate
    rw [h.rate, Option.map_some, Option.some.injEq] at hrate
    exact hrate
  . intro hrate
    refine ⟨by rw [h.rate, Option.map_some]; exact congrArg some hrate, ?_⟩
    intro records hmem
    have hfrozen : ∃ frozen, frozenRow record = some frozen
        ∧ frozen.fundingRate = row.fundingRate := by
      unfold frozenRow
      rw [h.accepted, h.rate]
      exact ⟨_, rfl, rfl⟩
    obtain ⟨frozen, hrow, heq⟩ := hfrozen
    refine ⟨frozen, ?_, hrow, by rw [heq]; exact hrate⟩
    unfold frozenCanonicalRows
    rw [List.mem_insertionSort, List.mem_filterMap]
    exact ⟨record, hmem, hrow⟩

section examples

def morningWindow : FundingWindow where
  symbol := "BTCUSDT"
  windowStart := juneFirst 0
  windowEnd := juneFirst 8
  requiredBy := "paper_engine_funding_interval"

def morningRow (hour : Fin 24) : SourceRow where
  symbol := "BTCUSDT"
  fundingTimeMs := (juneFirst hour).epochMs
  sourceFilePath := "BTCUSDT_8h_funding.csv"
  rowIndex := hour
  fundingRate := "0.0001"

def morningEvent (hour : Fin 24) : FundingEvent where
  symbol := "BTCUSDT"
  dt := juneFirst hour
  fundingRate := 1 / 10000

def floatRate (text : String) : ℚ :=
  if text = "0.0001" then 1 / 10000 else 0

theorem morning_loads (hour : Fin 24) : Loads floatRate (morningRow hour) (morningEvent hour) where
  symbol := rfl
  rate := rfl
  since := le_refl _
  before := lt_add_of_pos_right _ (by decide)

theorem morning_loadedFrom (hours : List (Fin 24))
    : LoadedFrom floatRate (hours.map morningEvent) (hours.map morningRow) := by
  refine ⟨_, List.Perm.refl _, ?_⟩
  rw [List.forall₂_map_left_iff, List.forall₂_map_right_iff, List.forall₂_same]
  exact fun hour _ => morning_loads hour

end examples

end Quantbot
