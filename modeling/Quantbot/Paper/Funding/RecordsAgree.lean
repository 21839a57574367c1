import Quantbot.Paper.Funding.CountedAlike
import Quantbot.Paper.Funding.Evidence

/-!
When the window record of a snapshot and the classifier of the coverage gate decide a window alike.
-/

namespace Quantbot

section classification

/--
The classification by where the source lies; the second of the start comes first.
-/
theorem classify_eq (source windowStart windowEnd : ℤ)
    : classifyFundingTimestampForWindow source windowStart windowEnd
        =
      if windowStart ≤ source ∧ source < windowStart + 1000 then
        ⟨false, .canonicalizedToOpenBoundary, some windowStart⟩
      else if windowEnd ≤ source ∧ source < windowEnd + 1000 then
        ⟨true, .accepted, some windowEnd⟩
      else if windowStart < source ∧ source ≤ windowEnd then
        ⟨true, .accepted, none⟩
      else
        ⟨false, .outsideTolerance, none⟩ := by
  unfold classifyFundingTimestampForWindow canonicalizeFundingTimestamp
    isSameUtcSecondAtOrAfterEndpoint endpointSameSecondToleranceMs
  simp only [List.find?_cons, List.find?_nil]
  grind

end classification

section record

variable (w : FundingWindow) (sourceRows : List SourceRow)

/--
The times of the candidates.
-/
def candidateTimes : List ℤ :=
  (candidateRowsForWindow sourceRows w).map SourceRow.fundingTimeMs

theorem length_endpointRows
    : (endpointRows w (candidateRowsForWindow sourceRows w)).length
      = endpointCount (candidateTimes w sourceRows) w.startMs w.endMs := by
  rw [endpointRows, ← List.countP_eq_length_filter, endpointCount, candidateTimes, List.countP_map]
  refine List.countP_congr fun row _ => ?_
  simp only [classified, Function.comp_apply, classify_eq]
  grind

theorem length_openBoundaryRows
    : (rowsWithReason w (candidateRowsForWindow sourceRows w) .canonicalizedToOpenBoundary).length
      = openBoundaryCount (candidateTimes w sourceRows) w.startMs w.endMs := by
  rw [rowsWithReason, ← List.countP_eq_length_filter, openBoundaryCount, candidateTimes,
    List.countP_map]
  rfl

theorem length_insideRows
    : (insideRows w (candidateRowsForWindow sourceRows w)).length
        + endpointCount (candidateTimes w sourceRows) w.startMs w.endMs
      = acceptedCount (candidateTimes w sourceRows) w.startMs w.endMs := by
  rw [insideRows, ← List.countP_eq_length_filter, endpointCount, acceptedCount, candidateTimes,
    List.countP_map, List.countP_map]
  induction candidateRowsForWindow sourceRows w with
  | nil => rfl
  | cons row rows ih =>
    rw [List.countP_cons, List.countP_cons, List.countP_cons, ← ih]
    simp only [classified, Function.comp_apply, classify_eq]
    grind

/--
The record refuses rows in the second of the start before it looks at the rows inside.
-/
def recordIssue (candidates : List ℤ) (windowStart windowEnd : ℤ) : Option FundingReason :=
  if candidates = [] then
    some .missingSourceRow
  else if 1 < endpointCount candidates windowStart windowEnd then
    some .duplicateCanonicalEndpoint
  else if endpointCount candidates windowStart windowEnd = 1 then
    none
  else if 0 < openBoundaryCount candidates windowStart windowEnd then
    some .canonicalizedToOpenBoundary
  else if 0 < acceptedCount candidates windowStart windowEnd then
    none
  else
    some .outsideTolerance

theorem windowRecord_issue
    : (windowRecord w sourceRows).sourceIssue
          = recordIssue (candidateTimes w sourceRows) w.startMs w.endMs
        ∧ (windowRecord w sourceRows).reasonCodes
          = (recordIssue (candidateTimes w sourceRows) w.startMs w.endMs).toList.map
            reasonCodeForTimestampReason := by
  have hend := length_endpointRows w sourceRows
  have hopen := length_openBoundaryRows w sourceRows
  have hinside := length_insideRows w sourceRows
  have hnil : candidateTimes w sourceRows = [] ↔ candidateRowsForWindow sourceRows w = [] :=
    List.map_eq_nil_iff
  unfold windowRecord recordIssue
  generalize candidateRowsForWindow sourceRows w = candidates at *
  cases candidates with
  | nil =>
    rw [if_pos (hnil.mpr rfl)]
    exact ⟨rfl, rfl⟩
  | cons first rest =>
    rw [if_neg (fun h => List.cons_ne_nil _ _ (hnil.mp h))]
    dsimp only
    split
    . rename_i heq
      rw [heq] at hend
      simp only [List.length_cons] at hend
      rw [if_pos (by omega)]
      exact ⟨rfl, rfl⟩
    . rename_i heq
      rw [heq] at hend
      simp only [List.length_cons, List.length_nil] at hend
      rw [if_neg (by omega), if_pos (by omega)]
      exact ⟨rfl, rfl⟩
    . rename_i heq
      rw [heq] at hend
      simp only [List.length_nil] at hend
      rw [if_neg (by omega), if_neg (by omega)]
      split
      . rename_i heq'
        rw [heq'] at hopen
        simp only [List.length_cons] at hopen
        rw [if_pos (by omega)]
        exact ⟨rfl, rfl⟩
      . rename_i heq'
        rw [heq'] at hopen
        simp only [List.length_nil] at hopen
        rw [if_neg (by omega)]
        split
        . rename_i heq''
          rw [heq''] at hinside
          simp only [List.length_cons] at hinside
          rw [if_pos (by omega)]
          exact ⟨rfl, rfl⟩
        . rename_i heq''
          rw [heq''] at hinside
          simp only [List.length_nil] at hinside
          rw [if_neg (by omega)]
          exact ⟨rfl, rfl⟩

end record

section agreement

/--
The record is clean when the classifier lets the window through, and else both name one reason.
-/
structure RecordsAgree (w : FundingWindow) (sourceRows : List SourceRow) : Prop where
  clean : (windowRecord w sourceRows).reasonCodes = []
    ↔ (classifyFundingTimestampsForWindow (sourceRows.map SourceRow.fundingTimeMs) w.startMs
      w.endMs).cleanNetOfCarryAllowed = true
  reason : (windowRecord w sourceRows).reasonCodes ≠ [] →
    (classifyFundingTimestampsForWindow (sourceRows.map SourceRow.fundingTimeMs) w.startMs
      w.endMs).cleanNetOfCarryAllowed = false →
    (windowRecord w sourceRows).sourceIssue
      = some (classifyFundingTimestampsForWindow (sourceRows.map SourceRow.fundingTimeMs) w.startMs
        w.endMs).reason

/--
The rows of a window that both decide alike: not all of them are far from it, one in the second of
the start does not meet one inside without one at the end, and none lies at the end of a window
that ends before it starts.
-/
structure DecidedAlike (w : FundingWindow) (sourceRows : List SourceRow) : Prop where
  near : sourceRows ≠ [] → ∃ row ∈ sourceRows, w.startMs ≤ row.fundingTimeMs
    ∧ row.fundingTimeMs < w.endMs + diagnosticLookaheadMs
  start : (∃ row ∈ sourceRows, w.startMs ≤ row.fundingTimeMs ∧ row.fundingTimeMs < w.startMs + 1000)
    → (∃ row ∈ sourceRows, w.Inside row) → ∃ row ∈ sourceRows, w.AtEnd row
  forward : ∀ row ∈ sourceRows, w.endMs ≤ row.fundingTimeMs → row.fundingTimeMs < w.endMs + 1000 →
    w.startMs ≤ row.fundingTimeMs

section issues

variable {candidates sources : List ℤ} {windowStart windowEnd : ℤ}

/--
`RecordsAgree` for the times alone.
-/
def IssuesAgree (issue : Option FundingReason) (c : FundingTimestampWindowClassification) : Prop :=
  (issue = none ↔ c.cleanNetOfCarryAllowed = true)
    ∧ (issue ≠ none → c.cleanNetOfCarryAllowed = false → issue = some c.reason)

theorem endpointCount_le (sources : List ℤ) (windowStart windowEnd : ℤ)
    : endpointCount sources windowStart windowEnd ≤ acceptedCount sources windowStart windowEnd :=
  List.countP_mono_left fun _ _ h => (Bool.and_eq_true_iff.mp h).1

theorem issuesAgree_iff (hnil : sources = [] → candidates = [])
    (hend : endpointCount candidates windowStart windowEnd
      = endpointCount sources windowStart windowEnd)
    (haccepted : acceptedCount candidates windowStart windowEnd
      = acceptedCount sources windowStart windowEnd)
    (hopen : openBoundaryCount candidates windowStart windowEnd
      = openBoundaryCount sources windowStart windowEnd)
    : IssuesAgree (recordIssue candidates windowStart windowEnd)
          (classifyFundingTimestampsForWindow sources windowStart windowEnd)
        ↔
      (sources ≠ [] → candidates ≠ [])
        ∧ (0 < openBoundaryCount sources windowStart windowEnd →
          endpointCount sources windowStart windowEnd
            < acceptedCount sources windowStart windowEnd →
          0 < endpointCount sources windowStart windowEnd) := by
  have hle := endpointCount_le sources windowStart windowEnd
  have hzero : candidates = [] → acceptedCount sources windowStart windowEnd = 0
      ∧ openBoundaryCount sources windowStart windowEnd = 0 := by
    rintro rfl
    exact ⟨haccepted.symm, hopen.symm⟩
  rw [classifyWindow_eq, recordIssue, hend, haccepted, hopen, IssuesAgree]
  by_cases hc : candidates = []
  . have := hzero hc
    by_cases hs : sources = []
    . simp [hc, hs, openBoundaryCount]
    . rw [if_pos hc, if_neg hs, if_neg (by omega), if_neg (by omega), if_neg (by omega)]
      simp [hc, hs]
  . have hs : sources ≠ [] := fun h => hc (hnil h)
    rw [if_neg hc, if_neg hs]
    by_cases h1 : 1 < endpointCount sources windowStart windowEnd
    . simp [h1, hc]
      omega
    . by_cases h2 : endpointCount sources windowStart windowEnd = 1
      . rw [if_neg h1, if_pos h2, if_neg h1, if_pos (by omega)]
        simp [hc]
        omega
      . by_cases h3 : 0 < openBoundaryCount sources windowStart windowEnd
        . by_cases h4 : 0 < acceptedCount sources windowStart windowEnd
          . simp [h1, h2, h3, h4, hc]
            omega
          . simp [h1, h2, h3, h4, hc]
            omega
        . by_cases h4 : 0 < acceptedCount sources windowStart windowEnd
          . simp [h1, h2, h3, h4, hc]
          . simp [h1, h2, h3, h4, hc]

end issues

section window

variable {w : FundingWindow} {sourceRows : List SourceRow}

theorem recordsAgree_iff_issues
    : RecordsAgree w sourceRows
        ↔
      IssuesAgree (recordIssue (candidateTimes w sourceRows) w.startMs w.endMs)
        (classifyFundingTimestampsForWindow (sourceRows.map SourceRow.fundingTimeMs) w.startMs
          w.endMs) := by
  obtain ⟨hissue, hcodes⟩ := windowRecord_issue w sourceRows
  have hnil : (windowRecord w sourceRows).reasonCodes = []
      ↔ recordIssue (candidateTimes w sourceRows) w.startMs w.endMs = none := by
    rw [hcodes, List.map_eq_nil_iff, Option.toList_eq_nil_iff]
  constructor
  . intro h
    refine ⟨hnil.symm.trans h.clean, fun hsome hclean => ?_⟩
    rw [← hissue]
    exact h.reason (fun hcodes => hsome (hnil.mp hcodes)) hclean
  . intro h
    refine ⟨hnil.trans h.1, fun hsome hclean => ?_⟩
    rw [hissue]
    exact h.2 (fun hnone => hsome (hnil.mpr hnone)) hclean

variable (hsymbol : ∀ row ∈ sourceRows, row.symbol = w.symbol)

include hsymbol in
theorem candidateTimes_perm
    : (candidateTimes w sourceRows).Perm ((sourceRows.map SourceRow.fundingTimeMs).filter
        (fun t => w.startMs ≤ t ∧ t < w.endMs + diagnosticLookaheadMs)) := by
  unfold candidateTimes candidateRowsForWindow
  refine ((List.perm_insertionSort canonicalRowLe _).map _).trans (.of_eq ?_)
  rw [List.filter_map]
  congr 1
  refine List.filter_congr fun row hrow => ?_
  rw [Function.comp_apply, Bool.eq_iff_iff, decide_eq_true_eq, decide_eq_true_eq]
  simp only [hsymbol row hrow, true_and]

include hsymbol in
theorem candidateTimes_near
    : candidateTimes w sourceRows ≠ [] ↔ ∃ row ∈ sourceRows, w.startMs ≤ row.fundingTimeMs
        ∧ row.fundingTimeMs < w.endMs + diagnosticLookaheadMs := by
  have hperm := candidateTimes_perm hsymbol
  rw [← List.length_pos_iff, hperm.length_eq, List.length_pos_iff, ne_eq, List.filter_eq_nil_iff]
  simp

theorem exists_times {p : ℤ → Prop}
    : (∃ t ∈ sourceRows.map SourceRow.fundingTimeMs, p t)
        ↔ ∃ row ∈ sourceRows, p row.fundingTimeMs := by
  simp

theorem openBoundary_exists
    : 0 < openBoundaryCount (sourceRows.map SourceRow.fundingTimeMs) w.startMs w.endMs
        ↔ ∃ row ∈ sourceRows, w.startMs ≤ row.fundingTimeMs
          ∧ row.fundingTimeMs < w.startMs + 1000 := by
  rw [openBoundaryCount, List.countP_pos_iff, exists_times]
  refine exists_congr fun row => and_congr_right fun hrow => ?_
  simp only [classify_eq]
  grind

include hsymbol

theorem atEnd_exists (hwindow : w.startMs ≤ w.endMs)
    : 0 < endpointCount (sourceRows.map SourceRow.fundingTimeMs) w.startMs w.endMs
        ↔ ∃ row ∈ sourceRows, w.AtEnd row := by
  rw [endpointCount, List.countP_pos_iff, exists_times]
  refine exists_congr fun row => and_congr_right fun hrow => ?_
  simp only [classify_eq, FundingWindow.AtEnd, FundingWindow.Charges, hsymbol row hrow, true_and]
  grind

theorem inside_exists (hwindow : w.startMs ≤ w.endMs)
    : endpointCount (sourceRows.map SourceRow.fundingTimeMs) w.startMs w.endMs
          < acceptedCount (sourceRows.map SourceRow.fundingTimeMs) w.startMs w.endMs
        ↔ ∃ row ∈ sourceRows, w.Inside row := by
  rw [acceptedCount, List.countP_eq_countP_filter_add _ _ (fun source =>
    (classifyFundingTimestampForWindow source w.startMs w.endMs).canonicalEndpoint
      = some w.endMs), List.countP_filter, List.countP_filter, endpointCount,
    Nat.lt_add_right_iff_pos, List.countP_pos_iff, exists_times]
  refine exists_congr fun row => and_congr_right fun hrow => ?_
  simp only [classify_eq, FundingWindow.Inside, FundingWindow.Charges, hsymbol row hrow, true_and]
  grind

/--
In a window that ends after it starts, only the nearness of the rows and the second of the start
matter.
-/
theorem recordsAgree_iff_of_le (hwindow : w.startMs ≤ w.endMs)
    : RecordsAgree w sourceRows ↔ DecidedAlike w sourceRows := by
  have hperm := candidateTimes_perm hsymbol
  have hlookahead : diagnosticLookaheadMs = 1002 := rfl
  have hclean : ∀ t : ℤ, (classifyFundingTimestampForWindow t w.startMs
      w.endMs).cleanNetOfCarryAllowed = true →
      decide (w.startMs ≤ t ∧ t < w.endMs + diagnosticLookaheadMs) = true := by
    intro t ht
    rw [classify_clean_iff hwindow] at ht
    rw [decide_eq_true_eq]
    omega
  have hend : endpointCount (candidateTimes w sourceRows) w.startMs w.endMs
      = endpointCount (sourceRows.map SourceRow.fundingTimeMs) w.startMs w.endMs :=
    (hperm.countP_eq _).trans
      (countP_filter_of_imp _ fun t _ h => hclean t (Bool.and_eq_true_iff.mp h).1)
  have haccepted : acceptedCount (candidateTimes w sourceRows) w.startMs w.endMs
      = acceptedCount (sourceRows.map SourceRow.fundingTimeMs) w.startMs w.endMs :=
    (hperm.countP_eq _).trans (countP_filter_of_imp _ fun t _ h => hclean t h)
  have hopen : openBoundaryCount (candidateTimes w sourceRows) w.startMs w.endMs
      = openBoundaryCount (sourceRows.map SourceRow.fundingTimeMs) w.startMs w.endMs := by
    refine (hperm.countP_eq _).trans (countP_filter_of_imp _ fun t _ h => ?_)
    simp only [classify_eq] at h
    grind
  have hnil : sourceRows.map SourceRow.fundingTimeMs = [] → candidateTimes w sourceRows = [] := by
    intro h
    rw [h] at hperm
    exact hperm.eq_nil
  rw [recordsAgree_iff_issues, issuesAgree_iff hnil hend haccepted hopen, openBoundary_exists,
    inside_exists hsymbol hwindow, atEnd_exists hsymbol hwindow, ne_eq, List.map_eq_nil_iff,
    candidateTimes_near hsymbol]
  constructor
  . rintro ⟨hnear, hstart⟩
    exact ⟨hnear, hstart, fun row _ h _ => hwindow.trans h⟩
  . intro h
    exact ⟨h.near, h.start⟩

/--
A window that ends before it starts has no candidates but those in the second of the start.
-/
theorem recordsAgree_iff_of_lt (hwindow : w.endMs + 1000 ≤ w.startMs)
    : RecordsAgree w sourceRows ↔ DecidedAlike w sourceRows := by
  have hperm := candidateTimes_perm hsymbol
  have hlookahead : diagnosticLookaheadMs = 1002 := rfl
  have hmem : ∀ t ∈ candidateTimes w sourceRows, w.startMs ≤ t ∧ t < w.startMs + 2 := by
    intro t ht
    have hrange := List.mem_filter.mp (hperm.mem_iff.mp ht)
    have := of_decide_eq_true hrange.2
    omega
  have haccepted : acceptedCount (candidateTimes w sourceRows) w.startMs w.endMs = 0 := by
    rw [acceptedCount, List.countP_eq_zero]
    intro t ht
    have := hmem t ht
    simp only [classify_eq]
    grind
  have hend : endpointCount (candidateTimes w sourceRows) w.startMs w.endMs = 0 := by
    have := endpointCount_le (candidateTimes w sourceRows) w.startMs w.endMs
    omega
  have hopen : candidateTimes w sourceRows ≠ [] →
      0 < openBoundaryCount (candidateTimes w sourceRows) w.startMs w.endMs := by
    intro hne
    obtain ⟨t, ht⟩ := List.exists_mem_of_ne_nil _ hne
    rw [openBoundaryCount, List.countP_pos_iff]
    refine ⟨t, ht, ?_⟩
    have := hmem t ht
    simp only [classify_eq]
    grind
  have hopen' : candidateTimes w sourceRows ≠ [] →
      0 < openBoundaryCount (sourceRows.map SourceRow.fundingTimeMs) w.startMs w.endMs := by
    intro hne
    obtain ⟨row, hrow, hnear⟩ := (candidateTimes_near hsymbol).mp hne
    exact openBoundary_exists.mpr ⟨row, hrow, hnear.1, by omega⟩
  have hsame : acceptedCount (sourceRows.map SourceRow.fundingTimeMs) w.startMs w.endMs
      = endpointCount (sourceRows.map SourceRow.fundingTimeMs) w.startMs w.endMs := by
    refine List.countP_congr fun t _ => ?_
    simp only [classify_eq]
    grind
  have hforward : endpointCount (sourceRows.map SourceRow.fundingTimeMs) w.startMs w.endMs = 0
      ↔ ∀ row ∈ sourceRows, w.endMs ≤ row.fundingTimeMs → row.fundingTimeMs < w.endMs + 1000 →
        w.startMs ≤ row.fundingTimeMs := by
    rw [endpointCount, List.countP_eq_zero, List.forall_mem_map]
    refine forall_congr' fun row => forall_congr' fun _ => ?_
    simp only [classify_eq]
    grind
  have hnil : sourceRows.map SourceRow.fundingTimeMs = [] → candidateTimes w sourceRows = [] := by
    intro h
    rw [h] at hperm
    exact hperm.eq_nil
  have halike : DecidedAlike w sourceRows
      ↔ (sourceRows.map SourceRow.fundingTimeMs ≠ [] → candidateTimes w sourceRows ≠ [])
        ∧ endpointCount (sourceRows.map SourceRow.fundingTimeMs) w.startMs w.endMs = 0 := by
    rw [hforward, candidateTimes_near hsymbol, ne_eq, List.map_eq_nil_iff]
    constructor
    . exact fun h => ⟨h.near, h.forward⟩
    . refine fun h => ⟨h.1, ?_, h.2⟩
      rintro - ⟨row, -, hinside⟩
      have := hinside.1.2
      omega
  rw [recordsAgree_iff_issues, halike, IssuesAgree, recordIssue, classifyWindow_eq, hend]
  generalize sourceRows.map SourceRow.fundingTimeMs = sources at *
  by_cases hc : candidateTimes w sourceRows = []
  . by_cases hs : sources = []
    . simp [hc, hs, endpointCount]
    . rw [if_pos hc, if_neg hs]
      simp only [hs, hc, not_true_eq_false, not_false_eq_true, ne_eq, forall_true_left, false_and,
        iff_false, not_and]
      split
      . simp
      . split
        . simp
        . split <;> simp
  . have hs : sources ≠ [] := fun h => hc (hnil h)
    have := hopen hc
    have := hopen' hc
    rw [if_neg hc, if_neg hs, if_neg (by omega), if_neg (by omega), if_pos (by omega)]
    split
    . simp [hc]
      omega
    . split
      . simp [hc]
        omega
      . simp [hc]
        omega

/--
For every window and all rows of its symbol.
-/
theorem recordsAgree_iff : RecordsAgree w sourceRows ↔ DecidedAlike w sourceRows := by
  have hstart := w.windowStart.epochMs_emod
  have hend := w.windowEnd.epochMs_emod
  rcases le_or_gt w.startMs w.endMs with hwindow | hwindow
  . exact recordsAgree_iff_of_le hsymbol hwindow
  . unfold FundingWindow.startMs FundingWindow.endMs at hwindow
    exact recordsAgree_iff_of_lt hsymbol (by
      unfold FundingWindow.startMs FundingWindow.endMs
      omega)

end window

section examples

theorem recordsAgree_endpoint
    : RecordsAgree morningWindow [morningRow 8] ↔ DecidedAlike morningWindow [morningRow 8] :=
  recordsAgree_iff (by decide)

/--
A row at the start of the window and one inside: the gate passes the window, the record refuses it.
-/
theorem start_and_inside_disagree
    : ¬∀ (w : FundingWindow) (sourceRows : List SourceRow),
        (∀ row ∈ sourceRows, row.symbol = w.symbol) → RecordsAgree w sourceRows := by
  intro hagree
  have hclean := (hagree morningWindow [morningRow 0, morningRow 4] (by decide)).clean
  revert hclean
  decide +kernel

end examples

end agreement

end Quantbot
