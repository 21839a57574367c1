import Mathlib

/-!
`funding_time`: how a source timestamp lies in one funding window. Instants are milliseconds since
the epoch.
-/

namespace Quantbot

def endpointSameSecondToleranceMs : ℤ := 999

inductive FundingReason where
  | accepted
  | duplicateCanonicalEndpoint
  | missingSourceRow
  | canonicalizedToOpenBoundary
  | outsideTolerance
deriving DecidableEq

structure FundingTimestampClassification where
  cleanNetOfCarryAllowed : Bool
  reason : FundingReason
  canonicalEndpoint : Option ℤ
deriving DecidableEq

def isSameUtcSecondAtOrAfterEndpoint (source endpoint : ℤ) : Bool :=
  0 ≤ source - endpoint ∧ source - endpoint < endpointSameSecondToleranceMs + 1

/--
The open boundary is checked first.
-/
def canonicalizeFundingTimestamp (source windowStart windowEnd : ℤ) : Option ℤ :=
  [windowStart, windowEnd].find? (fun endpoint => isSameUtcSecondAtOrAfterEndpoint source endpoint)

def classifyFundingTimestampForWindow (source windowStart windowEnd : ℤ)
    : FundingTimestampClassification :=
  let canonicalEndpoint := canonicalizeFundingTimestamp source windowStart windowEnd
  if canonicalEndpoint = some windowStart then
    { cleanNetOfCarryAllowed := false
      reason := .canonicalizedToOpenBoundary
      canonicalEndpoint := some windowStart }
  else if canonicalEndpoint = some windowEnd then
    { cleanNetOfCarryAllowed := true
      reason := .accepted
      canonicalEndpoint := some windowEnd }
  else if windowStart < source ∧ source ≤ windowEnd then
    { cleanNetOfCarryAllowed := true
      reason := .accepted
      canonicalEndpoint := none }
  else
    { cleanNetOfCarryAllowed := false
      reason := .outsideTolerance
      canonicalEndpoint := none }

structure FundingTimestampWindowClassification where
  cleanNetOfCarryAllowed : Bool
  reason : FundingReason
  sourceRowCount : ℕ
  canonicalEndpoint : Option ℤ
deriving DecidableEq

/--
Two rows at the inclusive endpoint are ambiguous.
-/
def classifyFundingTimestampsForWindow (sources : List ℤ) (windowStart windowEnd : ℤ)
    : FundingTimestampWindowClassification :=
  let classifications := sources.map (fun source =>
    classifyFundingTimestampForWindow source windowStart windowEnd)
  let accepted := classifications.filter (fun c => c.cleanNetOfCarryAllowed)
  let endpointHits := accepted.filter (fun c => c.canonicalEndpoint = some windowEnd)
  if classifications = [] then
    { cleanNetOfCarryAllowed := false
      reason := .missingSourceRow
      sourceRowCount := 0
      canonicalEndpoint := none }
  else if 1 < endpointHits.length then
    { cleanNetOfCarryAllowed := false
      reason := .duplicateCanonicalEndpoint
      sourceRowCount := accepted.length
      canonicalEndpoint := some windowEnd }
  else if accepted ≠ [] then
    { cleanNetOfCarryAllowed := true
      reason := .accepted
      sourceRowCount := accepted.length
      canonicalEndpoint := if endpointHits ≠ [] then some windowEnd else none }
  else if classifications.any (fun c => c.reason = .canonicalizedToOpenBoundary) then
    { cleanNetOfCarryAllowed := false
      reason := .canonicalizedToOpenBoundary
      sourceRowCount := 0
      canonicalEndpoint := some windowStart }
  else
    { cleanNetOfCarryAllowed := false
      reason := .outsideTolerance
      sourceRowCount := 0
      canonicalEndpoint := none }

section classify

variable {source windowStart windowEnd : ℤ}

theorem classify_atEnd (h : windowStart ≤ source)
    : (classifyFundingTimestampForWindow source windowStart windowEnd).reason = .accepted
          ∧ (classifyFundingTimestampForWindow source windowStart windowEnd).canonicalEndpoint
            = some windowEnd
        ↔ windowStart + 1000 ≤ source ∧ windowEnd ≤ source ∧ source < windowEnd + 1000 := by
  unfold classifyFundingTimestampForWindow canonicalizeFundingTimestamp
    isSameUtcSecondAtOrAfterEndpoint endpointSameSecondToleranceMs
  simp only [List.find?_cons, List.find?_nil]
  grind

theorem classify_inside (h : windowStart ≤ source)
    : (classifyFundingTimestampForWindow source windowStart windowEnd).reason = .accepted
          ∧ (classifyFundingTimestampForWindow source windowStart windowEnd).canonicalEndpoint = none
        ↔ windowStart + 1000 ≤ source ∧ source < windowEnd := by
  unfold classifyFundingTimestampForWindow canonicalizeFundingTimestamp
    isSameUtcSecondAtOrAfterEndpoint endpointSameSecondToleranceMs
  simp only [List.find?_cons, List.find?_nil]
  grind

theorem classify_clean (h : windowStart ≤ source)
    : (classifyFundingTimestampForWindow source windowStart windowEnd).cleanNetOfCarryAllowed = true
        ↔ windowStart + 1000 ≤ source ∧ source < windowEnd + 1000 := by
  unfold classifyFundingTimestampForWindow canonicalizeFundingTimestamp
    isSameUtcSecondAtOrAfterEndpoint endpointSameSecondToleranceMs
  simp only [List.find?_cons, List.find?_nil]
  grind

/--
A clean window has a row in a second after the start, up to that of the end.
-/
theorem classifyWindow_clean {sources : List ℤ} (h : ∀ source ∈ sources, windowStart ≤ source)
    (hclean : (classifyFundingTimestampsForWindow sources windowStart windowEnd).cleanNetOfCarryAllowed
      = true)
    : ∃ source ∈ sources, windowStart + 1000 ≤ source ∧ source < windowEnd + 1000 := by
  have haccepted : (sources.map (fun source =>
      classifyFundingTimestampForWindow source windowStart windowEnd)).filter
        (fun c => c.cleanNetOfCarryAllowed) ≠ [] := by
    intro hnil
    unfold classifyFundingTimestampsForWindow at hclean
    simp only [hnil, ne_eq, not_true_eq_false, if_false] at hclean
    split at hclean
    . cases hclean
    . split at hclean
      . cases hclean
      . split at hclean <;> cases hclean
  obtain ⟨c, hc⟩ := List.exists_mem_of_ne_nil _ haccepted
  rw [List.mem_filter, List.mem_map] at hc
  obtain ⟨⟨source, hmem, rfl⟩, hok⟩ := hc
  exact ⟨source, hmem, (classify_clean (h source hmem)).mp hok⟩

section counts

def acceptedCount (sources : List ℤ) (windowStart windowEnd : ℤ) : ℕ :=
  sources.countP (fun source =>
    (classifyFundingTimestampForWindow source windowStart windowEnd).cleanNetOfCarryAllowed)

def endpointCount (sources : List ℤ) (windowStart windowEnd : ℤ) : ℕ :=
  sources.countP (fun source =>
    (classifyFundingTimestampForWindow source windowStart windowEnd).cleanNetOfCarryAllowed
      && (classifyFundingTimestampForWindow source windowStart windowEnd).canonicalEndpoint
        = some windowEnd)

def openBoundaryCount (sources : List ℤ) (windowStart windowEnd : ℤ) : ℕ :=
  sources.countP (fun source =>
    (classifyFundingTimestampForWindow source windowStart windowEnd).reason
      = .canonicalizedToOpenBoundary)

/--
The decision for a window depends on three counts, and on whether there is any source.
-/
theorem classifyWindow_eq (sources : List ℤ) (windowStart windowEnd : ℤ)
    : classifyFundingTimestampsForWindow sources windowStart windowEnd
        =
      if sources = [] then
        ⟨false, .missingSourceRow, 0, none⟩
      else if 1 < endpointCount sources windowStart windowEnd then
        ⟨false, .duplicateCanonicalEndpoint, acceptedCount sources windowStart windowEnd,
          some windowEnd⟩
      else if 0 < acceptedCount sources windowStart windowEnd then
        ⟨true, .accepted, acceptedCount sources windowStart windowEnd,
          if 0 < endpointCount sources windowStart windowEnd then some windowEnd else none⟩
      else if 0 < openBoundaryCount sources windowStart windowEnd then
        ⟨false, .canonicalizedToOpenBoundary, 0, some windowStart⟩
      else
        ⟨false, .outsideTolerance, 0, none⟩ := by
  have haccepted : ((sources.map (fun source =>
      classifyFundingTimestampForWindow source windowStart windowEnd)).filter
        (fun c => c.cleanNetOfCarryAllowed)).length
      = acceptedCount sources windowStart windowEnd := by
    rw [← List.countP_eq_length_filter, List.countP_map]
    rfl
  have hendpoint : (((sources.map (fun source =>
      classifyFundingTimestampForWindow source windowStart windowEnd)).filter
        (fun c => c.cleanNetOfCarryAllowed)).filter
        (fun c => c.canonicalEndpoint = some windowEnd)).length
      = endpointCount sources windowStart windowEnd := by
    rw [List.filter_filter, ← List.countP_eq_length_filter, List.countP_map, endpointCount]
    refine List.countP_congr fun source _ => ?_
    simp [and_comm]
  have hopen : (sources.map (fun source =>
      classifyFundingTimestampForWindow source windowStart windowEnd)).any
        (fun c => c.reason = .canonicalizedToOpenBoundary) = true
      ↔ 0 < openBoundaryCount sources windowStart windowEnd := by
    rw [openBoundaryCount, List.countP_pos_iff, List.any_map, List.any_eq_true]
    rfl
  unfold classifyFundingTimestampsForWindow
  simp only [List.length_map, ← haccepted, ← hendpoint, ← hopen, ne_eq,
    ← List.length_eq_zero_iff, Nat.pos_iff_ne_zero]

theorem classifyWindow_rowCount (sources : List ℤ) (windowStart windowEnd : ℤ)
    : (classifyFundingTimestampsForWindow sources windowStart windowEnd).sourceRowCount
      = acceptedCount sources windowStart windowEnd := by
  rw [classifyWindow_eq]
  split
  . rename_i hnil
    rw [hnil]
    rfl
  . split
    . rfl
    . split
      . rfl
      . split <;> dsimp only <;> omega

/--
A clean window has an accepted source, and not two at its end.
-/
theorem classifyWindow_clean_iff (sources : List ℤ) (windowStart windowEnd : ℤ)
    : (classifyFundingTimestampsForWindow sources windowStart windowEnd).cleanNetOfCarryAllowed = true
        ↔
      0 < acceptedCount sources windowStart windowEnd
        ∧ endpointCount sources windowStart windowEnd ≤ 1 := by
  rw [classifyWindow_eq]
  split
  . rename_i hnil
    rw [hnil]
    simp [acceptedCount]
  . split
    . simp only [Bool.false_eq_true, false_iff]
      omega
    . split
      . simp only [true_iff]
        omega
      . split <;> simp only [Bool.false_eq_true, false_iff] <;> omega

end counts

end classify

end Quantbot
