import Quantbot.Paper.Engine.Lemmas.Funding
import Quantbot.Paper.Funding.Coverage
import Quantbot.Paper.Timestamp.Lemmas

/-!
The engine counts a source timestamp in a window exactly when the classifier accepts it there.
-/

namespace Quantbot

/--
The instant of a source row, to the millisecond.
-/
structure SourceInstant where
  second : DateTime
  millis : ℕ
  millis_lt : millis < 1000

namespace SourceInstant

def epochMs (t : SourceInstant) : ℤ :=
  t.second.epochMs + t.millis

/--
The row of the funding table, whose stamp drops the milliseconds.
-/
def event (symbol : String) (source : SourceInstant × ℚ) : FundingEvent where
  symbol := symbol
  dt := source.1.second
  fundingRate := source.2

end SourceInstant

section single

variable {ws we : DateTime}

theorem wholeSeconds (h : ws < we) : ws.epochMs + 1000 ≤ we.epochMs := by
  have hlt := DateTime.epochMs_lt h
  have hws := ws.epochMs_emod
  have hwe := we.epochMs_emod
  omega

/--
No source before the window is accepted.
-/
theorem classify_clean_iff {source windowStart windowEnd : ℤ} (h : windowStart ≤ windowEnd)
    : (classifyFundingTimestampForWindow source windowStart windowEnd).cleanNetOfCarryAllowed = true
        ↔ windowStart + 1000 ≤ source ∧ source < windowEnd + 1000 := by
  rcases le_or_gt windowStart source with hsource | hsource
  . exact classify_clean hsource
  . unfold classifyFundingTimestampForWindow canonicalizeFundingTimestamp
      isSameUtcSecondAtOrAfterEndpoint endpointSameSecondToleranceMs
    simp only [List.find?_cons, List.find?_nil]
    grind

theorem counted_iff_accepted (h : ws < we) (t : SourceInstant)
    : (ws.strftime < t.second.strftime ∧ t.second.strftime ≤ we.strftime)
        ↔ (classifyFundingTimestampForWindow t.epochMs ws.epochMs
          we.epochMs).cleanNetOfCarryAllowed = true := by
  have hsecond := t.second.epochMs_emod
  have hws := ws.epochMs_emod
  have hwe := we.epochMs_emod
  have hmillis := t.millis_lt
  have hwindow := wholeSeconds h
  have hstart : ws < t.second ↔ ws.epochMs < t.second.epochMs :=
    DateTime.epochMs_strictMono.lt_iff_lt.symm
  have hend : t.second ≤ we ↔ t.second.epochMs ≤ we.epochMs :=
    DateTime.epochMs_strictMono.le_iff_le.symm
  rw [classify_clean_iff (by omega), strftime_lt_strftime, strftime_strictMono.le_iff_le, hstart,
    hend, SourceInstant.epochMs]
  omega

end single

section series

variable {ws we : DateTime} (h : ws < we) (symbol : String) (sources : List (SourceInstant × ℚ))

include h

/--
The events of the window are the sources that the classifier accepts.
-/
theorem fundingEventsIn_perm
    : (fundingEventsIn (buildFundingIndex (sources.map (SourceInstant.event symbol))) symbol
        ws.strftime we.strftime).Perm
      ((sources.filter (fun source => (classifyFundingTimestampForWindow source.1.epochMs
        ws.epochMs we.epochMs).cleanNetOfCarryAllowed)).map
        (fun source => (source.1.second.strftime, source.2))) := by
  have hseries : ((buildFundingIndex (sources.map (SourceInstant.event symbol))).series symbol).Perm
      (sources.map (fun source => (source.1.second.strftime, source.2))) := by
    refine (List.perm_insertionSort fundingKeyLe _).trans (.of_eq ?_)
    rw [List.filterMap_map]
    refine (List.filterMap_congr fun source _ => if_pos rfl).trans ?_
    exact congrFun List.filterMap_eq_map _
  rw [fundingEventsIn_eq_filter (buildFundingIndex_sorted _ _)]
  refine (hseries.filter _).trans (.of_eq ?_)
  rw [List.filter_map]
  congr 1
  refine List.filter_congr fun source _ => ?_
  rw [Function.comp_apply, Bool.eq_iff_iff, decide_eq_true_eq]
  exact counted_iff_accepted h source.1

theorem fundingInInterval_count
    : (fundingInInterval (buildFundingIndex (sources.map (SourceInstant.event symbol))) symbol
        ws.strftime we.strftime).2.1
      = acceptedCount (sources.map (fun source => source.1.epochMs)) ws.epochMs we.epochMs := by
  have hlength := (fundingEventsIn_perm h symbol sources).length_eq
  rw [List.length_map, ← List.countP_eq_length_filter] at hlength
  rw [acceptedCount, List.countP_map]
  refine Eq.trans ?_ hlength
  unfold fundingInInterval
  dsimp only
  split
  . rename_i hempty
    rw [List.isEmpty_iff.mp hempty]
    rfl
  . rfl

end series

section prefilter

variable {windowStart windowEnd : ℤ}

theorem countP_filter_of_imp {α : Type} {p q : α → Bool} (l : List α)
    (h : ∀ a ∈ l, q a = true → p a = true) : (l.filter p).countP q = l.countP q := by
  rw [List.countP_filter]
  refine List.countP_congr fun a ha => ?_
  rw [Bool.and_eq_true]
  exact ⟨fun hq => hq.1, fun hq => ⟨hq, h a ha hq⟩⟩

/--
The candidates of a window decide it like all the sources do.
-/
theorem classify_candidates (hwindow : windowStart ≤ windowEnd) (sources : List ℤ)
    : (classifyFundingTimestampsForWindow (sources.filter (fun ts => windowStart ≤ ts
        ∧ ts < windowEnd + diagnosticLookaheadMs)) windowStart windowEnd).cleanNetOfCarryAllowed
      = (classifyFundingTimestampsForWindow sources windowStart windowEnd).cleanNetOfCarryAllowed := by
  have hlookahead : diagnosticLookaheadMs = 1002 := rfl
  have hkept : ∀ source : ℤ, (classifyFundingTimestampForWindow source windowStart
      windowEnd).cleanNetOfCarryAllowed = true →
      decide (windowStart ≤ source ∧ source < windowEnd + diagnosticLookaheadMs) = true := by
    intro source hsource
    rw [classify_clean_iff hwindow] at hsource
    rw [decide_eq_true_eq]
    omega
  have haccepted : acceptedCount (sources.filter (fun ts => windowStart ≤ ts
      ∧ ts < windowEnd + diagnosticLookaheadMs)) windowStart windowEnd
      = acceptedCount sources windowStart windowEnd :=
    countP_filter_of_imp sources fun source _ => hkept source
  have hendpoint : endpointCount (sources.filter (fun ts => windowStart ≤ ts
      ∧ ts < windowEnd + diagnosticLookaheadMs)) windowStart windowEnd
      = endpointCount sources windowStart windowEnd :=
    countP_filter_of_imp sources fun source _ hq => hkept source (Bool.and_eq_true_iff.mp hq).1
  rw [Bool.eq_iff_iff, classifyWindow_clean_iff, classifyWindow_clean_iff, haccepted, hendpoint]

end prefilter

/--
The engine, the classifier and the two ways to choose candidates agree on every source.
-/
theorem countedAlike {ws we : DateTime} (h : ws < we) (symbol : String)
    : (∀ sources : List (SourceInstant × ℚ),
        (fundingInInterval (buildFundingIndex (sources.map (SourceInstant.event symbol))) symbol
            ws.strftime we.strftime).2.1
          = (classifyFundingTimestampsForWindow (sources.map (fun source => source.1.epochMs))
            ws.epochMs we.epochMs).sourceRowCount)
      ∧ (∀ sources : List (SourceInstant × ℚ),
        (fundingEventsIn (buildFundingIndex (sources.map (SourceInstant.event symbol))) symbol
            ws.strftime we.strftime).Perm
          ((sources.filter (fun source => (classifyFundingTimestampForWindow source.1.epochMs
            ws.epochMs we.epochMs).cleanNetOfCarryAllowed)).map
            (fun source => (source.1.second.strftime, source.2))))
      ∧ (∀ rows : List SourceRow,
        (classifyCsvWindow rows symbol ws.epochMs we.epochMs).cleanNetOfCarryAllowed
          = (classifyFundingTimestampsForWindow
            ((rows.filter (fun row => row.symbol = symbol)).map SourceRow.fundingTimeMs)
            ws.epochMs we.epochMs).cleanNetOfCarryAllowed)
      ∧ (∀ sourceBySymbol : String → List ℤ,
        (classifySourceWindow sourceBySymbol symbol ws.epochMs we.epochMs).cleanNetOfCarryAllowed
          = (classifyFundingTimestampsForWindow (sourceBySymbol symbol) ws.epochMs
            we.epochMs).cleanNetOfCarryAllowed) := by
  have hwindow := wholeSeconds h
  refine ⟨?_, fundingEventsIn_perm h symbol, ?_, ?_⟩
  . intro sources
    rw [fundingInInterval_count h, classifyWindow_rowCount]
  . intro rows
    have hcandidates : rows.filter (fun row => row.symbol = symbol
          ∧ ws.epochMs ≤ row.fundingTimeMs
          ∧ row.fundingTimeMs < we.epochMs + diagnosticLookaheadMs)
        = (rows.filter (fun row => row.symbol = symbol)).filter (fun row =>
          ws.epochMs ≤ row.fundingTimeMs ∧ row.fundingTimeMs < we.epochMs + diagnosticLookaheadMs) := by
      rw [List.filter_filter]
      refine List.filter_congr fun row _ => ?_
      rw [Bool.eq_iff_iff, Bool.and_eq_true, decide_eq_true_eq, decide_eq_true_eq,
        decide_eq_true_eq]
      exact and_comm
    rw [← classify_candidates (by omega), List.filter_map]
    unfold classifyCsvWindow
    rw [hcandidates]
    rfl
  . intro sourceBySymbol
    exact classify_candidates (by omega) (sourceBySymbol symbol)

theorem countedAlike_morning
    : (fundingInInterval (buildFundingIndex ([(⟨juneFirst 8, 3, by omega⟩, 1)].map
          (SourceInstant.event "BTCUSDT"))) "BTCUSDT" (juneFirst 0).strftime (juneFirst 8).strftime).2.1
        = (classifyFundingTimestampsForWindow [(juneFirst 8).epochMs + 3] (juneFirst 0).epochMs
          (juneFirst 8).epochMs).sourceRowCount :=
  (@countedAlike (juneFirst 0) (juneFirst 8) (by decide) "BTCUSDT").1
    [(⟨juneFirst 8, 3, by omega⟩, 1)]

end Quantbot
