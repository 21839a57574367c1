import Quantbot.Lab.CrossCheck

/-!
What an empty list of disagreements says of the rows, and what a blamed engine has done.
-/

namespace Quantbot

namespace CrossCheck

/--
The same rows in the shared fields, each as often, and the same deferred bar.
-/
structure SameRows (e : EngineRows) (r : ReplayResult) : Prop where
  fills : (e.fills.map FillRow.replay).Perm r.fills
  equity : (e.equity.map EquityRow.replay).Perm r.equity
  positions : (e.positions.map PositionsRow.replay).Perm r.positions
  funding : (e.funding.map FundingRow.replay).Perm r.funding
  trades : (e.trades.map TradeRow.replay).Perm r.trades
  deferred : e.deferredBarTs = r.deferredBarTs

/--
The engine is blamed for an equity row that breaks the accounting identity where the replay's keeps
it.
-/
def BlamedForEquity (e : EngineRows) (r : ReplayResult) (initial : ℚ) (d : Disagreement) : Prop :=
  ∃ row row', (rowsBy EquityRow.barTs e.equity)[d.barTs]? = some row
    ∧ (rowsBy ReplayEquity.barTs r.equity)[d.barTs]? = some row'
    ∧ equityConsistent row.replay initial = false ∧ equityConsistent row' initial = true

structure Sound (e : EngineRows) (r : ReplayResult) (initial : ℚ) : Prop where
  clean : CrossCheck.compare e r initial = [] → SameRows e r
  blamed : ∀ d ∈ CrossCheck.compare e r initial, d.classification = .qntyBugCandidate →
    BlamedForEquity e r initial d

/--
The two results agree in all that is looked at.
-/
structure ComparedAgree (e : EngineRows) (r : ReplayResult) : Prop where
  equity : ∀ ts : String, (rowsBy EquityRow.barTs e.equity)[ts]?.map EquityRow.replay
    = (rowsBy ReplayEquity.barTs r.equity)[ts]?
  positions : ∀ (ts : String) p q, (rowsBy PositionsRow.barTs e.positions)[ts]? = some p →
    (rowsBy ReplayPositions.barTs r.positions)[ts]? = some q → p.replay = q
  fills : ∀ key : FillKey, (rowsBy FillRow.fillKey e.fills)[key]?.map FillRow.replay
    = (rowsBy ReplayFill.fillKey r.fills)[key]?
  deferred : e.deferredBarTs = r.deferredBarTs

/--
The two results agree in what is not: two whole ledgers, the rows that a later row of their key
overwrites, and the bars with a positions row on one side.
-/
structure UncheckedAgree (e : EngineRows) (r : ReplayResult) : Prop where
  funding : (e.funding.map FundingRow.replay).Perm r.funding
  trades : (e.trades.map TradeRow.replay).Perm r.trades
  equity : ((overwritten EquityRow.barTs e.equity).map EquityRow.replay).Perm
    (overwritten ReplayEquity.barTs r.equity)
  positions : ((overwritten PositionsRow.barTs e.positions).map PositionsRow.replay).Perm
    (overwritten ReplayPositions.barTs r.positions)
  fills : ((overwritten FillRow.fillKey e.fills).map FillRow.replay).Perm
    (overwritten ReplayFill.fillKey r.fills)
  positionBars : ∀ ts, ts ∈ e.positions.map PositionsRow.barTs
    ↔ ts ∈ r.positions.map ReplayPositions.barTs

section rows

theorem equity_eq_iff {a b : ReplayEquity}
    : a = b ↔ a.barTs = b.barTs ∧ ∀ fld ∈ equityCmp, a.get fld = b.get fld := by
  cases a
  cases b
  simp [equityCmp, ReplayEquity.get]

theorem positions_eq_iff {a b : ReplayPositions}
    : a = b ↔ a.barTs = b.barTs ∧ ∀ fld ∈ positionCmp, a.get fld = b.get fld := by
  cases a
  cases b
  simp [positionCmp, ReplayPositions.get]
  tauto

theorem fill_eq_iff {a b : ReplayFill}
    : a = b ↔ a.fillKey = b.fillKey ∧ ∀ fld ∈ fillCmp, a.get fld = b.get fld := by
  cases a
  cases b
  simp [fillCmp, ReplayFill.get, ReplayFill.fillKey]
  tauto

end rows

section diffs

variable {fields : List Field} {ts : String} {symbol : Option String} {e r : Field → Option Cell}
  {classify : Field → Classification}

theorem fieldDiffs_eq_nil_iff
    : fieldDiffs fields ts symbol e r classify = [] ↔ ∀ fld ∈ fields, e fld = r fld := by
  unfold fieldDiffs
  rw [List.filterMap_eq_nil_iff]
  constructor
  . intro h fld hfld
    by_contra hne
    have := h fld hfld
    rw [if_neg hne] at this
    cases this
  . intro h fld hfld
    rw [if_pos (h fld hfld)]

theorem of_mem_fieldDiffs {d : Disagreement} (h : d ∈ fieldDiffs fields ts symbol e r classify)
    : d.barTs = ts ∧ d.field ∈ fields ∧ d.classification = classify d.field := by
  obtain ⟨fld, hfld, heq⟩ := List.mem_filterMap.mp h
  split at heq
  . cases heq
  . cases heq
    exact ⟨rfl, hfld, rfl⟩

theorem presenceDiff_classification {field : Field} {e r : Bool} {classification : Classification}
    : (presenceDiff ts symbol field e r classification).classification = classification := by
  rfl

variable {engEq : Std.ExtTreeMap String EquityRow} {repEq : Std.ExtTreeMap String ReplayEquity}
  {initial : ℚ}

theorem equityDiffs_eq_nil_iff {es : List EquityRow} {rs : List ReplayEquity}
    : equityDiffs (rowsBy EquityRow.barTs es) (rowsBy ReplayEquity.barTs rs) initial ts = []
        ↔ ∃ e r, (rowsBy EquityRow.barTs es)[ts]? = some e
          ∧ (rowsBy ReplayEquity.barTs rs)[ts]? = some r ∧ e.replay = r := by
  unfold equityDiffs
  cases he : (rowsBy EquityRow.barTs es)[ts]? with
  | none => simp
  | some e =>
    cases hr : (rowsBy ReplayEquity.barTs rs)[ts]? with
    | none => simp
    | some r =>
      have hkey : e.replay.barTs = r.barTs := (key_of_rowsBy he).trans (key_of_rowsBy hr).symm
      have hsame : (∀ fld ∈ equityCmp, e.replay.get fld = r.get fld) ↔ e.replay = r := by
        rw [equity_eq_iff]
        exact (and_iff_right hkey).symm
      rw [fieldDiffs_eq_nil_iff, hsame]
      constructor
      . exact fun h => ⟨e, r, rfl, rfl, h⟩
      . rintro ⟨_, _, he', hr', h⟩
        cases he'
        cases hr'
        exact h

theorem positionDiffs_eq_nil_iff {es : List PositionsRow} {rs : List ReplayPositions}
    : positionDiffs engEq repEq initial (rowsBy PositionsRow.barTs es)
          (rowsBy ReplayPositions.barTs rs) ts = []
        ↔ ∀ e r, (rowsBy PositionsRow.barTs es)[ts]? = some e →
          (rowsBy ReplayPositions.barTs rs)[ts]? = some r → e.replay = r := by
  unfold positionDiffs
  cases he : (rowsBy PositionsRow.barTs es)[ts]? with
  | none => simp
  | some e =>
    cases hr : (rowsBy ReplayPositions.barTs rs)[ts]? with
    | none => simp
    | some r =>
      have hkey : e.replay.barTs = r.barTs := (key_of_rowsBy he).trans (key_of_rowsBy hr).symm
      have hsame : (∀ fld ∈ positionCmp, e.replay.get fld = r.get fld) ↔ e.replay = r := by
        rw [positions_eq_iff]
        exact (and_iff_right hkey).symm
      simp [fieldDiffs_eq_nil_iff, hsame]

theorem fillDiffs_eq_nil_iff {es : List FillRow} {rs : List ReplayFill} {key : FillKey}
    : fillDiffs engEq repEq initial (rowsBy FillRow.fillKey es) (rowsBy ReplayFill.fillKey rs) key
          = []
        ↔ ∃ e r, (rowsBy FillRow.fillKey es)[key]? = some e
          ∧ (rowsBy ReplayFill.fillKey rs)[key]? = some r ∧ e.replay = r := by
  unfold fillDiffs
  cases he : (rowsBy FillRow.fillKey es)[key]? with
  | none => simp
  | some e =>
    cases hr : (rowsBy ReplayFill.fillKey rs)[key]? with
    | none => simp
    | some r =>
      have hkey : e.replay.fillKey = r.fillKey := (key_of_rowsBy he).trans (key_of_rowsBy hr).symm
      have hsame : (∀ fld ∈ fillCmp, e.replay.get fld = r.get fld) ↔ e.replay = r := by
        rw [fill_eq_iff]
        exact (and_iff_right hkey).symm
      rw [fieldDiffs_eq_nil_iff, hsame]
      constructor
      . exact fun h => ⟨e, r, rfl, rfl, h⟩
      . rintro ⟨_, _, he', hr', h⟩
        cases he'
        cases hr'
        exact h

end diffs

/--
Dictionaries agree when a row under one of their keys is found in both, with the same content.
-/
theorem lookups_eq_iff {α β κ : Type} [LinearOrder κ] {a : Std.ExtTreeMap κ α}
    {b : Std.ExtTreeMap κ β} {f : α → β}
    : (∀ k ∈ unionKeys a b, ∃ x y, a[k]? = some x ∧ b[k]? = some y ∧ f x = y)
        ↔ ∀ k : κ, a[k]?.map f = b[k]? := by
  constructor
  . intro h k
    by_cases hk : k ∈ unionKeys a b
    . obtain ⟨x, y, hx, hy, heq⟩ := h k hk
      rw [hx, hy, ← heq]
      rfl
    . rw [(getElem?_of_not_mem_unionKeys hk).1, (getElem?_of_not_mem_unionKeys hk).2]
      rfl
  . intro h k hk
    have heq := h k
    cases hx : a[k]? with
    | some x =>
      rw [hx] at heq
      exact ⟨x, f x, rfl, heq.symm, rfl⟩
    | none =>
      rw [hx] at heq
      rw [mem_unionKeys, Std.ExtTreeMap.mem_iff_isSome_getElem?, hx,
        Std.ExtTreeMap.mem_iff_isSome_getElem?, ← heq] at hk
      simp at hk

variable {e : EngineRows} {r : ReplayResult} {initial : ℚ}

theorem compare_eq_nil_iff : CrossCheck.compare e r initial = [] ↔ ComparedAgree e r := by
  unfold CrossCheck.compare
  simp only [List.append_eq_nil_iff, List.flatMap_eq_nil_iff, equityDiffs_eq_nil_iff,
    positionDiffs_eq_nil_iff, fillDiffs_eq_nil_iff]
  rw [lookups_eq_iff, lookups_eq_iff]
  have hdeferred : deferredDiffs e.deferredBarTs r.deferredBarTs = []
      ↔ e.deferredBarTs = r.deferredBarTs := by
    unfold deferredDiffs
    split <;> simp_all
  rw [hdeferred]
  constructor
  . rintro ⟨⟨⟨hequity, hpositions⟩, hfills⟩, hdeferred⟩
    refine ⟨hequity, ?_, hfills, hdeferred⟩
    intro ts p q hp hq
    apply hpositions ts _ p q hp hq
    rw [mem_unionKeys, Std.ExtTreeMap.mem_iff_isSome_getElem?, hp]
    exact Or.inl rfl
  . intro h
    exact ⟨⟨⟨h.equity, fun ts _ => h.positions ts⟩, h.fills⟩, h.deferred⟩

/--
Results that agree in what is looked at have the same rows exactly when they agree in the rest.
-/
theorem sameRows_iff (h : ComparedAgree e r) : SameRows e r ↔ UncheckedAgree e r := by
  have hequity := @perm_iff_overwritten _ _ _ _ EquityRow.barTs ReplayEquity.barTs EquityRow.replay
    (fun _ => rfl) _ _ h.equity
  have hfills := @perm_iff_overwritten _ _ _ _ FillRow.fillKey ReplayFill.fillKey FillRow.replay
    (fun _ => rfl) _ _ h.fills
  have hpositions (hbars : ∀ ts, ts ∈ e.positions.map PositionsRow.barTs
      ↔ ts ∈ r.positions.map ReplayPositions.barTs)
      : (e.positions.map PositionsRow.replay).Perm r.positions
        ↔ ((overwritten PositionsRow.barTs e.positions).map PositionsRow.replay).Perm
          (overwritten ReplayPositions.barTs r.positions) := by
    apply @perm_iff_overwritten _ _ _ _ PositionsRow.barTs ReplayPositions.barTs PositionsRow.replay
      (fun _ => rfl)
    intro ts
    have hmem := hbars ts
    rw [← mem_rowsBy, ← mem_rowsBy, Std.ExtTreeMap.mem_iff_isSome_getElem?,
      Std.ExtTreeMap.mem_iff_isSome_getElem?] at hmem
    cases hp : (rowsBy PositionsRow.barTs e.positions)[ts]? with
    | none =>
      rw [hp] at hmem
      cases hq : (rowsBy ReplayPositions.barTs r.positions)[ts]? with
      | none => rfl
      | some q => simp [hq] at hmem
    | some p =>
      rw [hp] at hmem
      cases hq : (rowsBy ReplayPositions.barTs r.positions)[ts]? with
      | none => simp [hq] at hmem
      | some q => exact congrArg some (h.positions ts p q hp hq)
  constructor
  . intro hsame
    have hbars : ∀ ts, ts ∈ e.positions.map PositionsRow.barTs
        ↔ ts ∈ r.positions.map ReplayPositions.barTs := by
      intro ts
      have hperm := (hsame.positions.map ReplayPositions.barTs).mem_iff (a := ts)
      rwa [List.map_map] at hperm
    exact {
      funding := hsame.funding
      trades := hsame.trades
      equity := hequity.mp hsame.equity
      positions := (hpositions hbars).mp hsame.positions
      fills := hfills.mp hsame.fills
      positionBars := hbars
    }
  . intro hrest
    exact {
      fills := hfills.mpr hrest.fills
      equity := hequity.mpr hrest.equity
      positions := (hpositions hrest.positionBars).mpr hrest.positions
      funding := hrest.funding
      trades := hrest.trades
      deferred := h.deferred
    }

section blamed

theorem classify_qnty {field : Field} {row : Option EquityRow} {row' : Option ReplayEquity}
    (h : classifyDisagreement field row row' initial = .qntyBugCandidate)
    : field ∈ equityFields
      ∧ row.any (fun row => equityConsistent row.replay initial) = false
      ∧ row'.any (fun row => equityConsistent row initial) = true := by
  unfold classifyDisagreement at h
  split at h
  . cases h
  . split at h
    . cases h
    . split at h
      next hfield =>
        dsimp only at h
        split at h
        . cases h
        next hreplay =>
          split at h
          next hengine => simp_all
          . cases h
      . cases h

theorem equityField_of_classifyAt {engEq : Std.ExtTreeMap String EquityRow}
    {repEq : Std.ExtTreeMap String ReplayEquity} {ts : String} {field : Field}
    (h : classifyAt engEq repEq initial ts field = .qntyBugCandidate) : field ∈ equityFields :=
  (classify_qnty h).1

/--
The fields of fills and positions are no equity fields.
-/
theorem not_equityField_of_mem {field : Field} (h : field ∈ positionCmp ++ fillCmp)
    : field ∉ equityFields := by
  revert h
  cases field <;> decide

theorem blamed_of_mem_compare {d : Disagreement} (hd : d ∈ CrossCheck.compare e r initial)
    (hqnty : d.classification = .qntyBugCandidate) : BlamedForEquity e r initial d := by
  unfold CrossCheck.compare at hd
  simp only [List.mem_append, List.mem_flatMap] at hd
  rcases hd with ((⟨ts, -, hd⟩ | ⟨ts, -, hd⟩) | ⟨key, -, hd⟩) | hd
  . unfold equityDiffs at hd
    split at hd
    next row row' hrow hrow' =>
      obtain ⟨hts, hfield, hclass⟩ := of_mem_fieldDiffs hd
      rw [hclass, classifyAt, hrow, hrow'] at hqnty
      obtain ⟨-, hengine, hreplay⟩ := classify_qnty hqnty
      subst hts
      exact ⟨row, row', hrow, hrow', hengine, hreplay⟩
    . rw [List.mem_singleton] at hd
      rw [hd, presenceDiff_classification] at hqnty
      exact absurd (equityField_of_classifyAt hqnty) (by decide)
  . unfold positionDiffs at hd
    split at hd
    . obtain ⟨-, hfield, hclass⟩ := of_mem_fieldDiffs hd
      rw [hclass] at hqnty
      exact absurd (equityField_of_classifyAt hqnty)
        (not_equityField_of_mem (List.mem_append.mpr (Or.inl hfield)))
    . cases hd
  . unfold fillDiffs at hd
    dsimp only at hd
    split at hd
    . obtain ⟨-, hfield, hclass⟩ := of_mem_fieldDiffs hd
      rw [hclass] at hqnty
      exact absurd (equityField_of_classifyAt hqnty)
        (not_equityField_of_mem (List.mem_append.mpr (Or.inr hfield)))
    . rw [List.mem_singleton] at hd
      rw [hd, presenceDiff_classification] at hqnty
      exact absurd (equityField_of_classifyAt hqnty) (by decide)
  . unfold deferredDiffs at hd
    split at hd
    . cases hd
    . rw [List.mem_singleton] at hd
      subst hd
      cases hqnty

end blamed

section report

/--
A run of the check passes, with its note, exactly when there are no disagreements.
-/
theorem report_pass_iff (diffs : List Disagreement) : (report diffs).verdict = .pass ↔ diffs = [] := by
  unfold report
  dsimp only
  split
  next h => simp [h]
  next h =>
    split <;> simp [h]

theorem crossCheck_ok {cfg : PaperConfig} {perBarObs : List Obs} {prices : PriceBook}
    {fundingDf : List FundingEvent} {initialEquityUsd : Option ℚ} {rep : Report}
    (h : crossCheck cfg perBarObs prices fundingDf initialEquityUsd = .ok rep)
    : ∃ e r,
      runEngine cfg perBarObs prices fundingDf
          (newState (initialEquityUsd.getD cfg.initialEquityUsd)) = .ok e
        ∧ runReplay cfg perBarObs prices fundingDf
          (some (initialEquityUsd.getD cfg.initialEquityUsd)) "" = .ok r
        ∧ rep = report (CrossCheck.compare (e.rows cfg) r
          (initialEquityUsd.getD cfg.initialEquityUsd)) := by
  unfold crossCheck at h
  obtain ⟨e, he, h⟩ := bind_eq_ok.mp h
  obtain ⟨r, hr, h⟩ := bind_eq_ok.mp h
  cases h
  exact ⟨e, r, he, hr, rfl⟩

end report

end CrossCheck

end Quantbot
