import Quantbot.Paper.Reader.FailClosed

/-!
What a persisted artifact is once it has passed its checks, and why the guards among the checks
raise nothing where they stand.
-/

namespace Quantbot
namespace PaperReader

section fields

variable {obj : JsonObject} {key : String}

/--
The keys of an object, no more and no less.
-/
def HasKeys (expected : List String) (obj : JsonObject) : Prop :=
  ∀ k, k ∈ obj.map Prod.fst ↔ k ∈ expected

theorem hasKeys_of_hasExactly {expected : List String} (h : hasExactly expected obj = true)
    : HasKeys expected obj := by
  rw [hasExactly, Bool.and_eq_true, List.all_eq_true, List.all_eq_true] at h
  intro k
  exact ⟨fun hk => of_decide_eq_true (h.2 k hk), fun hk => of_decide_eq_true (h.1 k hk)⟩

/--
An absent field reads as null.
-/
theorem lookup_eq_some (h : get obj key ≠ .null) : obj.lookup key = some (get obj key) := by
  cases hlookup : obj.lookup key with
  | none =>
    rw [get, hlookup] at h
    exact absurd rfl h
  | some v => rw [get, hlookup, Option.getD_some]

theorem item_eq_ok (h : get obj key ≠ .null) : item obj key = .ok (get obj key) := by
  rw [item, lookup_eq_some h]

/--
What maps null to nothing does not see that a field is absent.
-/
theorem lookup_bind {β : Type} (f : JsonValue → Option β) (hf : f .null = none)
    : (obj.lookup key).bind f = f (get obj key) := by
  rw [get]
  cases obj.lookup key with
  | none => exact hf.symm
  | some v => rfl

end fields

section ledgers

variable {spec : LedgerSpec} {row : JsonObject}

/--
A row with the required fields and no others, each of its kind.
-/
structure ValidRow (spec : LedgerSpec) (row : JsonObject) : Prop where
  keys : HasKeys spec.required row
  fields : ∀ f ∈ spec.rules, f.2.Holds (get row f.1)

theorem validRow_of_holds (h : ∀ c ∈ rowChecks spec row, c.Holds) : ValidRow spec row := by
  rw [rowChecks, List.forall_mem_cons, List.forall_mem_map] at h
  exact ⟨hasKeys_of_hasExactly (by simpa [Check.Holds] using h.1), h.2⟩

theorem tame_of_mem_rowChecks {c : Check} (h : c ∈ rowChecks spec row) : c.Tame := by
  rw [rowChecks, List.mem_cons, List.mem_map] at h
  obtain rfl | ⟨f, -, rfl⟩ := h
  . exact tame_guard
  . exact tame_rule

end ledgers

section state

variable {state : JsonObject}

structure ValidPosition (pos : JsonObject) : Prop where
  keys : HasKeys (openPositionStrKeys ++ openPositionNumKeys ++ ["hold_bars"]) pos
  fields : ∀ p ∈ positionRules pos, p.1.Holds p.2

structure ValidState (state : JsonObject) : Prop where
  keys : HasKeys stateKeys state
  watermark : Rule.emptyOrBarTs.Holds (get state "watermark_bar_ts")
  positions : ∃ positions, get state "open_positions" = .obj positions
    ∧ ∀ p ∈ positions, p.1 ≠ "" ∧ ∃ pos, p.2 = .obj pos ∧ ValidPosition pos
  accumulators : ∃ accumulators, get state "accumulators" = .obj accumulators
    ∧ HasKeys stateAccumulatorKeys accumulators
    ∧ ∀ k ∈ stateAccumulatorKeys, Rule.numeric.Holds (get accumulators k)
  peakEquity : Rule.numeric.Holds (get state "peak_equity")
  barsElapsed : Rule.nonnegInt.Holds (get state "bars_elapsed")

theorem exists_of_asObj {v : JsonValue} (h : v.asObj.isSome = true) : ∃ fields, v = .obj fields := by
  cases v with
  | obj fields => exact ⟨fields, rfl⟩
  | _ => cases h

theorem validPosition_of_holds {p : String × JsonValue} (h : ∀ c ∈ positionChecks p, c.Holds)
    : p.1 ≠ "" ∧ ∃ pos, p.2 = .obj pos ∧ ValidPosition pos := by
  rw [positionChecks, List.forall_mem_cons, List.forall_mem_singleton] at h
  obtain ⟨hobj, hrules, hkeys⟩ := h
  have hboth : p.1 ≠ "" ∧ p.2.asObj.isSome = true := by simpa [Check.Holds] using hobj
  obtain ⟨hname, hpos⟩ := hboth
  obtain ⟨pos, hpos⟩ := exists_of_asObj hpos
  rw [hpos] at hrules hkeys
  exact ⟨hname, pos, hpos, hasKeys_of_hasExactly hkeys, hrules⟩

theorem validState_of_holds (h : ∀ c ∈ stateChecks state, c.Holds) : ValidState state := by
  simp only [stateChecks, List.forall_mem_append, List.forall_mem_cons, List.forall_mem_map,
    List.forall_mem_flatMap, List.not_mem_nil, false_implies, implies_true, and_true,
    holds_rule, holds_guard] at h
  obtain ⟨⟨⟨⟨⟨hkeys, hwatermark, hopen⟩, hpositions⟩, hacc⟩, hfinite⟩, hacckeys, hpeak, hbars⟩ := h
  obtain ⟨positions, hopen⟩ := exists_of_asObj hopen
  obtain ⟨accumulators, hacc⟩ := exists_of_asObj hacc
  rw [hopen] at hpositions
  rw [hacc] at hfinite hacckeys
  exact {
    keys := hasKeys_of_hasExactly hkeys
    watermark := hwatermark
    positions := ⟨positions, hopen, fun p hp => validPosition_of_holds (hpositions p hp)⟩
    accumulators := ⟨accumulators, hacc, hasKeys_of_hasExactly hacckeys, hfinite⟩
    peakEquity := hpeak
    barsElapsed := hbars
  }

theorem tame_of_mem_stateChecks {c : Check} (h : c ∈ stateChecks state) : c.Tame := by
  revert c
  simp only [stateChecks, positionChecks, List.forall_mem_append, List.forall_mem_cons,
    List.forall_mem_map, List.forall_mem_flatMap, List.not_mem_nil, false_implies, implies_true,
    tame_rule, tame_every, tame_guard, and_true]

end state

section summary

variable {summary : JsonObject}

/--
The fields of a summary with status `OK`.
-/
structure ValidOk (summary : JsonObject) : Prop where
  baselineNote : Rule.string.Holds (get summary "baseline_note")
  counts : ∀ f ∈ ["closed_trades", "bars_elapsed", "num_open", "funding_gap_count"],
    Rule.nonnegInt.Holds (get summary f)
  amounts : ∀ f ∈ ["realized_net_pnl", "total_pnl", "max_drawdown"],
    Rule.numeric.Holds (get summary f)
  ratios : ∀ f ∈ ["winrate", "profit_factor", "expectancy"],
    Rule.nullOrNumeric.Holds (get summary f)
  openPositions : Rule.strList.Holds (get summary "open_positions")
  numOpen : ∀ symbols, get summary "open_positions" = .arr symbols →
    get summary "num_open" = .int symbols.length
  fundingGap : ∀ n, get summary "funding_gap_count" = .int n →
    get summary "funding_gap" = .bool (0 < n)

/--
The fields of a summary with another status.
-/
structure ValidOther (summary : JsonObject) (status : String) : Prop where
  strings : ∀ f ∈ fieldsOf stringFieldsByStatus status, Rule.string.Holds (get summary f)
  timestamps : ∀ f ∈ fieldsOf timestampFieldsByStatus status, Rule.timestamp.Holds (get summary f)
  phase : status = "RUNNING" →
    (Rule.enum ["preflight", "preflight_config_error"]).Holds (get summary "phase")
  watermark : status = "RUNNING" → ∀ v, summary.lookup "previous_watermark" = some v →
    Rule.emptyOrBarTs.Holds v
  failures : status = "CORRUPT_LEDGER" → ∃ failures, get summary "reconcile_failures" = .arr failures
    ∧ failures ≠ [] ∧ get summary "reconcile_failure_count" = .int failures.length
    ∧ Rule.strList.Holds (.arr failures)
  barsElapsed : status = "NO_ELIGIBLE_BARS_YET" → Rule.nonnegInt.Holds (get summary "bars_elapsed")

structure ValidSummary (summary : JsonObject) (status : String) : Prop where
  hasStatus : get summary "status" = .str status
  known : status ∈ knownSummaryStatuses
  schemaVersion : get summary "schema_version" = .int schemaVersion
  baselineLabel : get summary "baseline_label" = .str baselineLabel
  forwardStart : Rule.barTs.Holds (get summary "forward_start_ts")
    ∨ status = "RUNNING" ∧ get summary "phase" = .str "preflight_config_error"
      ∧ get summary "forward_start_ts" = .str "unknown"
  keys : HasKeys (requiredSummaryFields summary status) summary
  currentVerdict : Rule.string.Holds (get summary "current_verdict")
  disclaimer : Rule.string.Holds (get summary "disclaimer")
  fields : if status = "OK" then ValidOk summary else ValidOther summary status

theorem equalsStr_iff {s : String} {v : JsonValue} : equalsStr s v = true ↔ v = .str s := by
  cases v <;> simp [equalsStr]

theorem isBarTs_iff {v : JsonValue} : isBarTs v = true ↔ Rule.barTs.Holds v := by
  cases v <;> simp [isBarTs, Rule.Holds]

theorem strictInt_eq_some {v : JsonValue} {n : ℤ} : v.strictInt = some n ↔ v = .int n := by
  cases v <;> simp [JsonValue.strictInt]

/--
The count of the open symbols is compared with an integer and with nothing else.
-/
theorem numOpenAgrees_eq {symbols : List JsonValue} {n : ℤ}
    (hopen : get summary "open_positions" = .arr symbols) (hnum : get summary "num_open" = .int n)
    : numOpenAgrees summary = .ok (n = symbols.length) := by
  have hopen' : get summary "open_positions" ≠ .null := by
    rw [hopen]
    exact nofun
  have hnum' : get summary "num_open" ≠ .null := by
    rw [hnum]
    exact nofun
  rw [numOpenAgrees, item_eq_ok hopen', item_eq_ok hnum', hopen, hnum]
  simp [len, JsonValue.equalsInt, JsonValue.asInt]

theorem fundingGapAgrees_eq {b : Bool} {n : ℤ} (hgap : get summary "funding_gap" = .bool b)
    (hcount : get summary "funding_gap_count" = .int n)
    : fundingGapAgrees summary = .ok (b = decide (0 < n)) := by
  have hgap' : get summary "funding_gap" ≠ .null := by
    rw [hgap]
    exact nofun
  have hcount' : get summary "funding_gap_count" ≠ .null := by
    rw [hcount]
    exact nofun
  rw [fundingGapAgrees, item_eq_ok hgap', item_eq_ok hcount', hgap, hcount]
  simp [comparesToZero]

theorem phaseKnown_eq {s : String} (hphase : get summary "phase" = .str s)
    : phaseKnown summary = .ok (s ∈ ["preflight", "preflight_config_error"]) := by
  have hphase' : get summary "phase" ≠ .null := by
    rw [hphase]
    exact nofun
  rw [phaseKnown, item_eq_ok hphase', hphase]
  rfl

theorem validOk_of_holds (h : ∀ c ∈ okChecks summary, c.Holds) : ValidOk summary := by
  simp only [okChecks, ruleOf, List.forall_mem_append, List.forall_mem_cons, List.forall_mem_map,
    List.not_mem_nil, false_implies, implies_true, and_true, holds_rule, holds_test] at h
  obtain ⟨⟨⟨⟨hnote, hcounts⟩, hamounts⟩, hratios⟩, hopen, hgap, hnum, hagree⟩ := h
  have hintegers : ∀ f ∈ ["closed_trades", "bars_elapsed", "num_open", "funding_gap_count"],
      Rule.nonnegInt.Holds (get summary f) := by
    simpa only [List.forall_mem_cons, List.not_mem_nil, false_implies, implies_true, and_true]
      using hcounts
  exact {
    baselineNote := hnote
    counts := hintegers
    amounts := by
      simpa only [List.forall_mem_cons, List.not_mem_nil, false_implies, implies_true, and_true]
        using hamounts
    ratios := by
      simpa only [List.forall_mem_cons, List.not_mem_nil, false_implies, implies_true, and_true]
        using hratios
    openPositions := hopen
    numOpen := by
      intro symbols hsymbols
      obtain ⟨n, hn, -⟩ := hintegers "num_open" (by decide)
      rw [numOpenAgrees_eq hsymbols hn, Except.ok.injEq, decide_eq_true_eq] at hnum
      rw [hn, hnum]
    fundingGap := by
      intro n hn
      obtain ⟨b, hb⟩ := hgap
      rw [fundingGapAgrees_eq hb hn, Except.ok.injEq, decide_eq_true_eq] at hagree
      rw [hb, hagree]
  }

theorem failureCountAgrees_iff
    : failureCountAgrees summary = true ↔ ∃ failures,
        get summary "reconcile_failures" = .arr failures ∧ failures ≠ []
          ∧ get summary "reconcile_failure_count" = .int failures.length
          ∧ Rule.strList.Holds (.arr failures) := by
  rw [failureCountAgrees, Bool.and_eq_true, strList_iff]
  constructor
  . rintro ⟨hlist, hcount⟩
    obtain ⟨failures, hfailures, hitems⟩ := hlist
    rw [hfailures] at hcount
    simp only [Bool.and_eq_true, Bool.not_eq_true', List.isEmpty_eq_false_iff] at hcount
    obtain ⟨⟨hne, hint⟩, hequal⟩ := hcount
    refine ⟨failures, hfailures, hne, ?_, failures, rfl, hitems⟩
    cases hv : get summary "reconcile_failure_count" with
    | int n =>
      rw [hv] at hequal
      rw [JsonValue.int.injEq]
      simpa [JsonValue.equalsInt, JsonValue.asInt] using hequal
    | _ =>
      rw [hv] at hint
      cases hint
  . rintro ⟨failures, hfailures, hne, hcount, hlist⟩
    obtain ⟨items, hitems, hstr⟩ := hlist
    cases hitems
    refine ⟨⟨failures, hfailures, hstr⟩, ?_⟩
    rw [hfailures, hcount]
    simp [hne, nonnegInt, JsonValue.equalsInt, JsonValue.asInt]

theorem validOther_of_holds {status : String} (h : ∀ c ∈ otherChecks summary status, c.Holds)
    : ValidOther summary status := by
  simp only [otherChecks, ruleOf, List.forall_mem_append, List.forall_mem_map, holds_rule] at h
  obtain ⟨⟨hstrings, htimestamps⟩, hmore⟩ := h
  have hphase (hs : status = "RUNNING") : phaseKnown summary = .ok true := by
    rw [if_pos hs, List.forall_mem_cons, holds_test] at hmore
    exact hmore.1
  exact {
    strings := hstrings
    timestamps := htimestamps
    phase := by
      rintro rfl
      obtain ⟨s, hs, -⟩ := hstrings "phase" (by decide)
      have hknown := hphase rfl
      rw [phaseKnown_eq hs, Except.ok.injEq, decide_eq_true_eq] at hknown
      exact ⟨s, hknown, hs⟩
    watermark := by
      rintro rfl v hv
      rw [if_pos rfl, List.forall_mem_cons, hv] at hmore
      exact hmore.2 _ List.mem_cons_self
    failures := by
      rintro rfl
      rw [if_neg (by decide), if_pos rfl, List.forall_mem_singleton, holds_guard] at hmore
      exact failureCountAgrees_iff.mp hmore
    barsElapsed := by
      rintro rfl
      rw [if_neg (by decide), if_neg (by decide), if_pos rfl, List.forall_mem_singleton] at hmore
      exact hmore
  }

theorem validSummary_of_holds (h : ∀ c ∈ summaryChecks summary, c.Holds)
    : ∃ status, ValidSummary summary status := by
  simp only [summaryChecks, ruleOf, List.forall_mem_append, List.forall_mem_cons, List.not_mem_nil,
    false_implies, implies_true, and_true, holds_rule, holds_guard] at h
  obtain ⟨⟨hstatus, hschema, hlabel, hstart, hkeys, hverdict, hdisclaimer⟩, hfields⟩ := h
  obtain ⟨status, hknown, hstatus⟩ := hstatus
  have hread : (summary.str? "status").getD "" = status := by
    rw [JsonObject.str?, lookup_bind JsonValue.asStr rfl, hstatus]
    rfl
  rw [hread] at hstart hkeys hfields
  refine ⟨status, {
    hasStatus := hstatus
    known := hknown
    schemaVersion := strictInt_eq_some.mp (of_decide_eq_true hschema)
    baselineLabel := hlabel
    forwardStart := ?_
    keys := hasKeys_of_hasExactly hkeys
    currentVerdict := hverdict
    disclaimer := hdisclaimer
    fields := ?_
  }⟩
  . simpa [isPreflightConfigError, isBarTs_iff, equalsStr_iff, and_assoc] using hstart
  . split
    . next hok =>
      rw [if_pos hok] at hfields
      exact validOk_of_holds hfields
    . next hok =>
      rw [if_neg hok] at hfields
      exact validOther_of_holds hfields

theorem tame_of_mem_map {r : Rule} {fields : List String} {c : Check}
    (h : c ∈ fields.map (ruleOf summary r)) : c.Tame := by
  obtain ⟨f, -, rfl⟩ := List.mem_map.mp h
  exact tame_rule

/--
The guards of an `OK` summary come after the fields that they compare.
-/
theorem tame_of_reached_okChecks {c : Check} (h : Reached Check.Holds (okChecks summary) c)
    : c.Tame := by
  rw [okChecks] at h
  obtain h | ⟨hbefore, h⟩ := reached_append.mp h
  . have hmem := h.mem
    simp only [List.mem_append, List.mem_singleton] at hmem
    obtain ((rfl | hmem) | hmem) | hmem := hmem
    . exact tame_rule
    . exact tame_of_mem_map hmem
    . exact tame_of_mem_map hmem
    . exact tame_of_mem_map hmem
  . simp only [ruleOf, List.forall_mem_append, List.forall_mem_map, holds_rule] at hbefore
    obtain ⟨⟨⟨-, hcounts⟩, -⟩, -⟩ := hbefore
    obtain ⟨n, hn, -⟩ := hcounts "num_open" (by decide)
    obtain ⟨m, hm, -⟩ := hcounts "funding_gap_count" (by decide)
    simp only [ruleOf, reached_cons, reached_nil, and_false, or_false, holds_rule] at h
    obtain rfl | ⟨⟨symbols, hsymbols, -⟩, rfl | ⟨⟨b, hb⟩, rfl | ⟨-, rfl⟩⟩⟩ := h
    . exact tame_rule
    . exact tame_rule
    . exact ⟨_, numOpenAgrees_eq hsymbols hn⟩
    . exact ⟨_, fundingGapAgrees_eq hb hm⟩

theorem tame_of_reached_otherChecks {status : String} {c : Check}
    (h : Reached Check.Holds (otherChecks summary status) c) : c.Tame := by
  rw [otherChecks] at h
  obtain hfirst | ⟨hbefore, hrest⟩ := reached_append.mp h
  . obtain hmem | hmem := List.mem_append.mp hfirst.mem
    . exact tame_of_mem_map hmem
    . exact tame_of_mem_map hmem
  . clear h
    split at hrest
    . next hrunning =>
      subst hrunning
      simp only [ruleOf, List.forall_mem_append, List.forall_mem_map, holds_rule] at hbefore
      obtain ⟨s, hs, -⟩ := hbefore.1 "phase" (by decide)
      obtain rfl | ⟨-, hwatermark⟩ := reached_cons.mp hrest
      . exact ⟨_, phaseKnown_eq hs⟩
      . obtain ⟨v, -, rfl⟩ := Option.map_eq_some_iff.mp (Option.mem_toList.mp hwatermark.mem)
        exact tame_rule
    . have hmem := hrest.mem
      split at hmem
      . rw [List.mem_singleton] at hmem
        subst hmem
        exact tame_guard
      . split at hmem
        . rw [List.mem_singleton] at hmem
          subst hmem
          exact tame_rule
        . cases hmem

theorem tame_of_reached_summaryChecks {c : Check}
    (h : Reached Check.Holds (summaryChecks summary) c) : c.Tame := by
  rw [summaryChecks] at h
  obtain hfirst | ⟨-, hrest⟩ := reached_append.mp h
  . have hmem := hfirst.mem
    clear h hfirst
    revert c
    simp only [ruleOf, List.forall_mem_cons, List.not_mem_nil, false_implies, implies_true, tame_rule,
      tame_guard, and_true]
  . split at hrest
    . exact tame_of_reached_okChecks hrest
    . exact tame_of_reached_otherChecks hrest

end summary

section config

variable {config : JsonObject}

/--
A config that is accepted: its contract and its hash.
-/
structure ValidConfig (config : JsonObject) : Prop where
  contract : validateConfigContract config = true
  hash : get config "config_hash" = .str (configHash config)

theorem isEight_eq {v : JsonValue} (h : Rule.positive.Holds v) : isEight v = .ok (v.equalsInt 8) := by
  obtain ⟨q, hq, -⟩ := h
  cases v with
  | int n =>
    obtain ⟨_, hn, -⟩ := Option.map_eq_some_iff.mp hq
    simp [isEight, isNumber, isfinite, hn]
  | float r => rfl
  | _ => cases hq

/--
A field that passes a test of numbers is there.
-/
theorem lookup_of_number {obj : JsonObject} {key : String} {q : ℚ}
    (h : (get obj key).number = some q) : obj.lookup key = some (get obj key) := by
  refine lookup_eq_some fun hnull => ?_
  rw [hnull] at h
  cases h

theorem isPositive_of_holds {obj : JsonObject} {key : String}
    (h : Rule.positive.Holds (get obj key)) : obj.isPositive key = true := by
  obtain ⟨q, hq, hpos⟩ := h
  rw [JsonObject.isPositive, lookup_of_number hq, Option.any_some, JsonValue.isPositiveNumber, hq,
    Option.any_some]
  exact decide_eq_true hpos

theorem isNonneg_of_holds {obj : JsonObject} {key : String}
    (h : Rule.nonneg.Holds (get obj key)) : obj.isNonneg key = true := by
  obtain ⟨q, hq, hnonneg⟩ := h
  rw [JsonObject.isNonneg, lookup_of_number hq, Option.any_some, JsonValue.isNonnegNumber, hq,
    Option.any_some]
  exact decide_eq_true hnonneg

theorem str?_eq_some {obj : JsonObject} {key s : String}
    : obj.str? key = some s ↔ get obj key = .str s := by
  rw [JsonObject.str?, lookup_bind JsonValue.asStr rfl]
  cases get obj key <;> simp [JsonValue.asStr]

theorem validModel_of_holds {field type bps : String}
    (h : ∀ c ∈ modelChecks field type bps (get config field), c.Holds)
    : (config.obj? field).any (validModel type bps) = true := by
  rw [modelChecks, List.forall_mem_cons, List.forall_mem_singleton, holds_guard, holds_rule] at h
  obtain ⟨hmodel, hbps⟩ := h
  rw [JsonObject.obj?, lookup_bind JsonValue.asObj rfl]
  cases hv : get config field with
  | obj model =>
    rw [hv] at hmodel hbps
    have htype : JsonObject.str? model "type" = some type :=
      str?_eq_some.mpr (equalsStr_iff.mp hmodel)
    have hnonneg : JsonObject.isNonneg model bps = true := isNonneg_of_holds hbps
    rw [JsonValue.asObj, Option.any_some, validModel, htype, hnonneg]
    simp
  | _ =>
    rw [hv] at hmodel
    cases hmodel

theorem validFreshness_of_holds {freshness : JsonObject}
    (hpositive : ∀ f ∈ requiredFreshnessFields, Rule.positive.Holds (get freshness f))
    (height : isEight (get freshness "bar_interval_hours") = .ok true)
    (hskew : ∀ v, freshness.lookup "max_future_skew_hours" = some v → Rule.nonneg.Holds v)
    : validFreshness freshness = true := by
  have hinterval := hpositive "bar_interval_hours" (by decide)
  rw [isEight_eq hinterval, Except.ok.injEq] at height
  obtain ⟨q, hq, -⟩ := hinterval
  rw [validFreshness, Bool.and_eq_true, Bool.and_eq_true, List.all_eq_true, lookup_of_number hq,
    Option.any_some]
  refine ⟨⟨fun f hf => isPositive_of_holds (hpositive f hf), height⟩, ?_⟩
  cases hlookup : freshness.lookup "max_future_skew_hours" with
  | none => rw [JsonObject.has, hlookup, Option.isSome_none, Bool.not_false, Bool.true_or]
  | some v =>
    have hget : get freshness "max_future_skew_hours" = v := by rw [get, hlookup, Option.getD_some]
    have hnonneg := hskew v hlookup
    rw [← hget] at hnonneg
    rw [isNonneg_of_holds hnonneg, Bool.or_true]

theorem validConfig_of_holds (h : ∀ c ∈ configChecks config, c.Holds)
    : validateConfigContract config = true := by
  simp only [configChecks, List.forall_mem_append, List.forall_mem_cons, List.forall_mem_map,
    List.not_mem_nil, false_implies, implies_true, and_true, holds_rule, holds_guard] at h
  obtain ⟨⟨⟨⟨⟨⟨⟨hhead, hpositive⟩, height⟩, hskew⟩, hamounts⟩, hfee⟩, hslippage⟩, hlast⟩ := h
  obtain ⟨hfields, hschema, hengine, hlabel, hfresh, -⟩ := hhead
  obtain ⟨hfill, hsource, hfunding, hstart⟩ := hlast
  obtain ⟨freshness, hfresh⟩ := exists_of_asObj hfresh
  rw [hfresh] at hpositive height hskew
  have hfreshness : validFreshness freshness = true := by
    refine validFreshness_of_holds hpositive (holds_test.mp height) fun v hv => ?_
    apply hskew (.rule "max_future_skew_hours" .nonneg v)
    rw [fieldsOrNone, JsonValue.asObj, Option.getD_some, hv]
    exact List.mem_singleton_self _
  have hobj : config.obj? "freshness" = some freshness := by
    rw [JsonObject.obj?, lookup_bind JsonValue.asObj rfl, hfresh]
    rfl
  have hpositive : ["initial_equity_usd", "notional_usd", "leverage"].all config.isPositive = true := by
    rw [List.all_eq_true]
    simp only [List.forall_mem_cons, List.not_mem_nil, false_implies, implies_true, and_true]
    exact ⟨isPositive_of_holds hamounts.1, isPositive_of_holds hamounts.2.1,
      isPositive_of_holds hamounts.2.2⟩
  have hsv : config.strictInt? "schema_version" = some schemaVersion := by
    rw [JsonObject.strictInt?, lookup_bind JsonValue.strictInt rfl]
    exact of_decide_eq_true hschema
  have hfm : (config.obj? "funding_model").any validFundingModel = true := by
    rw [JsonObject.obj?, lookup_bind JsonValue.asObj rfl]
    exact hfunding
  have hfs : (config.str? "forward_start_ts").any validForwardStart = true := by
    rw [JsonObject.str?, lookup_bind JsonValue.asStr rfl]
    exact hstart
  rw [validateConfigContract, hfields, hsv, str?_eq_some.mpr hengine, str?_eq_some.mpr hlabel, hobj,
    Option.any_some, hfreshness, hpositive, validModel_of_holds hfee, validModel_of_holds hslippage,
    str?_eq_some.mpr hfill, str?_eq_some.mpr hsource, hfm, hfs]
  simp

theorem tame_of_mem_modelChecks {field type bps : String} {v : JsonValue} {c : Check}
    (h : c ∈ modelChecks field type bps v) : c.Tame := by
  rw [modelChecks, List.mem_cons, List.mem_singleton] at h
  obtain rfl | rfl := h
  . exact tame_guard
  . exact tame_rule

theorem tame_of_reached_configChecks {c : Check} (h : Reached Check.Holds (configChecks config) c)
    : c.Tame := by
  simp only [configChecks, reached_append, List.forall_mem_append, List.forall_mem_map,
    holds_rule] at h
  obtain ((((((hhead | ⟨-, hr⟩) | ⟨⟨-, hpositive⟩, hr⟩) | ⟨-, hr⟩) | ⟨-, hr⟩) | ⟨-, hr⟩) | ⟨-, hr⟩)
    | ⟨-, hr⟩ := h
  . have hmem := hhead.mem
    clear hhead
    revert c
    simp only [List.forall_mem_cons, List.not_mem_nil, false_implies, implies_true, tame_rule,
      tame_guard, and_true]
  . obtain ⟨f, -, rfl⟩ := List.mem_map.mp hr.mem
    exact tame_rule
  . rw [reached_cons] at hr
    obtain rfl | ⟨-, hr⟩ := hr
    . exact ⟨_, isEight_eq (hpositive "bar_interval_hours" (by decide))⟩
    . exact absurd hr reached_nil
  . obtain ⟨v, -, rfl⟩ := Option.map_eq_some_iff.mp (Option.mem_toList.mp hr.mem)
    exact tame_rule
  . obtain ⟨f, -, rfl⟩ := List.mem_map.mp hr.mem
    exact tame_rule
  . exact tame_of_mem_modelChecks hr.mem
  . exact tame_of_mem_modelChecks hr.mem
  . have hmem := hr.mem
    clear hr
    revert c
    simp only [List.forall_mem_cons, List.not_mem_nil, false_implies, implies_true, tame_rule,
      tame_guard, and_true]

end config

end PaperReader
end Quantbot
