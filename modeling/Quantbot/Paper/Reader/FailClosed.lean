import Quantbot.Paper.Reader.Artifacts
import Quantbot.Util.Avoids

/-!
What the readers of persisted artifacts guarantee of a value that they return, and when they raise
anything but their declared errors.
-/

namespace Quantbot
namespace PaperReader

def IsLedgerCorruption : ReadError → Prop
  | .ledgerCorruption _ _ => True
  | _ => False

def IsConfigContract : ReadError → Prop
  | .configContract _ => True
  | _ => False

/--
Any exception but the declared ones and the one of too deep a nesting.
-/
def Undeclared (declared : ReadError → Prop) (e : ReadError) : Prop :=
  e ≠ .escaped .recursionError ∧ ¬declared e

def FailsClosed {α : Type} (declared : ReadError → Prop) (x : Except ReadError α) : Prop :=
  Avoids (Undeclared declared) x

section rules

/--
What a value of a kind is.
-/
def Rule.Holds : Rule → JsonValue → Prop
  | numeric, v => ∃ q, v.number = some q
  | nonneg, v => ∃ q, v.number = some q ∧ 0 ≤ q
  | positive, v => ∃ q, v.number = some q ∧ 0 < q
  | nullOrNumeric, v => v = .null ∨ ∃ q, v.number = some q
  | nonnegInt, v => ∃ n : ℤ, v = .int n ∧ 0 ≤ n
  | string, v => ∃ s, v = .str s ∧ s ≠ ""
  | timestamp, v => ∃ s, v = .str s ∧ s ≠ "" ∧ parseableTimestamp s = true
  | barTs, v => ∃ s, v = .str s ∧ parseableBarTs s = true
  | emptyOrBarTs, v => ∃ s, v = .str s ∧ (s = "" ∨ parseableBarTs s = true)
  | strList, v => ∃ items, v = .arr items ∧ ∀ item ∈ items, ∃ s, item = .str s ∧ s ≠ ""
  | bool, v => ∃ b, v = .bool b
  | enum allowed, v => ∃ s ∈ allowed, v = .str s
  | known allowed, v => ∃ s ∈ allowed, v = .str s
  | literal s, v => v = .str s

/--
An integer beyond the doubles.
-/
def Huge (v : JsonValue) : Prop :=
  ∃ n, v = .int n ∧ floatOfInt n = none

def Unhashable (v : JsonValue) : Prop :=
  (∃ items, v = .arr items) ∨ ∃ fields, v = .obj fields

/--
An integer beyond the doubles where a number is expected, or a list or an object where one of some
words is expected.
-/
def Rule.Explodes : Rule → JsonValue → Prop
  | numeric, v => Huge v
  | nonneg, v => Huge v
  | positive, v => Huge v
  | nullOrNumeric, v => Huge v
  | enum _, v => Unhashable v
  | _, _ => False

/--
The three outcomes of a test.
-/
inductive Outcome (t : Except PyError Bool) (holds explodes : Prop) : Prop where
  | passes (ht : t = .ok true) (h : holds) (hx : ¬explodes)
  | refuses (ht : t = .ok false) (h : ¬holds) (hx : ¬explodes)
  | raises (e : PyError) (ht : t = .error e) (he : e ≠ .recursionError) (h : ¬holds)
    (hx : explodes)

theorem Outcome.congr {t : Except PyError Bool} {holds holds' explodes explodes' : Prop}
    (h : Outcome t holds explodes) (hholds : holds ↔ holds') (hexplodes : explodes ↔ explodes')
    : Outcome t holds' explodes' := by
  rw [← hholds, ← hexplodes]
  exact h

/--
A test that raises nothing.
-/
theorem outcome_of_bool {b : Bool} {holds : Prop} (h : b = true ↔ holds)
    : Outcome (.ok b) holds False := by
  cases b with
  | true => exact .passes rfl (h.mp rfl) id
  | false => exact .refuses rfl (fun hh => Bool.noConfusion (h.mpr hh)) id

theorem outcome_finiteNumber (v : JsonValue)
    : Outcome (finiteNumber v) (∃ q, v.number = some q) (Huge v) := by
  cases v with
  | int n =>
    cases hn : floatOfInt n with
    | none =>
      refine .raises .overflowError ?_ (by decide) ?_ ⟨n, rfl, hn⟩
      . simp only [finiteNumber, isNumber, isfinite, hn, Option.isSome_none, Bool.false_eq_true,
          if_false, if_true]
      . simp only [JsonValue.number, hn, Option.map_none, reduceCtorEq, exists_const,
          not_false_eq_true]
    | some q =>
      refine .passes ?_ ⟨n, ?_⟩ ?_
      . simp only [finiteNumber, isNumber, isfinite, hn, Option.isSome_some, if_true]
      . simp only [JsonValue.number, hn, Option.map_some]
      . rintro ⟨m, hm, hnone⟩
        cases hm
        rw [hn] at hnone
        cases hnone
  | float q =>
    refine .passes rfl ⟨q, rfl⟩ ?_
    rintro ⟨m, hm, -⟩
    cases hm
  | _ =>
    refine .refuses rfl ?_ ?_
    . rintro ⟨q, hq⟩
      cases hq
    . rintro ⟨m, hm, -⟩
      cases hm

/--
The comparison is of a number that has passed.
-/
theorem comparesToZero_of_number {p : ℚ → Bool} {v : JsonValue} {q : ℚ} (h : v.number = some q)
    : comparesToZero p v = .ok (p q) := by
  cases v with
  | int n =>
    obtain ⟨_, -, rfl⟩ := Option.map_eq_some_iff.mp h
    rfl
  | float r =>
    cases h
    rfl
  | _ => cases h

theorem outcome_boundedFinite (p : ℚ → Bool) (v : JsonValue)
    : Outcome (boundedFinite p v) (∃ q, v.number = some q ∧ p q = true) (Huge v) := by
  rw [boundedFinite]
  cases outcome_finiteNumber v with
  | passes ht h hx =>
    obtain ⟨q, hq⟩ := h
    rw [ht, ok_bind, if_pos rfl, comparesToZero_of_number hq]
    cases hp : p q with
    | true => exact .passes rfl ⟨q, hq, hp⟩ hx
    | false =>
      refine .refuses rfl ?_ hx
      rintro ⟨r, hr, hpr⟩
      rw [hq] at hr
      cases hr
      rw [hp] at hpr
      cases hpr
  | refuses ht h hx =>
    rw [ht, ok_bind, if_neg Bool.false_ne_true]
    exact .refuses rfl (fun ⟨q, hq, _⟩ => h ⟨q, hq⟩) hx
  | raises e ht he h hx =>
    rw [ht, error_bind]
    exact .raises e rfl he (fun ⟨q, hq, _⟩ => h ⟨q, hq⟩) hx

theorem outcome_inSet (allowed : List String) (v : JsonValue)
    : Outcome (inSet allowed v) (∃ s ∈ allowed, v = .str s) (Unhashable v) := by
  have hatom (h : ∀ items, v ≠ .arr items) (h' : ∀ fields, v ≠ .obj fields) : ¬Unhashable v := by
    rintro (⟨items, rfl⟩ | ⟨fields, rfl⟩)
    . exact h items rfl
    . exact h' fields rfl
  cases v with
  | arr items =>
    refine .raises .typeError rfl (by decide) ?_ (.inl ⟨items, rfl⟩)
    rintro ⟨s, -, hs⟩
    cases hs
  | obj fields =>
    refine .raises .typeError rfl (by decide) ?_ (.inr ⟨fields, rfl⟩)
    rintro ⟨s, -, hs⟩
    cases hs
  | str s =>
    have hx : ¬Unhashable (.str s) := hatom (fun _ h => by cases h) (fun _ h => by cases h)
    by_cases hs : s ∈ allowed
    . exact .passes (congrArg Except.ok (decide_eq_true hs)) ⟨s, hs, rfl⟩ hx
    . refine .refuses (congrArg Except.ok (decide_eq_false hs)) ?_ hx
      rintro ⟨s', hs', heq⟩
      cases heq
      exact hs hs'
  | _ =>
    refine .refuses rfl ?_ (hatom (fun _ h => by cases h) (fun _ h => by cases h))
    rintro ⟨s, -, hs⟩
    cases hs

theorem strList_iff (v : JsonValue)
    : strList v = true ↔ ∃ items, v = .arr items ∧ ∀ item ∈ items, ∃ s, item = .str s ∧ s ≠ "" := by
  have hitem (item : JsonValue) : nonemptyStr item = true ↔ ∃ s, item = .str s ∧ s ≠ "" := by
    cases item <;> simp [nonemptyStr]
  cases v with
  | arr items => simp [strList, hitem]
  | _ => simp [strList]

theorem outcome_rule (r : Rule) (v : JsonValue) : Outcome (r.test v) (r.Holds v) (r.Explodes v) := by
  cases r with
  | numeric => exact outcome_finiteNumber v
  | nonneg =>
    have houtcome := outcome_boundedFinite (fun q => 0 ≤ q) v
    simp only [decide_eq_true_eq] at houtcome
    exact houtcome
  | positive =>
    have houtcome := outcome_boundedFinite (fun q => 0 < q) v
    simp only [decide_eq_true_eq] at houtcome
    exact houtcome
  | nullOrNumeric =>
    by_cases hnull : v = .null
    . subst hnull
      refine .passes rfl (.inl rfl) ?_
      rintro ⟨n, hn, -⟩
      cases hn
    . have htest : Rule.nullOrNumeric.test v = finiteNumber v := by
        cases v with
        | null => exact absurd rfl hnull
        | _ => rfl
      have hholds : Rule.nullOrNumeric.Holds v = (v = .null ∨ ∃ q, v.number = some q) := rfl
      rw [htest, hholds]
      simp only [hnull, false_or]
      exact outcome_finiteNumber v
  | nonnegInt => exact outcome_of_bool (by cases v <;> simp [nonnegInt, Rule.Holds])
  | string => exact outcome_of_bool (by cases v <;> simp [nonemptyStr, Rule.Holds])
  | timestamp => exact outcome_of_bool (by cases v <;> simp [isTimestamp, Rule.Holds])
  | barTs => exact outcome_of_bool (by cases v <;> simp [isBarTs, Rule.Holds])
  | emptyOrBarTs => exact outcome_of_bool (by cases v <;> simp [equalsStr, isBarTs, Rule.Holds])
  | strList => exact outcome_of_bool (strList_iff v)
  | bool => exact outcome_of_bool (by cases v <;> simp [isBool, Rule.Holds])
  | enum allowed => exact outcome_inSet allowed v
  | known allowed =>
    refine outcome_of_bool ?_
    cases v <;> simp [equalsStr, Rule.Holds]
  | literal s => exact outcome_of_bool (by cases v <;> simp [equalsStr, Rule.Holds])

end rules

section checks

def Check.Holds : Check → Prop
  | rule _ r v => r.Holds v
  | every _ rules more => (∀ p ∈ rules, p.1.Holds p.2) ∧ more = true
  | guard _ test => test = .ok true

def Check.Explodes : Check → Prop
  | rule _ r v => r.Explodes v
  | every _ rules _ => ∃ p ∈ rules, p.1.Explodes p.2
  | guard _ _ => False

/--
A guard that raises nothing.
-/
def Check.Tame : Check → Prop
  | guard _ test => ∃ b, test = .ok b
  | _ => True

/--
No check that is reached meets a value that it cannot test.
-/
def Contained (checks : List Check) : Prop :=
  ∀ c, Reached Check.Holds checks c → ¬c.Explodes

/--
Both tests are made, whatever the first one gives.
-/
theorem Outcome.both {t t' : Except PyError Bool} {holds holds' explodes explodes' : Prop}
    (h : Outcome t holds explodes) (h' : Outcome t' holds' explodes')
    : Outcome (do .ok ((← t) && (← t'))) (holds ∧ holds') (explodes ∨ explodes') := by
  cases h with
  | raises e ht he h hx =>
    rw [ht, error_bind]
    exact .raises e rfl he (fun hh => h hh.1) (.inl hx)
  | passes ht h hx =>
    rw [ht, ok_bind]
    cases h' with
    | raises e ht' he h' hx' =>
      rw [ht', error_bind]
      exact .raises e rfl he (fun hh => h' hh.2) (.inr hx')
    | passes ht' h' hx' =>
      rw [ht', ok_bind]
      exact .passes rfl ⟨h, h'⟩ (not_or.mpr ⟨hx, hx'⟩)
    | refuses ht' h' hx' =>
      rw [ht', ok_bind]
      exact .refuses rfl (fun hh => h' hh.2) (not_or.mpr ⟨hx, hx'⟩)
  | refuses ht h hx =>
    rw [ht, ok_bind]
    cases h' with
    | raises e ht' he h' hx' =>
      rw [ht', error_bind]
      exact .raises e rfl he (fun hh => h' hh.2) (.inr hx')
    | passes ht' h' hx' =>
      rw [ht', ok_bind]
      exact .refuses rfl (fun hh => h hh.1) (not_or.mpr ⟨hx, hx'⟩)
    | refuses ht' h' hx' =>
      rw [ht', ok_bind]
      exact .refuses rfl (fun hh => h hh.1) (not_or.mpr ⟨hx, hx'⟩)

theorem outcome_every (field : String) (rules : List (Rule × JsonValue)) (more : Bool)
    : Outcome (Check.every field rules more).test (Check.every field rules more).Holds
        (Check.every field rules more).Explodes := by
  induction rules with
  | nil => exact outcome_of_bool (by simp [Check.Holds]) |>.congr Iff.rfl (by simp [Check.Explodes])
  | cons p rules ih =>
    have htest : (Check.every field (p :: rules) more).test
        = (do .ok ((← p.1.test p.2) && (← (Check.every field rules more).test))) := by
      simp only [Check.test, List.mapM_cons]
      cases p.1.test p.2 with
      | error e => rfl
      | ok b =>
        cases rules.mapM (fun p => p.1.test p.2) with
        | error e => rfl
        | ok bs => simp [Bool.and_assoc, pure, Except.pure]
    rw [htest]
    refine ((outcome_rule p.1 p.2).both ih).congr ?_ ?_
    . simp only [Check.Holds, List.forall_mem_cons, and_assoc]
    . simp only [Check.Explodes, List.exists_mem_cons_iff]

theorem outcome_check {c : Check} (h : c.Tame) : Outcome c.test c.Holds c.Explodes := by
  cases c with
  | rule field r v => exact outcome_rule r v
  | every field rules more => exact outcome_every field rules more
  | guard field test =>
    obtain ⟨b, rfl⟩ := h
    exact outcome_of_bool (by simp [Check.Holds])

theorem test_eq_true_iff (c : Check) : c.test = .ok true ↔ c.Holds := by
  have hiff {t : Except PyError Bool} {holds explodes : Prop} (h : Outcome t holds explodes)
      : t = .ok true ↔ holds := by
    cases h with
    | passes ht h hx => exact iff_of_true ht h
    | refuses ht h hx => exact iff_of_false (by rw [ht]; decide) h
    | raises e ht he h hx => exact iff_of_false (by rw [ht]; exact fun hh => by cases hh) h
  cases c with
  | rule field r v => exact hiff (outcome_rule r v)
  | every field rules more => exact hiff (outcome_every field rules more)
  | guard field test => exact Iff.rfl

variable {fail : String → ReadError} {checks : List Check}

theorem run_eq_ok_iff {c : Check} : c.run fail = .ok () ↔ c.Holds := by
  rw [← test_eq_true_iff, Check.run]
  cases c.test with
  | error e => exact iff_of_false (fun h => by cases h) (fun h => by cases h)
  | ok b => cases b <;> simp [Except.mapError]

/--
What has passed all its checks.
-/
theorem holds_of_runChecks (h : runChecks fail checks = .ok ()) : ∀ c ∈ checks, c.Holds :=
  fun _ hc => run_eq_ok_iff.mp (forM_ok h hc)

@[simp]
theorem holds_rule {field : String} {r : Rule} {v : JsonValue}
    : (Check.rule field r v).Holds ↔ r.Holds v :=
  Iff.rfl

@[simp]
theorem holds_guard {field : String} {b : Bool} : (Check.guard field (.ok b)).Holds ↔ b = true := by
  simp [Check.Holds]

theorem holds_test {field : String} {test : Except PyError Bool}
    : (Check.guard field test).Holds ↔ test = .ok true :=
  Iff.rfl

@[simp]
theorem tame_rule {field : String} {r : Rule} {v : JsonValue} : (Check.rule field r v).Tame :=
  trivial

@[simp]
theorem tame_every {field : String} {rules : List (Rule × JsonValue)} {more : Bool}
    : (Check.every field rules more).Tame :=
  trivial

@[simp]
theorem tame_guard {field : String} {b : Bool} : (Check.guard field (.ok b)).Tame :=
  ⟨b, rfl⟩

variable {declared : ReadError → Prop}

theorem failsClosed_run_iff {c : Check} (hfail : ∀ fault, declared (fail fault))
    (hescaped : ∀ e, ¬declared (.escaped e)) (htame : c.Tame)
    : FailsClosed declared (c.run fail) ↔ ¬c.Explodes := by
  rw [Check.run]
  cases outcome_check htame with
  | passes ht h hx =>
    rw [ht]
    exact iff_of_true (avoids_ok ()) hx
  | refuses ht h hx =>
    rw [ht]
    exact iff_of_true (avoids_error_iff.mpr fun hbad => hbad.2 (hfail c.field)) hx
  | raises e ht he h hx =>
    rw [ht]
    refine iff_of_false (fun hclosed => avoids_error_iff.mp hclosed ⟨?_, hescaped e⟩)
      (not_not_intro hx)
    intro heq
    cases heq
    exact he rfl

theorem failsClosed_runChecks_iff (hfail : ∀ fault, declared (fail fault))
    (hescaped : ∀ e, ¬declared (.escaped e)) (htame : ∀ c, Reached Check.Holds checks c → c.Tame)
    : FailsClosed declared (runChecks fail checks) ↔ Contained checks := by
  rw [FailsClosed, runChecks, avoids_forM_iff]
  simp only [run_eq_ok_iff]
  exact forall₂_congr fun c hc => failsClosed_run_iff hfail hescaped (htame c hc)

end checks

end PaperReader
end Quantbot
