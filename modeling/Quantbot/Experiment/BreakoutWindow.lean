import Quantbot.Experiment.Registry

/-!
What a breakout signal is compared with, and how far signals are apart, when a gate keeps some of the
bars from the strategy.
-/

namespace Quantbot
namespace Experiment

namespace RollingReturnBreakoutStrategy

variable (self : RollingReturnBreakoutStrategy)

/--
The bars that were let through, with their places in the list of all bars.
-/
def passed (inputs : List (Bool × Bar)) : List (ℕ × Bar) :=
  inputs.zipIdx.filterMap (fun x => if x.1.1 then some (x.2, x.1.2) else none)

/--
A run over bars of which some are kept from the strategy, with its answers and the state it ends in.
-/
inductive Ran : List (Bool × Bar) → List (Option Signal × State) → State → Prop where
  | start : Ran [] [] self.strategy.init
  | skip {inputs : List (Bool × Bar)} {rs : List (Option Signal × State)} {s : State} (bar : Bar)
    (h : Ran inputs rs s) : Ran (inputs ++ [(false, bar)]) (rs ++ [(none, s)]) s
  | pass {inputs : List (Bool × Bar)} {rs : List (Option Signal × State)} {s : State} (bar : Bar)
    (r : Option Signal × State) (h : Ran inputs rs s) (hr : self.onBar s bar = .ok r)
    : Ran (inputs ++ [(true, bar)]) (rs ++ [r]) r.2

def rollingReturn (currentClose pastClose : ℚ) : ℚ :=
  if pastClose ≠ 0 then (currentClose - pastClose) / pastClose else 0

/--
What one bar does to the hold, and what it emits.
-/
inductive Step (s : State) (bar : Bar) : Option Signal × State → Prop where
  /-- the direction stays what it was -/
  | stay (s' : State) (hprev : s'.prevDirection = s.prevDirection)
    (hsince : s'.barsSinceSignal = s.barsSinceSignal + 1) : Step s bar (none, s')
  /-- without a direction before, the first one is flat -/
  | firstFlat (s' : State) (hbefore : s.prevDirection = none) (hprev : s'.prevDirection = some .flat)
    (hsince : s'.barsSinceSignal = s.barsSinceSignal + 1) : Step s bar (none, s')
  /-- without a direction before, a signal -/
  | first (s' : State) (direction : Direction) (hflat : direction ≠ .flat)
    (hbefore : s.prevDirection = none) (hprev : s'.prevDirection = some direction)
    (hsince : s'.barsSinceSignal = 0) : Step s bar (some (self.signal bar direction), s')
  /-- a flip after the hold -/
  | flip (s' : State) (prev direction : Direction) (hne : direction ≠ prev)
    (hbefore : s.prevDirection = some prev) (hhold : self.minHoldBars ≤ s.barsSinceSignal + 1)
    (hprev : s'.prevDirection = some direction) (hsince : s'.barsSinceSignal = 0)
    : Step s bar (if direction ≠ .flat then some (self.signal bar direction) else none, s')
  /-- a second flat bar forgets the direction -/
  | reset (s' : State) (hbefore : s.prevDirection = some .flat) (hprev : s'.prevDirection = none)
    (hsince : s'.barsSinceSignal = 0) : Step s bar (none, s')

theorem onBar_answer {s : State} {bar : Bar} {r : Option Signal × State} (h : self.onBar s bar = .ok r)
    : r.2.bars = s.bars ++ [bar.close] ∧ self.Step s bar r
        ∧ ∀ sig, r.1 = some sig → ∃ direction, self.direction r.2.bars bar = .ok direction
          ∧ sig = self.signal bar direction := by
  unfold onBar at h
  dsimp only at h
  split at h
  . cases h
    exact ⟨rfl, .stay _ rfl rfl, fun sig hsig => by cases hsig⟩
  . obtain ⟨direction, hdirection, h⟩ := bind_eq_ok.mp h
    split at h
    . rename_i hbefore
      split at h
      . rename_i hflat
        cases h
        refine ⟨rfl, .first _ direction hflat hbefore rfl rfl, fun sig hsig => ?_⟩
        cases hsig
        exact ⟨direction, hdirection, rfl⟩
      . rename_i hflat
        rw [not_not] at hflat
        cases h
        exact ⟨rfl, .firstFlat _ hbefore (congrArg some hflat) rfl, fun sig hsig => by cases hsig⟩
    . rename_i prev hbefore
      split at h
      . rename_i hne
        split at h
        . rename_i hhold
          cases h
          refine ⟨rfl, .flip _ prev direction hne hbefore hhold rfl rfl, fun sig hsig => ?_⟩
          dsimp only at hsig
          split at hsig
          . cases hsig
            exact ⟨direction, hdirection, rfl⟩
          . cases hsig
        . cases h
          exact ⟨rfl, .stay _ rfl rfl, fun sig hsig => by cases hsig⟩
      . rename_i hsame
        rw [not_not] at hsame
        subst hsame
        split at h
        . rename_i hflat
          subst hflat
          cases h
          exact ⟨rfl, .reset _ hbefore rfl rfl, fun sig hsig => by cases hsig⟩
        . cases h
          exact ⟨rfl, .stay _ rfl rfl, fun sig hsig => by cases hsig⟩

/--
The direction of a close against one before.
-/
def compare (currentClose pastClose : ℚ) : Direction :=
  directionOf (if pastClose ≠ 0 then (currentClose - pastClose) / pastClose else 0)
    self.returnThreshold

theorem direction_ok {bars : List ℚ} {bar : Bar} {direction : Direction}
    (h : self.direction bars bar = .ok direction)
    : ∃ pastClose, pyIndex bars (-self.rollingReturnPeriod - 1) = .ok pastClose
        ∧ direction = self.compare bar.close pastClose := by
  obtain ⟨pastClose, hpast, h⟩ := bind_eq_ok.mp h
  cases h
  exact ⟨pastClose, hpast, rfl⟩

section window

variable {self} {inputs : List (Bool × Bar)} {rs : List (Option Signal × State)} {s : State}

theorem passed_append (inputs : List (Bool × Bar)) (x : Bool × Bar)
    : passed (inputs ++ [x]) = passed inputs ++ if x.1 then [(inputs.length, x.2)] else [] := by
  unfold passed
  rw [List.zipIdx_append, List.filterMap_append]
  obtain ⟨gate, bar⟩ := x
  cases gate <;> simp

theorem Ran.length_eq (h : self.Ran inputs rs s) : rs.length = inputs.length := by
  induction h with
  | start => rfl
  | skip bar _ ih => rw [List.length_append, List.length_append, ih]; rfl
  | pass bar r _ _ ih => rw [List.length_append, List.length_append, ih]; rfl

/--
The strategy remembers the closes that were let through.
-/
theorem Ran.bars_eq (h : self.Ran inputs rs s) : s.bars = (passed inputs).map (fun x => x.2.close) := by
  induction h with
  | start => rfl
  | skip bar _ ih => rw [passed_append, ih, if_neg Bool.false_ne_true, List.append_nil]
  | pass bar r _ hr ih =>
    rw [(onBar_answer self hr).1, passed_append, ih, if_pos rfl, List.map_append]
    rfl

theorem pyIndex_map {α β : Type} (f : α → β) {l : List α} {i : ℤ} {b : β}
    (h : pyIndex (l.map f) i = .ok b) : ∃ a, pyIndex l i = .ok a ∧ f a = b := by
  unfold pyIndex at h ⊢
  rw [List.length_map] at h
  dsimp only at h ⊢
  generalize (if i < 0 then i + (l.length : ℤ) else i) = place at h ⊢
  split at h
  . cases h
  . rename_i hplace
    rw [List.getElem?_map] at h
    rw [if_neg hplace]
    cases hget : l[place.toNat]? with
    | none =>
      rw [hget] at h
      cases h
    | some a =>
      rw [hget] at h
      cases h
      exact ⟨a, rfl, rfl⟩

/--
The place of the bar that the strategy looks back to, among all bars.
-/
def comparedBar (self : RollingReturnBreakoutStrategy) (inputs : List (Bool × Bar)) (k : ℕ)
    : Except PyError ℕ :=
  (pyIndex (passed (inputs.take (k + 1))) (-self.rollingReturnPeriod - 1)).map Prod.fst

/--
The bars from the lookback on were all let through.
-/
def LetThrough (inputs : List (Bool × Bar)) (period : ℤ) (k : ℕ) : Prop :=
  0 ≤ period ∧ ∀ j : ℕ, k - period ≤ j → j ≤ k → (inputs[j]?).map Prod.fst = some true

/--
Counting from the end, a bar that was let through is no later than its count, and as late only if all
bars after it were let through too.
-/
theorem passed_reverse {q : ℕ} {x : ℕ × Bar} (h : (passed inputs).reverse[q]? = some x)
    : x.1 + q + 1 ≤ inputs.length ∧ (inputs[x.1]?) = some (true, x.2)
        ∧ (x.1 + q + 1 = inputs.length ↔ ∀ j < inputs.length, inputs.length ≤ j + q + 1 →
            (inputs[j]?).map Prod.fst = some true) := by
  induction inputs using List.reverseRecOn generalizing q with
  | nil => simp [passed] at h
  | append_singleton inputs y ih =>
    obtain ⟨gate, bar⟩ := y
    have hlength : (inputs ++ [(gate, bar)]).length = inputs.length + 1 := by simp
    have hlast : (inputs ++ [(gate, bar)])[inputs.length]? = some (gate, bar) := by simp
    have hbefore {j : ℕ} (hj : j < inputs.length) : (inputs ++ [(gate, bar)])[j]? = inputs[j]? :=
      List.getElem?_append_left hj
    rw [passed_append] at h
    rw [hlength]
    cases gate with
    | false =>
      rw [if_neg Bool.false_ne_true, List.append_nil] at h
      obtain ⟨hle, hx, -⟩ := ih h
      refine ⟨by omega, by rw [hbefore (by omega), hx], iff_of_false (by omega) fun hall => ?_⟩
      have hfalse := hall inputs.length (by omega) (by omega)
      rw [hlast] at hfalse
      cases hfalse
    | true =>
      rw [if_pos rfl, List.reverse_append, List.reverse_singleton, List.singleton_append] at h
      cases q with
      | zero =>
        cases h
        refine ⟨by simp, hlast, iff_of_true rfl fun j hj hlate => ?_⟩
        have hj : j = inputs.length := by omega
        rw [hj, hlast]
        rfl
      | succ q =>
        rw [List.getElem?_cons_succ] at h
        obtain ⟨hle, hx, hiff⟩ := ih h
        refine ⟨by omega, by rw [hbefore (by omega), hx], ?_⟩
        rw [show x.1 + (q + 1) + 1 = inputs.length + 1 ↔ x.1 + q + 1 = inputs.length by omega, hiff]
        constructor
        . intro hall j hj hlate
          rcases Nat.lt_or_ge j inputs.length with hlt | hge
          . rw [hbefore hlt]
            exact hall j hlt (by omega)
          . rw [show j = inputs.length by omega, hlast]
            rfl
        . intro hall j hj hlate
          rw [← hbefore hj]
          exact hall j (by omega) (by omega)

/--
An index from the end is one into the reversed list.
-/
theorem pyIndex_reverse {α : Type} {l : List α} {p : ℤ} {a : α} (hp : 0 ≤ p)
    (h : pyIndex l (-p - 1) = .ok a) : l.reverse[p.toNat]? = some a := by
  unfold pyIndex at h
  dsimp only at h
  generalize hplace : (if -p - 1 < 0 then -p - 1 + (l.length : ℤ) else -p - 1) = place at h
  rw [if_pos (by omega)] at hplace
  split at h
  . cases h
  . split at h
    . rename_i a' hget
      cases h
      rw [List.getElem?_reverse (by omega), ← hget]
      congr 1
      omega
    . cases h

theorem pyIndex_mem {α : Type} {l : List α} {i : ℤ} {a : α} (h : pyIndex l i = .ok a) : a ∈ l := by
  unfold pyIndex at h
  dsimp only at h
  generalize (if i < 0 then i + (l.length : ℤ) else i) = place at h
  split at h
  . cases h
  . split at h
    . rename_i a' hget
      cases h
      exact List.mem_of_getElem? hget
    . cases h

theorem mem_passed {x : ℕ × Bar} (h : x ∈ passed inputs) : inputs[x.1]? = some (true, x.2) := by
  obtain ⟨q, hq⟩ := List.mem_iff_getElem?.mp (List.mem_reverse.mpr h)
  exact (passed_reverse hq).2.1

/--
The strategy looks back to the bar `period` places before exactly when nothing was kept from it in
between.
-/
theorem comparedBar_iff {k i : ℕ} (hk : k < inputs.length) (h : self.comparedBar inputs k = .ok i)
    : ((i : ℤ) = k - self.rollingReturnPeriod ↔ LetThrough inputs self.rollingReturnPeriod k) := by
  unfold comparedBar at h
  cases hindex : pyIndex (passed (inputs.take (k + 1))) (-self.rollingReturnPeriod - 1) with
  | error e =>
    rw [hindex] at h
    cases h
  | ok x =>
    rw [hindex] at h
    cases h
    have hlength : (inputs.take (k + 1)).length = k + 1 := by
      rw [List.length_take]
      omega
    have htake {j : ℕ} (hj : j < k + 1) : (inputs.take (k + 1))[j]? = inputs[j]? :=
      List.getElem?_take_of_lt hj
    unfold LetThrough
    by_cases hp : 0 ≤ self.rollingReturnPeriod
    . obtain ⟨hle, -, hiff⟩ := passed_reverse (pyIndex_reverse hp hindex)
      rw [hlength] at hle hiff
      rw [show ((x.1 : ℤ) = k - self.rollingReturnPeriod
          ↔ x.1 + self.rollingReturnPeriod.toNat + 1 = k + 1) by omega, hiff]
      constructor
      . intro hall
        refine ⟨hp, fun j hlow hhigh => ?_⟩
        rw [← htake (by omega)]
        exact hall j (by omega) (by omega)
      . rintro ⟨-, hall⟩ j hj hlate
        rw [htake hj]
        exact hall j (by omega) (by omega)
    . refine iff_of_false ?_ fun hlet => hp hlet.1
      have hmem := mem_passed (pyIndex_mem hindex)
      have hlt := (List.getElem?_eq_some_iff.mp hmem).1
      rw [hlength] at hlt
      omega

end window

section hold

variable {self} {inputs : List (Bool × Bar)} {rs : List (Option Signal × State)} {s : State}
  {r : Option Signal × State}

def signalAt (rs : List (Option Signal × State)) (k : ℕ) : Option Signal :=
  (rs[k]?).bind Prod.fst

/--
The direction that is held when a bar comes in.
-/
def directionBefore (rs : List (Option Signal × State)) (k : ℕ) : Option Direction :=
  ((none :: rs.map (fun r => r.2.prevDirection))[k]?).getD none

/--
A bar replaces one direction by another.
-/
def ChangeAt (rs : List (Option Signal × State)) (k : ℕ) : Prop :=
  ∃ d d', directionBefore rs k = some d ∧ directionBefore rs (k + 1) = some d' ∧ d ≠ d'

theorem signalAt_append {k : ℕ} (hk : k < rs.length) : signalAt (rs ++ [r]) k = signalAt rs k := by
  rw [signalAt, List.getElem?_append_left hk, signalAt]

theorem signalAt_last : signalAt (rs ++ [r]) rs.length = r.1 := by
  simp [signalAt]

theorem directionBefore_append {k : ℕ} (hk : k ≤ rs.length)
    : directionBefore (rs ++ [r]) k = directionBefore rs k := by
  rw [directionBefore, List.map_append, ← List.cons_append, List.getElem?_append_left, directionBefore]
  simp only [List.length_cons, List.length_map]
  omega

theorem directionBefore_last : directionBefore (rs ++ [r]) (rs.length + 1) = r.2.prevDirection := by
  simp [directionBefore]

theorem changeAt_append {k : ℕ} (hk : k < rs.length) : ChangeAt (rs ++ [r]) k ↔ ChangeAt rs k := by
  unfold ChangeAt
  rw [directionBefore_append (Nat.le_of_lt hk), directionBefore_append hk]

theorem lt_of_signalAt {k : ℕ} (h : (signalAt rs k).isSome) : k < rs.length := by
  by_contra hk
  rw [signalAt, List.getElem?_eq_none (by omega)] at h
  cases h

theorem lt_of_changeAt {k : ℕ} (h : ChangeAt rs k) : k < rs.length := by
  obtain ⟨d, d', -, hd', -⟩ := h
  by_contra hk
  rw [directionBefore, List.getElem?_eq_none (by simp; omega)] at hd'
  cases hd'

/--
What a bar may do while a direction is held.
-/
structure Holds (breakout : RollingReturnBreakoutStrategy) (s : State) (r : Option Signal × State)
    : Prop where
  since : r.2.barsSinceSignal ≤ 0 ∨ r.2.barsSinceSignal ≤ s.barsSinceSignal + 1
  signal : ∀ sig, r.1 = some sig → r.2.barsSinceSignal ≤ 0
    ∧ (∃ d, r.2.prevDirection = some d ∧ d ≠ .flat)
    ∧ (s.prevDirection = none ∨ breakout.minHoldBars ≤ s.barsSinceSignal + 1)
  change : ∀ d d', s.prevDirection = some d → r.2.prevDirection = some d' → d ≠ d' →
    r.2.barsSinceSignal ≤ 0 ∧ breakout.minHoldBars ≤ s.barsSinceSignal + 1
  keep : ∀ d, s.prevDirection = some d → d ≠ .flat →
    (∃ d', r.2.prevDirection = some d' ∧ d' ≠ .flat) ∨ breakout.minHoldBars ≤ s.barsSinceSignal + 1

theorem holds_skip : Holds self s (none, s) where
  since := .inr (by dsimp only; omega)
  signal := fun sig hsig => by cases hsig
  change := fun d d' hd hd' hne => absurd (Option.some.inj (hd.symm.trans hd')) hne
  keep := fun d hd hflat => .inl ⟨d, hd, hflat⟩

theorem Step.holds {bar : Bar} (h : self.Step s bar r) : Holds self s r := by
  cases h with
  | stay s' hprev hsince =>
    refine ⟨.inr (le_of_eq hsince), fun sig hsig => (by cases hsig), fun d d' hd hd' hne => ?_,
      fun d hd hflat => .inl ⟨d, hprev.trans hd, hflat⟩⟩
    exact absurd (Option.some.inj (hd.symm.trans (hprev.symm.trans hd'))) hne
  | firstFlat s' hbefore hprev hsince =>
    refine ⟨.inr (le_of_eq hsince), fun sig hsig => (by cases hsig), fun d d' hd => ?_, fun d hd => ?_⟩
    . cases hbefore.symm.trans hd
    . cases hbefore.symm.trans hd
  | first s' direction hflat hbefore hprev hsince =>
    refine ⟨.inl (le_of_eq hsince),
      fun sig _ => ⟨le_of_eq hsince, ⟨direction, hprev, hflat⟩, .inl hbefore⟩, fun d d' hd => ?_,
      fun d hd => ?_⟩
    . cases hbefore.symm.trans hd
    . cases hbefore.symm.trans hd
  | flip s' prev direction hne hbefore hhold hprev hsince =>
    refine ⟨.inl (le_of_eq hsince), fun sig hsig => ?_, fun d d' hd hd' hne' => ⟨le_of_eq hsince, hhold⟩,
      fun d hd hflat => .inr hhold⟩
    refine ⟨le_of_eq hsince, ⟨direction, hprev, fun hflat => ?_⟩, .inr hhold⟩
    dsimp only at hsig
    rw [if_neg (not_not.mpr hflat)] at hsig
    cases hsig
  | reset s' hbefore hprev hsince =>
    refine ⟨.inl (le_of_eq hsince), fun sig hsig => (by cases hsig), fun d d' hd hd' => ?_,
      fun d hd hflat => ?_⟩
    . cases hprev.symm.trans hd'
    . exact absurd (Option.some.inj (hd.symm.trans hbefore)) hflat

/--
How far apart the signals and the changes of direction of a run are, counted in all its bars.
-/
structure Held (breakout : RollingReturnBreakoutStrategy) (rs : List (Option Signal × State)) (s : State)
    : Prop where
  last : directionBefore rs rs.length = s.prevDirection
  since : ∀ i < rs.length, (signalAt rs i).isSome ∨ ChangeAt rs i →
    s.barsSinceSignal ≤ rs.length - 1 - i
  held : ∀ i < rs.length, (signalAt rs i).isSome →
    (∃ d, s.prevDirection = some d ∧ d ≠ .flat) ∨ breakout.minHoldBars ≤ rs.length - 1 - i
  signals : ∀ i j, i < j → j < rs.length → (signalAt rs i).isSome → (signalAt rs j).isSome →
    breakout.minHoldBars ≤ j - i
  changes : ∀ i j, i < j → j < rs.length → (signalAt rs i).isSome ∨ ChangeAt rs i → ChangeAt rs j →
    breakout.minHoldBars ≤ j - i

theorem Held.append (h : Held self rs s) (hr : Holds self s r) : Held self (rs ++ [r]) r.2 := by
  have hlength : (rs ++ [r]).length = rs.length + 1 := by simp
  have hbefore : directionBefore (rs ++ [r]) rs.length = s.prevDirection := by
    rw [directionBefore_append le_rfl, h.last]
  -- a change of direction at the new bar
  have hchange (hc : ChangeAt (rs ++ [r]) rs.length)
      : r.2.barsSinceSignal ≤ 0 ∧ self.minHoldBars ≤ s.barsSinceSignal + 1 := by
    obtain ⟨d, d', hd, hd', hne⟩ := hc
    rw [hbefore] at hd
    rw [directionBefore_last] at hd'
    exact hr.change d d' hd hd' hne
  have hevent {i : ℕ} (hi : i < rs.length)
      (he : (signalAt (rs ++ [r]) i).isSome ∨ ChangeAt (rs ++ [r]) i)
      : (signalAt rs i).isSome ∨ ChangeAt rs i := by
    rwa [signalAt_append hi, changeAt_append hi] at he
  refine ⟨?_, fun i hi he => ?_, fun i hi hsig => ?_, fun i j hij hj hi hsig => ?_,
    fun i j hij hj he hc => ?_⟩
  . rw [hlength, directionBefore_last]
  . rw [hlength] at hi ⊢
    push_cast
    rcases Nat.lt_or_eq_of_le (Nat.le_of_lt_succ hi) with hlt | rfl
    . have hsince := h.since i hlt (hevent hlt he)
      rcases hr.since with hreset | hcount <;> omega
    . rcases he with hsig | hc
      . rw [signalAt_last] at hsig
        obtain ⟨sig, hsig⟩ := Option.isSome_iff_exists.mp hsig
        have hreset := (hr.signal sig hsig).1
        omega
      . have hreset := (hchange hc).1
        omega
  . rw [hlength] at hi ⊢
    push_cast
    rcases Nat.lt_or_eq_of_le (Nat.le_of_lt_succ hi) with hlt | rfl
    . rw [signalAt_append hlt] at hsig
      rcases h.held i hlt hsig with ⟨d, hd, hflat⟩ | hhold
      . refine (hr.keep d hd hflat).imp_right fun hhold => ?_
        have hsince := h.since i hlt (.inl hsig)
        omega
      . exact .inr (by omega)
    . rw [signalAt_last] at hsig
      obtain ⟨sig, hsig⟩ := Option.isSome_iff_exists.mp hsig
      exact .inl (hr.signal sig hsig).2.1
  . rw [hlength] at hj
    rcases Nat.lt_or_eq_of_le (Nat.le_of_lt_succ hj) with hlt | rfl
    . rw [signalAt_append (hij.trans hlt)] at hi
      rw [signalAt_append hlt] at hsig
      exact h.signals i j hij hlt hi hsig
    . rw [signalAt_append hij] at hi
      rw [signalAt_last] at hsig
      obtain ⟨sig, hsig⟩ := Option.isSome_iff_exists.mp hsig
      have hsince := h.since i hij (.inl hi)
      rcases (hr.signal sig hsig).2.2 with hnone | hhold
      . rcases h.held i hij hi with ⟨d, hd, -⟩ | hhold
        . cases hnone.symm.trans hd
        . omega
      . omega
  . rw [hlength] at hj
    rcases Nat.lt_or_eq_of_le (Nat.le_of_lt_succ hj) with hlt | rfl
    . rw [changeAt_append hlt] at hc
      exact h.changes i j hij hlt (hevent (hij.trans hlt) he) hc
    . have hsince := h.since i hij (hevent hij he)
      have hhold := (hchange hc).2
      omega

theorem Ran.held (h : self.Ran inputs rs s) : Held self rs s := by
  induction h with
  | start =>
    exact ⟨rfl, fun i hi => absurd hi (Nat.not_lt_zero i), fun i hi => absurd hi (Nat.not_lt_zero i),
      fun i j _ hj => absurd hj (Nat.not_lt_zero j), fun i j _ hj => absurd hj (Nat.not_lt_zero j)⟩
  | skip bar _ ih => exact ih.append holds_skip
  | pass bar r _ hr ih => exact ih.append (onBar_answer self hr).2.1.holds

end hold

theorem Ran.traceFrom {inputs : List (Bool × Bar)} {rs ts : List (Option Signal × State)} {s : State}
    {bars : List Bar} (h : self.Ran inputs rs s) (ht : self.strategy.traceFrom s bars = .ok ts)
    : ∃ s', self.Ran (inputs ++ bars.map (true, ·)) (rs ++ ts) s' := by
  induction bars generalizing inputs rs s ts with
  | nil =>
    cases ht
    exact ⟨s, by rwa [List.map_nil, List.append_nil, List.append_nil]⟩
  | cons bar bars ih =>
    obtain ⟨r, rest, hr, hrest, rfl⟩ := self.strategy.traceFrom_cons_ok.mp ht
    obtain ⟨s', hran⟩ := ih (h.pass bar r hr) hrest
    exact ⟨s', by simpa [List.append_assoc] using hran⟩

/--
What the signals of a run look back to, and how far apart they are. `inputs` are all bars, each with
whether it was let through.
-/
structure Windowed (breakout : RollingReturnBreakoutStrategy) (inputs : List (Bool × Bar))
    (rs : List (Option Signal × State)) : Prop where
  /-- a signal compares its bar with one, and that is the bar of the lookback exactly when all bars
  since then were let through -/
  compared : ∀ k sig, signalAt rs k = some sig → ∃ i bar past, breakout.comparedBar inputs k = .ok i
    ∧ inputs[k]? = some (true, bar) ∧ inputs[i]? = some (true, past)
    ∧ sig.direction = some (breakout.compare bar.close past.close)
    ∧ ((i : ℤ) = k - breakout.rollingReturnPeriod ↔ LetThrough inputs breakout.rollingReturnPeriod k)
  signals : ∀ i j, i < j → (signalAt rs i).isSome → (signalAt rs j).isSome →
    breakout.minHoldBars ≤ j - i
  changes : ∀ i j, i < j → (signalAt rs i).isSome ∨ ChangeAt rs i → ChangeAt rs j →
    breakout.minHoldBars ≤ j - i

variable {self} in
theorem Ran.compared {inputs : List (Bool × Bar)} {rs : List (Option Signal × State)} {s : State}
    (h : self.Ran inputs rs s) {k : ℕ} {sig : Signal} (hsig : signalAt rs k = some sig)
    : ∃ i bar past, self.comparedBar inputs k = .ok i ∧ inputs[k]? = some (true, bar)
        ∧ inputs[i]? = some (true, past)
        ∧ sig.direction = some (self.compare bar.close past.close) := by
  -- a bar more leaves what stands before it as it was
  have hkeep {inputs : List (Bool × Bar)} (x : Bool × Bar) {k : ℕ} (hk : k < inputs.length)
      (h : ∃ i bar past, self.comparedBar inputs k = .ok i ∧ inputs[k]? = some (true, bar)
        ∧ inputs[i]? = some (true, past)
        ∧ sig.direction = some (self.compare bar.close past.close))
      : ∃ i bar past, self.comparedBar (inputs ++ [x]) k = .ok i
          ∧ (inputs ++ [x])[k]? = some (true, bar) ∧ (inputs ++ [x])[i]? = some (true, past)
          ∧ sig.direction = some (self.compare bar.close past.close) := by
    obtain ⟨i, bar, past, hi, hbar, hpast, hdirection⟩ := h
    refine ⟨i, bar, past, ?_, ?_, ?_, hdirection⟩
    . rw [comparedBar, List.take_append_of_le_length hk]
      exact hi
    . rw [List.getElem?_append_left hk, hbar]
    . rw [List.getElem?_append_left (List.getElem?_eq_some_iff.mp hpast).1, hpast]
  induction h with
  | start => cases hsig
  | skip bar h ih =>
    rename_i inputs rs s
    rcases Nat.lt_or_ge k rs.length with hlt | hge
    . rw [signalAt_append hlt] at hsig
      exact hkeep _ (h.length_eq ▸ hlt) (ih hsig)
    . rcases Nat.eq_or_lt_of_le hge with rfl | hgt
      . rw [signalAt_last] at hsig
        cases hsig
      . rw [signalAt, List.getElem?_eq_none (by simpa using hgt)] at hsig
        cases hsig
  | pass bar r h hr ih =>
    rename_i inputs rs s
    rcases Nat.lt_or_ge k rs.length with hlt | hge
    . rw [signalAt_append hlt] at hsig
      exact hkeep _ (h.length_eq ▸ hlt) (ih hsig)
    . rcases Nat.eq_or_lt_of_le hge with rfl | hgt
      . rw [signalAt_last] at hsig
        obtain ⟨-, -, hsignal⟩ := onBar_answer self hr
        obtain ⟨direction, hdirection, rfl⟩ := hsignal sig hsig
        obtain ⟨pastClose, hpast, rfl⟩ := direction_ok self hdirection
        rw [(h.pass bar r hr).bars_eq] at hpast
        obtain ⟨⟨i, past⟩, hindex, rfl⟩ := pyIndex_map _ hpast
        refine ⟨i, bar, past, ?_, ?_, mem_passed (pyIndex_mem hindex), rfl⟩
        . have hlength : (inputs ++ [(true, bar)]).length = rs.length + 1 := by
            rw [List.length_append, h.length_eq]
            rfl
          rw [comparedBar, List.take_of_length_le (le_of_eq hlength), hindex]
          rfl
        . rw [h.length_eq]
          simp
      . rw [signalAt, List.getElem?_eq_none (by simpa using hgt)] at hsig
        cases hsig

variable {self} in
theorem Ran.windowed {inputs : List (Bool × Bar)} {rs : List (Option Signal × State)} {s : State}
    (h : self.Ran inputs rs s) : self.Windowed inputs rs where
  compared := fun k sig hsig => by
    obtain ⟨i, bar, past, hi, hbar, hpast, hdirection⟩ := h.compared hsig
    exact ⟨i, bar, past, hi, hbar, hpast, hdirection,
      comparedBar_iff (List.getElem?_eq_some_iff.mp hbar).1 hi⟩
  signals := fun i j hij hi hj => h.held.signals i j hij (lt_of_signalAt hj) hi hj
  changes := fun i j hij he hc => h.held.changes i j hij (lt_of_changeAt hc) he hc

end RollingReturnBreakoutStrategy

namespace RegimeFilteredBreakoutStrategy

open RegimeFiltered (State)

variable (math : FloatMath) (self : RegimeFilteredBreakoutStrategy)

/--
Whether the gate lets a bar through to the breakout, with a window of bars that is an integer, and the
bars that it keeps.
-/
def gateInt (rfbBars : List Bar) (window : ℤ) : Except PyError (Bool × List Bar) := do
  let rfbBars :=
    if window + 1 < rfbBars.length then pySliceFrom rfbBars (-(window + 1)) else rfbBars
  if rfbBars.length < window then
    .ok (true, rfbBars)
  else
    let label ← computeTrendRegime (computeLogReturns math rfbBars) window self.trendThreshold
    let allowed ← memberOf label self.allowedTrendRegimes
    .ok (allowed, rfbBars)

def gateFloat (rfbBars : List Bar) (window : Sqlite.PyFloat) : Except PyError (Bool × List Bar) := do
  let n : ℚ := rfbBars.length
  match window with
  | .nan => .ok (true, rfbBars)
  | .infinity negative => if negative then .error .typeError else .ok (true, rfbBars)
  | .finite x =>
    if x + 1 < n then
      .error .typeError
    else if n < x then
      .ok (true, rfbBars)
    else if ((computeLogReturns math rfbBars).length : ℚ) < x then
      let _ ← numeric self.trendThreshold
      let allowed ← memberOf "unknown" self.allowedTrendRegimes
      .ok (allowed, rfbBars)
    else
      .error .typeError

/--
The gate for a bar that comes in. What it decides depends on the bars alone.
-/
def gateOf (rfbBars : List Bar) (bar : Bar) : Except PyError (Bool × List Bar) :=
  let rfbBars := rfbBars ++ [bar]
  match self.trendWindow with
  | .bool b => self.gateInt math rfbBars (if b then 1 else 0)
  | .int n => self.gateInt math rfbBars n
  | .float x => self.gateFloat math rfbBars (.finite x)
  | .nan => self.gateFloat math rfbBars .nan
  | .infinity negative => self.gateFloat math rfbBars (.infinity negative)
  | _ => .error .typeError

/--
The bars with the gate's decisions.
-/
def gated : List Bar → List Bar → Except PyError (List (Bool × Bar))
  | _, [] => .ok []
  | rfbBars, bar :: bars => do
    let g ← self.gateOf math rfbBars bar
    let rest ← gated g.2 bars
    .ok ((g.1, bar) :: rest)

/--
What the strategy answers once the gate has decided.
-/
def answer (s : State) (bar : Bar) (g : Bool × List Bar) : Except PyError (Option Signal × State) := do
  if g.1 then
    let r ← self.parent.onBar s.parent bar
    .ok (r.1, { parent := r.2, rfbBars := g.2 })
  else
    .ok (none, { s with rfbBars := g.2 })

theorem delegate_eq (s : State) (bar : Bar)
    : self.delegate s bar = self.answer s bar (true, s.rfbBars) := by
  rfl

theorem gate_eq (s : State) (bar : Bar) (label : String)
    : self.gate s bar label
        = (memberOf label self.allowedTrendRegimes
            >>= fun allowed => self.answer s bar (allowed, s.rfbBars)) := by
  unfold gate
  cases memberOf label self.allowedTrendRegimes with
  | error e => rfl
  | ok allowed => cases allowed <;> rfl

theorem onBarInt_eq (s : State) (bar : Bar) (window : ℤ)
    : self.onBarInt math s bar window
        = (self.gateInt math s.rfbBars window >>= fun g => self.answer s bar g) := by
  have hkept : (if window + 1 < s.rfbBars.length then
        { s with rfbBars := pySliceFrom s.rfbBars (-(window + 1)) }
      else
        s)
      = { s with rfbBars :=
          if window + 1 < s.rfbBars.length then
            pySliceFrom s.rfbBars (-(window + 1))
          else
            s.rfbBars } := by
    split <;> rfl
  unfold onBarInt gateInt
  dsimp only
  rw [hkept]
  generalize (if window + 1 < s.rfbBars.length then pySliceFrom s.rfbBars (-(window + 1))
    else s.rfbBars) = kept
  dsimp only
  split
  . rfl
  . cases computeTrendRegime (computeLogReturns math kept) window self.trendThreshold with
    | error e => rfl
    | ok label =>
      rw [ok_bind, ok_bind, gate_eq]
      cases memberOf label self.allowedTrendRegimes <;> rfl

theorem onBarFloat_eq (s : State) (bar : Bar) (window : Sqlite.PyFloat)
    : self.onBarFloat math s bar window
        = (self.gateFloat math s.rfbBars window >>= fun g => self.answer s bar g) := by
  unfold onBarFloat gateFloat
  cases window with
  | nan => rfl
  | infinity negative => cases negative <;> rfl
  | finite x =>
    dsimp only
    split
    . rfl
    . split
      . rfl
      . split
        . cases numeric self.trendThreshold with
          | error e => rfl
          | ok threshold =>
            rw [ok_bind, ok_bind, gate_eq]
            cases memberOf "unknown" self.allowedTrendRegimes <;> rfl
        . rfl

theorem onBar_eq (s : State) (bar : Bar)
    : self.onBar math s bar
        = (self.gateOf math s.rfbBars bar >>= fun g => self.answer s bar g) := by
  unfold onBar gateOf
  dsimp only
  cases self.trendWindow with
  | bool b => exact self.onBarInt_eq math _ bar _
  | int n => exact self.onBarInt_eq math _ bar n
  | float x => exact self.onBarFloat_eq math _ bar _
  | nan => exact self.onBarFloat_eq math _ bar _
  | infinity negative => exact self.onBarFloat_eq math _ bar _
  | null => rfl
  | str x => rfl
  | arr items => rfl
  | obj fields => rfl

/--
A run of the gated strategy is one of its breakout over the bars with the gate's decisions.
-/
theorem ran_traceFrom {inputs : List (Bool × Bar)}
    {rs : List (Option Signal × RollingReturnBreakoutStrategy.State)} {s : State} {bars : List Bar}
    {ts : List (Option Signal × State)} (h : self.parent.Ran inputs rs s.parent)
    (ht : (self.strategy math).traceFrom s bars = .ok ts)
    : ∃ gs s', self.gated math s.rfbBars bars = .ok gs
        ∧ self.parent.Ran (inputs ++ gs) (rs ++ ts.map (fun t => (t.1, t.2.parent))) s' := by
  induction bars generalizing inputs rs s ts with
  | nil =>
    cases ht
    exact ⟨[], s.parent, rfl, by rwa [List.map_nil, List.append_nil, List.append_nil]⟩
  | cons bar bars ih =>
    obtain ⟨t, rest, hstep, hrest, rfl⟩ := (self.strategy math).traceFrom_cons_ok.mp ht
    rw [show (self.strategy math).step s bar = self.onBar math s bar from rfl, onBar_eq] at hstep
    obtain ⟨⟨allowed, kept⟩, hgate, hanswer⟩ := bind_eq_ok.mp hstep
    have hgated {gs : List (Bool × Bar)} (hgs : self.gated math kept bars = .ok gs)
        : self.gated math s.rfbBars (bar :: bars) = .ok ((allowed, bar) :: gs) := by
      rw [gated, hgate, ok_bind, hgs, ok_bind]
    cases allowed with
    | true =>
      obtain ⟨r, hr, hanswer⟩ := bind_eq_ok.mp hanswer
      cases hanswer
      obtain ⟨gs, s', hgs, hran⟩ := ih (h.pass bar r hr) hrest
      exact ⟨(true, bar) :: gs, s', hgated hgs, by simpa [List.append_assoc] using hran⟩
    | false =>
      cases hanswer
      obtain ⟨gs, s', hgs, hran⟩ := ih (s := { s with rfbBars := kept }) (h.skip bar) hrest
      exact ⟨(false, bar) :: gs, s', hgated hgs, by simpa [List.append_assoc] using hran⟩

end RegimeFilteredBreakoutStrategy

/--
Signals and changes of direction keep their distance under every gate; a signal of the plain strategy
looks back over the bars that were fed, one of the gated strategy over those that were let through.
-/
theorem breakout_window (math : FloatMath) (plain : RollingReturnBreakoutStrategy)
    (filtered : RegimeFilteredBreakoutStrategy) (bars : List Bar)
    : (∀ rs, plain.strategy.trace bars = .ok rs → plain.Windowed (bars.map (true, ·)) rs)
      ∧ ∀ ts, (filtered.strategy math).trace bars = .ok ts →
          ∃ gs, filtered.gated math [] bars = .ok gs
            ∧ filtered.parent.Windowed gs (ts.map (fun t => (t.1, t.2.parent))) := by
  constructor
  . intro rs hrs
    obtain ⟨s', hran⟩ := RollingReturnBreakoutStrategy.Ran.traceFrom plain .start hrs
    exact hran.windowed
  . intro ts hts
    obtain ⟨gs, s', hgs, hran⟩ := filtered.ran_traceFrom math .start hts
    exact ⟨gs, hgs, hran.windowed⟩

section examples

def exampleBreakout : RollingReturnBreakoutStrategy where
  rollingReturnPeriod := 1
  returnThreshold := .finite (1 / 20)
  minHoldBars := 1
  confidence := .float (1 / 2)
  symbol := .str "TESTUSD"

def exampleFiltered : RegimeFilteredBreakoutStrategy where
  parent := exampleBreakout
  trendWindow := .int 1
  trendThreshold := .float (1 / 1000)
  allowedTrendRegimes := .arr [.str "uptrend"]

/--
The close doubles, stays and doubles again.
-/
def doublingTwice : List Bar :=
  [barClosing 1, barClosing 2, barClosing 2, barClosing 4]

theorem breakout_window_example
    : ∃ rs gs ts, exampleBreakout.strategy.trace doublingTwice = .ok rs
        ∧ (exampleFiltered.strategy sampleMath).trace doublingTwice = .ok ts
        ∧ exampleBreakout.Windowed (doublingTwice.map (true, ·)) rs
        ∧ exampleBreakout.Windowed gs (ts.map (fun t => (t.1, t.2.parent))) := by
  obtain ⟨rs, hrs, -⟩ := exists_ok_of_any
    (show (exampleBreakout.strategy.trace doublingTwice).toOption.any (fun _ => true)
      by decide +kernel)
  obtain ⟨ts, hts, -⟩ := exists_ok_of_any
    (show ((exampleFiltered.strategy sampleMath).trace doublingTwice).toOption.any (fun _ => true)
      by decide +kernel)
  have h := breakout_window sampleMath exampleBreakout exampleFiltered doublingTwice
  obtain ⟨gs, -, hgs⟩ := h.2 ts hts
  exact ⟨rs, gs, ts, hrs, hts, h.1 rs hrs, hgs⟩

/--
The signal of the last bar looks back to the bar before the one that was kept from the strategy.
-/
theorem lookback_over_suppressed_bar
    : ∃ ts gs, (exampleFiltered.strategy sampleMath).trace doublingTwice = .ok ts
        ∧ exampleFiltered.gated sampleMath [] doublingTwice = .ok gs
        ∧ ((ts[3]?).bind Prod.fst).isSome
        ∧ exampleBreakout.comparedBar gs 3 = .ok 1
        ∧ (1 : ℤ) ≠ 3 - exampleBreakout.rollingReturnPeriod := by
  obtain ⟨ts, hts, hsignal⟩ := exists_ok_of_any
    (show ((exampleFiltered.strategy sampleMath).trace doublingTwice).toOption.any
      (fun ts => ((ts[3]?).bind Prod.fst).isSome) by decide +kernel)
  obtain ⟨gs, hgs, hcompared⟩ := exists_ok_of_any
    (show (exampleFiltered.gated sampleMath [] doublingTwice).toOption.any
      (fun gs => (exampleBreakout.comparedBar gs 3).toOption = some 1) by decide +kernel)
  refine ⟨ts, gs, hts, hgs, hsignal, ?_, by decide⟩
  cases h : exampleBreakout.comparedBar gs 3 with
  | error e =>
    rw [h] at hcompared
    cases of_decide_eq_true hcompared
  | ok i =>
    rw [h] at hcompared
    cases of_decide_eq_true hcompared
    rfl

end examples

end Experiment
end Quantbot
