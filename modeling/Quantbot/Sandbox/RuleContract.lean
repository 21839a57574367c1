import Quantbot.Sandbox.Positions

/-!
The decisions of the sandbox against the formulas of its rule contract, over exact numbers.
-/

namespace Quantbot

namespace Sandbox

section specification

/--
`RULE_FORMULAS` over exact numbers.
-/
def ruleFormula (rule : Rule) (price funding : ℕ → ℚ) (t : ℕ) : ℤ :=
  match rule with
  | .alwaysFlat => 0
  | .alwaysLong => 1
  | .alwaysShort => -1
  | .laggedReturnSign lookback deadband =>
    let d := price (t - 1) - price (t - 1 - lookback.toNat)
    if t ≤ lookback.toNat then 0
    else if |d| ≤ deadband.value.toRat then 0
    else SignType.sign d
  | .laggedReturnFade lookback deadband =>
    let d := price (t - 1) - price (t - 1 - lookback.toNat)
    if t ≤ lookback.toNat then 0
    else if |d| ≤ deadband.value.toRat then 0
    else -SignType.sign d
  | .fundingSignFade deadband =>
    let g := funding (t - 1)
    if t = 0 then 0
    else if |g| ≤ deadband.value.toRat then 0
    else -SignType.sign g
  | .fundingCrowdingReversal lookback priceDeadband fundingDeadband =>
    let d := price (t - 1) - price (t - 1 - lookback.toNat)
    let g := funding (t - 1)
    if t ≤ lookback.toNat then 0
    else if fundingDeadband.value.toRat < g ∧ d < -priceDeadband.value.toRat then -1
    else if g < -fundingDeadband.value.toRat ∧ priceDeadband.value.toRat < d then 1
    else 0

/--
The number at an index of a path.
-/
def denoted (path : List Decimal) (i : ℕ) : ℚ :=
  (path.map Decimal.toRat).getD i 0

def total (l : List Decimal) : ℚ :=
  (l.map Decimal.toRat).sum

variable (prices funding : List Decimal) (rule : Rule)

/--
The absolute changes of the position, from flat on.
-/
def positionChanges (positions : List ℤ) : ℤ :=
  ((List.range positions.length).map (fun t => |positions.getD t 0 - previous positions t|)).sum

structure FollowsContract : Prop where
  formula : ∀ t, t ≤ prices.length → t ≤ funding.length →
    positionFor prices funding rule t = some (ruleFormula rule (denoted prices) (denoted funding) t)
  domain : ∀ t position, positionFor prices funding rule t = some position →
    position ∈ [-1, 0, 1]
  causal : ∀ t prices' funding', prices'.take t = prices.take t → funding'.take t = funding.take t →
    positionFor prices' funding' rule t = positionFor prices funding rule t
  active : ∀ a, accounts prices funding rule = some a →
    a.activeSlotCount = a.longSlotCount + a.shortSlotCount
  intervals : ∀ a, accounts prices funding rule = some a →
    a.activeSlotCount + a.flatSlotCount = prices.length - 1
  nets : ∀ a, accounts prices funding rule = some a →
    ∀ net price paid, Decimal.sum .zero a.nets = some net
      → Decimal.sum .zero a.priceComponents = some price
      → Decimal.sum .zero a.fundingComponents = some paid
      → net.toRat = price.toRat + paid.toRat
          - transactionCost.toRat * positionChanges a.positions

end specification

section condition

/--
The rounded size of a signal is on the same side of its deadband as the signal.
-/
def SameSide (signal : ℚ) (size : Option Decimal) (deadband : Deadband) : Prop :=
  ∃ r, size = some r ∧ (r.toRat ≤ deadband.value.toRat ↔ |signal| ≤ deadband.value.toRat)

variable (prices funding : List Decimal)

/--
The difference of two prices, the size of a signal and the negation of a deadband are rounded to 28
digits. No comparison with a deadband comes out differently because of it, and none of them
overflows.
-/
def Unmoved (rule : Rule) (t : ℕ) : Prop :=
  match rule with
  | .alwaysFlat => True
  | .alwaysLong => True
  | .alwaysShort => True
  | .laggedReturnSign lookback deadband =>
    lookback.toNat < t
      → SameSide (denoted prices (t - 1) - denoted prices (t - 1 - lookback.toNat))
          ((laggedChange prices lookback t).bind Decimal.abs) deadband
  | .laggedReturnFade lookback deadband =>
    lookback.toNat < t
      → SameSide (denoted prices (t - 1) - denoted prices (t - 1 - lookback.toNat))
          ((laggedChange prices lookback t).bind Decimal.abs) deadband
  | .fundingSignFade deadband =>
    0 < t → SameSide (denoted funding (t - 1)) (funding[t - 1]?.bind Decimal.abs) deadband
  | .fundingCrowdingReversal lookback priceDeadband fundingDeadband =>
    let d := denoted prices (t - 1) - denoted prices (t - 1 - lookback.toNat)
    let g := denoted funding (t - 1)
    let pd := priceDeadband.value
    let fd := fundingDeadband.value
    lookback.toNat < t → ∃ change, laggedChange prices lookback t = some change
      ∧ (fd.toRat < g → ∃ threshold, pd.minus = some threshold
          ∧ (change.toRat < threshold.toRat ↔ d < -pd.toRat)
          ∧ (d < -pd.toRat ∨ fd.minus ≠ none))
      ∧ (g ≤ fd.toRat → ∃ threshold, fd.minus = some threshold
          ∧ (g < threshold.toRat ∧ pd.toRat < change.toRat ↔ g < -fd.toRat ∧ pd.toRat < d))

end condition

section decisions

variable {prices funding : List Decimal} {t : ℕ}

theorem Deadband.nonneg (deadband : Deadband) : 0 ≤ deadband.value.toRat := by
  have h := deadband.nonnegative
  generalize deadband.value = d at h
  by_contra hneg
  rw [not_le, ← sign_eq_neg_one_iff, Decimal.sign_toRat] at hneg
  unfold Decimal.isNegative at h
  cases hnegative : d.negative <;> by_cases hcoeff : d.coeff = 0 <;> simp_all

theorem cast_sign_ne_zero {x : ℚ} (h : x ≠ 0) : (SignType.sign x : ℤ) ≠ 0 := by
  rcases lt_or_gt_of_ne h with hx | hx
  . rw [sign_neg hx]
    decide
  . rw [sign_pos hx]
    decide

theorem denoted_eq {path : List Decimal} {i : ℕ} {d : Decimal} (h : path[i]? = some d)
    : denoted path i = d.toRat := by
  rw [denoted, List.getD_eq_getElem?_getD, List.getElem?_map, h]
  rfl

theorem exists_get {path : List Decimal} {i : ℕ} (h : i < path.length) : ∃ d, path[i]? = some d :=
  ⟨path[i], List.getElem?_eq_getElem h⟩

/--
What is outside of its deadband after rounding keeps the sign it had.
-/
theorem outside_eq_iff {signal : ℚ} {value : Decimal} {deadband : Deadband}
    (hsign : value.toRat ≠ 0 → SignType.sign value.toRat = SignType.sign signal)
    : outside value deadband
          = some (if |signal| ≤ deadband.value.toRat then 0 else (SignType.sign signal : ℤ))
        ↔ SameSide signal value.abs deadband := by
  have hdeadband := deadband.nonneg
  have hsignal (h : ¬|signal| ≤ deadband.value.toRat) : signal ≠ 0 := by
    rintro rfl
    rw [abs_zero] at h
    exact h hdeadband
  unfold outside SameSide
  cases habs : value.abs with
  | none => simp
  | some r =>
    have hvalue (h : ¬r.toRat ≤ deadband.value.toRat) : value.toRat ≠ 0 := by
      intro hzero
      apply h
      rw [Decimal.toRat_finalize_of_zero habs (by rw [Decimal.toRat_abs, hzero, abs_zero])]
      exact hdeadband
    simp only [Option.bind_eq_bind, Option.bind_some, Option.pure_def, Option.some.injEq,
      exists_eq_left', Decimal.le_iff]
    by_cases hr : r.toRat ≤ deadband.value.toRat
    . rw [if_pos hr]
      split_ifs with hs
      . exact iff_of_true rfl (iff_of_true hr hs)
      . refine iff_of_false (cast_sign_ne_zero (hsignal hs)).symm fun h => hs (h.mp hr)
    . rw [if_neg hr, Decimal.sign_eq, hsign (hvalue hr)]
      split_ifs with hs
      . refine iff_of_false (cast_sign_ne_zero fun hzero => hvalue hr ?_) fun h => hr (h.mpr hs)
        have hsame := hsign (hvalue hr)
        rw [hzero, sign_zero, sign_eq_zero_iff] at hsame
        exact hsame
      . exact iff_of_true rfl (iff_of_false hr hs)

/--
Where the lookback has passed, the change of the price is the rounded difference.
-/
theorem laggedChange_spec {lookback : Lookback} (ht : lookback.toNat < t) (hlength : t ≤ prices.length)
    : ∃ a b, denoted prices (t - 1) = a.toRat ∧ denoted prices (t - 1 - lookback.toNat) = b.toRat
        ∧ laggedChange prices lookback t = Decimal.sub a b := by
  obtain ⟨a, ha⟩ := exists_get (show t - 1 < prices.length by omega)
  obtain ⟨b, hb⟩ := exists_get (show t - 1 - lookback.toNat < prices.length by omega)
  refine ⟨a, b, denoted_eq ha, denoted_eq hb, ?_⟩
  rw [laggedChange, ha, hb]
  rfl

theorem laggedPosition_eq_iff {lookback : Lookback} {deadband : Deadband} (hlength : t ≤ prices.length)
    : laggedPosition prices lookback deadband t
          = some (ruleFormula (.laggedReturnSign lookback deadband) (denoted prices)
              (denoted funding) t)
        ↔ Unmoved prices funding (.laggedReturnSign lookback deadband) t := by
  unfold laggedPosition ruleFormula Unmoved
  dsimp only
  by_cases ht : t ≤ lookback.toNat
  . rw [if_pos ht, if_pos ht]
    exact iff_of_true rfl fun h => absurd h (Nat.not_lt.mpr ht)
  . rw [if_neg ht, if_neg ht]
    have hlt := Nat.lt_of_not_le ht
    obtain ⟨a, b, ha, hb, hchange⟩ := laggedChange_spec hlt hlength
    rw [hchange, ha, hb]
    cases hsub : Decimal.sub a b with
    | none => simp [SameSide, hlt]
    | some value =>
      refine (outside_eq_iff (Decimal.sign_sub hsub)).trans ?_
      exact ⟨fun h _ => h, fun h => h hlt⟩

theorem map_neg_eq_iff {o : Option ℤ} {n : ℤ}
    : o.map (fun position => -position) = some (-n) ↔ o = some n := by
  cases o with
  | none => simp
  | some m => simp

theorem ruleFormula_fade (lookback : Lookback) (deadband : Deadband) (price funding : ℕ → ℚ) (t : ℕ)
    : ruleFormula (.laggedReturnFade lookback deadband) price funding t
        = -ruleFormula (.laggedReturnSign lookback deadband) price funding t := by
  simp only [ruleFormula]
  split_ifs <;> simp

/--
A threshold that is the negation of a deadband does not become positive.
-/
theorem threshold_nonpos {deadband : Deadband} {threshold : Decimal}
    (h : deadband.value.minus = some threshold) : threshold.toRat ≤ 0 := by
  have hdeadband := deadband.nonneg
  by_contra hpos
  rw [not_le] at hpos
  have hsign := Decimal.sign_minus h hpos.ne'
  rw [sign_pos hpos, eq_comm, sign_eq_one_iff] at hsign
  linarith

theorem crowdingPosition_eq_iff {lookback : Lookback} {priceDeadband fundingDeadband : Deadband}
    (hfunding : t ≤ funding.length)
    : crowdingPosition prices funding lookback priceDeadband fundingDeadband t
          = some (ruleFormula (.fundingCrowdingReversal lookback priceDeadband fundingDeadband)
              (denoted prices) (denoted funding) t)
        ↔ Unmoved prices funding
            (.fundingCrowdingReversal lookback priceDeadband fundingDeadband) t := by
  unfold crowdingPosition crowdedLong ruleFormula Unmoved
  dsimp only
  by_cases ht : t ≤ lookback.toNat
  . rw [if_pos ht, if_pos ht]
    exact iff_of_true rfl fun h => absurd h (Nat.not_lt.mpr ht)
  . rw [if_neg ht, if_neg ht]
    have hlt := Nat.lt_of_not_le ht
    obtain ⟨prior, hprior⟩ := exists_get (show t - 1 < funding.length by omega)
    rw [denoted_eq hprior, hprior]
    generalize denoted prices (t - 1) - denoted prices (t - 1 - lookback.toNat) = d
    have hnonneg := fundingDeadband.nonneg
    cases laggedChange prices lookback t with
    | none => simp [hlt]
    | some change =>
      simp only [Option.bind_eq_bind, Option.bind_some, Option.some.injEq, exists_eq_left', hlt,
        true_implies]
      by_cases hcrowded : fundingDeadband.value.toRat < prior.toRat
      . have hnotShort : ¬prior.toRat < -fundingDeadband.value.toRat := by linarith
        rw [if_pos (Decimal.lt_iff.mpr hcrowded)]
        simp only [hcrowded, true_implies, true_and, not_le.mpr hcrowded, false_implies, and_true,
          hnotShort, false_and, if_false]
        cases hthreshold : priceDeadband.value.minus with
        | none => simp
        | some threshold =>
          simp only [Option.map_some, Option.bind_some, Decimal.lt_iff, Option.some.injEq,
            exists_eq_left']
          by_cases hchange : change.toRat < threshold.toRat
          . rw [if_pos hchange]
            by_cases hd : d < -priceDeadband.value.toRat <;> simp [hchange, hd]
          . rw [if_neg hchange]
            cases hminus : fundingDeadband.value.minus with
            | none =>
              by_cases hd : d < -priceDeadband.value.toRat <;> simp [hchange, hd]
            | some bound =>
              -- crowded longs are no crowded shorts, whatever the rounding
              have hbound : ¬prior.lt bound = true := by
                rw [Decimal.lt_iff]
                have hnonpos := threshold_nonpos hminus
                linarith
              by_cases hd : d < -priceDeadband.value.toRat <;> simp [hchange, hd, hbound]
      . have hle : prior.toRat ≤ fundingDeadband.value.toRat := not_lt.mp hcrowded
        rw [if_neg (fun h => hcrowded (Decimal.lt_iff.mp h))]
        simp only [hcrowded, hle, true_implies, false_implies, true_and, false_and, if_false]
        cases fundingDeadband.value.minus with
        | none => simp
        | some threshold =>
          simp only [Option.map_some, Option.some.injEq, exists_eq_left', Bool.and_eq_true,
            Decimal.lt_iff]
          split_ifs with hrounded hexact hexact
          . exact iff_of_true rfl (iff_of_true hrounded hexact)
          . exact iff_of_false (by decide) fun h => hexact (h.mp hrounded)
          . exact iff_of_false (by decide) fun h => hrounded (h.mpr hexact)
          . exact iff_of_true rfl (iff_of_false hrounded hexact)

/--
A decision follows the formula exactly when rounding does not move its comparisons.
-/
theorem positionFor_eq_iff {rule : Rule} (hprices : t ≤ prices.length) (hfunding : t ≤ funding.length)
    : positionFor prices funding rule t
          = some (ruleFormula rule (denoted prices) (denoted funding) t)
        ↔ Unmoved prices funding rule t := by
  cases rule with
  | alwaysFlat => exact iff_of_true rfl trivial
  | alwaysLong => exact iff_of_true rfl trivial
  | alwaysShort => exact iff_of_true rfl trivial
  | laggedReturnSign lookback deadband => exact laggedPosition_eq_iff hprices
  | laggedReturnFade lookback deadband =>
    rw [ruleFormula_fade, positionFor, map_neg_eq_iff]
    exact laggedPosition_eq_iff hprices
  | fundingSignFade deadband =>
    unfold positionFor ruleFormula Unmoved
    dsimp only
    by_cases ht : t = 0
    . rw [if_pos ht, if_pos ht]
      exact iff_of_true rfl fun h => absurd ht h.ne'
    . rw [if_neg ht, if_neg ht]
      obtain ⟨prior, hprior⟩ := exists_get (show t - 1 < funding.length by omega)
      rw [denoted_eq hprior, hprior]
      have hnegated : (if |prior.toRat| ≤ deadband.value.toRat then (0 : ℤ)
            else -(SignType.sign prior.toRat : ℤ))
          = -(if |prior.toRat| ≤ deadband.value.toRat then 0 else (SignType.sign prior.toRat : ℤ)) := by
        split_ifs <;> simp
      rw [hnegated, Option.bind_eq_bind, Option.bind_some, map_neg_eq_iff]
      refine (outside_eq_iff fun _ => rfl).trans ?_
      exact ⟨fun h _ => h, fun h => h (Nat.pos_of_ne_zero ht)⟩
  | fundingCrowdingReversal lookback priceDeadband fundingDeadband =>
    exact crowdingPosition_eq_iff hfunding


theorem mem_domain_of_sign (x : ℚ) : (SignType.sign x : ℤ) ∈ ([-1, 0, 1] : List ℤ) := by
  cases SignType.sign x <;> decide

theorem mem_domain_of_neg {n : ℤ} (h : n ∈ ([-1, 0, 1] : List ℤ)) : -n ∈ ([-1, 0, 1] : List ℤ) := by
  simp only [List.mem_cons, List.not_mem_nil, or_false] at h ⊢
  omega

theorem outside_mem_domain {signal : Decimal} {deadband : Deadband} {n : ℤ}
    (h : outside signal deadband = some n) : n ∈ ([-1, 0, 1] : List ℤ) := by
  obtain ⟨size, _, h⟩ := Option.bind_eq_some_iff.mp h
  cases h
  split
  . decide
  . rw [Decimal.sign_eq]
    exact mem_domain_of_sign _

theorem laggedPosition_mem_domain {lookback : Lookback} {deadband : Deadband} {n : ℤ}
    (h : laggedPosition prices lookback deadband t = some n) : n ∈ ([-1, 0, 1] : List ℤ) := by
  unfold laggedPosition at h
  split at h
  . cases h
    decide
  . obtain ⟨value, _, h⟩ := Option.bind_eq_some_iff.mp h
    exact outside_mem_domain h

theorem positionFor_mem_domain {rule : Rule} {n : ℤ} (h : positionFor prices funding rule t = some n)
    : n ∈ ([-1, 0, 1] : List ℤ) := by
  cases rule with
  | alwaysFlat =>
    cases h
    decide
  | alwaysLong =>
    cases h
    decide
  | alwaysShort =>
    cases h
    decide
  | laggedReturnSign lookback deadband => exact laggedPosition_mem_domain h
  | laggedReturnFade lookback deadband =>
    obtain ⟨position, hposition, rfl⟩ := Option.map_eq_some_iff.mp h
    exact mem_domain_of_neg (laggedPosition_mem_domain hposition)
  | fundingSignFade deadband =>
    unfold positionFor at h
    dsimp only at h
    split at h
    . cases h
      decide
    . obtain ⟨prior, _, h⟩ := Option.bind_eq_some_iff.mp h
      obtain ⟨position, hposition, rfl⟩ := Option.map_eq_some_iff.mp h
      exact mem_domain_of_neg (outside_mem_domain hposition)
  | fundingCrowdingReversal lookback priceDeadband fundingDeadband =>
    unfold positionFor crowdingPosition at h
    dsimp only at h
    split at h
    . cases h
      decide
    . obtain ⟨change, _, h⟩ := Option.bind_eq_some_iff.mp h
      obtain ⟨prior, _, h⟩ := Option.bind_eq_some_iff.mp h
      obtain ⟨crowdedLong, _, h⟩ := Option.bind_eq_some_iff.mp h
      split at h
      . cases h
        decide
      . obtain ⟨threshold, _, rfl⟩ := Option.map_eq_some_iff.mp h
        split <;> decide

theorem getElem?_of_take_eq {path path' : List Decimal} {i : ℕ} (h : path'.take t = path.take t)
    (hi : i < t) : path'[i]? = path[i]? := by
  rw [← List.getElem?_take_of_lt hi, h, List.getElem?_take_of_lt hi]

/--
A decision reads no observation from its own interval on.
-/
theorem positionFor_causal {rule : Rule} {prices' funding' : List Decimal}
    (hprices : prices'.take t = prices.take t) (hfunding : funding'.take t = funding.take t)
    : positionFor prices' funding' rule t = positionFor prices funding rule t := by
  have hchange {lookback : Lookback} (ht : ¬t ≤ lookback.toNat)
      : laggedChange prices' lookback t = laggedChange prices lookback t := by
    unfold laggedChange
    rw [getElem?_of_take_eq hprices (by omega), getElem?_of_take_eq hprices (by omega)]
  have hlagged (lookback : Lookback) (deadband : Deadband)
      : laggedPosition prices' lookback deadband t = laggedPosition prices lookback deadband t := by
    unfold laggedPosition
    split
    . rfl
    next ht => rw [hchange ht]
  cases rule with
  | alwaysFlat => rfl
  | alwaysLong => rfl
  | alwaysShort => rfl
  | laggedReturnSign lookback deadband => exact hlagged lookback deadband
  | laggedReturnFade lookback deadband =>
    exact congrArg (Option.map fun position => -position) (hlagged lookback deadband)
  | fundingSignFade deadband =>
    unfold positionFor
    dsimp only
    split
    . rfl
    . rw [getElem?_of_take_eq hfunding (by omega)]
  | fundingCrowdingReversal lookback priceDeadband fundingDeadband =>
    unfold positionFor crowdingPosition
    dsimp only
    split
    . rfl
    next ht => rw [hchange ht, getElem?_of_take_eq hfunding (by omega)]

end decisions

section accounts

variable {prices funding : List Decimal} {rule : Rule} {a : Accounts}

/--
What the accounts of a run are made of.
-/
structure AccountsSpec (prices funding : List Decimal) (rule : Rule) (a : Accounts) : Prop where
  positions : List.Forall₂ (fun t position => positionFor prices funding rule t = some position)
    (List.range (prices.length - 1)) a.positions
  costs : List.Forall₂ (fun t cost => costComponent a.positions t = some cost)
    (List.range a.positions.length) a.costs

theorem accounts_spec (h : accounts prices funding rule = some a)
    : AccountsSpec prices funding rule a := by
  obtain ⟨positions, hpositions, h⟩ := Option.bind_eq_some_iff.mp h
  obtain ⟨priceComponents, _, h⟩ := Option.bind_eq_some_iff.mp h
  obtain ⟨fundingComponents, _, h⟩ := Option.bind_eq_some_iff.mp h
  obtain ⟨costs, hcosts, h⟩ := Option.bind_eq_some_iff.mp h
  obtain ⟨nets, _, h⟩ := Option.bind_eq_some_iff.mp h
  cases h
  exact ⟨mapM_eq_some hpositions, mapM_eq_some hcosts⟩

theorem AccountsSpec.domain (h : AccountsSpec prices funding rule a)
    : ∀ position ∈ a.positions, position ∈ ([-1, 0, 1] : List ℤ) := by
  intro position hmem
  obtain ⟨t, _, ht⟩ := forall₂_mem_right h.positions hmem
  exact positionFor_mem_domain ht

theorem count_domain {l : List ℤ} (h : ∀ n ∈ l, n ∈ ([-1, 0, 1] : List ℤ))
    : l.count 1 + l.count (-1) + l.count 0 = l.length := by
  induction l with
  | nil => rfl
  | cons n l ih =>
    have hl := ih fun m hm => h m (List.mem_cons_of_mem _ hm)
    have hn := h n List.mem_cons_self
    simp only [List.mem_cons, List.not_mem_nil, or_false] at hn
    rcases hn with rfl | rfl | rfl <;> simp <;> omega

theorem AccountsSpec.intervals (h : AccountsSpec prices funding rule a)
    : a.activeSlotCount + a.flatSlotCount = prices.length - 1 := by
  have hlength := h.positions.length_eq
  rw [List.length_range] at hlength
  rw [hlength]
  exact count_domain h.domain

theorem mul_transactionCost {n : ℕ} (h : n ≤ 2)
    : Decimal.mul transactionCost (.ofInt n) = some ⟨false, n, -3⟩ := by
  have hcases : n = 0 ∨ n = 1 ∨ n = 2 := by omega
  rcases hcases with rfl | rfl | rfl <;> decide +kernel

/--
A cost is exact, since a position changes by two at most.
-/
theorem AccountsSpec.cost (h : AccountsSpec prices funding rule a) {t : ℕ} {cost : Decimal}
    (hcost : costComponent a.positions t = some cost)
    : cost.toRat = transactionCost.toRat
        * ((|a.positions.getD t 0 - previous a.positions t| : ℤ) : ℚ) := by
  have hpoint (i : ℕ) : a.positions.getD i 0 ∈ ([-1, 0, 1] : List ℤ) := by
    rw [List.getD_eq_getElem?_getD]
    cases hget : a.positions[i]? with
    | none => decide
    | some position => exact h.domain position (List.mem_of_getElem? hget)
  have hprevious : previous a.positions t ∈ ([-1, 0, 1] : List ℤ) := by
    unfold previous
    split
    . decide
    . exact hpoint (t - 1)
  obtain ⟨position, hposition, hmul⟩ := Option.bind_eq_some_iff.mp hcost
  have hnow := hpoint t
  rw [List.getD_eq_getElem?_getD, hposition, Option.getD_some] at hnow ⊢
  generalize previous a.positions t = before at hprevious hmul ⊢
  simp only [List.mem_cons, List.not_mem_nil, or_false] at hnow hprevious
  have hle : |position - before| ≤ 2 := abs_le.mpr ⟨by omega, by omega⟩
  obtain ⟨n, hchange⟩ := Int.eq_ofNat_of_zero_le (abs_nonneg (position - before))
  have hn : n ≤ 2 := by omega
  rw [hchange] at hmul ⊢
  rw [mul_transactionCost hn] at hmul
  cases hmul
  rw [transactionCost, Decimal.toRat_mk, Decimal.toRat_mk]
  push_cast
  ring

theorem AccountsSpec.total_costs (h : AccountsSpec prices funding rule a)
    : total a.costs = transactionCost.toRat * positionChanges a.positions := by
  have hcosts : a.costs.map Decimal.toRat = (List.range a.positions.length).map (fun t =>
      transactionCost.toRat * ((|a.positions.getD t 0 - previous a.positions t| : ℤ) : ℚ)) :=
    forall₂_map_eq _ Decimal.toRat h.costs fun t cost hcost => (h.cost hcost).symm
  have hcast := map_list_sum (Int.castRingHom ℚ)
    ((List.range a.positions.length).map fun t => |a.positions.getD t 0 - previous a.positions t|)
  rw [List.map_map] at hcast
  rw [total, hcosts, List.sum_map_mul_left]
  exact congrArg _ hcast.symm

end accounts

section accounting

/--
What rounding adds to the sum of a list.
-/
def sumLoss (values : List Decimal) (sum : Decimal) : ℚ :=
  sum.toRat - total values

/--
What rounding adds to the net components.
-/
def netLoss (a : Accounts) : ℚ :=
  total a.nets - (total a.priceComponents + total a.fundingComponents - total a.costs)

/--
The rounding errors of the net components and of the three sums cancel, as they do where no addition
has to round.
-/
def LossesCancel (a : Accounts) : Prop :=
  ∀ net price paid, Decimal.sum .zero a.nets = some net
    → Decimal.sum .zero a.priceComponents = some price
    → Decimal.sum .zero a.fundingComponents = some paid
    → netLoss a + sumLoss a.nets net = sumLoss a.priceComponents price + sumLoss a.fundingComponents paid

/--
A price deadband just below 1. Its negation is rounded to -1.
-/
def nearlyOne : Deadband where
  text := "0.99999999999999999999999999999"
  value := ⟨false, 99999999999999999999999999999, -29⟩
  parsed := by decide +kernel
  nonnegative := by decide

def zeroDeadband : Deadband where
  text := "0"
  value := ⟨false, 0, 0⟩
  parsed := by decide +kernel
  nonnegative := by decide

/--
The scenario with positive funding, then a reversal down.
-/
def reversalDown : Scenario :=
  scenarios[8]

end accounting

end Sandbox

end Quantbot
