import Quantbot.Util.Decimal

/-!
Decimal arithmetic with any number of digits, and which of its results are exact.
-/

namespace Quantbot

namespace Decimal

section context

variable (p : ℕ)

def etinyAt : ℤ :=
  emin - (p - 1)

def clampTinyAt (d : Decimal) : Decimal :=
  if d.magnitude - 1 < emin ∧ d.exp < etinyAt p then d.shift (etinyAt p - d.exp).toNat else d

def clampDigitsAt (d : Decimal) : Decimal :=
  if p < digits d.coeff then d.shift (digits d.coeff - p) else d

def renormalizeAt (d : Decimal) : Decimal :=
  if p < digits d.coeff then { d with coeff := d.coeff / 10, exp := d.exp + 1 } else d

/--
The result in a context of `p` digits.
-/
def finalizeAt (d : Decimal) : Option Decimal :=
  if d.coeff = 0 then
    some { d with exp := max (etinyAt p) (min d.exp emax) }
  else do
    let d ← trapOverflow d
    trapOverflow (renormalizeAt p (clampDigitsAt p (clampTinyAt p d)))

def minusAt (d : Decimal) : Option Decimal :=
  finalizeAt p { d with negative := !d.negative && d.coeff ≠ 0 }

def absAt (d : Decimal) : Option Decimal :=
  finalizeAt p { d with negative := false }

def exactProduct (a b : Decimal) : Decimal where
  negative := a.negative != b.negative
  coeff := a.coeff * b.coeff
  exp := a.exp + b.exp

def mulAt (a b : Decimal) : Option Decimal :=
  finalizeAt p (exactProduct a b)

/--
`d.normalize()`
-/
def normalizeAt (d : Decimal) : Option Decimal := do
  let d ← finalizeAt p d
  return if d.coeff = 0 then { d with exp := 0 } else trim emax (digits d.coeff) d

theorem finalize_eq (d : Decimal) : finalize d = finalizeAt prec d := by
  rfl

end context

/--
A number with at most `p` significant digits.
-/
def Representable (p : ℕ) (x : ℚ) : Prop :=
  ∃ (m e : ℤ), |m| < 10 ^ p ∧ x = m * 10 ^ e

/--
Far from the limits of the exponents.
-/
structure Within (n : ℕ) (d : Decimal) : Prop where
  lower : -n ≤ d.exp
  upper : d.magnitude ≤ n

theorem Within.mono {m n : ℕ} {d : Decimal} (h : Within m d) (hmn : m ≤ n) : Within n d := by
  obtain ⟨hlower, hupper⟩ := h
  exact ⟨by omega, by omega⟩

section rationals

theorem ten_zpow_pos (e : ℤ) : (0 : ℚ) < 10 ^ e :=
  zpow_pos (by norm_num) e

theorem zpow_add_nat (e : ℤ) (k : ℕ) : (10 : ℚ) ^ (e + k) = 10 ^ e * (10 ^ k : ℕ) := by
  rw [zpow_add₀ (by norm_num), zpow_natCast]
  push_cast
  rfl

theorem toRat_mk (negative : Bool) (coeff : ℕ) (exp : ℤ)
    : toRat ⟨negative, coeff, exp⟩ = (if negative then -1 else 1) * coeff * 10 ^ exp := by
  cases negative <;> simp [toRat, signed]

theorem toRat_eq_zero {d : Decimal} : d.toRat = 0 ↔ d.coeff = 0 := by
  have hpow := (ten_zpow_pos d.exp).ne'
  unfold toRat signed
  cases d.negative <;> simp [hpow]

theorem sign_toRat (d : Decimal)
    : SignType.sign d.toRat = if d.coeff = 0 then 0 else if d.negative then -1 else 1 := by
  obtain ⟨negative, coeff, exp⟩ := d
  have hpow := ten_zpow_pos exp
  rw [toRat_mk]
  by_cases hzero : coeff = 0
  . simp [hzero]
  . have hcoeff : (0 : ℚ) < coeff := by exact_mod_cast Nat.pos_of_ne_zero hzero
    have hpos : (0 : ℚ) < coeff * 10 ^ exp := by positivity
    cases negative with
    | false => simp [hzero, sign_pos hpos]
    | true => simp [hzero, Left.sign_neg, sign_pos hpos]

theorem toRat_exactProduct (a b : Decimal) : (exactProduct a b).toRat = a.toRat * b.toRat := by
  obtain ⟨na, ca, ea⟩ := a
  obtain ⟨nb, cb, eb⟩ := b
  rw [exactProduct, toRat_mk, toRat_mk, toRat_mk, zpow_add₀ (by norm_num)]
  push_cast
  cases na <;> cases nb <;> simp <;> ring

theorem signed_natAbs (n exp : ℤ) (ofZero : Bool)
    : signed ⟨if n = 0 then ofZero else decide (n < 0), n.natAbs, exp⟩ = n := by
  rcases lt_trichotomy n 0 with hn | rfl | hn
  . simp [signed, hn, hn.ne, abs_of_neg]
  . simp [signed]
  . simp [signed, hn.ne', hn.not_gt, abs_of_pos hn]

theorem toRat_ofInt (n : ℤ) : (ofInt n).toRat = n := by
  have hsigned : (ofInt n).signed = n := by
    rcases eq_or_ne n 0 with hzero | hn
    . rw [hzero]
      rfl
    . have h := signed_natAbs n 0 false
      rwa [if_neg hn] at h
  rw [toRat, hsigned]
  simp [ofInt]

theorem toRat_exactSum (a b : Decimal) : (exactSum a b).toRat = a.toRat + b.toRat := by
  have hpow := (ten_zpow_pos (min a.exp b.exp)).ne'
  have hsigned : (exactSum a b).signed = a.units (min a.exp b.exp) + b.units (min a.exp b.exp) :=
    signed_natAbs _ _ _
  rw [toRat, hsigned]
  push_cast
  rw [units_eq (min_le_left _ _), units_eq (min_le_right _ _), ← add_div]
  exact div_mul_cancel₀ _ hpow

theorem toRat_neg (d : Decimal) : toRat { d with negative := !d.negative } = -d.toRat := by
  obtain ⟨negative, coeff, exp⟩ := d
  rw [toRat_mk, toRat_mk]
  cases negative <;> simp

theorem toRat_minus (d : Decimal)
    : toRat { d with negative := !d.negative && d.coeff ≠ 0 } = -d.toRat := by
  obtain ⟨negative, coeff, exp⟩ := d
  rw [toRat_mk, toRat_mk]
  by_cases hzero : coeff = 0
  . simp [hzero]
  . cases negative <;> simp [hzero]

theorem toRat_abs (d : Decimal) : toRat { d with negative := false } = |d.toRat| := by
  obtain ⟨negative, coeff, exp⟩ := d
  have hpow := ten_zpow_pos exp
  rw [toRat_mk, toRat_mk, abs_mul, abs_mul, abs_of_pos hpow, Nat.abs_cast]
  cases negative <;> simp

theorem toRat_trim (ideal : ℤ) (fuel : ℕ) (d : Decimal) : (trim ideal fuel d).toRat = d.toRat := by
  induction fuel generalizing d with
  | zero => rfl
  | succ fuel ih =>
    rw [trim]
    split
    next h =>
      rw [ih]
      obtain ⟨negative, coeff, exp⟩ := d
      have hcoeff : coeff / 10 * 10 = coeff := Nat.div_mul_cancel (Nat.dvd_of_mod_eq_zero h.2)
      have hcast : ((coeff / 10 : ℕ) : ℚ) * 10 = coeff := by exact_mod_cast hcoeff
      rw [toRat_mk, toRat_mk, zpow_add_one₀ (by norm_num), ← hcast]
      ring
    . rfl

end rationals

section representable

theorem Representable.neg {p : ℕ} {x : ℚ} (h : Representable p x) : Representable p (-x) := by
  obtain ⟨m, e, hm, rfl⟩ := h
  exact ⟨-m, e, by rwa [abs_neg], by push_cast; ring⟩

theorem representable_neg {p : ℕ} {x : ℚ} : Representable p (-x) ↔ Representable p x :=
  ⟨fun h => neg_neg x ▸ h.neg, Representable.neg⟩

theorem representable_of_coeff_lt {p : ℕ} {d : Decimal} (h : d.coeff < 10 ^ p)
    : Representable p d.toRat := by
  refine ⟨d.signed, d.exp, ?_, rfl⟩
  have habs : |d.signed| = d.coeff := by
    unfold signed
    split <;> simp
  rw [habs]
  exact_mod_cast h

theorem lt_digits_iff {p n : ℕ} (hp : 0 < p) : p < digits n ↔ 10 ^ p ≤ n := by
  unfold digits
  rcases Nat.eq_zero_or_pos n with rfl | hn
  . simp
    omega
  . rw [Nat.lt_succ_iff]
    exact Nat.le_log_iff_pow_le (by norm_num) hn.ne'

theorem abs_toRat (d : Decimal) : |d.toRat| = d.coeff * 10 ^ d.exp := by
  rw [← toRat_abs, toRat_mk]
  simp

/--
A number of more than `p` digits can do with `p` of them if the others are zeros.
-/
theorem representable_iff_dvd {p : ℕ} (hp : 0 < p) {d : Decimal} (h : p < digits d.coeff)
    : Representable p d.toRat ↔ 10 ^ (digits d.coeff - p) ∣ d.coeff := by
  have hlarge := (lt_digits_iff hp).mp h
  have hlow : 10 ^ (digits d.coeff - 1) ≤ d.coeff := by
    apply Nat.pow_log_le_self
    have hpos : 0 < 10 ^ p := by positivity
    omega
  constructor
  . rintro ⟨m, e, hm, heq⟩
    have hsize : m.natAbs < 10 ^ p := by
      rw [Int.abs_eq_natAbs] at hm
      exact_mod_cast hm
    have habs : (d.coeff : ℚ) * 10 ^ d.exp = m.natAbs * 10 ^ e := by
      rw [← abs_toRat, heq, abs_mul, abs_of_pos (ten_zpow_pos e), Nat.cast_natAbs, Int.cast_abs]
    rcases le_total e d.exp with hle | hle
    . -- then the coefficient would be as long as the shorter one
      obtain ⟨t, ht⟩ := Int.le.dest hle
      rw [← ht, zpow_add_nat, mul_left_comm, mul_comm _ ((10 : ℚ) ^ e)] at habs
      have hcoeff := mul_left_cancel₀ (ten_zpow_pos e).ne' habs
      have hnat : d.coeff * 10 ^ t = m.natAbs := by exact_mod_cast hcoeff
      have hgrow : d.coeff ≤ d.coeff * 10 ^ t := Nat.le_mul_of_pos_right _ (by positivity)
      omega
    . obtain ⟨t, ht⟩ := Int.le.dest hle
      rw [← ht, zpow_add_nat, mul_left_comm, mul_comm _ ((10 : ℚ) ^ d.exp)] at habs
      have hcoeff := mul_left_cancel₀ (ten_zpow_pos d.exp).ne' habs
      have hnat : d.coeff = m.natAbs * 10 ^ t := by exact_mod_cast hcoeff
      have hlt : 10 ^ (digits d.coeff - 1) < 10 ^ (p + t) := by
        rw [pow_add]
        calc 10 ^ (digits d.coeff - 1) ≤ d.coeff := hlow
          _ = m.natAbs * 10 ^ t := hnat
          _ < 10 ^ p * 10 ^ t := Nat.mul_lt_mul_of_pos_right hsize (by positivity)
      have hle' := (Nat.pow_lt_pow_iff_right (by norm_num)).mp hlt
      have hdvd : 10 ^ (digits d.coeff - p) ∣ 10 ^ t := pow_dvd_pow 10 (by omega)
      exact hnat ▸ hdvd.mul_left m.natAbs
  . rintro ⟨c, hc⟩
    generalize hk : digits d.coeff - p = k at hc
    have hsmall : c < 10 ^ p := by
      have hlt := lt_pow_digits d.coeff
      have hsplit : digits d.coeff = k + p := by omega
      rw [hsplit, pow_add] at hlt
      nth_rewrite 1 [hc] at hlt
      exact Nat.lt_of_mul_lt_mul_left hlt
    have hvalue : d.toRat = toRat ⟨d.negative, c, d.exp + k⟩ := by
      obtain ⟨negative, coeff, exp⟩ := d
      dsimp only at hc ⊢
      rw [toRat_mk, toRat_mk, zpow_add_nat, hc]
      push_cast
      ring
    rw [hvalue]
    exact representable_of_coeff_lt hsmall

end representable

section rounding

theorem le_roundHalfEven (n k : ℕ) : n / 10 ^ k ≤ roundHalfEven n k := by
  simp only [roundHalfEven]
  split_ifs <;> omega

theorem roundHalfEven_le (n k : ℕ) : roundHalfEven n k ≤ n / 10 ^ k + 1 := by
  simp only [roundHalfEven]
  split_ifs <;> omega

theorem roundHalfEven_mul_eq_iff {n k : ℕ} : roundHalfEven n k * 10 ^ k = n ↔ 10 ^ k ∣ n := by
  constructor
  . intro h
    exact Dvd.intro_left _ h
  . rintro ⟨c, rfl⟩
    have hpos : 0 < 10 ^ k := by positivity
    have hmod : 10 ^ k * c % 10 ^ k = 0 := Nat.mul_mod_right _ _
    have hdiv : 10 ^ k * c / 10 ^ k = c := Nat.mul_div_cancel_left c hpos
    simp only [roundHalfEven, hmod, hdiv]
    rw [if_pos (by omega), mul_comm]

theorem toRat_shift (d : Decimal) (k : ℕ)
    : (d.shift k).toRat = d.toRat ↔ 10 ^ k ∣ d.coeff := by
  obtain ⟨negative, coeff, exp⟩ := d
  have hpow := (ten_zpow_pos exp).ne'
  rw [shift, toRat_mk, toRat_mk, zpow_add_nat, ← roundHalfEven_mul_eq_iff]
  dsimp only
  have hsplit : (if negative = true then (-1 : ℚ) else 1) * (roundHalfEven coeff k : ℕ)
      * (10 ^ exp * (10 ^ k : ℕ))
      = (if negative = true then (-1 : ℚ) else 1) * ((roundHalfEven coeff k * 10 ^ k : ℕ) : ℚ)
        * 10 ^ exp := by
    push_cast
    ring
  rw [hsplit]
  constructor
  . intro h
    have hcoeff := mul_right_cancel₀ hpow h
    cases negative with
    | false =>
      rw [if_neg Bool.false_ne_true, one_mul, one_mul] at hcoeff
      exact_mod_cast hcoeff
    | true =>
      rw [if_pos rfl] at hcoeff
      exact_mod_cast mul_left_cancel₀ (by norm_num) hcoeff
  . intro h
    rw [h]

variable {p : ℕ} {d : Decimal}

/--
Rounding to `p` digits leaves the next power of ten at most.
-/
theorem coeff_clampDigitsAt (hp : 0 < p)
    : (clampDigitsAt p d).coeff ≤ 10 ^ p
      ∧ ((clampDigitsAt p d).coeff = 0 ↔ d.coeff = 0) := by
  unfold clampDigitsAt
  split
  next h =>
    have hlarge := (lt_digits_iff hp).mp h
    have hlt := lt_pow_digits d.coeff
    have hsplit : digits d.coeff = (digits d.coeff - p) + p := by omega
    generalize digits d.coeff - p = k at hsplit
    rw [hsplit, pow_add] at hlt
    have hdiv : d.coeff / 10 ^ k < 10 ^ p := Nat.div_lt_of_lt_mul hlt
    have hle := roundHalfEven_le d.coeff k
    refine ⟨by simp only [shift]; omega, ?_⟩
    have hlow : 10 ^ (digits d.coeff - 1) ≤ d.coeff := by
      apply Nat.pow_log_le_self
      have hpos : 0 < 10 ^ p := by positivity
      omega
    have hone : 1 ≤ d.coeff / 10 ^ k := by
      rw [Nat.one_le_div_iff (by positivity)]
      exact (Nat.pow_le_pow_right (by norm_num) (by omega)).trans hlow
    have hge := le_roundHalfEven d.coeff k
    have hpos : 0 < 10 ^ p := by positivity
    simp only [shift]
    omega
  next h =>
    rw [lt_digits_iff hp] at h
    exact ⟨by omega, Iff.rfl⟩

theorem toRat_clampDigitsAt (hp : 0 < p)
    : (clampDigitsAt p d).toRat = d.toRat ↔ Representable p d.toRat := by
  unfold clampDigitsAt
  split
  next h => rw [toRat_shift, representable_iff_dvd hp h]
  next h =>
    rw [lt_digits_iff hp, not_le] at h
    exact ⟨fun _ => representable_of_coeff_lt h, fun _ => rfl⟩

/--
The carry into another digit leaves a power of ten.
-/
theorem renormalizeAt_spec (hp : 0 < p) (h : d.coeff ≤ 10 ^ p)
    : (renormalizeAt p d).toRat = d.toRat ∧ (renormalizeAt p d).coeff < 10 ^ p := by
  unfold renormalizeAt
  split
  next hdigits =>
    have hcoeff : d.coeff = 10 ^ p := le_antisymm h ((lt_digits_iff hp).mp hdigits)
    obtain ⟨q, rfl⟩ : ∃ q, p = q + 1 := ⟨p - 1, by omega⟩
    have hdiv : d.coeff / 10 = 10 ^ q := by
      rw [hcoeff, pow_succ]
      exact Nat.mul_div_cancel _ (by norm_num)
    constructor
    . obtain ⟨negative, coeff, exp⟩ := d
      dsimp only at hcoeff hdiv ⊢
      rw [toRat_mk, toRat_mk, hdiv, hcoeff, zpow_add_one₀ (by norm_num), pow_succ]
      push_cast
      ring
    . dsimp only
      rw [hdiv]
      exact Nat.pow_lt_pow_right (by norm_num) (by omega)
  next hdigits =>
    rw [lt_digits_iff hp, not_le] at hdigits
    exact ⟨rfl, hdigits⟩

theorem negative_clampDigitsAt : (clampDigitsAt p d).negative = d.negative := by
  unfold clampDigitsAt
  split <;> rfl

theorem negative_clampTinyAt : (clampTinyAt p d).negative = d.negative := by
  unfold clampTinyAt
  split <;> rfl

theorem negative_renormalizeAt : (renormalizeAt p d).negative = d.negative := by
  unfold renormalizeAt
  split <;> rfl

theorem exp_le_clampDigitsAt : d.exp ≤ (clampDigitsAt p d).exp := by
  unfold clampDigitsAt
  split
  . simp only [shift]
    omega
  . exact le_refl _

theorem exp_le_renormalizeAt : d.exp ≤ (renormalizeAt p d).exp := by
  unfold renormalizeAt
  split
  . dsimp only
    omega
  . exact le_refl _

theorem magnitude_clampDigitsAt (hp : 0 < p) : (clampDigitsAt p d).magnitude ≤ d.magnitude + 1 := by
  unfold clampDigitsAt
  split
  next h =>
    have hshift := d.magnitude_shift_le (digits d.coeff - p)
    simp only [magnitude] at hshift ⊢
    omega
  . omega

theorem magnitude_renormalizeAt (hp : 0 < p) : (renormalizeAt p d).magnitude ≤ d.magnitude := by
  unfold renormalizeAt
  split
  next h =>
    have hdiv := digits_div_pow_le d.coeff 1
    rw [pow_one] at hdiv
    simp only [magnitude]
    omega
  . exact le_refl _

/--
Far from the limits an operation succeeds, keeps the sign, and is exact when `p` digits suffice.
-/
theorem finalizeAt_spec (hp : 0 < p) {n : ℕ} (hn : n ≤ 999990) (h : Within n d)
    : ∃ r, finalizeAt p d = some r ∧ Within (n + 1) r ∧ Representable p r.toRat
      ∧ SignType.sign r.toRat = SignType.sign d.toRat
      ∧ (r.toRat = d.toRat ↔ Representable p d.toRat) := by
  obtain ⟨hlower, hupper⟩ := h
  have hemin : emin = -999999 := rfl
  have hemax : emax = 999999 := rfl
  have hetiny : etinyAt p = -999999 - (p - 1) := rfl
  have hdigits := digits_pos d.coeff
  have hmagnitude : d.magnitude = d.exp + digits d.coeff := rfl
  unfold finalizeAt
  split
  next hzero =>
    have hexp : max (etinyAt p) (min d.exp emax) = d.exp := by omega
    rw [hexp]
    have hrep : Representable p d.toRat := by
      apply representable_of_coeff_lt
      rw [hzero]
      positivity
    exact ⟨d, rfl, ⟨by omega, by omega⟩, hrep, rfl, fun _ => hrep, fun _ => rfl⟩
  next hzero =>
    have htiny : clampTinyAt p d = d := by
      unfold clampTinyAt
      rw [if_neg (by omega)]
    obtain ⟨hcoeff, hnonzero⟩ := coeff_clampDigitsAt hp (d := d)
    obtain ⟨hvalue, hshort⟩ := renormalizeAt_spec hp hcoeff
    have hclamp := magnitude_clampDigitsAt hp (d := d)
    have hrenorm := magnitude_renormalizeAt hp (d := clampDigitsAt p d)
    have hlow := (@exp_le_clampDigitsAt p d).trans (@exp_le_renormalizeAt p _)
    refine ⟨renormalizeAt p (clampDigitsAt p d), ?_, ⟨by omega, by omega⟩,
      representable_of_coeff_lt hshort, ?_, ?_⟩
    . rw [trapOverflow, if_neg (by omega), Option.bind_eq_bind, Option.bind_some, htiny,
        trapOverflow, if_neg (by omega)]
    . rw [hvalue, sign_toRat, sign_toRat, negative_clampDigitsAt]
      simp only [hnonzero]
    . rw [hvalue]
      exact toRat_clampDigitsAt hp

theorem trapOverflow_some {d r : Decimal} (h : trapOverflow d = some r) : r = d := by
  unfold trapOverflow at h
  split at h
  . cases h
  . cases h
    rfl

/--
Rounding keeps the sign of what does not become zero.
-/
theorem sign_finalizeAt {r : Decimal} (h : finalizeAt p d = some r) (hr : r.toRat ≠ 0)
    : SignType.sign r.toRat = SignType.sign d.toRat := by
  have hcoeff : r.coeff ≠ 0 := fun hzero => hr (toRat_eq_zero.mpr hzero)
  unfold finalizeAt at h
  split at h
  next hzero =>
    cases h
    exact absurd hzero hcoeff
  next hzero =>
    rw [Option.bind_eq_bind, Option.bind_eq_some_iff] at h
    obtain ⟨d', hd', hlast⟩ := h
    cases trapOverflow_some hd'
    have hsame := trapOverflow_some hlast
    rw [sign_toRat, sign_toRat, if_neg hcoeff, if_neg hzero, hsame, negative_renormalizeAt,
      negative_clampDigitsAt, negative_clampTinyAt]

theorem toRat_finalize_of_zero {r : Decimal} (h : finalize d = some r) (hzero : d.toRat = 0)
    : r.toRat = 0 := by
  rw [toRat_eq_zero] at hzero
  rw [finalize, if_pos hzero] at h
  cases h
  exact toRat_eq_zero.mpr hzero

theorem sign_finalize {r : Decimal} (h : finalize d = some r) (hr : r.toRat ≠ 0)
    : SignType.sign r.toRat = SignType.sign d.toRat :=
  sign_finalizeAt (p := prec) (by rwa [← finalize_eq]) hr

theorem sign_eq (d : Decimal) : d.sign = (SignType.sign d.toRat : ℤ) := by
  rw [sign_toRat, sign]
  split_ifs <;> rfl

end rounding

section operations

variable {p : ℕ} {a b d : Decimal}

theorem sign_sub {r : Decimal} (h : sub a b = some r) (hr : r.toRat ≠ 0)
    : SignType.sign r.toRat = SignType.sign (a.toRat - b.toRat) := by
  rw [sign_finalize h hr, toRat_exactSum, toRat_neg, sub_eq_add_neg]

theorem sign_minus {r : Decimal} (h : d.minus = some r) (hr : r.toRat ≠ 0)
    : SignType.sign r.toRat = SignType.sign (-d.toRat) := by
  rw [sign_finalize h hr, toRat_minus]

theorem abs_nonneg_of_some {r : Decimal} (h : d.abs = some r) : 0 ≤ r.toRat := by
  by_contra hneg
  rw [not_le] at hneg
  have hsign := sign_finalize h hneg.ne
  rw [toRat_abs, sign_neg hneg] at hsign
  have hle := abs_nonneg d.toRat
  rw [eq_comm, sign_eq_neg_one_iff] at hsign
  exact absurd hsign hle.not_gt

theorem Within.product {m n : ℕ} (ha : Within m a) (hb : Within n b)
    : Within (m + n) (exactProduct a b) := by
  obtain ⟨ha, ha'⟩ := ha
  obtain ⟨hb, hb'⟩ := hb
  have hdigits := digits_mul_le a.coeff b.coeff
  unfold magnitude at ha' hb'
  constructor
  . simp only [exactProduct]
    push_cast
    omega
  . simp only [magnitude, exactProduct]
    push_cast
    omega

theorem mulAt_spec (hp : 0 < p) {m n : ℕ} (hmn : m + n ≤ 999990) (ha : Within m a) (hb : Within n b)
    : ∃ r, mulAt p a b = some r ∧ Within (m + n + 1) r ∧ Representable p r.toRat
      ∧ SignType.sign r.toRat = SignType.sign (a.toRat * b.toRat)
      ∧ (r.toRat = a.toRat * b.toRat ↔ Representable p (a.toRat * b.toRat)) := by
  rw [← toRat_exactProduct]
  exact finalizeAt_spec hp hmn (ha.product hb)

theorem absAt_spec (hp : 0 < p) {n : ℕ} (hn : n ≤ 999990) (h : Within n d)
    (hshort : Representable p d.toRat)
    : ∃ r, absAt p d = some r ∧ Within (n + 1) r ∧ r.toRat = |d.toRat| := by
  obtain ⟨r, hr, hwithin, -, -, hexact⟩ := finalizeAt_spec hp hn
    (d := { d with negative := false }) ⟨h.lower, h.upper⟩
  rw [toRat_abs] at hexact
  refine ⟨r, hr, hwithin, hexact.mpr ?_⟩
  rcases abs_choice d.toRat with heq | heq
  . rwa [heq]
  . rw [heq]
    exact hshort.neg

theorem minusAt_spec (hp : 0 < p) {n : ℕ} (hn : n ≤ 999990) (h : Within n d)
    (hshort : Representable p d.toRat)
    : ∃ r, minusAt p d = some r ∧ Within (n + 1) r ∧ r.toRat = -d.toRat := by
  obtain ⟨r, hr, hwithin, -, -, hexact⟩ := finalizeAt_spec hp hn
    (d := { d with negative := !d.negative && d.coeff ≠ 0 }) ⟨h.lower, h.upper⟩
  rw [toRat_minus] at hexact
  exact ⟨r, hr, hwithin, hexact.mpr hshort.neg⟩

theorem exp_le_trim (ideal : ℤ) (fuel : ℕ) (d : Decimal) : d.exp ≤ (trim ideal fuel d).exp := by
  induction fuel generalizing d with
  | zero => exact le_refl _
  | succ fuel ih =>
    rw [trim]
    split
    . have hnext := ih { d with coeff := d.coeff / 10, exp := d.exp + 1 }
      dsimp only at hnext
      omega
    . exact le_refl _

theorem normalizeAt_spec (hp : 0 < p) {n : ℕ} (hn : n ≤ 999990) (h : Within n d)
    : ∃ r, normalizeAt p d = some r ∧ Within 1000000 r
      ∧ (r.toRat = d.toRat ↔ Representable p d.toRat) := by
  obtain ⟨r, hr, hwithin, -, -, hexact⟩ := finalizeAt_spec hp hn h
  have hlower := hwithin.lower
  have hupper := hwithin.upper
  unfold normalizeAt
  rw [hr, Option.bind_eq_bind, Option.bind_some]
  refine ⟨_, rfl, ?_⟩
  split
  next hzero =>
    have hvalue : toRat { r with exp := 0 } = r.toRat := by
      rw [toRat_eq_zero.mpr hzero]
      exact toRat_eq_zero.mpr hzero
    refine ⟨⟨by simp, ?_⟩, ?_⟩
    . simp only [magnitude, hzero]
      decide
    . rw [hvalue]
      exact hexact
  next hzero =>
    have hexp := exp_le_trim emax (digits r.coeff) r
    have hmagnitude := magnitude_trim_le emax (digits r.coeff) r
    have hemax : emax = 999999 := rfl
    rw [toRat_trim]
    exact ⟨⟨by omega, by omega⟩, hexact⟩

end operations

end Decimal

end Quantbot
