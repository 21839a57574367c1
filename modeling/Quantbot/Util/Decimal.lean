import Mathlib

/-!
Decimal floating point numbers with the default context: 28 digits, exponents up to 999999, and
the signal of an overflow trapped.
-/

namespace Quantbot

/--
`±coeff * 10 ^ exp`
-/
structure Decimal where
  negative : Bool
  coeff : ℕ
  exp : ℤ
deriving DecidableEq, Repr

namespace Decimal

def digits (n : ℕ) : ℕ :=
  Nat.log 10 n + 1

def prec : ℕ :=
  28

def emax : ℤ :=
  999999

def emin : ℤ :=
  -999999

def etiny : ℤ :=
  emin - (prec - 1)

/--
The exponent above the first digit.
-/
def magnitude (d : Decimal) : ℤ :=
  d.exp + digits d.coeff

def signed (d : Decimal) : ℤ :=
  if d.negative then -d.coeff else d.coeff

def isNegative (d : Decimal) : Bool :=
  d.negative && d.coeff ≠ 0

/--
`-1`, `0` or `1`
-/
def sign (d : Decimal) : ℤ :=
  if d.coeff = 0 then 0 else if d.negative then -1 else 1

/--
The number in units of `10 ^ exp`, for an exponent that is not larger than its own.
-/
def units (d : Decimal) (exp : ℤ) : ℤ :=
  d.signed * (10 ^ (d.exp - exp).toNat : ℕ)

def lt (a b : Decimal) : Bool :=
  a.units (min a.exp b.exp) < b.units (min a.exp b.exp)

def le (a b : Decimal) : Bool :=
  !lt b a

section rounding

def roundHalfEven (n k : ℕ) : ℕ :=
  let q := n / 10 ^ k
  let r := n % 10 ^ k
  if 2 * r < 10 ^ k then
    q
  else if 10 ^ k < 2 * r then
    q + 1
  else if q % 2 = 0 then
    q
  else
    q + 1

def shift (d : Decimal) (k : ℕ) : Decimal :=
  { d with coeff := roundHalfEven d.coeff k, exp := d.exp + k }

/--
A number below the normal ones has at least the exponent of the smallest.
-/
def clampTiny (d : Decimal) : Decimal :=
  if d.magnitude - 1 < emin ∧ d.exp < etiny then d.shift (etiny - d.exp).toNat else d

def clampDigits (d : Decimal) : Decimal :=
  if prec < digits d.coeff then d.shift (digits d.coeff - prec) else d

/--
Rounding up may have carried into another digit.
-/
def renormalize (d : Decimal) : Decimal :=
  if prec < digits d.coeff then { d with coeff := d.coeff / 10, exp := d.exp + 1 } else d

def trapOverflow (d : Decimal) : Option Decimal :=
  if emax < d.magnitude - 1 then none else some d

/--
The result in the context. `none` is the signal of an overflow.
-/
def finalize (d : Decimal) : Option Decimal :=
  if d.coeff = 0 then
    some { d with exp := max etiny (min d.exp emax) }
  else do
    let d ← trapOverflow d
    trapOverflow d.clampTiny.clampDigits.renormalize

end rounding

section operations

def ofInt (n : ℤ) : Decimal where
  negative := n < 0
  coeff := n.natAbs
  exp := 0

def zero : Decimal :=
  ofInt 0

/--
The negation of a zero is positive.
-/
def minus (d : Decimal) : Option Decimal :=
  finalize { d with negative := !d.negative && d.coeff ≠ 0 }

def abs (d : Decimal) : Option Decimal :=
  finalize { d with negative := false }

def exactSum (a b : Decimal) : Decimal :=
  let exp := min a.exp b.exp
  let sum := a.units exp + b.units exp
  { negative := if sum = 0 then a.negative && b.negative else sum < 0
    coeff := sum.natAbs
    exp }

def add (a b : Decimal) : Option Decimal :=
  finalize (exactSum a b)

def sub (a b : Decimal) : Option Decimal :=
  add a { b with negative := !b.negative }

def mul (a b : Decimal) : Option Decimal :=
  finalize
    { negative := a.negative != b.negative
      coeff := a.coeff * b.coeff
      exp := a.exp + b.exp }

/--
Drop trailing zeros until the exponent is the ideal one.
-/
def trim (ideal : ℤ) : ℕ → Decimal → Decimal
  | 0, d => d
  | fuel + 1, d =>
    if d.exp < ideal ∧ d.coeff % 10 = 0 then
      trim ideal fuel { d with coeff := d.coeff / 10, exp := d.exp + 1 }
    else
      d

/--
The quotient by a positive integer. A remainder is kept in the last digit, which is then neither
a 0 nor a 5.
-/
def divNat (a : Decimal) (n : ℕ) : Option Decimal :=
  if a.coeff = 0 then
    finalize a
  else
    let shift := digits n + prec + 1 - digits a.coeff
    let q := a.coeff * 10 ^ shift / n
    let r := a.coeff * 10 ^ shift % n
    if r = 0 then
      finalize (trim a.exp shift { a with coeff := q, exp := a.exp - shift })
    else
      finalize { a with coeff := if q % 5 = 0 then q + 1 else q, exp := a.exp - shift }

def sum (start : Decimal) (l : List Decimal) : Option Decimal :=
  l.foldlM add start

end operations

section texts

/--
`str(d)`
-/
def text (d : Decimal) : String :=
  let digits := Nat.toDigits 10 d.coeff
  let left := d.exp + digits.length
  let point := if d.exp ≤ 0 ∧ -6 < left then left else 1
  let body :=
    if point ≤ 0 then
      '0' :: '.' :: List.replicate (-point).toNat '0' ++ digits
    else if point < digits.length then
      digits.take point.toNat ++ '.' :: digits.drop point.toNat
    else
      digits ++ List.replicate (point - digits.length).toNat '0'
  let sign := if point ≤ left then "+" else ""
  let exponent := if left = point then "" else "E" ++ sign ++ toString (left - point)
  (if d.negative then "-" else "") ++ String.ofList body ++ exponent

/--
`str.isspace`
-/
def isBlank (c : Char) : Bool :=
  let n := c.toNat
  n = 0x20 || (0x09 ≤ n && n ≤ 0x0d) || (0x1c ≤ n && n ≤ 0x1f) || (0x2000 ≤ n && n ≤ 0x200a)
    || n ∈ [0x85, 0xa0, 0x1680, 0x2028, 0x2029, 0x202f, 0x205f, 0x3000]

/--
The zeros of the scripts. The nine characters after one are the other digits of its script.
-/
def zeroDigits : List ℕ :=
  [0x30, 0x660, 0x6f0, 0x7c0, 0x966, 0x9e6, 0xa66, 0xae6, 0xb66, 0xbe6, 0xc66, 0xce6, 0xd66, 0xde6,
    0xe50, 0xed0, 0xf20, 0x1040, 0x1090, 0x17e0, 0x1810, 0x1946, 0x19d0, 0x1a80, 0x1a90, 0x1b50,
    0x1bb0, 0x1c40, 0x1c50, 0xa620, 0xa8d0, 0xa900, 0xa9d0, 0xa9f0, 0xaa50, 0xabf0, 0xff10, 0x104a0,
    0x10d30, 0x11066, 0x110f0, 0x11136, 0x111d0, 0x112f0, 0x11450, 0x114d0, 0x11650, 0x116c0,
    0x11730, 0x118e0, 0x11950, 0x11c50, 0x11d50, 0x11da0, 0x16a60, 0x16ac0, 0x16b50, 0x1d7ce,
    0x1d7d8, 0x1d7e2, 0x1d7ec, 0x1d7f6, 0x1e140, 0x1e2f0, 0x1e950, 0x1fbf0]

/--
A digit of any script as the decimal digit of its value.
-/
def asciiDigit (c : Char) : Char :=
  match zeroDigits.find? (fun z => z ≤ c.toNat ∧ c.toNat < z + 10) with
  | some z => Char.ofNat ('0'.toNat + (c.toNat - z))
  | none => c

def maxExponent : ℤ :=
  999999999999999999

def minExponent : ℤ :=
  -1999999999999999997

/--
An exponent with its indicator, or nothing.
-/
def exponentOf (s : List Char) : Option ℤ :=
  match s with
  | [] => some 0
  | e :: rest =>
    let (negative, digits) :=
      match rest with
      | '-' :: rest => (true, rest)
      | '+' :: rest => (false, rest)
      | rest => (false, rest)
    if e ∈ ['e', 'E'] ∧ digits ≠ [] ∧ digits.all Char.isDigit then
      let n : ℤ := Nat.ofDigitChars 10 digits 0
      some (if negative then -n else n)
    else
      none

/--
`Decimal(text)` of a finite number: blanks around the text and underscores within it do not count.
Infinities, what is not a number and exponents out of range are all `none`.
-/
def ofString (text : String) : Option Decimal :=
  let stripped := ((text.toList.dropWhile isBlank).reverse.dropWhile isBlank).reverse
  let (negative, unsigned) :=
    match (stripped.filter (fun c => c ≠ '_')).map asciiDigit with
    | '-' :: rest => (true, rest)
    | '+' :: rest => (false, rest)
    | rest => (false, rest)
  let (whole, rest) := unsigned.span Char.isDigit
  let (fraction, rest) :=
    match rest with
    | '.' :: rest => rest.span Char.isDigit
    | rest => ([], rest)
  if whole ++ fraction = [] then
    none
  else do
    let exponent ← exponentOf rest
    let d : Decimal :=
      { negative
        coeff := Nat.ofDigitChars 10 (whole ++ fraction) 0
        exp := exponent - fraction.length }
    if d.magnitude - 1 ≤ maxExponent ∧ minExponent ≤ d.exp then some d else none

example : (ofString " 1_0.5٠E-2 ").map text = some "0.1050" := by
  decide +kernel

end texts

section magnitudes

theorem lt_pow_digits (n : ℕ) : n < 10 ^ digits n :=
  Nat.lt_pow_succ_log_self (by omega) n

theorem digits_pos (n : ℕ) : 0 < digits n :=
  Nat.succ_pos _

theorem digits_le {n k : ℕ} (hk : 0 < k) (h : n < 10 ^ k) : digits n ≤ k := by
  have hlog : Nat.log 10 n < k := Nat.log_lt_of_lt_pow' (by omega) h
  exact hlog

theorem digits_mono {m n : ℕ} (h : m ≤ n) : digits m ≤ digits n :=
  Nat.succ_le_succ (Nat.log_mono_right h)

theorem digits_add_le (m n : ℕ) : digits (m + n) ≤ max (digits m) (digits n) + 1 := by
  apply digits_le (Nat.succ_pos _)
  have hm : m < 10 ^ max (digits m) (digits n) :=
    (lt_pow_digits m).trans_le (Nat.pow_le_pow_right (by omega) (Nat.le_max_left _ _))
  have hn : n < 10 ^ max (digits m) (digits n) :=
    (lt_pow_digits n).trans_le (Nat.pow_le_pow_right (by omega) (Nat.le_max_right _ _))
  rw [pow_succ]
  omega

theorem digits_mul_le (m n : ℕ) : digits (m * n) ≤ digits m + digits n := by
  apply digits_le (Nat.add_pos_left (digits_pos m) _)
  rw [pow_add]
  exact Nat.mul_lt_mul'' (lt_pow_digits m) (lt_pow_digits n)

theorem digits_mul_pow_le (n k : ℕ) : digits (n * 10 ^ k) ≤ digits n + k := by
  apply digits_le (Nat.add_pos_left (digits_pos n) _)
  rw [pow_add]
  exact Nat.mul_lt_mul_of_pos_right (lt_pow_digits n) (Nat.pow_pos (by omega))

theorem digits_div_pow_le (n k : ℕ) : digits (n / 10 ^ k) ≤ max 1 (digits n - k) := by
  apply digits_le (by omega)
  rw [Nat.div_lt_iff_lt_mul (Nat.pow_pos (by omega)), ← pow_add]
  exact (lt_pow_digits n).trans_le (Nat.pow_le_pow_right (by omega) (by omega))

theorem digits_roundHalfEven_le (n k : ℕ) : digits (roundHalfEven n k) ≤ max 1 (digits n - k) + 1 := by
  have hle : roundHalfEven n k ≤ n / 10 ^ k + 1 := by
    simp only [roundHalfEven]
    split_ifs <;> omega
  have hdiv := digits_div_pow_le n k
  have hadd := digits_add_le (n / 10 ^ k) 1
  have hone : digits 1 = 1 := by decide
  have hpos := digits_pos (n / 10 ^ k)
  have hmono := digits_mono hle
  omega

theorem magnitude_shift_le (d : Decimal) (k : ℕ)
    : (d.shift k).magnitude ≤ max d.magnitude (d.exp + k + 1) + 1 := by
  have h := digits_roundHalfEven_le d.coeff k
  simp only [magnitude, shift]
  omega

theorem magnitude_clampTiny_le (d : Decimal)
    : d.clampTiny.magnitude ≤ max d.magnitude (etiny + 1) + 1 := by
  unfold clampTiny
  split
  . have h := d.magnitude_shift_le (etiny - d.exp).toNat
    omega
  . omega

theorem magnitude_clampDigits_le (d : Decimal) : d.clampDigits.magnitude ≤ d.magnitude + 1 := by
  unfold clampDigits
  split
  . rename_i hdigits
    have h := d.magnitude_shift_le (digits d.coeff - prec)
    have hprec : prec = 28 := rfl
    simp only [magnitude] at h ⊢
    omega
  . omega

theorem magnitude_renormalize_le (d : Decimal) : d.renormalize.magnitude ≤ d.magnitude := by
  unfold renormalize
  split
  . rename_i hdigits
    have h := digits_div_pow_le d.coeff 1
    have hprec : prec = 28 := rfl
    rw [pow_one] at h
    simp only [magnitude]
    omega
  . exact le_refl _

/--
Far from the limit an operation does not overflow, and its rounding carries into at most two
digits.
-/
theorem finalize_of_magnitude_le {d : Decimal} {k : ℤ} (hk : 0 ≤ k) (hmax : k + 2 ≤ emax)
    (h : d.magnitude ≤ k) : ∃ r, d.finalize = some r ∧ r.magnitude ≤ k + 2 := by
  unfold finalize
  have hetiny : etiny = -1000026 := rfl
  split
  . rename_i hzero
    have hdigits : digits d.coeff = 1 := by
      rw [hzero]
      decide
    refine ⟨_, rfl, ?_⟩
    simp only [magnitude] at h ⊢
    omega
  . have htiny := d.magnitude_clampTiny_le
    have hdigits := d.clampTiny.magnitude_clampDigits_le
    have hnorm := d.clampTiny.clampDigits.magnitude_renormalize_le
    refine ⟨d.clampTiny.clampDigits.renormalize, ?_, by omega⟩
    rw [trapOverflow, if_neg (by omega), Option.bind_eq_bind, Option.bind_some, trapOverflow,
      if_neg (by omega)]

theorem natAbs_units (d : Decimal) (exp : ℤ)
    : (d.units exp).natAbs = d.coeff * 10 ^ (d.exp - exp).toNat := by
  rw [units, Int.natAbs_mul, Int.natAbs_natCast]
  congr 1
  unfold signed
  split <;> simp

theorem magnitude_exactSum_le (a b : Decimal)
    : (exactSum a b).magnitude ≤ max a.magnitude b.magnitude + 1 := by
  have hle := Int.natAbs_add_le (a.units (min a.exp b.exp)) (b.units (min a.exp b.exp))
  rw [natAbs_units, natAbs_units] at hle
  have hdigits := (digits_mono hle).trans (digits_add_le _ _)
  have hda := digits_mul_pow_le a.coeff (a.exp - min a.exp b.exp).toNat
  have hdb := digits_mul_pow_le b.coeff (b.exp - min a.exp b.exp).toNat
  simp only [magnitude, exactSum]
  omega

theorem add_of_magnitude_le {a b : Decimal} {k : ℤ} (hk : 0 ≤ k) (hmax : k + 3 ≤ emax)
    (ha : a.magnitude ≤ k) (hb : b.magnitude ≤ k)
    : ∃ r, add a b = some r ∧ r.magnitude ≤ k + 3 := by
  have h := magnitude_exactSum_le a b
  obtain ⟨r, hr, hmag⟩ := finalize_of_magnitude_le (by omega : 0 ≤ k + 1) (by omega)
    (by omega : (exactSum a b).magnitude ≤ k + 1)
  exact ⟨r, hr, by omega⟩

theorem sub_of_magnitude_le {a b : Decimal} {k : ℤ} (hk : 0 ≤ k) (hmax : k + 3 ≤ emax)
    (ha : a.magnitude ≤ k) (hb : b.magnitude ≤ k)
    : ∃ r, sub a b = some r ∧ r.magnitude ≤ k + 3 :=
  add_of_magnitude_le hk hmax ha hb

theorem mul_of_magnitude_le {a b : Decimal} {k : ℤ} (hk : 0 ≤ k) (hmax : k + 2 ≤ emax)
    (h : a.magnitude + b.magnitude ≤ k) : ∃ r, mul a b = some r ∧ r.magnitude ≤ k + 2 := by
  have hdigits := digits_mul_le a.coeff b.coeff
  simp only [magnitude] at h
  refine finalize_of_magnitude_le hk hmax ?_
  simp only [magnitude]
  omega

theorem magnitude_trim_le (ideal : ℤ) (fuel : ℕ) (d : Decimal)
    : (trim ideal fuel d).magnitude ≤ max d.magnitude (ideal + 1) := by
  induction fuel generalizing d with
  | zero => exact le_max_left _ _
  | succ fuel ih =>
    rw [trim]
    split
    . rename_i h
      have hdiv := digits_div_pow_le d.coeff 1
      rw [pow_one] at hdiv
      have hrest := ih { d with coeff := d.coeff / 10, exp := d.exp + 1 }
      simp only [magnitude] at hrest ⊢
      omega
    . exact le_max_left _ _

theorem divNat_of_magnitude_le {a : Decimal} {n : ℕ} {k : ℤ} (hk : 0 ≤ k) (hmax : k + 3 ≤ emax)
    (h : a.magnitude ≤ k) : ∃ r, divNat a n = some r ∧ r.magnitude ≤ k + 3 := by
  have hquotient (shift : ℕ) : digits (a.coeff * 10 ^ shift / n) ≤ digits a.coeff + shift :=
    (digits_mono (Nat.div_le_self _ n)).trans (digits_mul_pow_le a.coeff shift)
  have hpos := digits_pos a.coeff
  simp only [magnitude] at h
  simp only [divNat]
  split
  . obtain ⟨r, hr, hmag⟩ := finalize_of_magnitude_le hk (by omega) (d := a) (by simpa [magnitude] using h)
    exact ⟨r, hr, by omega⟩
  . generalize hs : digits n + prec + 1 - digits a.coeff = s
    have hq := hquotient s
    split
    . have htrim := magnitude_trim_le a.exp s
        { a with coeff := a.coeff * 10 ^ s / n, exp := a.exp - s }
      simp only [magnitude] at htrim
      obtain ⟨r, hr, hmag⟩ := finalize_of_magnitude_le hk (by omega) (d := trim a.exp s
        { a with coeff := a.coeff * 10 ^ s / n, exp := a.exp - s }) (by
          simp only [magnitude]
          omega)
      exact ⟨r, hr, by omega⟩
    . have hone : digits 1 = 1 := by decide
      have hsticky := digits_add_le (a.coeff * 10 ^ s / n) 1
      have hqpos := digits_pos (a.coeff * 10 ^ s / n)
      have hle : digits (if a.coeff * 10 ^ s / n % 5 = 0 then a.coeff * 10 ^ s / n + 1
          else a.coeff * 10 ^ s / n) ≤ digits (a.coeff * 10 ^ s / n) + 1 := by
        split <;> omega
      obtain ⟨r, hr, hmag⟩ := finalize_of_magnitude_le (by omega : 0 ≤ k + 1) (by omega)
        (d := { a with coeff := if a.coeff * 10 ^ s / n % 5 = 0 then a.coeff * 10 ^ s / n + 1
          else a.coeff * 10 ^ s / n, exp := a.exp - s }) (by
          simp only [magnitude]
          omega)
      exact ⟨r, hr, by omega⟩

theorem sum_of_magnitude_le {l : List Decimal} {start : Decimal} {k : ℤ} (hk : 0 ≤ k)
    (hmax : k + 3 * l.length ≤ emax) (hstart : start.magnitude ≤ k)
    (h : ∀ d ∈ l, d.magnitude ≤ k)
    : ∃ r, sum start l = some r ∧ r.magnitude ≤ k + 3 * l.length := by
  induction l generalizing start k with
  | nil => exact ⟨start, rfl, by simpa using hstart⟩
  | cons d l ih =>
    rw [List.length_cons] at hmax
    obtain ⟨s, hs, hmag⟩ := add_of_magnitude_le hk (by omega) hstart (h d List.mem_cons_self)
    obtain ⟨r, hr, hrmag⟩ := ih (by omega : 0 ≤ k + 3) (by omega) hmag
      (fun e he => (h e (List.mem_cons_of_mem d he)).trans (by omega))
    refine ⟨r, ?_, by rw [List.length_cons]; omega⟩
    rw [sum, List.foldlM_cons, hs]
    exact hr

end magnitudes

section order

def toRat (d : Decimal) : ℚ :=
  d.signed * 10 ^ d.exp

theorem units_eq {d : Decimal} {exp : ℤ} (h : exp ≤ d.exp) : (d.units exp : ℚ) = d.toRat / 10 ^ exp := by
  have hexp : ((d.exp - exp).toNat : ℤ) = d.exp - exp := Int.toNat_of_nonneg (by omega)
  have hpow : (10 : ℚ) ^ (d.exp - exp).toNat = 10 ^ d.exp / 10 ^ exp := by
    rw [← zpow_natCast, hexp, zpow_sub₀ (by norm_num)]
  rw [units, toRat]
  push_cast
  rw [hpow, mul_div_assoc]

theorem lt_iff {a b : Decimal} : lt a b = true ↔ a.toRat < b.toRat := by
  have hpos : (0 : ℚ) < 10 ^ min a.exp b.exp := zpow_pos (by norm_num) _
  rw [lt, decide_eq_true_iff, ← Int.cast_lt (R := ℚ), units_eq (min_le_left _ _),
    units_eq (min_le_right _ _), div_lt_div_iff_of_pos_right hpos]

theorem le_iff {a b : Decimal} : le a b = true ↔ a.toRat ≤ b.toRat := by
  rw [le, Bool.not_eq_true', ← Bool.not_eq_true, lt_iff, not_lt]

/--
Only a number far above 1 overflows when its sign changes.
-/
theorem one_le_toRat {d : Decimal} (hnonneg : d.isNegative = false) (h : d.minus = none)
    : 1 ≤ d.toRat := by
  have hcoeff : d.coeff ≠ 0 := by
    intro hzero
    rw [minus, finalize, if_pos hzero] at h
    cases h
  have hsigned : d.signed = d.coeff := by
    have hpositive : d.negative = false := by simpa [isNegative, hcoeff] using hnonneg
    rw [signed, hpositive]
    rfl
  have hmagnitude : 1 ≤ d.magnitude := by
    by_contra hlt
    obtain ⟨r, hr, -⟩ := finalize_of_magnitude_le (d := { d with
      negative := !d.negative && d.coeff ≠ 0 }) (le_refl 0) (by decide) (by
        simp only [magnitude] at hlt ⊢
        omega)
    rw [minus, hr] at h
    cases h
  have hlog : ((10 : ℕ) ^ Nat.log 10 d.coeff : ℚ) ≤ d.coeff := by
    exact_mod_cast Nat.pow_log_le_self 10 hcoeff
  have hpow : (10 : ℚ) ^ (d.magnitude - 1) = 10 ^ Nat.log 10 d.coeff * 10 ^ d.exp := by
    rw [← zpow_natCast, ← zpow_add₀ (by norm_num)]
    congr 1
    simp only [magnitude, digits]
    push_cast
    ring
  rw [toRat, hsigned]
  calc (1 : ℚ) ≤ 10 ^ (d.magnitude - 1) := one_le_zpow₀ (by norm_num) (by omega)
    _ = 10 ^ Nat.log 10 d.coeff * 10 ^ d.exp := hpow
    _ ≤ (d.coeff : ℤ) * 10 ^ d.exp :=
      mul_le_mul_of_nonneg_right (by exact_mod_cast hlog) (zpow_nonneg (by norm_num) _)

end order

end Decimal

end Quantbot
