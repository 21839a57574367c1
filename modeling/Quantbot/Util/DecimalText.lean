import Quantbot.Util.DecimalContext
import Quantbot.Util.JsonInduction
import Quantbot.Util.JsonRoundTrip

/-!
Texts of decimals without an exponent.
-/

namespace Quantbot

namespace Decimal

section plain

def plain (negative : Bool) (whole fraction : List Char) : List Char :=
  (if negative then ['-'] else []) ++ (whole ++ if fraction = [] then [] else '.' :: fraction)

/--
`format(d, "f")`
-/
def fixed (d : Decimal) : String :=
  let digits := Nat.toDigits 10 d.coeff
  let places := (-d.exp).toNat
  String.ofList (
    if 0 ≤ d.exp then
      plain d.negative (digits ++ List.replicate d.exp.toNat '0') []
    else if places < digits.length then
      plain d.negative (digits.take (digits.length - places)) (digits.drop (digits.length - places))
    else
      plain d.negative ['0'] (List.replicate (places - digits.length) '0' ++ digits))

end plain

section read

theorem toNat_of_isDigit {c : Char} (h : c.isDigit = true) : 48 ≤ c.toNat ∧ c.toNat ≤ 57 := by
  simp only [Char.isDigit, Bool.and_eq_true, decide_eq_true_eq] at h
  exact ⟨h.1, h.2⟩

theorem not_isBlank_of_isDigit {c : Char} (h : c.isDigit = true) : isBlank c = false := by
  obtain ⟨hlow, hhigh⟩ := toNat_of_isDigit h
  unfold isBlank
  simp
  omega

theorem asciiDigit_of_isDigit {c : Char} (h : c.isDigit = true) : asciiDigit c = c := by
  obtain ⟨hlow, hhigh⟩ := toNat_of_isDigit h
  have hfind : zeroDigits.find? (fun z => z ≤ c.toNat ∧ c.toNat < z + 10) = some 0x30 := by
    rw [zeroDigits, List.find?_cons_of_pos]
    simp
    omega
  unfold asciiDigit
  rw [hfind]
  have hsum : '0'.toNat + (c.toNat - 0x30) = c.toNat := by
    have hzero : '0'.toNat = 48 := rfl
    omega
  dsimp only
  rw [hsum, Char.ofNat_toNat]

/--
A character of a plain text: a sign, a point or a digit.
-/
def IsPlain (c : Char) : Prop :=
  c = '-' ∨ c = '.' ∨ c.isDigit = true

theorem IsPlain.not_blank {c : Char} (h : IsPlain c) : isBlank c = false := by
  obtain rfl | rfl | h := h
  . decide
  . decide
  . exact not_isBlank_of_isDigit h

theorem IsPlain.asciiDigit {c : Char} (h : IsPlain c) : asciiDigit c = c := by
  obtain rfl | rfl | h := h
  . decide
  . decide
  . exact asciiDigit_of_isDigit h

theorem IsPlain.ne_underscore {c : Char} (h : IsPlain c) : c ≠ '_' := by
  obtain rfl | rfl | h := h
  . decide
  . decide
  . rintro rfl
    cases h

theorem dropWhile_isBlank {l : List Char} (h : ∀ c ∈ l, IsPlain c) : l.dropWhile isBlank = l := by
  cases l with
  | nil => rfl
  | cons c l =>
    rw [List.dropWhile_cons_of_neg]
    rw [(h c List.mem_cons_self).not_blank]
    exact Bool.false_ne_true

/--
Neither blanks nor underscores nor digits of other scripts are in a plain text.
-/
theorem read_plain {l : List Char} (h : ∀ c ∈ l, IsPlain c)
    : ((((l.dropWhile isBlank).reverse.dropWhile isBlank).reverse).filter (fun c => c ≠ '_')).map
        asciiDigit = l := by
  have hreverse : ∀ c ∈ l.reverse, IsPlain c := fun c hc => h c (List.mem_reverse.mp hc)
  rw [dropWhile_isBlank h, dropWhile_isBlank hreverse, List.reverse_reverse]
  rw [List.filter_eq_self.mpr (fun c hc => decide_eq_true (h c hc).ne_underscore)]
  exact (List.map_congr_left (fun c hc => (h c hc).asciiDigit)).trans (List.map_id l)

variable {negative : Bool} {whole fraction : List Char}

theorem isPlain_of_mem_plain (hwhole : ∀ c ∈ whole, c.isDigit = true)
    (hfraction : ∀ c ∈ fraction, c.isDigit = true)
    : ∀ c ∈ plain negative whole fraction, IsPlain c := by
  intro c hc
  unfold plain at hc
  rw [List.mem_append, List.mem_append] at hc
  rcases hc with hc | hc | hc
  . cases negative with
    | false => cases hc
    | true => exact Or.inl (List.mem_singleton.mp hc)
  . exact Or.inr (Or.inr (hwhole c hc))
  . split at hc
    . cases hc
    . rcases List.mem_cons.mp hc with rfl | hc
      . exact Or.inr (Or.inl rfl)
      . exact Or.inr (Or.inr (hfraction c hc))

/--
A text after its sign, and whether that is a minus.
-/
def takeSign : List Char → Bool × List Char
  | '-' :: rest => (true, rest)
  | '+' :: rest => (false, rest)
  | rest => (false, rest)

/--
The digits after a point, and what follows them.
-/
def takeFraction : List Char → List Char × List Char
  | '.' :: rest => rest.span Char.isDigit
  | rest => ([], rest)

theorem ofString_eq (text : String)
    : ofString text =
      let stripped := ((text.toList.dropWhile isBlank).reverse.dropWhile isBlank).reverse
      let unsigned := takeSign ((stripped.filter (fun c => c ≠ '_')).map asciiDigit)
      let whole := unsigned.2.span Char.isDigit
      let fraction := takeFraction whole.2
      if whole.1 ++ fraction.1 = [] then
        none
      else
        (exponentOf fraction.2).bind (fun exponent =>
          let d : Decimal :=
            { negative := unsigned.1
              coeff := Nat.ofDigitChars 10 (whole.1 ++ fraction.1) 0
              exp := exponent - fraction.1.length }
          if d.magnitude - 1 ≤ maxExponent ∧ minExponent ≤ d.exp then some d else none) := by
  rfl

theorem takeSign_plain (hne : whole ≠ []) (hwhole : ∀ c ∈ whole, c.isDigit = true)
    : takeSign (plain negative whole fraction)
        = (negative, whole ++ if fraction = [] then [] else '.' :: fraction) := by
  cases negative with
  | true => rfl
  | false =>
    obtain ⟨c, cs, rfl⟩ := List.exists_cons_of_ne_nil hne
    have hc := hwhole c List.mem_cons_self
    have hplain : plain false (c :: cs) fraction
        = c :: (cs ++ if fraction = [] then [] else '.' :: fraction) := rfl
    rw [hplain]
    unfold takeSign
    split
    next heq =>
      cases heq
      cases hc
    next heq =>
      cases heq
      cases hc
    . rfl

theorem takeFraction_plain (hfraction : ∀ c ∈ fraction, c.isDigit = true)
    : takeFraction (if fraction = [] then [] else '.' :: fraction) = (fraction, []) := by
  by_cases hnil : fraction = []
  . rw [if_pos hnil, hnil]
    rfl
  . rw [if_neg hnil]
    have hspan := @Json.span_digits fraction [] hfraction (by simp)
    rwa [List.append_nil] at hspan

/--
What is read of a plain text.
-/
theorem ofString_plain (hne : whole ≠ []) (hwhole : ∀ c ∈ whole, c.isDigit = true)
    (hfraction : ∀ c ∈ fraction, c.isDigit = true) {d : Decimal}
    (hd : d = ⟨negative, Nat.ofDigitChars 10 (whole ++ fraction) 0, -fraction.length⟩)
    (hmax : d.magnitude - 1 ≤ maxExponent) (hmin : minExponent ≤ d.exp)
    : ofString (String.ofList (plain negative whole fraction)) = some d := by
  have hspan : (whole ++ if fraction = [] then [] else '.' :: fraction).span Char.isDigit
      = (whole, if fraction = [] then [] else '.' :: fraction) := by
    apply Json.span_digits hwhole
    intro c hc
    split at hc
    . cases hc
    . cases hc
      decide
  rw [ofString_eq, String.toList_ofList]
  simp only [read_plain (isPlain_of_mem_plain hwhole hfraction), takeSign_plain hne hwhole, hspan,
    takeFraction_plain hfraction]
  rw [if_neg (by simp [hne])]
  subst hd
  simp only [exponentOf, Option.bind_some, zero_sub]
  rw [if_pos ⟨hmax, hmin⟩]

end read

section bounds

theorem asciiDigit_eq_or (c : Char) : asciiDigit c = c ∨ (asciiDigit c).isDigit = true := by
  unfold asciiDigit
  split
  next z hz =>
    have hrange := List.find?_some hz
    simp only [decide_eq_true_eq] at hrange
    have hzero : '0'.toNat = 48 := rfl
    have hlt : c.toNat - z < 10 := by omega
    generalize c.toNat - z = k at hlt
    right
    interval_cases k <;> rfl
  . exact Or.inl rfl

theorem takeSign_suffix (s : List Char) : (takeSign s).2 <:+ s := by
  unfold takeSign
  split
  . exact List.suffix_cons _ _
  . exact List.suffix_cons _ _
  . exact List.suffix_refl _

theorem takeFraction_spec (s : List Char)
    : (∀ c ∈ (takeFraction s).1, c.isDigit = true) ∧ (takeFraction s).2 <:+ s
      ∧ (takeFraction s).1.length + (takeFraction s).2.length ≤ s.length := by
  unfold takeFraction
  split
  next rest =>
    rw [List.span_eq_takeWhile_dropWhile]
    have hlen := congrArg List.length (List.takeWhile_append_dropWhile (p := Char.isDigit) (l := rest))
    rw [List.length_append] at hlen
    refine ⟨fun c hc => List.mem_takeWhile_imp hc, ?_, ?_⟩
    . exact (List.dropWhile_suffix _).trans (List.suffix_cons _ _)
    . rw [List.length_cons]
      dsimp only
      omega
  . refine ⟨by simp, List.suffix_refl _, ?_⟩
    simp

/--
Without an indicator there is no exponent.
-/
theorem exponentOf_eq_zero {s : List Char} (h : ∀ c ∈ s, c ∉ ['e', 'E']) {n : ℤ}
    (hn : exponentOf s = some n) : n = 0 := by
  cases s with
  | nil =>
    cases hn
    rfl
  | cons e rest =>
    have he := h e List.mem_cons_self
    unfold exponentOf at hn
    dsimp only at hn
    rw [if_neg (fun hexp => he hexp.1)] at hn
    cases hn

/--
A number is not longer than the text without an exponent that it is read from.
-/
theorem ofString_within {text : String} {d : Decimal} (h : ofString text = some d)
    (hplain : ∀ c ∈ text.toList, c ∉ ['e', 'E']) : Within (text.length + 1) d := by
  rw [ofString_eq] at h
  dsimp only at h
  have hlength : (((((text.toList.dropWhile isBlank).reverse.dropWhile isBlank).reverse).filter
      (fun c => c ≠ '_')).map asciiDigit).length ≤ text.length := by
    rw [List.length_map]
    refine (List.length_filter_le _ _).trans ?_
    rw [List.length_reverse]
    refine (List.dropWhile_suffix _).length_le.trans ?_
    rw [List.length_reverse]
    exact (List.dropWhile_suffix _).length_le.trans (le_of_eq String.length_toList)
  have hchars : ∀ c ∈ ((((text.toList.dropWhile isBlank).reverse.dropWhile isBlank).reverse).filter
      (fun c => c ≠ '_')).map asciiDigit, c ∉ ['e', 'E'] := by
    intro c hc
    obtain ⟨a, ha, rfl⟩ := List.mem_map.mp hc
    have hmem : a ∈ text.toList := by
      have hinner := List.mem_reverse.mp (List.mem_filter.mp ha).1
      have houter := List.mem_reverse.mp ((List.dropWhile_suffix _).subset hinner)
      exact (List.dropWhile_suffix _).subset houter
    rcases asciiDigit_eq_or a with heq | hdigit
    . rw [heq]
      exact hplain a hmem
    . intro hexp
      simp only [List.mem_cons, List.not_mem_nil, or_false] at hexp
      rcases hexp with hexp | hexp
      . rw [hexp] at hdigit
        cases hdigit
      . rw [hexp] at hdigit
        cases hdigit
  generalize ((((text.toList.dropWhile isBlank).reverse.dropWhile isBlank).reverse).filter
    (fun c => c ≠ '_')).map asciiDigit = s at h hlength hchars
  have hsign := takeSign_suffix s
  generalize takeSign s = unsigned at h hsign
  rw [List.span_eq_takeWhile_dropWhile] at h
  dsimp only at h
  have hwhole := congrArg List.length
    (List.takeWhile_append_dropWhile (p := Char.isDigit) (l := unsigned.2))
  rw [List.length_append] at hwhole
  have hdigits : ∀ c ∈ unsigned.2.takeWhile Char.isDigit, c.isDigit = true :=
    fun c hc => List.mem_takeWhile_imp hc
  have hrest := (List.dropWhile_suffix Char.isDigit (l := unsigned.2)).trans hsign
  generalize unsigned.2.takeWhile Char.isDigit = whole at h hwhole hdigits
  generalize unsigned.2.dropWhile Char.isDigit = rest at h hwhole hrest
  obtain ⟨hfraction, hsuffix, hcount⟩ := takeFraction_spec rest
  generalize takeFraction rest = fraction at h hfraction hsuffix hcount
  split at h
  . cases h
  . obtain ⟨n, hn, h⟩ := Option.bind_eq_some_iff.mp h
    have hzero := exponentOf_eq_zero (fun c hc => hchars c (hrest.subset (hsuffix.subset hc))) hn
    subst hzero
    split at h
    . cases h
      have hall : (whole ++ fraction.1).all Char.isDigit = true := by
        rw [List.all_eq_true]
        intro c hc
        rcases List.mem_append.mp hc with hc | hc
        . exact hdigits c hc
        . exact hfraction c hc
      have hcoeff := Json.ofDigitChars_lt _ hall 0
      have hlen := hsign.length_le
      rw [List.length_append, zero_add, mul_one] at hcoeff
      have hsize := digits_le (k := whole.length + fraction.1.length + 1) (by omega)
        (hcoeff.trans_le (Nat.pow_le_pow_right (by norm_num) (by omega)))
      constructor
      . simp only
        omega
      . simp only [magnitude]
        omega
    . cases h

end bounds

section fixed

theorem toRat_shiftUp (d : Decimal) (h : 0 ≤ d.exp)
    : toRat { d with coeff := d.coeff * 10 ^ d.exp.toNat, exp := 0 } = d.toRat := by
  have hpow : (10 : ℚ) ^ d.exp.toNat = 10 ^ d.exp := by
    rw [← zpow_natCast, Int.toNat_of_nonneg h]
  simp only [toRat, signed]
  push_cast
  rw [hpow]
  split <;> simp

/--
A fixed text denotes its number.
-/
theorem ofString_fixed {d : Decimal} (hmax : d.magnitude - 1 ≤ maxExponent)
    (hmin : minExponent ≤ d.exp) : ∃ r, ofString (fixed d) = some r ∧ r.toRat = d.toRat := by
  have hdigits (c : Char) (hc : c ∈ Nat.toDigits 10 d.coeff) : c.isDigit = true :=
    Json.isDigit_of_mem_toDigits hc
  have hzeros (n : ℕ) : ∀ c ∈ List.replicate n '0', c.isDigit = true := by
    intro c hc
    rw [List.eq_of_mem_replicate hc]
    rfl
  have hne : Nat.toDigits 10 d.coeff ≠ [] := by
    intro hnil
    have hlen := @Nat.length_toDigits_pos 10 d.coeff
    rw [hnil] at hlen
    cases hlen
  unfold fixed
  dsimp only
  split
  next hexp =>
    refine ⟨_, ofString_plain (by simp [hne]) ?_ (by simp) ?_ ?_ ?_, toRat_shiftUp d hexp⟩
    . intro c hc
      rcases List.mem_append.mp hc with hc | hc
      . exact hdigits c hc
      . exact hzeros _ c hc
    . rw [List.append_nil, Nat.ofDigitChars_append, Nat.ofDigitChars_ten_toDigits,
        Nat.ofDigitChars_replicate_zero, mul_comm]
      rfl
    . have hle := digits_mul_pow_le d.coeff d.exp.toNat
      simp only [magnitude] at hmax ⊢
      omega
    . change minExponent ≤ 0
      decide
  next hexp =>
    refine ⟨d, ?_, rfl⟩
    split
    next hplaces =>
      have hsplit := List.take_append_drop ((Nat.toDigits 10 d.coeff).length - (-d.exp).toNat)
        (Nat.toDigits 10 d.coeff)
      refine ofString_plain ?_ (fun c hc => hdigits c (List.mem_of_mem_take hc))
        (fun c hc => hdigits c (List.mem_of_mem_drop hc)) ?_ hmax hmin
      . intro hnil
        have hlen := congrArg List.length hnil
        rw [List.length_take, List.length_nil] at hlen
        omega
      . have hlen : -((List.drop ((Nat.toDigits 10 d.coeff).length - (-d.exp).toNat)
            (Nat.toDigits 10 d.coeff)).length : ℤ) = d.exp := by
          rw [List.length_drop]
          omega
        rw [hsplit, Nat.ofDigitChars_ten_toDigits, hlen]
    next hplaces =>
      refine ofString_plain (by simp) (by simp) ?_ ?_ hmax hmin
      . intro c hc
        rcases List.mem_append.mp hc with hc | hc
        . exact hzeros _ c hc
        . exact hdigits c hc
      . have hlen : -((List.replicate ((-d.exp).toNat - (Nat.toDigits 10 d.coeff).length) '0'
            ++ Nat.toDigits 10 d.coeff).length : ℤ) = d.exp := by
          rw [List.length_append, List.length_replicate]
          omega
        rw [hlen, List.singleton_append, ← List.cons_append, ← List.replicate_succ,
          Nat.ofDigitChars_append, Nat.ofDigitChars_replicate_zero, mul_zero,
          Nat.ofDigitChars_ten_toDigits]

end fixed

end Decimal

end Quantbot
