import Mathlib
import Quantbot.Util.Json
import Quantbot.Util.JsonValue

/-!
The canonical text of a JSON value, and what it determines of the value.
-/

namespace Quantbot

namespace Json

section strings

def hexValue (c : Char) : ℕ :=
  "0123456789abcdef".toList.idxOf c

/--
The code unit after a backslash.
-/
def escapedUnit : List Char → Option (ℕ × List Char)
  | 'n' :: rest => some (0x0a, rest)
  | 'r' :: rest => some (0x0d, rest)
  | 't' :: rest => some (0x09, rest)
  | 'f' :: rest => some (0x0c, rest)
  | 'b' :: rest => some (0x08, rest)
  | 'u' :: a :: b :: c :: d :: rest =>
    some (((hexValue a * 16 + hexValue b) * 16 + hexValue c) * 16 + hexValue d, rest)
  | c :: rest => some (c.toNat, rest)
  | [] => none

/--
The first code unit of the text of a string, if it is not at its end.
-/
def nextUnit : List Char → Option (ℕ × List Char)
  | [] => none
  | c :: rest =>
    if c = '"' then
      none
    else if c = '\\' then
      escapedUnit rest
    else
      some (c.toNat, rest)

theorem hexValue_digit {n : ℕ} (h : n < 16)
    : hexValue ("0123456789abcdef".toList.getD n '0') = n := by
  revert n
  decide

theorem nextUnit_unicodeEscape {n : ℕ} (h : n < 0x10000) (rest : List Char)
    : nextUnit (unicodeEscape n ++ rest) = some (n, rest) := by
  simp only [unicodeEscape, hexDigits4, List.map_cons, List.map_nil, List.cons_append,
    List.nil_append, nextUnit, escapedUnit]
  rw [if_neg (by decide), if_pos trivial, hexValue_digit (by omega), hexValue_digit (by omega),
    hexValue_digit (by omega), hexValue_digit (by omega)]
  simp only [Option.some.injEq, Prod.mk.injEq, and_true]
  omega

theorem toNat_eq {c : Char} {n : ℕ} (h : c.toNat = n) : c = Char.ofNat n := by
  rw [← h, Char.ofNat_toNat]

/--
No character is a surrogate.
-/
theorem toNat_ranges (c : Char) : c.toNat < 0xd800 ∨ 0xe000 ≤ c.toNat ∧ c.toNat < 0x110000 := by
  have := c.valid
  simp only [UInt32.isValidChar, Nat.isValidChar] at this
  rw [Char.toNat]
  omega

/--
A character of the basic plane is one code unit.
-/
theorem nextUnit_escapeChar {c : Char} (h : c.toNat < 0x10000) (rest : List Char)
    : nextUnit (escapeChar c ++ rest) = some (c.toNat, rest) := by
  simp only [escapeChar]
  split_ifs with h1 h2 h3 h4 h5 h6 h7 h8
  . rw [toNat_eq h1]
    rfl
  . rw [toNat_eq h2]
    rfl
  . rw [h3]
    rfl
  . rw [h4]
    rfl
  . rw [h5]
    rfl
  . rw [h6]
    rfl
  . rw [h7]
    rfl
  . have hquote : c ≠ '"' := by
      rintro rfl
      exact h1 rfl
    have hbackslash : c ≠ '\\' := by
      rintro rfl
      exact h2 rfl
    rw [List.singleton_append, nextUnit, if_neg hquote, if_neg hbackslash]
  . exact nextUnit_unicodeEscape h rest

/--
Another character is a pair of surrogates.
-/
theorem nextUnit_escapeChar_pair {c : Char} (h : 0x10000 ≤ c.toNat) (rest : List Char)
    : nextUnit (escapeChar c ++ rest)
      = some (0xd800 + (c.toNat - 0x10000) / 0x400,
          unicodeEscape (0xdc00 + (c.toNat - 0x10000) % 0x400) ++ rest) := by
  have := toNat_ranges c
  unfold escapeChar
  rw [if_neg (by omega), if_neg (by omega), if_neg (by omega), if_neg (by omega),
    if_neg (by omega), if_neg (by omega), if_neg (by omega), if_neg (by omega),
    if_neg (by omega), List.append_assoc, nextUnit_unicodeEscape (by omega)]

theorem escapeChar_append_inj {c c' : Char} {rest rest' : List Char}
    (h : escapeChar c ++ rest = escapeChar c' ++ rest') : c = c' ∧ rest = rest' := by
  have hunits := congrArg nextUnit h
  have hc := toNat_ranges c
  have hc' := toNat_ranges c'
  by_cases hplane : c.toNat < 0x10000 <;> by_cases hplane' : c'.toNat < 0x10000
  . rw [nextUnit_escapeChar hplane, nextUnit_escapeChar hplane', Option.some.injEq,
      Prod.mk.injEq] at hunits
    exact ⟨Char.toNat_inj.mp hunits.1, hunits.2⟩
  . rw [nextUnit_escapeChar hplane, nextUnit_escapeChar_pair (not_lt.mp hplane'),
      Option.some.injEq, Prod.mk.injEq] at hunits
    omega
  . rw [nextUnit_escapeChar_pair (not_lt.mp hplane), nextUnit_escapeChar hplane',
      Option.some.injEq, Prod.mk.injEq] at hunits
    omega
  . rw [nextUnit_escapeChar_pair (not_lt.mp hplane),
      nextUnit_escapeChar_pair (not_lt.mp hplane'), Option.some.injEq, Prod.mk.injEq] at hunits
    obtain ⟨hhigh, hrest⟩ := hunits
    have hlow := congrArg nextUnit hrest
    rw [nextUnit_unicodeEscape (by omega), nextUnit_unicodeEscape (by omega), Option.some.injEq,
      Prod.mk.injEq] at hlow
    refine ⟨Char.toNat_inj.mp ?_, hlow.2⟩
    omega

theorem nextUnit_escapeChar_isSome (c : Char) (rest : List Char)
    : nextUnit (escapeChar c ++ rest) ≠ none := by
  by_cases hplane : c.toNat < 0x10000
  . rw [nextUnit_escapeChar hplane]
    exact Option.some_ne_none _
  . rw [nextUnit_escapeChar_pair (not_lt.mp hplane)]
    exact Option.some_ne_none _

theorem escaped_append_inj {s s' rest rest' : List Char}
    (h : s.flatMap escapeChar ++ '"' :: rest = s'.flatMap escapeChar ++ '"' :: rest')
    : s = s' ∧ rest = rest' := by
  induction s generalizing s' with
  | nil =>
    cases s' with
    | nil => exact ⟨rfl, List.cons.inj h |>.2⟩
    | cons c' s' =>
      rw [List.flatMap_cons, List.append_assoc] at h
      exact absurd (congrArg nextUnit h).symm (nextUnit_escapeChar_isSome c' _)
  | cons c s ih =>
    cases s' with
    | nil =>
      rw [List.flatMap_cons, List.append_assoc] at h
      exact absurd (congrArg nextUnit h) (nextUnit_escapeChar_isSome c _)
    | cons c' s' =>
      rw [List.flatMap_cons, List.flatMap_cons, List.append_assoc, List.append_assoc] at h
      obtain ⟨hc, hrest⟩ := escapeChar_append_inj h
      obtain ⟨hs, hrest⟩ := ih hrest
      exact ⟨by rw [hc, hs], hrest⟩

theorem quote_append_inj {s s' : String} {rest rest' : List Char}
    (h : (quote s).toList ++ rest = (quote s').toList ++ rest') : s = s' ∧ rest = rest' := by
  simp only [quote, String.toList_ofList, List.cons_append, List.cons.injEq, true_and,
    List.append_assoc, List.nil_append] at h
  obtain ⟨hs, hrest⟩ := escaped_append_inj h
  exact ⟨String.toList_inj.mp hs, hrest⟩

end strings

section numbers

/--
No bracket, separator or quote.
-/
def plain (c : Char) : Bool :=
  c ∉ [',', ':', '[', ']', '\x7b', '\x7d', '"']

theorem digit_of_mem_repr {n : ℕ} {c : Char} (h : c ∈ (toString n).toList) : c.isDigit = true := by
  rw [Nat.toString_eq_ofList_toDigits, String.toList_ofList] at h
  exact Nat.isDigit_of_mem_toDigits (by omega) (by omega) h

theorem plain_of_isDigit {c : Char} (h : c.isDigit = true) : plain c = true := by
  simp only [plain, decide_eq_true_eq]
  intro hmem
  simp only [List.mem_cons, List.not_mem_nil, or_false] at hmem
  rcases hmem with rfl | rfl | rfl | rfl | rfl | rfl | rfl <;> cases h

theorem mem_int {z : ℤ} {c : Char} (h : c ∈ (int z).toList) : c.isDigit = true ∨ c = '-' := by
  cases z with
  | ofNat n => exact .inl (digit_of_mem_repr h)
  | negSucc n =>
    have hneg : int (Int.negSucc n) = "-" ++ toString (n + 1) := rfl
    rw [hneg, String.toList_append, List.mem_append] at h
    rcases h with h | h
    . exact .inr (List.mem_singleton.mp h)
    . exact .inl (digit_of_mem_repr h)

theorem plain_digitChar (n : ℕ) : plain (Nat.digitChar n) = true := by
  by_cases h : n < 16
  . revert n
    decide
  . have hstar : Nat.digitChar n = '*' := by
      unfold Nat.digitChar
      repeat rw [if_neg (by omega)]
    rw [hstar]
    rfl

theorem plain_fractionDigits {fuel : ℕ} {q : ℚ} {c : Char} (h : c ∈ fractionDigits fuel q)
    : plain c = true := by
  induction fuel generalizing q with
  | zero => cases h
  | succ fuel ih =>
    rw [fractionDigits] at h
    split at h
    . cases h
    . rw [List.mem_cons] at h
      rcases h with rfl | h
      . exact plain_digitChar _
      . exact ih h

theorem plain_int {z : ℤ} {c : Char} (h : c ∈ (int z).toList) : plain c = true := by
  rcases mem_int h with h | rfl
  . exact plain_of_isDigit h
  . rfl

def Plain (s : String) : Prop :=
  ∀ c ∈ s.toList, plain c = true

theorem plain_of_all {s : String} (h : s.toList.all plain = true) : Plain s :=
  List.all_eq_true.mp h

theorem Plain.append {s t : String} (hs : Plain s) (ht : Plain t) : Plain (s ++ t) := by
  intro c hc
  rw [String.toList_append, List.mem_append] at hc
  exact hc.elim (hs c) (ht c)

theorem plain_floor (q : ℚ) : Plain (toString q.floor) :=
  fun _ hc => plain_int hc

theorem plain_toString (n : ℕ) : Plain (toString n) :=
  fun _ hc => plain_of_isDigit (digit_of_mem_repr hc)

theorem plain_ofList {fuel : ℕ} {q : ℚ} : Plain (String.ofList (fractionDigits fuel q)) := by
  intro c hc
  rw [String.toList_ofList] at hc
  exact plain_fractionDigits hc

theorem plain_decimal (q : ℚ) : Plain (decimal q) := by
  unfold decimal
  apply Plain.append ((plain_floor q).append (plain_of_all rfl))
  split
  . exact plain_of_all rfl
  . exact plain_ofList

theorem plain_mantissa (q : ℚ) : Plain (mantissa q) := by
  unfold mantissa
  apply Plain.append (plain_floor q)
  split
  . exact plain_of_all rfl
  . exact Plain.append (plain_of_all rfl) plain_ofList

theorem plain_positiveFloat (q : ℚ) : Plain (positiveFloat q) := by
  unfold positiveFloat
  split
  . exact plain_decimal q
  . split
    . refine (((plain_mantissa _).append (plain_of_all rfl)).append ?_).append (plain_toString _)
      split <;> exact plain_of_all rfl
    . exact ((plain_mantissa _).append (plain_of_all rfl)).append (plain_toString _)

theorem plain_float (q : ℚ) : Plain (float q) := by
  unfold float
  split
  . exact plain_of_all rfl
  . split
    . exact Plain.append (plain_of_all rfl) (plain_positiveFloat _)
    . exact plain_positiveFloat q

theorem float_mark (q : ℚ) : '.' ∈ (float q).toList ∨ 'e' ∈ (float q).toList := by
  have hpositive (q : ℚ) : '.' ∈ (positiveFloat q).toList ∨ 'e' ∈ (positiveFloat q).toList := by
    unfold positiveFloat
    split
    . simp [decimal]
    . split <;> simp
  unfold float
  split
  . exact .inl (by decide)
  . split
    . simpa using hpositive (-q)
    . exact hpositive q

theorem float_ne_int (q : ℚ) (z : ℤ) : float q ≠ int z := by
  intro heq
  have hmark := float_mark q
  rw [heq] at hmark
  rcases hmark with h | h <;> rcases mem_int h with h | h <;> cases h

theorem toString_inj {m n : ℕ} (h : toString m = toString n) : m = n := by
  rw [Nat.toString_eq_ofList_toDigits, Nat.toString_eq_ofList_toDigits] at h
  have hdigits := congrArg (fun s => Nat.ofDigitChars 10 s.toList 0) h
  simpa using hdigits

theorem digitChar_eq_zero {n : ℕ} (h : Nat.digitChar n = '0') : n = 0 := by
  by_cases hn : n < 16
  . have hall : ∀ n < 16, Nat.digitChar n = '0' → n = 0 := by decide
    exact hall n hn h
  . have hstar : Nat.digitChar n = '*' := by
      unfold Nat.digitChar
      repeat rw [if_neg (by omega)]
    rw [hstar] at h
    cases h

theorem fractionDigits_eq_nil {fuel : ℕ} {q : ℚ} (h : fractionDigits (fuel + 1) q = []) : q = 0 := by
  rw [fractionDigits] at h
  split at h
  . assumption
  . cases h

theorem floor_nonneg {q : ℚ} (hq : 0 ≤ q) : 0 ≤ q.floor := by
  show 0 ≤ ⌊q⌋
  exact Int.floor_nonneg.mpr hq

/--
The digits of a fraction are missing or a single zero only for zero.
-/
theorem eq_zero_of_digits {q : ℚ} {fuel : ℕ} (hq : 0 ≤ q)
    (h : (if fractionDigits (fuel + 2) q = [] then "0"
        else String.ofList (fractionDigits (fuel + 2) q)) = "0")
    : q = 0 := by
  by_contra hne
  have hcons : fractionDigits (fuel + 2) q = Nat.digitChar (10 * q).floor.toNat
      :: fractionDigits (fuel + 1) (10 * q - (10 * q).floor) := by
    rw [fractionDigits, if_neg hne]
  rw [hcons, if_neg (List.cons_ne_nil _ _)] at h
  have hlist := congrArg String.toList h
  rw [String.toList_ofList] at hlist
  have hlist' := List.cons.inj hlist
  have hdigit := digitChar_eq_zero hlist'.1
  have hrest := fractionDigits_eq_nil hlist'.2
  have hfloor : 0 ≤ (10 * q).floor := floor_nonneg (by linarith)
  have hzero : (10 * q).floor = 0 := by omega
  rw [hzero] at hrest
  apply hne
  push_cast at hrest
  linarith

theorem append_stop_inj {p : Char → Bool} {a b s t : List Char} (ha : ∀ c ∈ a, p c = true)
    (hb : ∀ c ∈ b, p c = true) (hs : ∀ c ∈ s.head?, p c = false)
    (ht : ∀ c ∈ t.head?, p c = false) (h : a ++ s = b ++ t) : a = b ∧ s = t := by
  induction a generalizing b with
  | nil =>
    cases b with
    | nil => exact ⟨rfl, h⟩
    | cons c b =>
      have hc := hs c (by rw [List.nil_append] at h; rw [h]; rfl)
      rw [hb c List.mem_cons_self] at hc
      cases hc
  | cons c a ih =>
    cases b with
    | nil =>
      have hc := ht c (by rw [List.nil_append] at h; rw [← h]; rfl)
      rw [ha c List.mem_cons_self] at hc
      cases hc
    | cons c' b =>
      rw [List.cons_append, List.cons_append, List.cons.injEq] at h
      obtain ⟨hab, hst⟩ := ih (fun c hc => ha c (List.mem_cons_of_mem _ hc))
        (fun c hc => hb c (List.mem_cons_of_mem _ hc)) h.2
      exact ⟨by rw [h.1, hab], hst⟩

theorem decimal_natCast (n : ℕ) : decimal n = toString n ++ ".0" := by
  have hfloor : (n : ℚ).floor = n := Rat.floor_intCast n
  simp only [decimal, hfloor, Int.cast_natCast, sub_self]
  rw [String.append_assoc]
  rfl

theorem decimal_eq_whole {q : ℚ} {n : ℕ} (hq : 0 ≤ q) (h : decimal q = decimal n) : q = n := by
  rw [decimal_natCast] at h
  obtain ⟨m, hm⟩ : ∃ m : ℕ, q.floor = m := Int.eq_ofNat_of_zero_le (floor_nonneg hq)
  have hfraction : 0 ≤ q - q.floor := by
    show 0 ≤ q - ⌊q⌋
    exact sub_nonneg.mpr (Int.floor_le q)
  simp only [decimal] at h
  generalize hdigits : (if fractionDigits 20 (q - q.floor) = [] then "0"
      else String.ofList (fractionDigits 20 (q - q.floor))) = digits at h
  have hlist := congrArg String.toList h
  have hint : toString (m : ℤ) = toString m := rfl
  rw [hm, hint] at hlist
  have hsplit := append_stop_inj (p := Char.isDigit) (a := (toString m).toList)
    (b := (toString n).toList) (s := '.' :: digits.toList) (t := ['.', '0'])
    (fun c hc => digit_of_mem_repr hc) (fun c hc => digit_of_mem_repr hc)
    (by simp) (by simp) (by simpa using hlist)
  have hmn := toString_inj (String.toList_inj.mp hsplit.1)
  have hzero : digits = "0" := String.toList_inj.mp (List.cons.inj hsplit.2).2
  rw [← hdigits] at hzero
  have hwhole := eq_zero_of_digits hfraction hzero
  rw [hm, hmn] at hwhole
  push_cast at hwhole
  linarith

theorem float_natCast {n : ℕ} (hn : n < 10 ^ 16) : float n = toString n ++ ".0" := by
  rcases Nat.eq_zero_or_pos n with rfl | hpos
  . rfl
  . have hone : (1 : ℚ) ≤ n := by exact_mod_cast hpos
    have hlarge : (n : ℚ) < 10 ^ 16 := by exact_mod_cast hn
    rw [float, if_neg (by linarith), if_neg (by linarith), positiveFloat,
      if_pos ⟨by linarith, hlarge⟩, decimal_natCast]

/--
Below the exponents the text of a whole number stands for no other number.
-/
theorem float_eq_whole {q : ℚ} {n : ℕ} (hq : 0 ≤ q) (hn : n < 10 ^ 16) (h : float q = float n)
    : q = n := by
  have hnoexp : 'e' ∉ (float q).toList := by
    rw [h, float_natCast hn]
    intro hmem
    rw [String.toList_append, List.mem_append] at hmem
    rcases hmem with hmem | hmem
    . cases digit_of_mem_repr hmem
    . revert hmem
      decide
  by_cases hzero : q = 0
  . subst hzero
    have hdecimal : decimal (0 : ℚ) = decimal n := by
      rw [decimal_natCast, ← float_natCast hn, ← h, ← Nat.cast_zero, decimal_natCast]
      rfl
    exact decimal_eq_whole hq hdecimal
  . rw [float, if_neg hzero, if_neg (not_lt.mpr hq)] at h hnoexp
    by_cases hrange : 1 / 10000 ≤ q ∧ q < 10 ^ 16
    . rw [positiveFloat, if_pos hrange, float_natCast hn, ← decimal_natCast] at h
      exact decimal_eq_whole hq h
    . rw [positiveFloat, if_neg hrange] at hnoexp
      split at hnoexp <;> simp at hnoexp

end numbers

end Json

namespace JsonValue

mutual

/--
The text without blanks, the fields of an object in their order.
-/
def text : JsonValue → List Char
  | null => "null".toList
  | bool b => (Json.bool b).toList
  | int n => (Json.int n).toList
  | float q => (Json.float q).toList
  | nan => "NaN".toList
  | infinity negative => (if negative then "-Infinity" else "Infinity").toList
  | str s => (Json.quote s).toList
  | arr [] => ['[', ']']
  | arr (v :: items) => '[' :: (text v ++ textItems items)
  | obj [] => ['\x7b', '\x7d']
  | obj ((k, v) :: fields) =>
    '\x7b' :: ((Json.quote k).toList ++ ':' :: (text v ++ textFields fields))

/--
The items after the first.
-/
def textItems : List JsonValue → List Char
  | [] => [']']
  | v :: items => ',' :: (text v ++ textItems items)

/--
The fields after the first.
-/
def textFields : List (String × JsonValue) → List Char
  | [] => ['\x7d']
  | (k, v) :: fields =>
    ',' :: ((Json.quote k).toList ++ ':' :: (text v ++ textFields fields))

end

def keyLe (f g : String × JsonValue) : Prop :=
  f.1 ≤ g.1

instance : DecidableRel keyLe :=
  fun f g => inferInstanceAs (Decidable (f.1 ≤ g.1))

mutual

/--
The value with the fields of its objects in the order of their keys.
-/
def sortKeys : JsonValue → JsonValue
  | arr items => arr (sortItems items)
  | obj fields => obj ((sortFields fields).insertionSort keyLe)
  | null => null
  | bool b => bool b
  | int n => int n
  | float q => float q
  | nan => nan
  | infinity negative => infinity negative
  | str s => str s

def sortItems : List JsonValue → List JsonValue
  | [] => []
  | v :: items => sortKeys v :: sortItems items

def sortFields : List (String × JsonValue) → List (String × JsonValue)
  | [] => []
  | (k, v) :: fields => (k, sortKeys v) :: sortFields fields

end

def canonicalJsonDumps (v : JsonValue) : String :=
  String.ofList (text (sortKeys v))

/--
A value whose text is one word.
-/
def isAtom : JsonValue → Bool
  | str _ => false
  | arr _ => false
  | obj _ => false
  | _ => true

mutual

/--
The same value as far as the text can tell.
-/
inductive SameText : JsonValue → JsonValue → Prop where
  | atom {v w : JsonValue} (hv : v.isAtom = true) (hw : w.isAtom = true) (h : text v = text w)
    : SameText v w
  | str (s : String) : SameText (.str s) (.str s)
  | arr {l l' : List JsonValue} (h : SameItems l l') : SameText (.arr l) (.arr l')
  | obj {l l' : List (String × JsonValue)} (h : SameFields l l') : SameText (.obj l) (.obj l')

inductive SameItems : List JsonValue → List JsonValue → Prop where
  | nil : SameItems [] []
  | cons {v w : JsonValue} {l l' : List JsonValue} (h : SameText v w) (hl : SameItems l l')
    : SameItems (v :: l) (w :: l')

inductive SameFields : List (String × JsonValue) → List (String × JsonValue) → Prop where
  | nil : SameFields [] []
  | cons (k : String) {v w : JsonValue} {l l' : List (String × JsonValue)} (h : SameText v w)
    (hl : SameFields l l') : SameFields ((k, v) :: l) ((k, w) :: l')

end

/--
What may come after a value.
-/
def Ends (rest : List Char) : Prop :=
  ∀ c ∈ rest.head?, c ∈ [',', ']', '\x7d']

theorem Ends.not_plain {rest : List Char} (h : Ends rest)
    : ∀ c ∈ rest.head?, Json.plain c = false := by
  intro c hc
  have hmem := h c hc
  simp only [List.mem_cons, List.not_mem_nil, or_false] at hmem
  rcases hmem with rfl | rfl | rfl <;> rfl

theorem plain_atom {v : JsonValue} (h : v.isAtom = true) : ∀ c ∈ text v, Json.plain c = true := by
  cases v with
  | null => exact List.all_eq_true.mp rfl
  | bool b => cases b <;> exact List.all_eq_true.mp rfl
  | int n => exact fun c hc => Json.plain_int hc
  | float q => exact Json.plain_float q
  | nan => exact List.all_eq_true.mp rfl
  | infinity negative => cases negative <;> exact List.all_eq_true.mp rfl
  | str s => cases h
  | arr items => cases h
  | obj fields => cases h

theorem float_ne_nil (q : ℚ) : (Json.float q).toList ≠ [] := by
  intro hnil
  rcases Json.float_mark q with h | h
  . rw [hnil] at h
    cases h
  . rw [hnil] at h
    cases h

theorem atom_ne_nil {v : JsonValue} (h : v.isAtom = true) : text v ≠ [] := by
  cases v with
  | null => decide
  | bool b => cases b <;> decide
  | int n =>
    cases n with
    | ofNat n =>
      have hrepr : text (.int (Int.ofNat n)) = (toString n).toList := rfl
      rw [hrepr, Nat.toString_eq_ofList_toDigits, String.toList_ofList]
      exact Nat.toDigits_ne_nil
    | negSucc n =>
      have hrepr : text (.int (Int.negSucc n)) = ("-" ++ toString (n + 1)).toList := rfl
      rw [hrepr, String.toList_append]
      exact List.append_ne_nil_of_left_ne_nil (by decide) _
  | float q => exact float_ne_nil q
  | nan => decide
  | infinity negative => cases negative <;> decide
  | str s => cases h
  | arr items => cases h
  | obj fields => cases h

/--
The first character of a text that is not one word.
-/
theorem head_not_atom {v : JsonValue} (h : v.isAtom = false) (rest : List Char)
    : ∃ c ∈ (text v ++ rest).head?, Json.plain c = false := by
  cases v with
  | str s => exact ⟨'"', by simp [text, Json.quote], rfl⟩
  | arr items => exact ⟨'[', by cases items <;> simp [text], rfl⟩
  | obj fields => exact ⟨'\x7b', by cases fields <;> simp [text], rfl⟩
  | _ => cases h

theorem head_atom {v : JsonValue} (h : v.isAtom = true) (rest : List Char)
    : ∀ c ∈ (text v ++ rest).head?, Json.plain c = true := by
  intro c hc
  apply plain_atom h
  cases htext : text v with
  | nil => exact absurd htext (atom_ne_nil h)
  | cons c' tail =>
    rw [htext, List.cons_append, List.head?_cons, Option.mem_some_iff] at hc
    rw [← hc]
    exact List.mem_cons_self

theorem isAtom_eq {v w : JsonValue} {rest rest' : List Char}
    (h : text v ++ rest = text w ++ rest') : v.isAtom = w.isAtom := by
  by_contra hne
  rcases Bool.eq_false_or_eq_true v.isAtom with hv | hv <;>
    rcases Bool.eq_false_or_eq_true w.isAtom with hw | hw
  . exact hne (hv.trans hw.symm)
  . obtain ⟨c, hc, hplain⟩ := head_not_atom hw rest'
    rw [← h] at hc
    rw [head_atom hv rest c hc] at hplain
    cases hplain
  . obtain ⟨c, hc, hplain⟩ := head_not_atom hv rest
    rw [h] at hc
    rw [head_atom hw rest' c hc] at hplain
    cases hplain
  . exact hne (hv.trans hw.symm)

theorem atom_append_inj {v w : JsonValue} {rest rest' : List Char} (hv : v.isAtom = true)
    (hrest : Ends rest) (hrest' : Ends rest') (h : text v ++ rest = text w ++ rest')
    : SameText v w ∧ rest = rest' := by
  have hw : w.isAtom = true := (isAtom_eq h).symm.trans hv
  obtain ⟨htext, hrests⟩ := Json.append_stop_inj (plain_atom hv) (plain_atom hw)
    hrest.not_plain hrest'.not_plain h
  exact ⟨.atom hv hw htext, hrests⟩

theorem head_ne_close (v : JsonValue) (rest tail : List Char) : text v ++ rest ≠ ']' :: tail := by
  intro h
  cases hatom : v.isAtom with
  | true => cases head_atom hatom rest ']' (by rw [h]; rfl)
  | false =>
    cases v with
    | str s => simp [text, Json.quote] at h
    | arr items => cases items <;> simp [text] at h
    | obj fields => cases fields <;> simp [text] at h
    | _ => cases hatom

theorem ends_items (l : List JsonValue) (rest : List Char) : Ends (textItems l ++ rest) := by
  intro c hc
  cases l with
  | nil =>
    cases hc
    decide
  | cons v l =>
    cases hc
    decide

theorem ends_fields (l : List (String × JsonValue)) (rest : List Char)
    : Ends (textFields l ++ rest) := by
  intro c hc
  cases l with
  | nil =>
    cases hc
    decide
  | cons f l =>
    cases hc
    decide

mutual

theorem text_append_inj : ∀ (v w : JsonValue) (rest rest' : List Char), Ends rest → Ends rest' →
    text v ++ rest = text w ++ rest' → SameText v w ∧ rest = rest'
  | .null, _, _, _, hrest, hrest', h => atom_append_inj rfl hrest hrest' h
  | .bool _, _, _, _, hrest, hrest', h => atom_append_inj rfl hrest hrest' h
  | .int _, _, _, _, hrest, hrest', h => atom_append_inj rfl hrest hrest' h
  | .float _, _, _, _, hrest, hrest', h => atom_append_inj rfl hrest hrest' h
  | .nan, _, _, _, hrest, hrest', h => atom_append_inj rfl hrest hrest' h
  | .infinity _, _, _, _, hrest, hrest', h => atom_append_inj rfl hrest hrest' h
  | .str s, w, rest, rest', _, _, h => by
    have hatom := isAtom_eq h
    cases w with
    | str s' =>
      obtain ⟨rfl, hrests⟩ := Json.quote_append_inj h
      exact ⟨.str s, hrests⟩
    | arr l' => cases l' <;> simp [text, Json.quote] at h
    | obj l' => cases l' <;> simp [text, Json.quote] at h
    | _ => cases hatom
  | .arr [], w, rest, rest', _, _, h => by
    have hatom := isAtom_eq h
    cases w with
    | str s' => simp [text, Json.quote] at h
    | arr l' =>
      cases l' with
      | nil => exact ⟨.arr .nil, by simpa [text] using h⟩
      | cons w l' =>
        simp only [text, List.cons_append, List.cons.injEq, true_and, List.nil_append,
          List.append_assoc] at h
        exact absurd h.symm (head_ne_close w _ _)
    | obj l' => cases l' <;> simp [text] at h
    | _ => cases hatom
  | .arr (v :: l), w, rest, rest', _, _, h => by
    have hatom := isAtom_eq h
    cases w with
    | str s' => simp [text, Json.quote] at h
    | arr l' =>
      cases l' with
      | nil =>
        simp only [text, List.cons_append, List.cons.injEq, true_and, List.nil_append,
          List.append_assoc] at h
        exact absurd h (head_ne_close v _ _)
      | cons w l' =>
        simp only [text, List.cons_append, List.cons.injEq, true_and, List.append_assoc] at h
        obtain ⟨hv, htail⟩ := text_append_inj v w _ _ (ends_items l rest) (ends_items l' rest') h
        obtain ⟨hl, hrests⟩ := textItems_append_inj l l' rest rest' htail
        exact ⟨.arr (.cons hv hl), hrests⟩
    | obj l' => cases l' <;> simp [text] at h
    | _ => cases hatom
  | .obj [], w, rest, rest', _, _, h => by
    have hatom := isAtom_eq h
    cases w with
    | str s' => simp [text, Json.quote] at h
    | arr l' => cases l' <;> simp [text] at h
    | obj l' =>
      cases l' with
      | nil => exact ⟨.obj .nil, by simpa [text] using h⟩
      | cons f l' => simp [text, Json.quote] at h
    | _ => cases hatom
  | .obj ((k, v) :: l), w, rest, rest', _, _, h => by
    have hatom := isAtom_eq h
    cases w with
    | str s' => simp [text, Json.quote] at h
    | arr l' => cases l' <;> simp [text] at h
    | obj l' =>
      cases l' with
      | nil => simp [text, Json.quote] at h
      | cons f l' =>
        obtain ⟨k', w⟩ := f
        simp only [text, List.cons_append, List.cons.injEq, true_and, List.append_assoc] at h
        obtain ⟨rfl, hvalues⟩ := Json.quote_append_inj h
        obtain ⟨hv, htail⟩ := text_append_inj v w _ _ (ends_fields l rest) (ends_fields l' rest')
          (List.cons.inj hvalues).2
        obtain ⟨hl, hrests⟩ := textFields_append_inj l l' rest rest' htail
        exact ⟨.obj (.cons k hv hl), hrests⟩
    | _ => cases hatom

theorem textItems_append_inj : ∀ (l l' : List JsonValue) (rest rest' : List Char),
    textItems l ++ rest = textItems l' ++ rest' → SameItems l l' ∧ rest = rest'
  | [], [], rest, rest', h => ⟨.nil, by simpa [textItems] using h⟩
  | [], _ :: _, rest, rest', h => by simp [textItems] at h
  | _ :: _, [], rest, rest', h => by simp [textItems] at h
  | v :: l, w :: l', rest, rest', h => by
    simp only [textItems, List.cons_append, List.cons.injEq, true_and, List.append_assoc] at h
    obtain ⟨hv, htail⟩ := text_append_inj v w _ _ (ends_items l rest) (ends_items l' rest') h
    obtain ⟨hl, hrests⟩ := textItems_append_inj l l' rest rest' htail
    exact ⟨.cons hv hl, hrests⟩

theorem textFields_append_inj : ∀ (l l' : List (String × JsonValue)) (rest rest' : List Char),
    textFields l ++ rest = textFields l' ++ rest' → SameFields l l' ∧ rest = rest'
  | [], [], rest, rest', h => ⟨.nil, by simpa [textFields] using h⟩
  | [], (_, _) :: _, rest, rest', h => by simp [textFields] at h
  | (_, _) :: _, [], rest, rest', h => by simp [textFields] at h
  | (k, v) :: l, (k', w) :: l', rest, rest', h => by
    simp only [textFields, List.cons_append, List.cons.injEq, true_and, List.append_assoc] at h
    obtain ⟨rfl, hvalues⟩ := Json.quote_append_inj h
    obtain ⟨hv, htail⟩ := text_append_inj v w _ _ (ends_fields l rest) (ends_fields l' rest')
      (List.cons.inj hvalues).2
    obtain ⟨hl, hrests⟩ := textFields_append_inj l l' rest rest' htail
    exact ⟨.cons k hv hl, hrests⟩

end

/--
The canonical text determines the value up to the order of keys and the texts of its words.
-/
theorem canonicalJsonDumps_inj {v w : JsonValue} (h : canonicalJsonDumps v = canonicalJsonDumps w)
    : SameText (sortKeys v) (sortKeys w) := by
  have htext : text (sortKeys v) = text (sortKeys w) := String.ofList_inj.mp h
  have hnil : Ends [] := by simp [Ends]
  refine (text_append_inj _ _ [] [] hnil hnil ?_).1
  rw [htext]

end JsonValue

end Quantbot
