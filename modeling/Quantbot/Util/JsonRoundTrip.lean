import Quantbot.Util.JsonKeys
import Quantbot.Util.JsonLoads

/-!
Reading back the compact text of a value.
-/

namespace Quantbot

namespace Json

section utf8

theorem decodeUtf8_utf8Bytes (s : String) : decodeUtf8 (utf8Bytes s) = some s.toList := by
  have hbytes : ByteArray.mk (utf8Bytes s).toArray = s.toList.utf8Encode := by
    rw [List.utf8Encode, utf8Bytes, ByteArray.ext_iff]
    simp
  rw [decodeUtf8, hbytes, List.utf8Decode?_utf8Encode]
  rfl

theorem eq_utf8Bytes_of_decodeUtf8 {data : Bytes} {text : List Char}
    (h : decodeUtf8 data = some text) : data = utf8Bytes (String.ofList text) := by
  rw [decodeUtf8, Option.map_eq_some_iff] at h
  obtain ⟨chars, hchars, rfl⟩ := h
  have hencode := ByteArray.utf8Encode_get_utf8Decode? (b := ⟨data.toArray⟩) (h := by rw [hchars]; rfl)
  simp only [hchars, Option.get_some, List.utf8Encode] at hencode
  have hdata := congrArg (fun b => b.data.toList) hencode
  simpa [utf8Bytes] using hdata.symm

end utf8

section strings

/--
The code units of a character.
-/
def charUnits (c : Char) : List ℕ :=
  if c.toNat < 0x10000 then
    [c.toNat]
  else
    [0xd800 + (c.toNat - 0x10000) / 0x400, 0xdc00 + (c.toNat - 0x10000) % 0x400]

theorem hexDigit?_digit {n : ℕ} (h : n < 16)
    : hexDigit? ("0123456789abcdef".toList.getD n '0') = some n := by
  revert n
  decide

theorem hexUnit?_digits {n : ℕ} (h : n < 0x10000)
    : hexUnit? ("0123456789abcdef".toList.getD (n / 16 ^ 3 % 16) '0')
        ("0123456789abcdef".toList.getD (n / 16 ^ 2 % 16) '0')
        ("0123456789abcdef".toList.getD (n / 16 ^ 1 % 16) '0')
        ("0123456789abcdef".toList.getD (n / 16 ^ 0 % 16) '0')
      = some n := by
  rw [hexUnit?, hexDigit?_digit (by omega), hexDigit?_digit (by omega),
    hexDigit?_digit (by omega), hexDigit?_digit (by omega)]
  simp only [Option.bind_eq_bind, Option.bind_some, Option.some.injEq]
  omega

/--
The result of scanning after some code units.
-/
def afterUnits (units : List ℕ) (r : Option (List ℕ × List Char)) : Option (List ℕ × List Char) :=
  r.map (fun p => (units ++ p.1, p.2))

theorem scanUnits_unicodeEscape {n : ℕ} (h : n < 0x10000) (s : List Char)
    : scanUnits (unicodeEscape n ++ s) = afterUnits [n] (scanUnits s) := by
  simp only [unicodeEscape, hexDigits4, List.map_cons, List.map_nil, List.cons_append,
    List.nil_append, scanUnits]
  rw [hexUnit?_digits h]
  cases scanUnits s <;> rfl

theorem scanUnits_escape {e : Char} {unit : ℕ} (hu : e ≠ 'u') (h : escape? e = some unit)
    (s : List Char) : scanUnits ('\\' :: e :: s) = afterUnits [unit] (scanUnits s) := by
  rw [scanUnits.eq_4 e s (fun _ _ _ _ _ he _ => hu he), h]
  cases scanUnits s <;> rfl

theorem scanUnits_char {c : Char} (hquote : c ≠ '"') (hbackslash : c ≠ '\\') (h : 0x20 ≤ c.toNat)
    (s : List Char) : scanUnits (c :: s) = afterUnits [c.toNat] (scanUnits s) := by
  rw [scanUnits.eq_5 c s hquote (fun _ _ _ _ _ hc _ => hbackslash hc)
    (fun _ _ hc _ => hbackslash hc), if_neg (by omega)]
  cases scanUnits s <;> rfl

theorem scanUnits_escapeChar (c : Char) (s : List Char)
    : scanUnits (escapeChar c ++ s) = afterUnits (charUnits c) (scanUnits s) := by
  have hchar := toNat_ranges c
  by_cases hplane : c.toNat < 0x10000
  . rw [charUnits, if_pos hplane]
    simp only [escapeChar]
    split_ifs with h1 h2 h3 h4 h5 h6 h7 h8
    . rw [toNat_eq h1]
      exact scanUnits_escape (by decide) rfl s
    . rw [toNat_eq h2]
      exact scanUnits_escape (by decide) rfl s
    . rw [h3]
      exact scanUnits_escape (by decide) rfl s
    . rw [h4]
      exact scanUnits_escape (by decide) rfl s
    . rw [h5]
      exact scanUnits_escape (by decide) rfl s
    . rw [h6]
      exact scanUnits_escape (by decide) rfl s
    . rw [h7]
      exact scanUnits_escape (by decide) rfl s
    . have hquote : c ≠ '"' := by
        rintro rfl
        exact h1 rfl
      have hbackslash : c ≠ '\\' := by
        rintro rfl
        exact h2 rfl
      exact scanUnits_char hquote hbackslash h8.1 s
    . exact scanUnits_unicodeEscape hplane s
  . rw [charUnits, if_neg hplane]
    unfold escapeChar
    rw [if_neg (by omega), if_neg (by omega), if_neg (by omega), if_neg (by omega),
      if_neg (by omega), if_neg (by omega), if_neg (by omega), if_neg (by omega),
      if_neg (by omega), List.append_assoc, scanUnits_unicodeEscape (by omega),
      scanUnits_unicodeEscape (by omega)]
    cases scanUnits s <;> rfl

theorem scanUnits_escaped (l rest : List Char)
    : scanUnits (l.flatMap escapeChar ++ '"' :: rest) = some (l.flatMap charUnits, rest) := by
  induction l with
  | nil => rfl
  | cons c l ih =>
    rw [List.flatMap_cons, List.append_assoc, scanUnits_escapeChar, ih, List.flatMap_cons]
    rfl

theorem joinUnits_charUnits (c : Char) (units : List ℕ)
    : joinUnits (charUnits c ++ units) = c :: joinUnits units := by
  have hchar := toNat_ranges c
  by_cases hplane : c.toNat < 0x10000
  . have hhigh : isHigh c.toNat = false := by
      simp only [isHigh, Bool.and_eq_false_iff, decide_eq_false_iff_not]
      omega
    have hlow : isLow c.toNat = false := by
      simp only [isLow, Bool.and_eq_false_iff, decide_eq_false_iff_not]
      omega
    have hunit : unitChar c.toNat = c := by
      rw [unitChar, hhigh, hlow]
      exact Char.ofNat_toNat c
    rw [charUnits, if_pos hplane]
    cases units with
    | nil => rw [List.append_nil, joinUnits, joinUnits, hunit]
    | cons next units =>
      rw [List.singleton_append, joinUnits, hhigh, hunit]
      rfl
  . have hhigh : isHigh (0xd800 + (c.toNat - 0x10000) / 0x400) = true := by
      simp only [isHigh, Bool.and_eq_true, decide_eq_true_eq]
      omega
    have hlow : isLow (0xdc00 + (c.toNat - 0x10000) % 0x400) = true := by
      simp only [isLow, Bool.and_eq_true, decide_eq_true_eq]
      omega
    rw [charUnits, if_neg hplane, List.cons_append, List.singleton_append, joinUnits, hhigh, hlow]
    have hc : c = Char.ofNat (0x10000 + (0xd800 + (c.toNat - 0x10000) / 0x400 - 0xd800) * 0x400
        + (0xdc00 + (c.toNat - 0x10000) % 0x400 - 0xdc00)) := toNat_eq (by omega)
    rw [if_pos (by rfl), ← hc]

theorem joinUnits_flatMap (l : List Char) : joinUnits (l.flatMap charUnits) = l := by
  induction l with
  | nil => rfl
  | cons c l ih => rw [List.flatMap_cons, joinUnits_charUnits, ih]

/--
Reading back the string that `quote` writes, after its opening quote.
-/
theorem scanString_quote {ε : Type} (s : String) (rest : List Char)
    : scanString (ε := ε) (s.toList.flatMap escapeChar ++ '"' :: rest) = .ok (s, rest) := by
  simp only [scanString, scanUnits_escaped, joinUnits_flatMap, String.ofList_toList]

end strings

section numbers

theorem head_toDigits {n : ℕ} (h : 0 < n) : ∃ c cs, Nat.toDigits 10 n = c :: cs ∧ c ≠ '0' := by
  induction n using Nat.strong_induction_on with
  | _ n ih =>
    rw [Nat.toDigits_eq_if (by omega)]
    split
    . refine ⟨_, [], rfl, fun hzero => ?_⟩
      have := digitChar_eq_zero hzero
      omega
    . obtain ⟨c, cs, hdigits, hne⟩ := ih (n / 10) (by omega) (by omega)
      exact ⟨c, cs ++ [Nat.digitChar (n % 10)], by rw [hdigits, List.cons_append], hne⟩

theorem isDigit_of_mem_toDigits {n : ℕ} {c : Char} (h : c ∈ Nat.toDigits 10 n)
    : c.isDigit = true :=
  Nat.isDigit_of_mem_toDigits (by omega) (by omega) h

theorem span_digits {digits rest : List Char} (hdigits : ∀ c ∈ digits, c.isDigit = true)
    (hrest : ∀ c ∈ rest.head?, c.isDigit = false)
    : (digits ++ rest).span Char.isDigit = (digits, rest) := by
  rw [List.span_eq_takeWhile_dropWhile, List.takeWhile_append_of_pos hdigits,
    List.dropWhile_append_of_pos hdigits]
  cases rest with
  | nil => rw [List.takeWhile_nil, List.append_nil, List.dropWhile_nil]
  | cons c rest =>
    have hc : ¬c.isDigit = true := by
      rw [hrest c rfl]
      exact Bool.false_ne_true
    rw [List.takeWhile_cons_of_neg hc, List.dropWhile_cons_of_neg hc, List.append_nil]

theorem wholePart_toDigits (n : ℕ) {rest : List Char}
    (hrest : ∀ c ∈ rest.head?, c.isDigit = false)
    : wholePart (Nat.toDigits 10 n ++ rest) = (Nat.toDigits 10 n, rest) := by
  rcases Nat.eq_zero_or_pos n with rfl | hpos
  . rfl
  . obtain ⟨c, cs, hdigits, hne⟩ := head_toDigits hpos
    have hspan : (Nat.toDigits 10 n ++ rest).span Char.isDigit = (Nat.toDigits 10 n, rest) :=
      span_digits (fun _ hc => isDigit_of_mem_toDigits hc) hrest
    rw [hdigits, List.cons_append] at hspan ⊢
    rw [wholePart, hspan]
    rintro rest' heq
    cases heq
    exact hne rfl

/--
What ends a number without a fraction or an exponent.
-/
def EndsInt (rest : List Char) : Prop :=
  ∀ c ∈ rest.head?, c.isDigit = false ∧ c ≠ '.' ∧ c ∉ ['e', 'E']

theorem fractionPart_of_ends {rest : List Char} (h : EndsInt rest) : fractionPart rest = ([], rest) := by
  unfold fractionPart
  split
  . exact absurd rfl (h '.' rfl).2.1
  . rfl

theorem exponentPart_of_ends {rest : List Char} (h : EndsInt rest) : exponentPart rest = ([], rest) := by
  cases rest with
  | nil => rfl
  | cons c rest => exact if_neg (h c rfl).2.2

variable {ε : Type} (hooks : Hooks ε)

theorem parseInt_toDigits {n : ℕ} (negative : Bool) (h : (Nat.toDigits 10 n).length ≤ maxStrDigits)
    : parseInt (ε := ε) negative (Nat.toDigits 10 n) = .ok (.int (if negative then -n else n)) := by
  rw [parseInt, if_neg (by omega), Nat.ofDigitChars_ten_toDigits]

theorem number_nat {n : ℕ} {rest : List Char} (hrest : EndsInt rest)
    (h : (Nat.toDigits 10 n).length ≤ maxStrDigits)
    : number hooks (Nat.toDigits 10 n ++ rest) = .ok (.int n, rest) := by
  have hwhole := wholePart_toDigits n (fun c hc => (hrest c hc).1)
  unfold number
  split
  rename_i negative unsigned hsign
  split at hsign
  . rename_i rest' heq
    obtain ⟨c, cs, hdigits⟩ := List.exists_cons_of_ne_nil (Nat.toDigits_ne_nil (n := n) (b := 10))
    rw [hdigits] at heq
    cases heq
    have hdigit := isDigit_of_mem_toDigits (n := n) (c := '-') (by rw [hdigits]; exact List.mem_cons_self)
    cases hdigit
  . cases hsign
    simp only [hwhole, if_neg Nat.toDigits_ne_nil, fractionPart_of_ends hrest,
      exponentPart_of_ends hrest, and_self, if_true, parseInt_toDigits false h]
    rfl

theorem number_neg {n : ℕ} {rest : List Char} (hrest : EndsInt rest)
    (h : (Nat.toDigits 10 n).length ≤ maxStrDigits)
    : number hooks ('-' :: Nat.toDigits 10 n ++ rest) = .ok (.int (-n), rest) := by
  have hwhole := wholePart_toDigits n (fun c hc => (hrest c hc).1)
  simp only [number, List.cons_append, hwhole, if_neg Nat.toDigits_ne_nil,
    fractionPart_of_ends hrest, exponentPart_of_ends hrest, and_self, if_true,
    parseInt_toDigits true h]
  rfl

end numbers

section values

open JsonValue

variable {ε : Type} (hooks : Hooks ε)

/--
The values that are read back from their text below a number of open brackets: the integers have
few enough digits, the hook keeps the fields of an object, and there are no floats.
-/
inductive Readable : ℕ → JsonValue → Prop where
  | null (depth : ℕ) : Readable depth .null
  | bool (depth : ℕ) (b : Bool) : Readable depth (.bool b)
  | int (depth : ℕ) (n : ℤ) (h : (Nat.toDigits 10 n.natAbs).length ≤ maxStrDigits)
    : Readable depth (.int n)
  | str (depth : ℕ) (s : String) : Readable depth (.str s)
  | arr (depth : ℕ) (items : List JsonValue) (h : ∀ v ∈ items, Readable depth v)
    : Readable (depth + 1) (.arr items)
  | obj (depth : ℕ) (fields : JsonObject) (hpairs : hooks.pairs fields = .ok fields)
    (h : ∀ f ∈ fields, Readable depth f.2) : Readable (depth + 1) (.obj fields)

theorem after_eq_none {w : String} {c c' : Char} {ws s : List Char} (hw : w.toList = c :: ws)
    (hne : c ≠ c') : after w (c' :: s) = none := by
  rw [after, hw, List.isPrefixOf?, beq_eq_false_iff_ne.mpr hne]
  rfl

theorem text_int (n : ℤ)
    : text (.int n) = (if n < 0 then ['-'] else []) ++ Nat.toDigits 10 n.natAbs := by
  cases n with
  | ofNat n =>
    have htext : text (.int (Int.ofNat n)) = (toString n).toList := rfl
    rw [htext, Nat.toString_eq_ofList_toDigits, String.toList_ofList, if_neg (by simp)]
    rfl
  | negSucc n =>
    have htext : text (.int (Int.negSucc n)) = ("-" ++ toString (n + 1)).toList := rfl
    rw [htext, String.toList_append, Nat.toString_eq_ofList_toDigits, String.toList_ofList,
      String.toList_ofList, if_pos (Int.negSucc_lt_zero n)]
    rfl

theorem head_int (n : ℤ) : ∃ c t, text (.int n) = c :: t ∧ (c = '-' ∨ c.isDigit = true) := by
  obtain ⟨c, cs, hdigits⟩ :=
    List.exists_cons_of_ne_nil (Nat.toDigits_ne_nil (n := n.natAbs) (b := 10))
  have hdigit : c.isDigit = true :=
    isDigit_of_mem_toDigits (n := n.natAbs) (by rw [hdigits]; exact List.mem_cons_self)
  rw [text_int, hdigits]
  split
  . exact ⟨'-', _, rfl, .inl rfl⟩
  . exact ⟨c, _, rfl, .inr hdigit⟩

theorem endsInt_of_ends {rest : List Char} (h : Ends rest) : EndsInt rest := by
  intro c hc
  have hmem := h c hc
  simp only [List.mem_cons, List.not_mem_nil, or_false] at hmem
  rcases hmem with rfl | rfl | rfl <;> decide

theorem scanAtom_digit {c : Char} (hdigit : c.isDigit = true) (s : List Char)
    : scanAtom hooks (c :: s) = number hooks (c :: s) := by
  have hne {c' : Char} (h : c'.isDigit = false) : c' ≠ c := by
    rintro rfl
    rw [h] at hdigit
    cases hdigit
  rw [scanAtom, after_eq_none (c := 'n') rfl (hne rfl), after_eq_none (c := 't') rfl (hne rfl),
    after_eq_none (c := 'f') rfl (hne rfl), after_eq_none (c := 'N') rfl (hne rfl),
    after_eq_none (c := 'I') rfl (hne rfl), after_eq_none (c := '-') rfl (hne rfl)]

theorem scanAtom_minus {c : Char} (hdigit : c.isDigit = true) (s : List Char)
    : scanAtom hooks ('-' :: c :: s) = number hooks ('-' :: c :: s) := by
  have hne : 'I' ≠ c := by
    rintro rfl
    cases hdigit
  have hinfinity : after "-Infinity" ('-' :: c :: s) = none := by
    show ("-Infinity".toList.isPrefixOf? ('-' :: c :: s)) = none
    simp [List.isPrefixOf?, hne]
  rw [scanAtom, after_eq_none (c := 'n') rfl (by decide), after_eq_none (c := 't') rfl (by decide),
    after_eq_none (c := 'f') rfl (by decide), after_eq_none (c := 'N') rfl (by decide),
    after_eq_none (c := 'I') rfl (by decide), hinfinity]

theorem scanAtom_int {n : ℤ} {rest : List Char} (hrest : Ends rest)
    (h : (Nat.toDigits 10 n.natAbs).length ≤ maxStrDigits)
    : scanAtom hooks (text (.int n) ++ rest) = .ok (.int n, rest) := by
  obtain ⟨c, cs, hdigits⟩ :=
    List.exists_cons_of_ne_nil (Nat.toDigits_ne_nil (n := n.natAbs) (b := 10))
  have hdigit : c.isDigit = true :=
    isDigit_of_mem_toDigits (n := n.natAbs) (by rw [hdigits]; exact List.mem_cons_self)
  rw [text_int]
  split
  . have hnumber := number_neg hooks (endsInt_of_ends hrest) h
    have hn : -(n.natAbs : ℤ) = n := by omega
    rw [hn, hdigits] at hnumber
    rw [hdigits, List.singleton_append, List.cons_append, List.cons_append]
    rw [scanAtom_minus hooks hdigit]
    exact hnumber
  . have hnumber := number_nat hooks (endsInt_of_ends hrest) h
    have hn : (n.natAbs : ℤ) = n := by omega
    rw [hn, hdigits] at hnumber
    rw [hdigits, List.nil_append, List.cons_append]
    rw [scanAtom_digit hooks hdigit]
    exact hnumber

/--
The texts that are not skipped and do not close a block.
-/
def Starts (s : List Char) : Prop :=
  ∃ c t, s = c :: t ∧ isSpace c = false ∧ c ≠ ']' ∧ c ≠ '\x7d'

theorem starts_of_isDigit {c : Char} (h : c.isDigit = true) (t : List Char) : Starts (c :: t) := by
  refine ⟨c, t, rfl, ?_, ?_, ?_⟩
  . simp only [isSpace, decide_eq_false_iff_not]
    intro hmem
    simp only [List.mem_cons, List.not_mem_nil, or_false] at hmem
    rcases hmem with rfl | rfl | rfl | rfl <;> cases h
  . rintro rfl
    cases h
  . rintro rfl
    cases h

theorem skip_of_starts {s : List Char} (h : Starts s) : skip s = s := by
  obtain ⟨c, t, rfl, hspace, -, -⟩ := h
  rw [skip, List.dropWhile_cons_of_neg (by rw [hspace]; exact Bool.false_ne_true)]

theorem starts_quote (s : String) (rest : List Char) : Starts ((quote s).toList ++ rest) := by
  rw [quote, String.toList_ofList]
  exact ⟨'"', _, rfl, rfl, by decide, by decide⟩

theorem starts_text {depth : ℕ} {v : JsonValue} (h : Readable hooks depth v) (rest : List Char)
    : Starts (text v ++ rest) := by
  cases h with
  | null => exact ⟨'n', _, rfl, rfl, by decide, by decide⟩
  | bool _ b =>
    cases b with
    | true => exact ⟨'t', _, rfl, rfl, by decide, by decide⟩
    | false => exact ⟨'f', _, rfl, rfl, by decide, by decide⟩
  | int _ n _ =>
    obtain ⟨c, t, htext, rfl | hdigit⟩ := head_int n
    . rw [htext]
      exact ⟨'-', _, rfl, rfl, by decide, by decide⟩
    . rw [htext]
      exact starts_of_isDigit hdigit _
  | str _ s => exact starts_quote s rest
  | arr _ items _ => cases items <;> exact ⟨'[', _, rfl, rfl, by decide, by decide⟩
  | obj _ fields _ _ =>
    cases fields with
    | nil => exact ⟨'\x7b', _, rfl, rfl, by decide, by decide⟩
    | cons f fields => exact ⟨'\x7b', _, rfl, rfl, by decide, by decide⟩

section blocks

variable {α : Type}

/--
The texts of the items after the first, and the closing bracket.
-/
def blockTail (close : Char) (one : α → List Char) : List α → List Char
  | [] => [close]
  | a :: l => ',' :: (one a ++ blockTail close one l)

theorem textItems_eq (items : List JsonValue) : textItems items = blockTail ']' text items := by
  induction items with
  | nil => rfl
  | cons v items ih => rw [textItems, blockTail, ih]

def textField (f : String × JsonValue) : List Char :=
  (quote f.1).toList ++ ':' :: text f.2

theorem textFields_eq (fields : JsonObject)
    : textFields fields = blockTail '\x7d' textField fields := by
  induction fields with
  | nil => rfl
  | cons f fields ih => rw [textFields, blockTail, ih, textField, List.append_assoc, List.cons_append]

theorem length_blockTail (close : Char) (one : α → List Char) (l : List α)
    : l.length < (blockTail close one l).length := by
  induction l with
  | nil => exact Nat.zero_lt_one
  | cons a l ih =>
    rw [blockTail, List.length_cons, List.length_cons, List.length_append]
    omega

theorem ends_blockTail {close : Char} (hclose : close ∈ [']', '\x7d']) (one : α → List Char)
    (l : List α) (rest : List Char) : Ends (blockTail close one l ++ rest) := by
  intro c hc
  cases l with
  | nil =>
    cases hc
    exact List.mem_cons_of_mem _ hclose
  | cons a l =>
    cases hc
    exact List.mem_cons_self

theorem skip_blockTail {close : Char} (hclose : close ∈ [']', '\x7d']) (one : α → List Char)
    (l : List α) (rest : List Char)
    : skip (blockTail close one l ++ rest) = blockTail close one l ++ rest := by
  cases l with
  | nil =>
    simp only [List.mem_cons, List.not_mem_nil, or_false] at hclose
    rcases hclose with rfl | rfl <;> rfl
  | cons a l => rfl

variable {item : Reader ε α} {close : Char} {one : α → List Char}

theorem scanItems_blockTail (hclose : close ∈ [']', '\x7d']) {a : α} {l : List α} {bound : ℕ}
    (hbound : l.length < bound) (rest : List Char)
    (hitem : ∀ b ∈ a :: l, ∀ rest, Ends rest → item (one b ++ rest) = .ok (b, rest))
    (hstarts : ∀ b ∈ a :: l, ∀ rest, Starts (one b ++ rest))
    : scanItems item close bound (one a ++ (blockTail close one l ++ rest)) = .ok (a :: l, rest) := by
  induction l generalizing a bound with
  | nil =>
    obtain ⟨bound, rfl⟩ := Nat.exists_eq_succ_of_ne_zero (by omega : bound ≠ 0)
    rw [scanItems, hitem a List.mem_cons_self _ (ends_blockTail hclose one [] rest)]
    simp only [bind, Except.bind, skip_blockTail hclose]
    rw [blockTail, List.singleton_append]
    exact if_pos rfl
  | cons b l ih =>
    obtain ⟨bound, rfl⟩ := Nat.exists_eq_succ_of_ne_zero (by omega : bound ≠ 0)
    rw [scanItems, hitem a List.mem_cons_self _ (ends_blockTail hclose one (b :: l) rest)]
    simp only [bind, Except.bind, skip_blockTail hclose]
    have hcomma : ',' ≠ close := by
      rintro rfl
      exact absurd hclose (by decide)
    rw [blockTail, List.cons_append]
    dsimp only
    rw [if_neg hcomma, if_pos rfl, List.append_assoc,
      skip_of_starts (hstarts b (List.mem_cons_of_mem a List.mem_cons_self) _)]
    rw [ih (Nat.lt_of_succ_lt_succ hbound) (fun c hc => hitem c (List.mem_cons_of_mem a hc))
      (fun c hc => hstarts c (List.mem_cons_of_mem a hc))]

/--
The text between brackets, the closing one included.
-/
def blockText (close : Char) (one : α → List Char) : List α → List Char
  | [] => [close]
  | a :: l => one a ++ blockTail close one l

theorem scanBlock_blockText (hclose : close ∈ [']', '\x7d']) (l : List α) (rest : List Char)
    (hitem : ∀ b ∈ l, ∀ rest, Ends rest → item (one b ++ rest) = .ok (b, rest))
    (hstarts : ∀ b ∈ l, ∀ rest, Starts (one b ++ rest))
    : scanBlock item close (blockText close one l ++ rest) = .ok (l, rest) := by
  cases l with
  | nil =>
    have hskip := skip_blockTail hclose one [] rest
    rw [blockTail, List.singleton_append] at hskip
    rw [scanBlock, blockText, List.singleton_append, hskip]
    exact if_pos rfl
  | cons a l =>
    have hlength := length_blockTail close one l
    obtain ⟨c, t, htext, hspace, harr, hobj⟩ :=
      hstarts a List.mem_cons_self (blockTail close one l ++ rest)
    have hlengths := congrArg List.length htext
    rw [List.length_append, List.length_append, List.length_cons] at hlengths
    have hne : c ≠ close := by
      simp only [List.mem_cons, List.not_mem_nil, or_false] at hclose
      rcases hclose with rfl | rfl
      . exact harr
      . exact hobj
    rw [scanBlock, blockText, List.append_assoc,
      skip_of_starts (hstarts a List.mem_cons_self _), htext]
    simp only [if_neg hne]
    rw [← htext]
    exact scanItems_blockTail hclose (by omega) rest hitem hstarts

theorem exists_blockText (close : Char) (one : α → List Char) (l : List α)
    : ∃ cs, blockText close one l = cs ++ [close] := by
  have htail (l : List α) : ∃ cs, blockTail close one l = cs ++ [close] := by
    induction l with
    | nil => exact ⟨[], rfl⟩
    | cons a l ih =>
      obtain ⟨cs, hcs⟩ := ih
      exact ⟨',' :: (one a ++ cs), by rw [blockTail, hcs, List.cons_append, List.append_assoc]⟩
  cases l with
  | nil => exact ⟨[], rfl⟩
  | cons a l =>
    obtain ⟨cs, hcs⟩ := htail l
    exact ⟨one a ++ cs, by rw [blockText, hcs, List.append_assoc]⟩

end blocks

theorem scanField_text {value : Reader ε JsonValue} {f : String × JsonValue} {rest : List Char}
    (hstarts : Starts (text f.2 ++ rest)) (hvalue : value (text f.2 ++ rest) = .ok (f.2, rest))
    : scanField value (textField f ++ rest) = .ok (f, rest) := by
  rw [textField, quote, String.toList_ofList, List.append_assoc, List.cons_append, List.cons_append,
    List.append_assoc, List.singleton_append, scanField]
  rw [scanString_quote]
  have hskip : skip (':' :: (text f.2 ++ rest)) = ':' :: (text f.2 ++ rest) := rfl
  simp only [bind, Except.bind, hskip, List.cons_append, skip_of_starts hstarts, hvalue]

theorem scanOnce_atom {c : Char} (depth : ℕ) (t : List Char) (h : c ∉ ['"', '[', '\x7b'])
    : scanOnce hooks depth (c :: t) = scanAtom hooks (c :: t) := by
  simp only [List.mem_cons, List.not_mem_nil, or_false, not_or] at h
  unfold scanOnce
  dsimp only
  rw [if_neg h.1, if_neg h.2.1, if_neg h.2.2]

theorem scanOnce_int {n : ℤ} {rest : List Char} (depth : ℕ) (hrest : Ends rest)
    (h : (Nat.toDigits 10 n.natAbs).length ≤ maxStrDigits)
    : scanOnce hooks depth (text (.int n) ++ rest) = .ok (.int n, rest) := by
  have hatom := scanAtom_int hooks hrest h
  obtain ⟨c, t, htext, hc⟩ := head_int n
  rw [htext, List.cons_append] at hatom ⊢
  rw [scanOnce_atom hooks depth, hatom]
  simp only [List.mem_cons, List.not_mem_nil, or_false, not_or]
  rcases hc with rfl | hdigit
  . decide
  . refine ⟨?_, ?_, ?_⟩ <;>
    . rintro rfl
      cases hdigit

theorem text_arr (items : List JsonValue) : text (.arr items) = '[' :: blockText ']' text items := by
  cases items with
  | nil => rfl
  | cons v items => rw [text, textItems_eq, blockText]

theorem text_obj (fields : JsonObject)
    : text (.obj fields) = '\x7b' :: blockText '\x7d' textField fields := by
  cases fields with
  | nil => rfl
  | cons f fields => rw [text, textFields_eq, blockText, textField, List.append_assoc, List.cons_append]

/--
A readable value is what its text reads back as.
-/
theorem scanOnce_text {depth : ℕ} {v : JsonValue} (h : Readable hooks depth v) {rest : List Char}
    (hrest : Ends rest) : scanOnce hooks depth (text v ++ rest) = .ok (v, rest) := by
  induction h generalizing rest with
  | null depth =>
    rw [text]
    exact scanOnce_atom hooks depth _ (by decide)
  | bool depth b =>
    cases b <;> exact scanOnce_atom hooks depth _ (by decide)
  | int depth n hn => exact scanOnce_int hooks depth hrest hn
  | str depth s =>
    rw [text, quote, String.toList_ofList, List.append_assoc, List.cons_append, List.singleton_append,
      scanOnce.eq_def]
    dsimp only
    rw [if_pos rfl, scanString_quote]
    rfl
  | arr depth items h ih =>
    have hblock : scanBlock (fun s => scanOnce hooks depth s) ']' (blockText ']' text items ++ rest)
        = .ok (items, rest) :=
      scanBlock_blockText (by decide) items rest (fun v hv rest hrest => ih v hv hrest)
        (fun v hv rest => starts_text hooks (h v hv) rest)
    rw [text_arr, List.cons_append, scanOnce.eq_def]
    dsimp only
    rw [if_neg (by decide), if_pos rfl, hblock]
    rfl
  | obj depth fields hpairs h ih =>
    have hfield (f : String × JsonValue) (hf : f ∈ fields) (rest : List Char) (hrest : Ends rest)
        : scanField (fun s => scanOnce hooks depth s) (textField f ++ rest) = .ok (f, rest) :=
      scanField_text (starts_text hooks (h f hf) rest) (ih f hf hrest)
    have hstarts (f : String × JsonValue) (_ : f ∈ fields) (rest : List Char)
        : Starts (textField f ++ rest) := by
      rw [textField, List.append_assoc]
      exact starts_quote f.1 _
    have hblock : scanBlock (scanField (fun s => scanOnce hooks depth s)) '\x7d'
        (blockText '\x7d' textField fields ++ rest) = .ok (fields, rest) :=
      scanBlock_blockText (by decide) fields rest hfield hstarts
    rw [text_obj, List.cons_append, scanOnce.eq_def]
    dsimp only
    rw [if_neg (by decide), if_neg (by decide), if_pos rfl, hblock]
    simp only [bind, Except.bind, hooked, hpairs, Except.mapError]

/--
The text of a readable value reads back as the value.
-/
theorem loads_text {v : JsonValue} (h : Readable hooks hooks.nesting v)
    : loads hooks (text v) = .ok v := by
  have hnil : Ends [] := by simp [Ends]
  have hscan := scanOnce_text hooks h hnil
  rw [List.append_nil] at hscan
  have hstarts := starts_text hooks h []
  rw [List.append_nil] at hstarts
  rw [loads, skip_of_starts hstarts, hscan]
  rfl

theorem Readable.mono {depth depth' : ℕ} {v : JsonValue} (h : Readable hooks depth v)
    (hle : depth ≤ depth') : Readable hooks depth' v := by
  induction h generalizing depth' with
  | null => exact .null depth'
  | bool _ b => exact .bool depth' b
  | int _ n hn => exact .int depth' n hn
  | str _ s => exact .str depth' s
  | arr depth items _ ih =>
    obtain ⟨depth', rfl⟩ := Nat.exists_eq_add_of_lt hle
    exact .arr _ items (fun v hv => ih v hv (by omega))
  | obj depth fields hpairs _ ih =>
    obtain ⟨depth', rfl⟩ := Nat.exists_eq_add_of_lt hle
    exact .obj _ fields hpairs (fun f hf => ih f hf (by omega))

/--
Putting the keys of objects in order keeps a value readable, where the hook does not look at the
order of the keys.
-/
theorem Readable.sortKeys {depth : ℕ} {v : JsonValue} (h : Readable hooks depth v)
    (hhook : ∀ l l' : JsonObject, hooks.pairs l = .ok l →
      (l.map Prod.fst).Perm (l'.map Prod.fst) → hooks.pairs l' = .ok l')
    : Readable hooks depth (JsonValue.sortKeys v) := by
  induction h with
  | null depth => exact .null depth
  | bool depth b => exact .bool depth b
  | int depth n hn => exact .int depth n hn
  | str depth s => exact .str depth s
  | arr depth items _ ih =>
    refine .arr depth _ fun v hv => ?_
    obtain ⟨u, hu, rfl⟩ := List.mem_map.mp (sortItems_eq_map items ▸ hv)
    exact ih u hu
  | obj depth fields hpairs _ ih =>
    refine .obj depth _ (hhook fields _ hpairs (keys_perm rfl).symm) fun f hf => ?_
    obtain ⟨g, hg, rfl⟩ := List.mem_map.mp ((perm_of_sorted rfl).mem_iff.mp hf)
    exact ih g hg

end values

end Json

end Quantbot
