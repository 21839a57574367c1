import Mathlib
import Quantbot.Paper.Timestamp.Iso

/-!
`strptime` reads back what `strftime` prints, and the printed texts are ordered as the instants
are.
-/

namespace Quantbot

theorem digitValue_digit (n : ℕ) : digitValue (digit n) = some (n % 10) := by
  have h : ∀ k < 10, digitValue (Char.ofNat (48 + k)) = some k := by decide
  exact h (n % 10) (by omega)

theorem digit_lt_digit {n m : ℕ} : digit n < digit m ↔ n % 10 < m % 10 := by
  have h : ∀ k < 10, ∀ l < 10, Char.ofNat (48 + k) < Char.ofNat (48 + l) ↔ k < l := by decide
  exact h (n % 10) (by omega) (m % 10) (by omega)

theorem digit_inj {n m : ℕ} : digit n = digit m ↔ n % 10 = m % 10 := by
  have h : ∀ k < 10, ∀ l < 10, Char.ofNat (48 + k) = Char.ofNat (48 + l) ↔ k = l := by decide
  exact h (n % 10) (by omega) (m % 10) (by omega)

theorem digit_ne {n : ℕ} {c : Char} (h : ∀ k < 10, Char.ofNat (48 + k) ≠ c) : digit n ≠ c :=
  h (n % 10) (by omega)

theorem fourDigits_digits4 {n : ℕ} (h : n < 10000) : fourDigits (digits4 n) = some n := by
  simp only [fourDigits, digits4, digitValue_digit, Option.bind_eq_bind, Option.bind_some,
    Option.some.injEq]
  omega

theorem shortField_digits2 {n : ℕ} (h : n < 100) : shortField (digits2 n) = some n := by
  simp only [shortField, digits2, digitValue_digit, Option.bind_eq_bind, Option.bind_some,
    Option.some.injEq]
  omega

theorem dayField_digits2 {n : ℕ} (h : n < 100) : dayField (digits2 n) = some n := by
  rw [← shortField_digits2 h]
  unfold digits2 dayField
  split
  next b heq =>
    have hne : digit (n / 10) ≠ ' ' := digit_ne (by decide)
    simp at heq
    exact absurd heq.1 hne
  . rfl

theorem cutAt_append {p : Char → Bool} {xs ys : List Char} {c : Char} (hxs : ∀ x ∈ xs, p x = false)
    (hc : p c = true)
    : cutAt p (xs ++ c :: ys) = some (xs, ys) := by
  induction xs with
  | nil => simp [cutAt, hc]
  | cons x xs ih =>
    simp only [List.mem_cons, forall_eq_or_imp] at hxs
    simp [cutAt, hxs.1, ih hxs.2]

theorem mem_digits4 {c : Char} {n : ℕ} (h : c ∈ digits4 n) : ∃ k, c = digit k := by
  simp only [digits4, List.mem_cons, List.not_mem_nil, or_false] at h
  rcases h with rfl | rfl | rfl | rfl <;> exact ⟨_, rfl⟩

theorem mem_digits2 {c : Char} {n : ℕ} (h : c ∈ digits2 n) : ∃ k, c = digit k := by
  simp only [digits2, List.mem_cons, List.not_mem_nil, or_false] at h
  rcases h with rfl | rfl <;> exact ⟨_, rfl⟩

theorem digit_beq_eq_false {k : ℕ} {c : Char} (h : ∀ k < 10, Char.ofNat (48 + k) ≠ c)
    : (digit k == c) = false := by
  simpa using digit_ne h

theorem cutAt_eq_none {p : Char → Bool} {xs : List Char} (h : ∀ x ∈ xs, p x = false)
    : cutAt p xs = none := by
  induction xs with
  | nil => rfl
  | cons x xs ih =>
    rw [List.forall_mem_cons] at h
    simp [cutAt, h.1, ih h.2]

/--
The fields at full width, with `sep` between date and time.
-/
def DateTime.stamp (d : DateTime) (sep : Char) : List Char :=
  digits4 d.year ++ '-' :: digits2 d.month ++ '-' :: digits2 d.day
    ++ sep :: digits2 d.hour ++ ':' :: digits2 d.minute ++ ':' :: digits2 d.second

theorem toList_strftime (d : DateTime) : d.strftime.toList = d.stamp 'T' := by
  unfold DateTime.strftime DateTime.stamp
  rw [String.toList_ofList]

theorem getLast?_stamp (d : DateTime) (sep : Char)
    : (d.stamp sep).getLast? = some (digit d.second) := by
  simp [DateTime.stamp, digits2, List.getLast?_append, List.getLast?_cons]

theorem strptimeFields_stamp (d : DateTime) (sep : Char)
    : strptimeFields (d.stamp sep)
        =
      if sep = 'T' ∨ sep = 't' then
        some (d.year, d.month, d.day, d.hour, d.minute, d.second)
      else
        none := by
  have := d.year_le
  have := d.month_le
  have := d.day_lt
  have := d.hour_lt
  have := d.minute_lt
  have := d.second_lt
  have hdash : ∀ k, (digit k == '-') = false := fun k => digit_beq_eq_false (by decide)
  have hcolon : ∀ k, (digit k == ':') = false := fun k => digit_beq_eq_false (by decide)
  have hT : ∀ k, (digit k == 'T') = false := fun k => digit_beq_eq_false (by decide)
  have ht : ∀ k, (digit k == 't') = false := fun k => digit_beq_eq_false (by decide)
  have h4 : ∀ n, ∀ c ∈ digits4 n, (c == '-') = false := by
    intro n c hc
    obtain ⟨k, rfl⟩ := mem_digits4 hc
    exact hdash k
  have h2 : ∀ n, ∀ c ∈ digits2 n, (c == '-') = false ∧ (c == ':') = false
      ∧ (c == 'T' || c == 't') = false := by
    intro n c hc
    obtain ⟨k, rfl⟩ := mem_digits2 hc
    exact ⟨hdash k, hcolon k, by rw [hT k, ht k]; rfl⟩
  unfold strptimeFields DateTime.stamp
  simp only [List.append_assoc, List.cons_append]
  rw [cutAt_append (h4 _) (by rfl)]
  simp only [Option.bind_eq_bind, Option.bind_some]
  rw [cutAt_append (fun c hc => (h2 _ c hc).1) (by rfl)]
  simp only [Option.bind_some]
  split
  next hsep =>
    rw [cutAt_append (fun c hc => (h2 _ c hc).2.2) (by simpa using hsep)]
    simp only [Option.bind_some]
    rw [cutAt_append (fun c hc => (h2 _ c hc).2.1) (by rfl)]
    simp only [Option.bind_some]
    rw [cutAt_append (fun c hc => (h2 _ c hc).2.1) (by rfl)]
    simp only [Option.bind_some]
    rw [fourDigits_digits4 (by omega), shortField_digits2 (by omega), dayField_digits2 (by omega),
      shortField_digits2 (by omega), shortField_digits2 (by omega), shortField_digits2 (by omega)]
    rfl
  next hsep =>
    rw [cutAt_eq_none]
    . rfl
    . have hsep' : (sep == 'T' || sep == 't') = false := by simpa using hsep
      intro c hc
      simp only [List.mem_append, List.mem_cons] at hc
      rcases hc with hc | rfl | hc | rfl | hc | rfl | hc
      . exact (h2 _ c hc).2.2
      . exact hsep'
      . exact (h2 _ c hc).2.2
      . rfl
      . exact (h2 _ c hc).2.2
      . rfl
      . exact (h2 _ c hc).2.2

theorem strptime_stamp (d : DateTime) {sep : Char} (h : sep = 'T' ∨ sep = 't')
    : strptime (d.stamp sep) = .ok d := by
  unfold strptime
  rw [strptimeFields_stamp, if_pos h]
  exact d.make_self

@[simp]
theorem strptime_strftime (d : DateTime) : strptime d.strftime.toList = .ok d := by
  rw [toList_strftime]
  exact strptime_stamp d (.inl rfl)

theorem getLast?_strftime (d : DateTime) : d.strftime.toList.getLast? = some (digit d.second) := by
  rw [toList_strftime, getLast?_stamp]

@[simp]
theorem parseBarUtc_strftime (d : DateTime) : parseBarUtc d.strftime = .ok d := by
  have hne : digit d.second ≠ 'Z' := digit_ne (by decide)
  unfold parseBarUtc
  simp [getLast?_strftime, hne]

theorem digits2_append_lt {n m : ℕ} {xs ys : List Char} (hn : n < 100) (hm : m < 100)
    : digits2 n ++ xs < digits2 m ++ ys ↔ n < m ∨ n = m ∧ xs < ys := by
  simp only [digits2, List.cons_append, List.nil_append, List.cons_lt_cons_iff, digit_lt_digit,
    digit_inj]
  constructor
  . rintro (h | ⟨h, h' | ⟨h', h''⟩⟩)
    . left; omega
    . left; omega
    . right; exact ⟨by omega, h''⟩
  . rintro (h | ⟨rfl, h⟩)
    . rcases Nat.lt_or_ge (n / 10 % 10) (m / 10 % 10) with h' | h'
      . left; exact h'
      . right; exact ⟨by omega, Or.inl (by omega)⟩
    . right; exact ⟨rfl, Or.inr ⟨rfl, h⟩⟩

theorem digits4_eq (n : ℕ) : digits4 n = digits2 (n / 100) ++ digits2 (n % 100) := by
  simp only [digits4, digits2, List.cons_append, List.nil_append, List.cons.injEq, digit_inj,
    and_true, true_and]
  omega

theorem digits4_append_lt {n m : ℕ} {xs ys : List Char} (hn : n < 10000) (hm : m < 10000)
    : digits4 n ++ xs < digits4 m ++ ys ↔ n < m ∨ n = m ∧ xs < ys := by
  rw [digits4_eq n, digits4_eq m]
  simp only [List.append_assoc]
  rw [digits2_append_lt (by omega) (by omega)]
  rw [digits2_append_lt (by omega) (by omega)]
  constructor
  . rintro (h | ⟨h, h' | ⟨h', h''⟩⟩)
    . left; omega
    . left; omega
    . right; exact ⟨by omega, h''⟩
  . rintro (h | ⟨rfl, h⟩)
    . rcases Nat.lt_or_ge (n / 100) (m / 100) with h' | h'
      . left; exact h'
      . right; exact ⟨by omega, Or.inl (by omega)⟩
    . right; exact ⟨rfl, Or.inr ⟨rfl, h⟩⟩

theorem cons_self_lt {c : Char} {xs ys : List Char} : c :: xs < c :: ys ↔ xs < ys := by
  rw [List.cons_lt_cons_iff]
  simp

theorem digits2_lt {n m : ℕ} (hn : n < 100) (hm : m < 100) : digits2 n < digits2 m ↔ n < m := by
  have h := @digits2_append_lt n m [] [] hn hm
  simpa using h

theorem strftime_lt_strftime {a b : DateTime} : a.strftime < b.strftime ↔ a < b := by
  have := a.year_le
  have := b.year_le
  have := a.month_le
  have := b.month_le
  have := a.day_lt
  have := b.day_lt
  have := a.hour_lt
  have := b.hour_lt
  have := a.minute_lt
  have := b.minute_lt
  have := a.second_lt
  have := b.second_lt
  rw [DateTime.lt_iff_ordinal_lt]
  unfold DateTime.ordinal
  rw [String.lt_iff_toList_lt]
  simp only [DateTime.strftime, String.toList_ofList, List.append_assoc, List.cons_append]
  rw [digits4_append_lt (by omega) (by omega), cons_self_lt]
  rw [digits2_append_lt (by omega) (by omega), cons_self_lt]
  rw [digits2_append_lt (by omega) (by omega), cons_self_lt]
  rw [digits2_append_lt (by omega) (by omega), cons_self_lt]
  rw [digits2_append_lt (by omega) (by omega), cons_self_lt]
  rw [digits2_lt (by omega) (by omega)]
  omega

theorem strftime_strictMono : StrictMono DateTime.strftime :=
  fun _ _ h => strftime_lt_strftime.mpr h

theorem strftime_injective : Function.Injective DateTime.strftime :=
  strftime_strictMono.injective

theorem length_strftime (d : DateTime) : d.strftime.toList.length = 19 := by
  simp [DateTime.strftime, digits4, digits2]

theorem append_lt_iff {xs ys : List Char} (zs : List Char) (h : xs.length = ys.length)
    : xs ++ zs < ys ↔ xs < ys := by
  induction xs generalizing ys with
  | nil =>
    have hnil : ys = [] := List.length_eq_zero_iff.mp h.symm
    subst hnil
    simp
  | cons x xs ih =>
    cases ys with
    | nil => simp at h
    | cons y ys =>
      rw [List.cons_append, List.cons_lt_cons_iff, List.cons_lt_cons_iff, ih]
      simpa using h

/--
A stamp with a zone after it comes after every earlier stamp and before every later one.
-/
theorem utc_lt_strftime {a b : DateTime} : a.strftime ++ "Z" < b.strftime ↔ a < b := by
  rw [← strftime_lt_strftime, String.lt_iff_toList_lt, String.lt_iff_toList_lt, String.toList_append]
  apply append_lt_iff
  rw [length_strftime, length_strftime]

section iso

theorem number_digits2 {n : ℕ} (h : n < 100) : number (digits2 n) = some n := by
  simp only [number, digits2, List.foldlM_cons, List.foldlM_nil, digitValue_digit, Option.map_some,
    Option.bind_eq_bind, Option.bind_some, Option.pure_def, Option.some.injEq]
  omega

theorem number_digits4 {n : ℕ} (h : n < 10000) : number (digits4 n) = some n := by
  simp only [number, digits4, List.foldlM_cons, List.foldlM_nil, digitValue_digit, Option.map_some,
    Option.bind_eq_bind, Option.bind_some, Option.pure_def, Option.some.injEq]
  omega

theorem isoDate_strftime (d : DateTime)
    : isoDate (digits4 d.year ++ '-' :: digits2 d.month ++ '-' :: digits2 d.day) = true := by
  have hy := number_digits4 (n := d.year) (by have := d.year_le; omega)
  have hm := number_digits2 (n := d.month) (by have := d.month_le; omega)
  have hd := number_digits2 (n := d.day) (by have := d.day_lt; omega)
  have hW : digit (d.month / 10) ≠ 'W' := digit_ne (by decide)
  unfold digits4 at hy
  unfold digits2 at hm hd
  have := d.year_pos
  have := d.month_pos
  have := d.month_le
  have := d.day_pos
  have := d.day_le
  simp [isoDate, digits4, digits2, dateExists, *]

theorem isoTime_strftime (d : DateTime) (zone : List Char)
    (hz : zone = [] ∨ zone = ['+', '0', '0', ':', '0', '0'])
    : isoTime (digits2 d.hour ++ ':' :: digits2 d.minute ++ ':' :: digits2 d.second ++ zone)
        = true := by
  have hh := number_digits2 (n := d.hour) (by have := d.hour_lt; omega)
  have hm := number_digits2 (n := d.minute) (by have := d.minute_lt; omega)
  have hs := number_digits2 (n := d.second) (by have := d.second_lt; omega)
  unfold digits2 at hh hm hs
  have hzone (k : ℕ) : isZone (digit k) = false := by
    have hminus : digit k ≠ '-' := digit_ne (by decide)
    have hplus : digit k ≠ '+' := digit_ne (by decide)
    simp [isZone, hminus, hplus]
  have hcolon : isZone ':' = false := by decide
  have := d.hour_lt
  have := d.minute_lt
  have := d.second_lt
  have hzero : number ['0', '0'] = some 0 := by decide
  rcases hz with rfl | rfl
  . simp [isoTime, digits2, clockFields, *]
  . have hplus : isZone '+' = true := by decide
    simp [isoTime, digits2, clockFields, *]

theorem parseableTimestamp_strftime (d : DateTime) : parseableTimestamp d.strftime = true := by
  have hdate := isoDate_strftime d
  have htime := isoTime_strftime d [] (.inl rfl)
  have hW : digit (d.month / 10) ≠ 'W' := digit_ne (by decide)
  have hZ (n : ℕ) : digit n ≠ 'Z' := digit_ne (by decide)
  unfold digits4 digits2 at hdate
  unfold digits2 at htime
  simp only [List.cons_append, List.nil_append] at hdate htime
  simp [parseableTimestamp, DateTime.strftime, digits4, digits2, hZ, separatorLocation, hW, hdate,
    htime]

theorem parseableTimestamp_utc (d : DateTime) : parseableTimestamp (d.strftime ++ "Z") = true := by
  have hdate := isoDate_strftime d
  have htime := isoTime_strftime d ['+', '0', '0', ':', '0', '0'] (.inr rfl)
  have hW : digit (d.month / 10) ≠ 'W' := digit_ne (by decide)
  have hZ (n : ℕ) : digit n ≠ 'Z' := digit_ne (by decide)
  unfold digits4 digits2 at hdate
  unfold digits2 at htime
  simp only [List.cons_append, List.nil_append] at hdate htime
  simp [parseableTimestamp, DateTime.strftime, digits4, digits2, hZ, separatorLocation, hW, hdate,
    htime]

end iso

end Quantbot
