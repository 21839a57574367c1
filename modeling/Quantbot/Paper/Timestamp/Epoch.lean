import Mathlib
import Quantbot.Paper.Timestamp.Iso

/-!
Milliseconds since the epoch.
-/

namespace Quantbot

def daysBeforeMonth (year month : ℕ) : ℕ :=
  ((List.range (month - 1)).map (fun m => daysInMonth year (m + 1))).sum

namespace DateTime

/--
`date.toordinal`.
-/
def toOrdinal (d : DateTime) : ℕ :=
  firstDay d.year + daysBeforeMonth d.year d.month + d.day - 1

/--
January 1, 1970 has the ordinal 719163.
-/
def epochMs (d : DateTime) : ℤ :=
  ((((d.toOrdinal - 719163) * 24 + d.hour) * 60 + d.minute) * 60 + d.second) * 1000

end DateTime

/--
Year, month and day of an ordinal, by cycles of 400, 100, 4 and 1 years.
-/
def ordinalToDate (ordinal : ℕ) : ℕ × ℕ × ℕ :=
  let n := (ordinal - 1) % 146097
  let n100 := n / 36524
  let n4 := n % 36524 / 1461
  let n1 := n % 36524 % 1461 / 365
  let year := (ordinal - 1) / 146097 * 400 + 1 + n100 * 100 + n4 * 4 + n1
  if n1 = 4 ∨ n100 = 4 then
    (year - 1, 12, 31)
  else
    let day := n % 36524 % 1461 % 365
    let month := ((List.range 12).filter (fun m => daysBeforeMonth year (m + 1) ≤ day)).length
    (year, month, day - daysBeforeMonth year month + 1)

/--
`_iso_z(_dt_from_ms(ms))`.
-/
def isoOfEpochMs (ms : ℤ) : String :=
  let (year, month, day) := ordinalToDate (ms / 86400000 + 719163).toNat
  let second := (ms / 1000 % 86400).toNat
  String.ofList (digits4 year ++ '-' :: digits2 month ++ '-' :: digits2 day
    ++ 'T' :: digits2 (second / 3600) ++ ':' :: digits2 (second / 60 % 60)
    ++ ':' :: digits2 (second % 60) ++ ['Z'])

theorem daysBeforeMonth_succ (year : ℕ) {month : ℕ} (h : 1 ≤ month)
    : daysBeforeMonth year (month + 1) = daysBeforeMonth year month + daysInMonth year month := by
  unfold daysBeforeMonth
  obtain ⟨m, rfl⟩ : ∃ m, month = m + 1 := ⟨month - 1, by omega⟩
  simp [List.range_succ]

theorem daysBeforeMonth_lt (year : ℕ) {month month' : ℕ} (h : 1 ≤ month) (hlt : month < month')
    : daysBeforeMonth year month + daysInMonth year month ≤ daysBeforeMonth year month' := by
  induction month', hlt using Nat.le_induction with
  | base => exact (daysBeforeMonth_succ year h).ge
  | succ m hm ih =>
    have := @daysBeforeMonth_succ year m (by omega)
    omega

theorem daysInYear (year : ℕ)
    : daysBeforeMonth year 12 + 31 = 365 + if isLeap year then 1 else 0 := by
  simp only [daysBeforeMonth, List.range_succ, daysInMonth]
  split <;> simp

theorem isLeap_iff (year : ℕ) : isLeap year ↔ 4 ∣ year ∧ (¬100 ∣ year ∨ 400 ∣ year) := by
  simp only [isLeap, Bool.and_eq_true, Bool.or_eq_true, beq_iff_eq, bne_iff_ne, ne_eq,
    Nat.dvd_iff_mod_eq_zero]

theorem firstDay_succ {year : ℕ} (h : 1 ≤ year)
    : firstDay (year + 1) = firstDay year + 365 + if isLeap year then 1 else 0 := by
  obtain ⟨y, rfl⟩ : ∃ y, year = y + 1 := ⟨year - 1, by omega⟩
  have hhundred : y / 100 ≤ y / 4 := Nat.div_le_div_left (by omega) (by omega)
  have hmultiple : 400 ∣ y + 1 → 100 ∣ y + 1 := Nat.dvd_trans (by omega)
  have hmultiple' : 100 ∣ y + 1 → 4 ∣ y + 1 := Nat.dvd_trans (by omega)
  unfold firstDay
  rw [Nat.add_sub_cancel, Nat.add_sub_cancel, Nat.succ_div, Nat.succ_div, Nat.succ_div]
  simp only [isLeap_iff]
  generalize y / 4 = a at *
  generalize y / 100 = b at *
  generalize y / 400 = c at *
  by_cases h4 : 4 ∣ y + 1 <;> by_cases h100 : 100 ∣ y + 1 <;> by_cases h400 : 400 ∣ y + 1
  all_goals
    simp only [h4, h100, h400, if_true, if_false, not_true_eq_false, not_false_eq_true, or_true,
      or_false, true_or, false_or, and_true, and_false, and_self, true_and, forall_const, true_imp_iff] at *
  all_goals omega

theorem firstDay_lt {year year' : ℕ} (h : 1 ≤ year) (hlt : year < year')
    : firstDay year + daysBeforeMonth year 12 + 31 ≤ firstDay year' := by
  rw [Nat.lt_iff_add_one_le] at hlt
  induction year', hlt using Nat.le_induction with
  | base =>
    have := daysInYear year
    have := firstDay_succ h
    omega
  | succ y hy ih =>
    have := @firstDay_succ y (by omega)
    omega

namespace DateTime

variable {a b : DateTime}

theorem dayOfYear_le (d : DateTime)
    : daysBeforeMonth d.year d.month + d.day ≤ daysBeforeMonth d.year 12 + 31 := by
  have hday := d.day_le
  have hmonth := d.month_le
  rcases Nat.lt_or_ge d.month 12 with hlt | hge
  . have := daysBeforeMonth_lt d.year d.month_pos hlt
    omega
  . have heq : d.month = 12 := by omega
    rw [heq] at hday ⊢
    have := daysInMonth_le d.year 12
    omega

/--
An earlier day has a smaller ordinal.
-/
theorem toOrdinal_lt (h : a.year < b.year ∨ a.year = b.year
      ∧ (a.month < b.month ∨ a.month = b.month ∧ a.day < b.day)) : a.toOrdinal < b.toOrdinal := by
  have := a.day_pos
  have := b.day_pos
  have hday := a.day_le
  unfold toOrdinal
  rcases h with hyear | ⟨hyear, hmonth | ⟨hmonth, hday'⟩⟩
  . have := firstDay_lt a.year_pos hyear
    have := a.dayOfYear_le
    omega
  . have hbefore := daysBeforeMonth_lt a.year a.month_pos hmonth
    rw [hyear] at hbefore hday ⊢
    omega
  . rw [hyear, hmonth]
    omega

theorem epochMs_lt (h : a < b) : a.epochMs < b.epochMs := by
  rw [lt_iff_ordinal_lt] at h
  have := a.month_le
  have := b.month_le
  have := a.day_lt
  have := b.day_lt
  have := a.hour_lt
  have := b.hour_lt
  have := a.minute_lt
  have := b.minute_lt
  have := a.second_lt
  have := b.second_lt
  by_cases hday : a.year < b.year ∨ a.year = b.year
      ∧ (a.month < b.month ∨ a.month = b.month ∧ a.day < b.day)
  . have := toOrdinal_lt hday
    unfold epochMs
    omega
  . unfold ordinal at h
    have hsame : a.year = b.year ∧ a.month = b.month ∧ a.day = b.day := by omega
    unfold epochMs toOrdinal
    rw [hsame.1, hsame.2.1, hsame.2.2]
    rw [hsame.1, hsame.2.1, hsame.2.2] at h
    omega

theorem epochMs_strictMono : StrictMono epochMs :=
  fun _ _ h => epochMs_lt h

/--
A `datetime` to the second falls on a whole second.
-/
theorem epochMs_emod (d : DateTime) : d.epochMs % 1000 = 0 := by
  unfold epochMs
  omega

end DateTime

end Quantbot
