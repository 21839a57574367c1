import Mathlib
import Quantbot.Paper.Timestamp.Lemmas

/-!
What `fromisoformat` reads in a bar timestamp.
-/

namespace Quantbot

variable {ts : String} {d dt : DateTime}

theorem digit_of_digitValue {c : Char} {n : ℕ} (h : digitValue c = some n) : n < 10 ∧ c = digit n := by
  unfold digitValue at h
  split at h
  next hc =>
    cases h
    refine ⟨by omega, ?_⟩
    unfold digit
    rw [Nat.mod_eq_of_lt (by omega)]
    have : 48 + (c.toNat - 48) = c.toNat := by omega
    rw [this]
    simp
  . cases h

theorem digits2_of_number {a b : Char} {n : ℕ} (h : number [a, b] = some n)
    : [a, b] = digits2 n := by
  simp only [number, List.foldlM_cons, List.foldlM_nil, Option.bind_eq_bind,
    Option.bind_eq_some_iff, Option.map_eq_some_iff, Option.pure_def, Option.some.injEq] at h
  obtain ⟨_, ⟨x, hx, rfl⟩, _, ⟨y, hy, rfl⟩, rfl⟩ := h
  obtain ⟨hx10, rfl⟩ := digit_of_digitValue hx
  obtain ⟨hy10, rfl⟩ := digit_of_digitValue hy
  unfold digits2
  simp only [List.cons.injEq, digit_inj, and_true]
  omega

theorem digits4_of_number {a b c e : Char} {n : ℕ} (h : number [a, b, c, e] = some n)
    : [a, b, c, e] = digits4 n := by
  simp only [number, List.foldlM_cons, List.foldlM_nil, Option.bind_eq_bind,
    Option.bind_eq_some_iff, Option.map_eq_some_iff, Option.pure_def, Option.some.injEq] at h
  obtain ⟨_, ⟨x, hx, rfl⟩, _, ⟨y, hy, rfl⟩, _, ⟨z, hz, rfl⟩, _, ⟨w, hw, rfl⟩, rfl⟩ := h
  obtain ⟨hx10, rfl⟩ := digit_of_digitValue hx
  obtain ⟨hy10, rfl⟩ := digit_of_digitValue hy
  obtain ⟨hz10, rfl⟩ := digit_of_digitValue hz
  obtain ⟨hw10, rfl⟩ := digit_of_digitValue hw
  unfold digits4
  simp only [List.cons.injEq, digit_inj, and_true]
  omega

theorem make_fields {year month day hour minute second : ℕ}
    (h : DateTime.make year month day hour minute second = .ok d)
    : year = d.year ∧ month = d.month ∧ day = d.day ∧ hour = d.hour ∧ minute = d.minute
        ∧ second = d.second := by
  unfold DateTime.make at h
  split at h
  . cases h
    simp
  . cases h

theorem isoFields_some {cs : List Char} {year month day hour minute second : ℕ}
    (h : isoFields cs = some (year, month, day, hour, minute, second))
    : ∃ sep, cs = digits4 year ++ '-' :: digits2 month ++ '-' :: digits2 day
        ++ sep :: digits2 hour ++ ':' :: digits2 minute ++ ':' :: digits2 second := by
  unfold isoFields at h
  split at h
  next hlayout =>
    obtain ⟨hlength, h4, h7, h13, h16⟩ := hlayout
    match cs, hlength with
    | [c0, c1, c2, c3, c4, c5, c6, c7, c8, c9, c10, c11, c12, c13, c14, c15, c16, c17, c18], _ =>
      simp only [List.getElem?_cons_succ, List.getElem?_cons_zero, Option.some.injEq] at h4 h7 h13 h16
      subst h4 h7 h13 h16
      simp only [List.take_succ_cons, List.take_zero, List.drop_succ_cons, List.drop_zero,
        Option.bind_eq_bind, Option.bind_eq_some_iff, Option.some.injEq, Prod.mk.injEq] at h
      obtain ⟨_, hyear, _, hmonth, _, hday, _, hhour, _, hminute, _, hsecond, rfl, rfl, rfl, rfl,
        rfl, rfl⟩ := h
      rw [← digits4_of_number hyear, ← digits2_of_number hmonth, ← digits2_of_number hday,
        ← digits2_of_number hhour, ← digits2_of_number hminute, ← digits2_of_number hsecond]
      exact ⟨c10, rfl⟩
  . cases h

theorem fromIsoFormat_ok (h : fromIsoFormat ts = .ok d) : ∃ sep, withoutZone ts = d.stamp sep := by
  unfold fromIsoFormat at h
  split at h
  next year month day hour minute second hfields =>
    obtain ⟨rfl, rfl, rfl, rfl, rfl, rfl⟩ := make_fields h
    exact isoFields_some hfields
  . cases h

theorem fromIsoFormat_strftime (d : DateTime) : fromIsoFormat d.strftime = .ok d := by
  have := d.year_le
  have := d.month_le
  have := d.day_lt
  have := d.hour_lt
  have := d.minute_lt
  have := d.second_lt
  have hne : digit d.second ≠ 'Z' := digit_ne (by decide)
  have hcore : withoutZone d.strftime = d.stamp 'T' := by
    unfold withoutZone
    dsimp only
    rw [toList_strftime, getLast?_stamp, if_neg]
    simpa using hne
  have hfields : isoFields (d.stamp 'T')
      = some (d.year, d.month, d.day, d.hour, d.minute, d.second) := by
    rw [isoFields, if_pos (by simp [DateTime.stamp, digits2, digits4])]
    have hyear := @number_digits4 d.year (by omega)
    have hmonth := @number_digits2 d.month (by omega)
    have hday := @number_digits2 d.day (by omega)
    have hhour := @number_digits2 d.hour (by omega)
    have hminute := @number_digits2 d.minute (by omega)
    have hsecond := @number_digits2 d.second (by omega)
    unfold digits4 at hyear
    unfold digits2 at hmonth hday hhour hminute hsecond
    simp [DateTime.stamp, digits2, digits4, hyear, hmonth, hday, hhour, hminute, hsecond]
  unfold fromIsoFormat
  rw [hcore, hfields]
  exact d.make_self

theorem parseBarUtc_fromIsoFormat (hparse : parseBarUtc ts = .ok dt) (hiso : fromIsoFormat ts = .ok d)
    : d = dt ∧ (withoutZone ts = d.stamp 'T' ∨ withoutZone ts = d.stamp 't') := by
  obtain ⟨sep, hcore⟩ := fromIsoFormat_ok hiso
  change strptime (withoutZone ts) = .ok dt at hparse
  rw [hcore] at hparse
  by_cases hsep : sep = 'T' ∨ sep = 't'
  . rw [strptime_stamp d hsep] at hparse
    cases hparse
    refine ⟨rfl, ?_⟩
    rcases hsep with rfl | rfl
    . exact .inl hcore
    . exact .inr hcore
  . unfold strptime at hparse
    rw [strptimeFields_stamp, if_neg hsep] at hparse
    cases hparse

theorem stamp_T_le (d : DateTime) : d.stamp 'T' ≤ d.stamp 't' := by
  apply le_of_lt
  unfold DateTime.stamp
  simp only [List.append_assoc, List.cons_append]
  apply List.append_left_lt
  rw [cons_self_lt]
  apply List.append_left_lt
  rw [cons_self_lt]
  apply List.append_left_lt
  exact List.Lex.rel (by decide)

/--
The naive stamp of the instant does not come after the text.
-/
theorem strftime_le_of_parsed (hparse : parseBarUtc ts = .ok dt) (hiso : fromIsoFormat ts = .ok d)
    : d.strftime ≤ ts := by
  obtain ⟨-, hcore⟩ := parseBarUtc_fromIsoFormat hparse hiso
  have hprefix : withoutZone ts ≤ ts.toList := by
    apply not_lt.mp
    apply List.IsPrefix.le
    unfold withoutZone
    dsimp only
    split
    . exact List.dropLast_prefix _
    . exact List.prefix_rfl
  rw [String.le_iff_toList_le, toList_strftime]
  apply le_trans _ hprefix
  rcases hcore with hcore | hcore
  . rw [hcore]
  . rw [hcore]
    exact stamp_T_le d

theorem strptime_of_parsed (hparse : parseBarUtc ts = .ok dt) (hiso : fromIsoFormat ts = .ok d)
    : strptime (ts.toList.rdropWhile (· == 'Z')) = .ok d := by
  obtain ⟨rfl, hcore⟩ := parseBarUtc_fromIsoFormat hparse hiso
  obtain ⟨sep, hsep⟩ : ∃ sep, withoutZone ts = d.stamp sep := fromIsoFormat_ok hiso
  have hdrop : ts.toList.rdropWhile (· == 'Z') = withoutZone ts := by
    have hself : (withoutZone ts).rdropWhile (· == 'Z') = withoutZone ts := by
      have hne : digit d.second ≠ 'Z' := digit_ne (by decide)
      rw [List.rdropWhile_eq_self_iff, hsep]
      intro hl
      simpa [DateTime.stamp, digits2] using hne
    unfold withoutZone at hself ⊢
    dsimp only at hself ⊢
    split
    next hlast =>
      rw [if_pos hlast] at hself
      rw [← List.dropLast_append_getLast? 'Z' hlast, List.rdropWhile_concat, if_pos (by rfl)]
      rw [List.dropLast_concat]
      exact hself
    next hlast =>
      rw [if_neg hlast] at hself
      exact hself
  rw [hdrop]
  exact hparse

end Quantbot
