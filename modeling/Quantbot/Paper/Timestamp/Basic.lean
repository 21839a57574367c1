import Mathlib

/-!
Bar timestamps: `datetime` values to the second, `strptime`/`strftime` for
`"%Y-%m-%dT%H:%M:%S"`, and `parse_bar_utc`.
-/

namespace Quantbot

inductive PyError where
  | typeError
  | valueError
  | overflowError
  | zeroDivisionError
  | keyError
  | indexError
  | attributeError
  | assertionError
  | recursionError
deriving DecidableEq, Repr

def isLeap (year : ℕ) : Bool :=
  year % 4 == 0 && (year % 100 != 0 || year % 400 == 0)

def daysInMonth (year month : ℕ) : ℕ :=
  match month with
  | 2 => if isLeap year then 29 else 28
  | 4 | 6 | 9 | 11 => 30
  | _ => 31

theorem daysInMonth_pos (year month : ℕ) : 1 ≤ daysInMonth year month := by
  unfold daysInMonth
  split <;> try split
  all_goals omega

theorem daysInMonth_le (year month : ℕ) : daysInMonth year month ≤ 31 := by
  unfold daysInMonth
  split <;> try split
  all_goals omega

structure DateTime where
  year : ℕ
  month : ℕ
  day : ℕ
  hour : ℕ
  minute : ℕ
  second : ℕ
  year_pos : 1 ≤ year
  year_le : year ≤ 9999
  month_pos : 1 ≤ month
  month_le : month ≤ 12
  day_pos : 1 ≤ day
  day_le : day ≤ daysInMonth year month
  hour_lt : hour < 24
  minute_lt : minute < 60
  second_lt : second < 60
deriving DecidableEq

namespace DateTime

def ordinal (d : DateTime) : ℕ :=
  ((((d.year * 13 + d.month) * 32 + d.day) * 24 + d.hour) * 60 + d.minute) * 60 + d.second

theorem day_lt (d : DateTime) : d.day < 32 := by
  have := d.day_le
  have := daysInMonth_le d.year d.month
  omega

theorem ordinal_injective : Function.Injective ordinal := by
  intro a b h
  have := a.month_le
  have := b.month_le
  have := a.day_lt
  have := b.day_lt
  have := a.hour_lt
  have := b.hour_lt
  have := a.minute_lt
  have := b.minute_lt
  have := a.second_lt
  have := b.second_lt
  unfold ordinal at h
  cases a
  cases b
  simp only [DateTime.mk.injEq]
  dsimp only at *
  refine ⟨?_, ?_, ?_, ?_, ?_, ?_⟩ <;> omega

instance : LinearOrder DateTime :=
  LinearOrder.lift' ordinal ordinal_injective

theorem le_iff_ordinal_le {a b : DateTime} : a ≤ b ↔ a.ordinal ≤ b.ordinal :=
  Iff.rfl

theorem lt_iff_ordinal_lt {a b : DateTime} : a < b ↔ a.ordinal < b.ordinal :=
  Iff.rfl

def make (year month day hour minute second : ℕ) : Except PyError DateTime :=
  if h : 1 ≤ year ∧ year ≤ 9999 ∧ 1 ≤ month ∧ month ≤ 12 ∧ 1 ≤ day ∧ day ≤ daysInMonth year month
      ∧ hour < 24 ∧ minute < 60 ∧ second < 60 then
    .ok ⟨year, month, day, hour, minute, second, h.1, h.2.1, h.2.2.1, h.2.2.2.1, h.2.2.2.2.1,
      h.2.2.2.2.2.1, h.2.2.2.2.2.2.1, h.2.2.2.2.2.2.2.1, h.2.2.2.2.2.2.2.2⟩
  else
    .error .valueError

theorem make_self (d : DateTime)
    : make d.year d.month d.day d.hour d.minute d.second = .ok d := by
  unfold make
  rw [dif_pos ⟨d.year_pos, d.year_le, d.month_pos, d.month_le, d.day_pos, d.day_le, d.hour_lt,
    d.minute_lt, d.second_lt⟩]

def prevDay (d : DateTime) : Except PyError DateTime :=
  if 1 < d.day then
    make d.year d.month (d.day - 1) d.hour d.minute d.second
  else if 1 < d.month then
    make d.year (d.month - 1) (daysInMonth d.year (d.month - 1)) d.hour d.minute d.second
  else if 1 < d.year then
    make (d.year - 1) 12 31 d.hour d.minute d.second
  else
    .error .overflowError

def subHours (d : DateTime) (n : ℕ) : Except PyError DateTime := do
  let days := n / 24 + if d.hour < n % 24 then 1 else 0
  let hour := (d.hour + 24 - n % 24) % 24
  let d ← go days d
  make d.year d.month d.day hour d.minute d.second
where
  go : ℕ → DateTime → Except PyError DateTime
    | 0, d => .ok d
    | n + 1, d => do go n (← d.prevDay)

end DateTime

def digit (n : ℕ) : Char :=
  Char.ofNat (48 + n % 10)

def digits2 (n : ℕ) : List Char :=
  [digit (n / 10), digit n]

def digits4 (n : ℕ) : List Char :=
  [digit (n / 1000), digit (n / 100), digit (n / 10), digit n]

def DateTime.strftime (d : DateTime) : String :=
  String.ofList (digits4 d.year ++ '-' :: digits2 d.month ++ '-' :: digits2 d.day
    ++ 'T' :: digits2 d.hour ++ ':' :: digits2 d.minute ++ ':' :: digits2 d.second)

def digitValue (c : Char) : Option ℕ :=
  if 48 ≤ c.toNat ∧ c.toNat ≤ 57 then
    some (c.toNat - 48)
  else
    none

def fourDigits : List Char → Option ℕ
  | [a, b, c, d] => do
    let a ← digitValue a
    let b ← digitValue b
    let c ← digitValue c
    let d ← digitValue d
    some (1000 * a + 100 * b + 10 * c + d)
  | _ => none

def shortField : List Char → Option ℕ
  | [a] => digitValue a
  | [a, b] => do
    let a ← digitValue a
    let b ← digitValue b
    some (10 * a + b)
  | _ => none

def dayField : List Char → Option ℕ
  | [' ', b] => digitValue b
  | cs => shortField cs

def cutAt (p : Char → Bool) : List Char → Option (List Char × List Char)
  | [] => none
  | c :: cs =>
    if p c then
      some ([], cs)
    else
      (cutAt p cs).map (fun r => (c :: r.1, r.2))

/--
The six fields of a text in the form `"%Y-%m-%dT%H:%M:%S"`. `strptime` matches without regard to
case, so the letter `t` separates as well.
-/
def strptimeFields (cs : List Char) : Option (ℕ × ℕ × ℕ × ℕ × ℕ × ℕ) := do
  let (year, cs) ← cutAt (· == '-') cs
  let (month, cs) ← cutAt (· == '-') cs
  let (day, cs) ← cutAt (fun c => c == 'T' || c == 't') cs
  let (hour, cs) ← cutAt (· == ':') cs
  let (minute, second) ← cutAt (· == ':') cs
  some (← fourDigits year, ← shortField month, ← dayField day, ← shortField hour,
    ← shortField minute, ← shortField second)

def strptime (cs : List Char) : Except PyError DateTime :=
  match strptimeFields cs with
  | some (year, month, day, hour, minute, second) =>
    DateTime.make year month day hour minute second
  | none => .error .valueError

/--
A timestamp with or without one trailing `Z`.
-/
def parseBarUtc (ts : String) : Except PyError DateTime :=
  let cs := ts.toList
  let core := if cs.getLast? = some 'Z' then cs.dropLast else cs
  strptime core

/--
The observer's form of a timestamp, without a zone letter and with every field at full width.
-/
def IsNaive (ts : String) : Prop :=
  ∃ d : DateTime, ts = d.strftime

/--
`_on_grid` for whole-hour intervals.
-/
def DateTime.OnGrid (d : DateTime) (intervalHours : ℕ) : Prop :=
  d.minute = 0 ∧ d.second = 0 ∧ (intervalHours = 0 ∨ d.hour % intervalHours = 0)

instance (d : DateTime) (intervalHours : ℕ) : Decidable (d.OnGrid intervalHours) :=
  inferInstanceAs (Decidable (_ ∧ _))

/--
The instants of the examples.
-/
def juneFirst (hour : Fin 24) : DateTime where
  year := 2026
  month := 6
  day := 1
  hour := hour
  minute := 0
  second := 0
  year_pos := by decide
  year_le := by decide
  month_pos := by decide
  month_le := by decide
  day_pos := by decide
  day_le := by decide
  hour_lt := hour.isLt
  minute_lt := by decide
  second_lt := by decide

instance hours_neZero : NeZero 24 :=
  ⟨by decide⟩

/--
Another day of the same month, at a full hour.
-/
def juneDay (day : ℕ) (hour : Fin 24) : DateTime :=
  (DateTime.make 2026 6 day hour 0 0).toOption.getD (juneFirst hour)

end Quantbot
