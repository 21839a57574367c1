import Quantbot.Paper.Timestamp.Basic

/-!
`_parseable_timestamp`: the texts `datetime.fromisoformat` accepts once every `Z` is spelled
`+00:00`.
-/

namespace Quantbot

def isDigit (c : Char) : Bool :=
  (digitValue c).isSome

def number (cs : List Char) : Option ℕ :=
  cs.foldlM (fun n c => (digitValue c).map (fun d => 10 * n + d)) 0

def dateExists (year month day : ℕ) : Bool :=
  1 ≤ year ∧ 1 ≤ month ∧ month ≤ 12 ∧ 1 ≤ day ∧ day ≤ daysInMonth year month

/--
The proleptic ordinal of January 1; ordinal 1 is a Monday.
-/
def firstDay (year : ℕ) : ℕ :=
  365 * (year - 1) + (year - 1) / 4 - (year - 1) / 100 + (year - 1) / 400 + 1

def weekDateExists (year week day : ℕ) : Bool :=
  let first := firstDay year
  let weekday := (first + 6) % 7
  let longYear := first % 7 == 4 || (first % 7 == 3 && isLeap year)
  -- the Monday of week 1, one week early when the year opens in the old one
  let monday := if 3 < weekday then first + 7 - weekday else first - weekday
  1 ≤ year ∧ 1 ≤ week ∧ (week ≤ 52 ∨ week = 53 ∧ longYear) ∧ 1 ≤ day ∧ day ≤ 7
    ∧ monday + 7 * (week - 1) + (day - 1) ≤ 3652059

/--
Where the date ends; the character there separates it from the time.
-/
def separatorLocation (cs : List Char) : Option ℕ :=
  if cs.length < 7 then
    none
  else if cs.length = 7 then
    some 7
  else if cs[4]? = some '-' then
    if cs[5]? ≠ some 'W' then
      some 10
    else if cs[8]? ≠ some '-' then
      some 8
    else if cs.length = 9 then
      none
    else if (cs[10]?.map isDigit).getD false then
      some 8
    else
      some 10
  else if cs[4]? = some 'W' then
    let idx := 7 + ((cs.drop 7).takeWhile isDigit).length
    if idx < 9 then
      some idx
    else if idx % 2 = 0 then
      some 7
    else
      some 8
  else
    some 8

/--
`YYYY-MM-DD`, `YYYYMMDD` or a week date, with the dash used throughout or nowhere.
-/
def isoDate (cs : List Char) : Bool :=
  let dash := if cs[4]? = some '-' then 1 else 0
  match number (cs.take 4) with
  | none => false
  | some year =>
    let cs := cs.drop (4 + dash)
    if cs.head? = some 'W' then
      let rest := cs.drop 3
      match number ((cs.drop 1).take 2) with
      | none => false
      | some week =>
        if rest.isEmpty then
          weekDateExists year week 1
        else if (rest.head? = some '-') ≠ (dash = 1) then
          false
        else
          match number ((rest.drop dash).take 1) with
          | none => false
          | some day => weekDateExists year week day
    else
      let rest := cs.drop 2
      if (rest.head? = some '-') ≠ (dash = 1) then
        false
      else
        match number (cs.take 2), number ((rest.drop dash).take 2) with
        | some month, some day => (rest.drop dash).length = 2 ∧ dateExists year month day
        | _, _ => false

/--
`HH[:?MM[:?SS[{.,}fff[fff]]]]` as hours, minutes and seconds, digits past the sixth of a fraction
dropped.
-/
def clockFields (cs : List Char) : Option (ℕ × ℕ × ℕ) :=
  match cs with
  | h1 :: h2 :: cs => do
    let hour ← number [h1, h2]
    if cs.isEmpty then
      return (hour, 0, 0)
    let hasSep := cs.head? == some ':'
    match if hasSep then cs.drop 1 else cs with
    | m1 :: m2 :: cs =>
      let minute ← number [m1, m2]
      if cs.isEmpty then
        return (hour, minute, 0)
      if hasSep && cs.head? != some ':' then
        none
      match if hasSep then cs.drop 1 else cs with
      | s1 :: s2 :: cs =>
        let second ← number [s1, s2]
        match cs with
        | [] => return (hour, minute, second)
        | p :: fraction =>
          if (p = '.' ∨ p = ',') ∧ fraction ≠ [] ∧ fraction.all isDigit then
            return (hour, minute, second)
          else
            none
      | _ => none
    | _ => none
  | _ => none

def isZone (c : Char) : Bool :=
  c == '-' || c == '+'

/--
A clock reading, then possibly a zone offset of less than a day.
-/
def isoTime (cs : List Char) : Bool :=
  match clockFields (cs.takeWhile (fun c => !isZone c)) with
  | none => false
  | some (hour, minute, second) =>
    (hour < 24 ∧ minute < 60 ∧ second < 60)
      &&
    match cs.dropWhile (fun c => !isZone c) with
    | [] => true
    | _ :: offset =>
      match clockFields offset with
      | none => false
      | some (hour, minute, second) => 3600 * hour + 60 * minute + second < 86400

def parseableTimestamp (ts : String) : Bool :=
  let cs := ts.toList.flatMap (fun c => if c = 'Z' then "+00:00".toList else [c])
  match separatorLocation cs with
  | none => false
  | some loc =>
    isoDate (cs.take loc) && ((cs.drop (loc + 1)).isEmpty || isoTime (cs.drop (loc + 1)))

def withoutZone (ts : String) : List Char :=
  let cs := ts.toList
  if cs.getLast? = some 'Z' then cs.dropLast else cs

/--
The six fields of the layout of a bar timestamp, at full width; any character separates the date
from the time.
-/
def isoFields (cs : List Char) : Option (ℕ × ℕ × ℕ × ℕ × ℕ × ℕ) :=
  if cs.length = 19 ∧ cs[4]? = some '-' ∧ cs[7]? = some '-' ∧ cs[13]? = some ':'
      ∧ cs[16]? = some ':' then do
    some (← number (cs.take 4), ← number ((cs.drop 5).take 2), ← number ((cs.drop 8).take 2),
      ← number ((cs.drop 11).take 2), ← number ((cs.drop 14).take 2), ← number (cs.drop 17))
  else
    none

/--
`datetime.fromisoformat` on the only one of its layouts that `parse_bar_utc` reads as well.
-/
def fromIsoFormat (ts : String) : Except PyError DateTime :=
  match isoFields (withoutZone ts) with
  | some (year, month, day, hour, minute, second) =>
    DateTime.make year month day hour minute second
  | none => .error .valueError

end Quantbot
