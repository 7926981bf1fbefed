import MapServiceAgent.ForStd.Text

/-!
# Dates and times of day

`datetime.date` by its proleptic Gregorian ordinal, and `datetime.time` with
its optional UTC offset.
-/

namespace MapServiceAgent.Native

/-- `date.max.toordinal()`. -/
def maxOrdinal : Nat := 3652059

/-- `datetime.date`: day 1 is 0001-01-01. -/
structure Date where
  ordinal : Nat
  one_le : 1 ≤ ordinal
  le_max : ordinal ≤ maxOrdinal
deriving DecidableEq, Repr

/-- Whether a year of the Gregorian calendar has a 29th of February. -/
def isLeap (y : Nat) : Bool := y % 4 == 0 && (y % 100 != 0 || y % 400 == 0)

/-- The days of a month; there are none in a month that is not one. -/
def daysInMonth (y m : Nat) : Nat :=
  match m with
  | 1 => 31
  | 2 => if isLeap y then 29 else 28
  | 3 => 31
  | 4 => 30
  | 5 => 31
  | 6 => 30
  | 7 => 31
  | 8 => 31
  | 9 => 30
  | 10 => 31
  | 11 => 30
  | 12 => 31
  | _ => 0

/-- Days in the months of year `y` before month `m`. -/
def daysBeforeMonth (y : Nat) : (m : Nat) → Nat
  | 0 => 0
  | 1 => 0
  | m + 1 => daysBeforeMonth y m + daysInMonth y m

/-- The days from the first of January of the year 1 to that of the year `y`. -/
def daysBeforeYear (y : Nat) : Nat := (y - 1) * 365 + (y - 1) / 4 - (y - 1) / 100 + (y - 1) / 400

/-- `date(y, m, d)`, if the three make a date. -/
def Date.ofYmd? (y m d : Nat) : Option Date :=
  let n := daysBeforeYear y + daysBeforeMonth y m + d
  if h : (1 ≤ y ∧ y ≤ 9999 ∧ 1 ≤ m ∧ m ≤ 12 ∧ 1 ≤ d ∧ d ≤ daysInMonth y m) ∧
      1 ≤ n ∧ n ≤ maxOrdinal then
    some ⟨n, h.2.1, h.2.2⟩
  else none

/-- The month and day of day `n` (from 0) of year `y`, counting from month `m`. -/
def monthDay (y : Nat) : (fuel m n : Nat) → Nat × Nat
  | 0, m, n => (m, n + 1)
  | fuel + 1, m, n =>
    if n < daysInMonth y m then (m, n + 1) else monthDay y fuel (m + 1) (n - daysInMonth y m)

/-- Year, month and day of an ordinal, by cycles of 400, 100, 4 and 1 years. -/
def ymdOfOrdinal (ordinal : Nat) : Nat × Nat × Nat :=
  let n := ordinal - 1
  let n400 := n / 146097
  let n := n % 146097
  let n100 := n / 36524
  let n' := n % 36524
  let n4 := n' / 1461
  let n' := n' % 1461
  let n1 := n' / 365
  let year := n400 * 400 + n100 * 100 + n4 * 4 + n1 + 1
  if n1 = 4 ∨ n100 = 4 then (year - 1, 12, 31)
  else
    let md := monthDay year 11 1 (n' % 365)
    (year, md.1, md.2)

/-- `isoformat()` of the day with this ordinal. -/
def isoOfOrdinal (ordinal : Nat) : String :=
  let (y, m, d) := ymdOfOrdinal ordinal
  padNat 4 y ++ "-" ++ padNat 2 m ++ "-" ++ padNat 2 d

/-- The date as `YYYY-MM-DD`. -/
def Date.isoformat (d : Date) : String := isoOfOrdinal d.ordinal

/-- The ordinal of Monday of week 1 of ISO year `y`, less one day. -/
def isoWeek1Before (y : Nat) : Nat :=
  -- 0 for a Monday
  let firstday := daysBeforeYear y + 1
  let weekday := (firstday + 6) % 7
  let monday := firstday - weekday
  if weekday > 3 then monday + 6 else monday - 1

/-- The date of day `d` of ISO week `w` of year `y`. -/
def Date.ofIsoWeek? (y w d : Nat) : Option Date :=
  let weekday := (daysBeforeYear y + 1 + 6) % 7
  let weeks := if weekday = 3 ∨ (weekday = 2 ∧ isLeap y) then 53 else 52
  let n := isoWeek1Before y + (w - 1) * 7 + d
  if h : (1 ≤ y ∧ y ≤ 9999 ∧ 1 ≤ w ∧ w ≤ weeks ∧ 1 ≤ d ∧ d ≤ 7) ∧ 1 ≤ n ∧ n ≤ maxOrdinal then
    some ⟨n, h.2.1, h.2.2⟩
  else none

/-- `date.fromisoformat`: calendar dates and week dates, basic and extended. -/
def Date.fromisoformat? (s : String) : Option Date :=
  match s.toList with
  | [y1, y2, y3, y4, '-', 'W', w1, w2] => do
    Date.ofIsoWeek? (← digits? [y1, y2, y3, y4]) (← digits? [w1, w2]) 1
  | [y1, y2, y3, y4, '-', 'W', w1, w2, '-', d] => do
    Date.ofIsoWeek? (← digits? [y1, y2, y3, y4]) (← digits? [w1, w2]) (← digits? [d])
  | [y1, y2, y3, y4, 'W', w1, w2] => do
    Date.ofIsoWeek? (← digits? [y1, y2, y3, y4]) (← digits? [w1, w2]) 1
  | [y1, y2, y3, y4, 'W', w1, w2, d] => do
    Date.ofIsoWeek? (← digits? [y1, y2, y3, y4]) (← digits? [w1, w2]) (← digits? [d])
  | [y1, y2, y3, y4, '-', m1, m2, '-', d1, d2] => do
    Date.ofYmd? (← digits? [y1, y2, y3, y4]) (← digits? [m1, m2]) (← digits? [d1, d2])
  | [y1, y2, y3, y4, m1, m2, d1, d2] => do
    Date.ofYmd? (← digits? [y1, y2, y3, y4]) (← digits? [m1, m2]) (← digits? [d1, d2])
  | _ => none

example : isoOfOrdinal 739803 = "2026-07-06" := by decide

/-- `datetime.time`; the offset, when there is one, is in seconds. -/
structure Time where
  hour : Nat
  minute : Nat
  second : Nat
  microsecond : Nat
  utcoffset : Option Int
  hour_lt : hour < 24
  minute_lt : minute < 60
  second_lt : second < 60
  microsecond_lt : microsecond < 1000000
deriving DecidableEq, Repr

namespace Time

/-- Microseconds since midnight, the offset aside. -/
def micros (t : Time) : Int :=
  ((t.hour * 3600 + t.minute * 60 + t.second) * 1000000 + t.microsecond : Nat)

/-- Minutes since midnight, the offset and the seconds aside. -/
def minuteOfDay (t : Time) : Int := t.hour * 60 + t.minute

/-- `a >= b`, or `none` where Python raises: one end has an offset, the other
    none. Two times with offsets are compared in UTC. -/
def ge? (a b : Time) : Option Bool :=
  match a.utcoffset, b.utcoffset with
  | none, none => some (decide (b.micros ≤ a.micros))
  | some x, some y => some (decide (b.micros - y * 1000000 ≤ a.micros - x * 1000000))
  | _, _ => none

/-- `isoformat()`. -/
def isoformat (t : Time) : String :=
  let base := padNat 2 t.hour ++ ":" ++ padNat 2 t.minute ++ ":" ++ padNat 2 t.second
  let frac := if t.microsecond = 0 then "" else "." ++ padNat 6 t.microsecond
  let off := match t.utcoffset with
    | none => ""
    | some x =>
      let n := x.natAbs
      let tail := if n % 60 = 0 then "" else ":" ++ padNat 2 (n % 60)
      (if x < 0 then "-" else "+") ++ padNat 2 (n / 3600) ++ ":" ++ padNat 2 (n / 60 % 60) ++ tail
  base ++ frac ++ off

/-- A time of day is no earlier than midnight. -/
theorem minuteOfDay_nonneg (t : Time) : 0 ≤ t.minuteOfDay := by
  simp only [minuteOfDay]; omega

/-- And before the next one. -/
theorem minuteOfDay_lt (t : Time) : t.minuteOfDay < 1440 := by
  have := t.hour_lt
  have := t.minute_lt
  simp only [minuteOfDay]; omega

end Time

end MapServiceAgent.Native
