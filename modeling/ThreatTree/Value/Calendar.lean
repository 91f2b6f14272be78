/-!
# Days and moments

Days of the Gregorian calendar from the year 1 to the year 9999, and moments on them with
microseconds and, perhaps, an offset from universal time. Constructors check the ranges, so
every value is a day or a moment that exists.

Two moments with offsets are the same when they are the same in universal time; a moment
with an offset is never the same as one without.
-/

namespace ThreatTree.Calendar

/-! ## Days -/

def isLeapYear (year : Nat) : Bool :=
  year % 4 == 0 && (year % 100 != 0 || year % 400 == 0)

/-- The number of days of a month; zero if there is no such month. -/
def daysInMonth (year month : Nat) : Nat :=
  match month with
  | 1 | 3 | 5 | 7 | 8 | 10 | 12 => 31
  | 4 | 6 | 9 | 11 => 30
  | 2 => if isLeapYear year then 29 else 28
  | _ => 0

/-- A day of the calendar. -/
structure Date where
  year : Nat
  month : Nat
  day : Nat
  deriving DecidableEq, Repr

namespace Date

/-- The day exists. -/
def valid (d : Date) : Bool :=
  1 ≤ d.year && d.year ≤ 9999 && 1 ≤ d.day && d.day ≤ daysInMonth d.year d.month

def of? (year month day : Nat) : Option Date :=
  let d : Date := ⟨year, month, day⟩
  if d.valid then some d else none

/-- Days before the first of January of a year, counted from the year 1. -/
def daysBeforeYear (year : Nat) : Nat :=
  let y := year - 1
  y * 365 + y / 4 - y / 100 + y / 400

/-- Days of a year before a month. -/
def daysBeforeMonth (year : Nat) : Nat → Nat
  | 0 => 0
  | month + 1 => daysBeforeMonth year month + daysInMonth year month

/-- The number of the day, the first of January of the year 1 being number 1. -/
def ordinal (d : Date) : Nat :=
  daysBeforeYear d.year + daysBeforeMonth d.year d.month + d.day

end Date

/-! ## Moments -/

/-- A day and a time of day. The offset from universal time is in seconds. -/
structure Moment where
  date : Date
  hour : Nat
  minute : Nat
  second : Nat
  microsecond : Nat
  offset : Option Int
  deriving DecidableEq, Repr

namespace Moment

/-- The time of day exists, and the offset is less than a day either way. -/
def valid (m : Moment) : Bool :=
  m.date.valid && m.hour < 24 && m.minute < 60 && m.second < 60 && m.microsecond < 1000000
    && (m.offset.all fun o => -86400 < o && o < 86400)

/-- Microseconds from the start of the year 1, by the moment's own clock. -/
def clock (m : Moment) : Int :=
  (((m.date.ordinal * 24 + m.hour) * 60 + m.minute) * 60 + m.second : Nat) * 1000000
    + m.microsecond

/-- Both moments have an offset and are one in universal time, or neither has and their clocks
agree. -/
def same (a b : Moment) : Bool :=
  match a.offset, b.offset with
  | none, none => a.clock == b.clock
  | some x, some y => a.clock - x * 1000000 == b.clock - y * 1000000
  | _, _ => false

end Moment

/-! ## Written forms -/

/-- Leading zeros up to a width. -/
def padded (width n : Nat) : String :=
  let digits := toString n
  String.ofList (List.replicate (width - digits.length) '0') ++ digits

/-- Year, month and day with hyphens. -/
def Date.text (d : Date) : String :=
  padded 4 d.year ++ "-" ++ padded 2 d.month ++ "-" ++ padded 2 d.day

/-- Hours, minutes and, where there are any, seconds of an offset. -/
def offsetText (o : Int) : String :=
  let n := o.natAbs
  (if o < 0 then "-" else "+") ++ padded 2 (n / 3600) ++ ":" ++ padded 2 (n / 60 % 60)
    ++ (if n % 60 = 0 then "" else ":" ++ padded 2 (n % 60))

/-- Day and time of day with a blank between them; microseconds only where there are any. -/
def Moment.text (m : Moment) : String :=
  m.date.text ++ " " ++ padded 2 m.hour ++ ":" ++ padded 2 m.minute ++ ":" ++ padded 2 m.second
    ++ (if m.microsecond = 0 then "" else "." ++ padded 6 m.microsecond)
    ++ (m.offset.map offsetText).getD ""

end ThreatTree.Calendar
