import WorkflowLint.Text.Basic

/-!
# Dates and times

The dates and times that YAML documents and reports carry, with the rules that make them valid, and
their texts: years have four digits and all other parts two, and a time may have an offset from
universal time.
-/

namespace WorkflowLint

/-- A day. -/
structure Date where
  year : Nat
  month : Nat
  day : Nat
deriving DecidableEq

/-- A day and a time of that day, with its offset from universal time in microseconds if it has
one. -/
structure Timestamp where
  date : Date
  hour : Nat
  minute : Nat
  second : Nat
  microsecond : Nat
  offset : Option Int
deriving DecidableEq

/-- The part of a date or time that is out of its range. -/
inductive DateError where
  | year (n : Nat)
  | month
  | day
  | hour
  | minute
  | second
  | offset (microseconds : Int)
deriving DecidableEq

namespace Date

/-- Whether a year has a leap day. -/
def isLeap (year : Nat) : Bool := year % 4 == 0 && (year % 100 != 0 || year % 400 == 0)

/-- The number of days of a month. -/
def daysIn (year month : Nat) : Nat :=
  if month = 2 then if isLeap year then 29 else 28
  else if month = 4 ∨ month = 6 ∨ month = 9 ∨ month = 11 then 30
  else 31

/-- The day with the given parts; years go from 1 to 9999. -/
def of? (year month day : Nat) : Except DateError Date :=
  if year < 1 ∨ 9999 < year then .error (.year year)
  else if month < 1 ∨ 12 < month then .error .month
  else if day < 1 ∨ daysIn year month < day then .error .day
  else .ok ⟨year, month, day⟩

/-- Year, month and day between hyphens. -/
def iso (d : Date) : Text :=
  Text.ofNatPadded 10 4 d.year ++ "-" ++ Text.ofNatPadded 10 2 d.month ++ "-"
    ++ Text.ofNatPadded 10 2 d.day

/-- The number of days from the first day of the first year. -/
def dayNumber (d : Date) : Nat :=
  let y := d.year - 1
  365 * y + y / 4 - y / 100 + y / 400
    + (List.range (d.month - 1)).foldl (fun days m => days + daysIn d.year (m + 1)) 0 + (d.day - 1)

/-- The number of the first day of a year. -/
def yearStart (year : Nat) : Nat := (⟨year, 1, 1⟩ : Date).dayNumber

/-- The year, month and day of the day that comes `days` after the first one of a year. -/
def ofYearDay (year days : Nat) : Date :=
  let (month, rest) := (List.range 11).foldl (fun (m, rest) i =>
    if m = i + 1 ∧ daysIn year m ≤ rest then (m + 1, rest - daysIn year m) else (m, rest)) (1, days)
  ⟨year, month, rest + 1⟩

/-- The day with a number that is not further than a year away from the first day of a year. -/
def ofDayNumberNear (year n : Nat) : Date :=
  let y :=
    if n < yearStart year then year - 1 else if yearStart (year + 1) ≤ n then year + 1 else year
  ofYearDay y (n - yearStart y)

end Date

namespace Timestamp

/-- The number of microseconds of a second. -/
def microsecondsOfSecond : Nat := 1000000

/-- The number of microseconds of a day. -/
def microsecondsOfDay : Nat := 86400 * microsecondsOfSecond

/-- The time with the given parts; an offset has to be shorter than a day. -/
def of? (year month day hour minute second microsecond : Nat) (offset : Option Int) :
    Except DateError Timestamp :=
  match offset.filter fun n => microsecondsOfDay ≤ n.natAbs with
  | some n => .error (.offset n)
  | none =>
    match Date.of? year month day with
    | .error e => .error e
    | .ok date =>
      if 23 < hour then .error .hour
      else if 59 < minute then .error .minute
      else if 59 < second then .error .second
      else .ok ⟨date, hour, minute, second, microsecond, offset⟩

/-- Hour, minute and second between colons. -/
def clock (t : Timestamp) : Text :=
  Text.ofNatPadded 10 2 t.hour ++ ":" ++ Text.ofNatPadded 10 2 t.minute ++ ":"
    ++ Text.ofNatPadded 10 2 t.second

/-- A fraction of a second, as a point and six digits. -/
def fractionText (microseconds : Nat) : Text := "." ++ Text.ofNatPadded 10 6 microseconds

/-- An offset as a sign, hours and minutes; seconds are written if there are any, and so is a
fraction of a second. -/
def offsetText (offset : Int) : Text :=
  let n := offset.natAbs / microsecondsOfSecond
  let fraction := offset.natAbs % microsecondsOfSecond
  let sign : Text := if offset < 0 then "-" else "+"
  let tail : Text := if fraction = 0 then [] else fractionText fraction
  let seconds : Text :=
    if n % 60 = 0 ∧ fraction = 0 then [] else ":" ++ Text.ofNatPadded 10 2 (n % 60)
  sign ++ Text.ofNatPadded 10 2 (n / 3600) ++ ":" ++ Text.ofNatPadded 10 2 (n / 60 % 60)
    ++ seconds ++ tail

/-- Date and time, to the second, around a separator. -/
def isoSeconds (separator : Text) (t : Timestamp) : Text :=
  t.date.iso ++ separator ++ t.clock ++ (t.offset.map offsetText).getD []

/-- Date and time around a separator; microseconds are written if there are any. -/
def iso (separator : Text) (t : Timestamp) : Text :=
  let fraction : Text := if t.microsecond = 0 then [] else fractionText t.microsecond
  t.date.iso ++ separator ++ t.clock ++ fraction ++ (t.offset.map offsetText).getD []

/-- The moment in microseconds, by the time's own offset. -/
def moment (t : Timestamp) : Int :=
  (((t.date.dayNumber * 24 + t.hour) * 60 + t.minute) * 60 + t.second : Nat)
    * microsecondsOfSecond + t.microsecond - t.offset.getD 0

/-- Times are the same if both have offsets and are the same moment, or if neither has one and
their parts agree. -/
def same (s t : Timestamp) : Bool := s.offset.isSome == t.offset.isSome && s.moment == t.moment

end Timestamp
end WorkflowLint
