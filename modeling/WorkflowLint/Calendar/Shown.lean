import WorkflowLint.Calendar

/-!
# Dates and times inside messages

A date or time inside a quoted value is spelled out by its parts, and so is a span of time.  What is
wrong with a date or time that does not exist is said of the first part that is out of its range.
-/

namespace WorkflowLint

namespace Timestamp

/-- A span of microseconds, as days, the seconds of a day, and the microseconds of a second; parts
that are zero are left out. -/
def spanShown (microseconds : Int) : Text :=
  let days := microseconds.fdiv microsecondsOfDay
  let rest := (microseconds.fmod microsecondsOfDay).toNat
  let part (name : Text) (n : Int) : List Text := if n = 0 then [] else [name ++ Text.ofInt n]
  let parts :=
    part "days=" days ++ part "seconds=" (rest / microsecondsOfSecond : Nat)
      ++ part "microseconds=" (rest % microsecondsOfSecond : Nat)
  "datetime.timedelta(" ++ (if parts.isEmpty then ↑"0" else Text.join ", " parts) ++ ")"

/-- The parts of a time, the last ones left out if they are zero. -/
def shown (t : Timestamp) : Text :=
  let tail : List Nat :=
    if t.microsecond ≠ 0 then [t.second, t.microsecond] else if t.second ≠ 0 then [t.second] else []
  let parts := ([t.date.year, t.date.month, t.date.day, t.hour, t.minute] ++ tail).map Text.ofNat
  let zone : List Text :=
    match t.offset with
    | none => []
    | some 0 => ["tzinfo=datetime.timezone.utc"]
    | some s => ["tzinfo=datetime.timezone(" ++ spanShown s ++ ")"]
  "datetime.datetime(" ++ Text.join ", " (parts ++ zone) ++ ")"

end Timestamp

/-- The parts of a date. -/
def Date.shown (d : Date) : Text :=
  "datetime.date(" ++ Text.join ", " ([d.year, d.month, d.day].map Text.ofNat) ++ ")"

/-- The wording for a part of a date or time that is out of its range. -/
def DateError.message : DateError → Text
  | .year n => "year " ++ Text.ofNat n ++ " is out of range"
  | .month => "month must be in 1..12"
  | .day => "day is out of range for month"
  | .hour => "hour must be in 0..23"
  | .minute => "minute must be in 0..59"
  | .second => "second must be in 0..59"
  | .offset n =>
    "offset must be a timedelta strictly between -timedelta(hours=24) and timedelta(hours=24), not "
      ++ Timestamp.spanShown n ++ "."

end WorkflowLint
