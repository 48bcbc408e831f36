import WorkflowLint.Calendar.Shown
import WorkflowLint.Fault
import WorkflowLint.Text.Quoted

/-!
# Reading dates and times in the formats of ISO 8601

`Timestamp.ofIso` reads a date, and a time of that day if one follows after any one character.

A date is a year with a month and a day, or a year with a week and a day of that week.  A time is an
hour, possibly with a minute, a second and a fraction of a second, and an offset from universal time
may follow it.  The parts of a date stand between hyphens and those of a time between colons, or
next to each other.
-/

namespace WorkflowLint.Iso

/-- Reads a number of exactly some digits. -/
def readDigits? (count : Nat) (t : Text) : Option (Nat × Text) :=
  let digits := (t.take count).takeWhile CodePoint.isDigit
  if digits.length < count then none else some (Text.toNat digits, t.drop count)

/-- Reads a hyphen if hyphens separate the parts. -/
def readHyphen? (hyphens : Bool) (t : Text) : Option Text :=
  if hyphens then Text.afterStart? "-" t else some t

/-! ## Dates -/

/-- The number of the Monday that the first week of a year starts with: of the week that has most of
its days in the year. -/
def firstMonday (year : Nat) : Nat :=
  let start := Date.yearStart year
  let weekday := start % 7
  if 3 < weekday then start - weekday + 7 else start - weekday

/-- Whether a year has a fifty-third week. -/
def hasWeek53 (year : Nat) : Bool :=
  let weekday := Date.yearStart year % 7
  weekday == 3 || (weekday == 2 && Date.isLeap year)

/-- The day of a week of a year; days are counted from one, which is a Monday.  A week of the year
zero has no month. -/
def ofWeek? (year week day : Nat) : Option Date :=
  let isWeek := 0 < week ∧ (week < 53 ∨ (week = 53 ∧ year ≠ 0 ∧ hasWeek53 year))
  if ¬isWeek ∨ day = 0 ∨ 7 < day then none
  else if year = 0 then some ⟨1, 0, 0⟩
  else some (.ofDayNumberNear year (firstMonday year + (week - 1) * 7 + (day - 1)))

/-- Reads a week and possibly a day of it. -/
def readWeek? (year : Nat) (hyphens : Bool) (t : Text) : Option Date := do
  let (week, t) ← readDigits? 2 t
  if t.isEmpty then ofWeek? year week 1
  else
    let (day, _) ← readDigits? 1 (← readHyphen? hyphens t)
    ofWeek? year week day

/-- Reads a date, whose parts can be out of their ranges. -/
def readDate? (t : Text) : Option Date := do
  let (year, t) ← readDigits? 4 t
  let hyphens := t.head? == some (.char '-')
  let t ← readHyphen? hyphens t
  match t with
  | .char 'W' :: t => readWeek? year hyphens t
  | t =>
    let (month, t) ← readDigits? 2 t
    let (day, _) ← readDigits? 2 (← readHyphen? hyphens t)
    return ⟨year, month, day⟩

/-- Whether the character at a place of a text is a given one. -/
def isAt (t : Text) (i : Nat) (c : Char) : Bool := t[i]? == some (.char c)

/-- How long the date at the start of a text is.  Behind a week it shows only from what follows
whether a digit is the day of the week or belongs to the time. -/
def dateLength? (t : Text) : Option Nat :=
  if t.length = 7 then some 7
  else if isAt t 4 '-' then
    if !isAt t 5 'W' then some 10
    else if !isAt t 8 '-' then some 8
    else if t.length = 9 then none
    else if (t[10]?).any CodePoint.isDigit then some 8 else some 10
  else if isAt t 4 'W' then
    let stop := 7 + ((t.drop 7).takeWhile CodePoint.isDigit).length
    if stop < 9 then some stop else if stop % 2 = 0 then some 7 else some 8
  else some 8

/-! ## Times -/

/-- The time of a day, or the size of an offset. -/
structure Clock where
  hour : Nat
  minute : Nat
  second : Nat
  microsecond : Nat

/-- The size of an offset in microseconds; one of less than a second is none. -/
def Clock.size (c : Clock) : Nat :=
  let seconds := (c.hour * 60 + c.minute) * 60 + c.second
  if seconds = 0 then 0 else seconds * Timestamp.microsecondsOfSecond + c.microsecond

/-- Whether a text ends here; what follows a null character does not count. -/
def isEnd (t : Text) : Bool := t.head?.all fun c => c.val == 0

/-- What follows the last pair of digits of a time: the end, or something else that need not be
read, or a fraction. -/
inductive AfterPairs where
  | nothing
  | something
  | fraction (t : Text)

/-- Reads at most `count` pairs of digits, `colons` saying whether colons stand between them.  One
character after the last pair is not looked at, unless there is more. -/
def readPairs? : (count : Nat) → (colons : Option Bool) → Text → Option (List Nat × AfterPairs)
  | 0, _, t => some ([], .fraction t)
  | count + 1, colons, t => do
    let (value, rest) ← readDigits? 2 t
    let colons := colons.getD (rest.head? == some (.char ':'))
    match rest with
    | [] => return ([value], .nothing)
    | [c] =>
      if 0x80 ≤ c.val then none
      else return ([value], if c.val = 0 then .nothing else .something)
    | c :: more =>
      if colons && c == .char ':' then
        let (values, after) ← readPairs? count (some colons) more
        return (value :: values, after)
      else if c = .char '.' ∨ c = .char ',' then return ([value], .fraction more)
      else if colons then none
      else
        let (values, after) ← readPairs? count (some colons) rest
        return (value :: values, after)

/-- Reads the digits of a fraction as microseconds, and says whether they are all of the text.
Digits from the seventh on do not count. -/
def readFraction? (t : Text) : Option (Nat × Bool) := do
  let count := min t.length 6
  let (value, rest) ← readDigits? count t
  return (value * Nat.pow 10 (6 - count), isEnd (rest.dropWhile CodePoint.isDigit))

/-- Reads a time, and says whether it is all of the text. -/
def readClock? (t : Text) : Option (Clock × Bool) := do
  let (values, after) ← readPairs? 3 none t
  let (microsecond, complete) ←
    match after with
    | .nothing => some (0, true)
    | .something => some (0, false)
    | .fraction t => readFraction? t
  return (⟨values.getD 0 0, values.getD 1 0, values.getD 2 0, microsecond⟩, complete)

/-- Reads a time and its offset from universal time.  Only what is not followed by an offset has to
be complete. -/
def readTime? (t : Text) : Option (Clock × Option Int) := do
  let isSign (c : CodePoint) : Bool := c == .char '+' || c == .char '-' || c == .char 'Z'
  let (clock, complete) ← readClock? (t.takeWhile fun c => !isSign c)
  match t.dropWhile fun c => !isSign c with
  | [] => if complete then some (clock, none) else none
  | .char 'Z' :: rest => if isEnd rest then some (clock, some 0) else none
  | sign :: rest =>
    let (offset, complete) ← readClock? rest
    if complete then
      let n : Int := offset.size
      some (clock, some (if sign = .char '-' then -n else n))
    else none

/-! ## Dates with times -/

/-- The places at which the character between date and time can stand. -/
def separatorPlaces : List Nat := [7, 8, 10]

/-- A text without the surrogate that may separate date and time: the first one that stands where
the separator can is replaced by a letter. -/
def withoutSurrogate (t : Text) : Text :=
  match separatorPlaces.find? fun i => (t[i]?).any CodePoint.isSurrogate with
  | some i => t.set i (.char 'T')
  | none => t

/-- Reads what stands behind a date, `t` starting with the character between date and time. -/
def readRest? (t : Text) : Option (Clock × Option Int) :=
  match t with
  | [] => some (⟨0, 0, 0, 0⟩, none)
  | _ :: t => readTime? t

/-- Reads a date and what follows it.  No surrogate may occur but the separator. -/
def read? (t : Text) : Option (Date × Clock × Option Int) := do
  let t := withoutSurrogate t
  if t.length < 7 ∨ t.any CodePoint.isSurrogate then none
  else
    let length ← dateLength? t
    let date ← readDate? (t.take length)
    let (clock, offset) ← readRest? (t.drop length)
    return (date, clock, offset)

end Iso

/-- The time that a text gives; without a time of day it is midnight. -/
def Timestamp.ofIso (t : Text) : Except Fault Timestamp :=
  match Iso.read? t with
  | none => .error (.value ("Invalid isoformat string: " ++ t.quoted))
  | some (d, c, offset) =>
    match Timestamp.of? d.year d.month d.day c.hour c.minute c.second c.microsecond offset with
    | .error e => .error (.value e.message)
    | .ok t => .ok t

end WorkflowLint
