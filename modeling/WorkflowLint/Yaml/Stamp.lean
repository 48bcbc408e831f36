import WorkflowLint.Calendar.Shown
import WorkflowLint.Yaml.Atom
import WorkflowLint.Yaml.Error

/-!
# Dates and times as they are written

A date is written as year, month and day between hyphens.  A time follows it after a `T` or blanks,
with hour, minute and second between colons, and possibly a fraction of a second and a zone.
-/

namespace WorkflowLint

namespace Yaml.Stamp

/-- The time of a day as it is written: the digits of the fraction, and the offset of the zone in
microseconds. -/
structure Clock where
  hour : Nat
  minute : Nat
  second : Nat
  fraction : Text
  offset : Option Int

/-- Reads a number of some digits, at least `least` and at most `most`. -/
def readDigits? (least most : Nat) (t : Text) : Option (Nat × Text) :=
  let digits := (t.take most).takeWhile CodePoint.isDigit
  if digits.length < least then none else some (Text.toNat digits, t.drop digits.length)

/-- Reads a given character. -/
def readChar? (ch : Char) (t : Text) : Option Text := Text.afterStart? (Text.ofChar ch) t

/-- A space or a tab. -/
def isGap (c : CodePoint) : Bool := c == .char ' ' || c == .char '\t'

/-- Reads what stands between a date and a time. -/
def readGap? (t : Text) : Option Text :=
  match t with
  | .char 'T' :: rest => some rest
  | .char 't' :: rest => some rest
  | c :: rest => if isGap c then some (rest.dropWhile isGap) else none
  | [] => none

/-- Reads the end of a text; a line feed may come before it. -/
def readEnd? (t : Text) : Option Unit := if t.isEmpty ∨ t = Text.ofChar '\n' then some () else none

/-- Reads a zone up to the end of the text: none, or `Z`, or a sign with hours and minutes. -/
def readZone? (t : Text) : Option (Option Int) :=
  match readEnd? t with
  | some _ => some none
  | none =>
    match t.dropWhile isGap with
    | .char 'Z' :: rest => (readEnd? rest).map fun _ => some 0
    | .char c :: rest =>
      if c = '+' ∨ c = '-' then do
        let (hours, rest) ← readDigits? 1 2 rest
        let (minutes, rest) ←
          match readChar? ':' rest with
          | some rest => readDigits? 2 2 rest
          | none => some (0, rest)
        readEnd? rest
        let offset : Int := (hours * 3600 + minutes * 60) * Timestamp.microsecondsOfSecond
        return some (if c = '-' then -offset else offset)
      else none
    | _ => none

/-- Reads a time up to the end of the text. -/
def readClock? (t : Text) : Option Clock := do
  let (hour, t) ← readDigits? 1 2 t
  let (minute, t) ← readDigits? 2 2 (← readChar? ':' t)
  let (second, t) ← readDigits? 2 2 (← readChar? ':' t)
  let (fraction, t) : Text × Text :=
    match readChar? '.' t with
    | some t => (t.takeWhile CodePoint.isDigit, t.dropWhile CodePoint.isDigit)
    | none => ([], t)
  return ⟨hour, minute, second, fraction, ← readZone? t⟩

/-- Reads year, month and day, and a time if one follows. -/
def read? (t : Text) : Option (Nat × Nat × Nat × Option Clock) := do
  let (year, t) ← readDigits? 4 4 t
  let (month, t) ← readDigits? 1 2 (← readChar? '-' t)
  let (day, t) ← readDigits? 1 2 (← readChar? '-' t)
  match readEnd? t with
  | some _ => return (year, month, day, none)
  | none => return (year, month, day, some (← readClock? (← readGap? t)))

/-- The microseconds of a fraction; further digits are dropped. -/
def microseconds (fraction : Text) : Nat :=
  let digits := fraction.take 6
  Text.toNat digits * Nat.pow 10 (6 - digits.length)

/-- The fault of a date or time that does not exist. -/
def fault (e : DateError) : LoadError := .fault (.value e.message)

/-- The date or time that the text of a node stands for. -/
def value (t : Text) : Except LoadError Atom :=
  match read? t with
  | none =>
    .error (.fault ⟨"AttributeError", "'NoneType' object has no attribute 'groupdict'"⟩)
  | some (year, month, day, none) =>
    match Date.of? year month day with
    | .error e => .error (fault e)
    | .ok d => .ok (.date d)
  | some (year, month, day, some c) =>
    let fraction := microseconds c.fraction
    match Timestamp.of? year month day c.hour c.minute c.second fraction c.offset with
    | .error e => .error (fault e)
    | .ok s => .ok (.timestamp s)

end Yaml.Stamp
end WorkflowLint
