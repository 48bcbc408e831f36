import WorkflowLint.Decimal.Binary64
import WorkflowLint.Text.Blank
import WorkflowLint.Text.Case
import WorkflowLint.Text.DecimalDigit
import WorkflowLint.Text.Quoted
import WorkflowLint.Yaml.Error

/-!
# Numerals

The numbers that the text of a scalar stands for.  Underscores count for nothing.  Whole numbers can
be written in base two, eight, ten or sixteen; both kinds of numbers can be written as parts of
sixty between colons.

These readers are also used for scalars that are tagged as numbers without looking like one, so
they know more forms than the patterns of plain scalars have, and refuse what has none.
-/

namespace WorkflowLint.Yaml.Numeral

/-- The sign at the start of a text, negative or not, and what follows it. -/
def sign (t : Text) : Bool × Text :=
  match t with
  | .char '-' :: rest => (true, rest)
  | .char '+' :: rest => (false, rest)
  | _ => (false, t)

/-- Whether a code point is a digit in a base. -/
def isDigit (base : Nat) (c : CodePoint) : Bool := c.hexValue?.any (· < base)

/-- A text in ASCII as far as it counts for numbers: decimal digits and blanks of all scripts are
those of ASCII, and anything else that is not ASCII is no part of a number. -/
def plain (t : Text) : Text :=
  if t.all fun c => decide (c.val < 0x80) then t
  else
    t.map fun c =>
      if c.val < 0x7F then c
      else if c.isBlank then .char ' '
      else (c.decimalValue?.map fun n => CodePoint.ofNat (0x30 + n)).getD (.char '?')

/-- A blank of ASCII. -/
def isPlainBlank (c : CodePoint) : Bool := c == .char ' ' || (decide (9 ≤ c.val) && decide (c.val ≤ 13))

/-- The text in ASCII without the blanks around it. -/
def trimmed (t : Text) : Text := (plain t).trim isPlainBlank

/-- The letter after a zero that announces a base. -/
def baseLetter? : Nat → Option CodePoint
  | 2 => some (.char 'b')
  | 8 => some (.char 'o')
  | 16 => some (.char 'x')
  | _ => none

/-- What follows the announcement of a base, if there is one. -/
def dropBase (base : Nat) (t : Text) : Text :=
  match t, baseLetter? base with
  | .char '0' :: c :: rest, some letter => if Text.lower [c] = [letter] then rest else t
  | _, _ => t

/-- The wording for a text that is no number in a base. -/
def notInteger (base : Nat) (t : Text) : Text :=
  "invalid literal for int() with base " ++ Text.ofNat base ++ ": " ++ t.quoted.take 200

/-- Reads a whole number in a base, with blanks around it, a sign, and an announcement of the base;
none of these has to be there.  Too many digits are a fault of their own, whatever follows them. -/
def readInteger (base : Nat) (t : Text) : Except LoadError Int :=
  let (negative, rest) := sign (trimmed t)
  let rest := dropBase base rest
  let digits := rest.takeWhile (isDigit base)
  if base = 10 ∧ Json.digitLimit < digits.length then
    .error (.fault (.tooManyDigits digits.length))
  else if digits.isEmpty ∨ digits.length < rest.length then
    .error (.fault (.value (notInteger base t)))
  else
    let n := Text.toNatBase base digits
    .ok (if negative then -n else n)

/-- The fault of a numeral that ends before its first digit. -/
def missingDigit : LoadError := .fault ⟨"IndexError", "string index out of range"⟩

/-- The text without underscores. -/
def withoutUnderscores (t : Text) : Text := t.filter (· != .char '_')

/-- The parts of sixty of a whole number, each a number in base ten. -/
def readSixtieths (t : Text) : Except LoadError Int :=
  (t.parts (.char ':')).foldlM (fun n part => (readInteger 10 part).map (n * 60 + ·)) 0

/-- The whole number that the text of a scalar stands for. -/
def integer (t : Text) : Except LoadError Int :=
  let t := withoutUnderscores t
  if t.isEmpty then .error missingDigit
  else
    let (negative, t) := sign t
    let magnitude : Except LoadError Int :=
      match t with
      | [] => .error missingDigit
      | .char '0' :: rest =>
        match rest with
        | [] => .ok 0
        | .char 'b' :: digits => readInteger 2 digits
        | .char 'x' :: digits => readInteger 16 digits
        | _ => readInteger 8 t
      | _ => if List.contains t (.char ':') then readSixtieths t else readInteger 10 t
    magnitude.map fun n => if negative then -n else n

/-! ## Real numbers -/

/-- The words for what is not finite. -/
def readWord? (t : Text) : Option Binary64 :=
  if t = "inf" ∨ t = "infinity" then some (.infinite false)
  else if t = "nan" then some .nan
  else none

/-- Reads an exponent up to the end of the text. -/
def readExponent? (t : Text) : Option Int :=
  match t with
  | [] => some 0
  | .char 'e' :: rest =>
    let (negative, digits) := sign rest
    if digits.isEmpty || !digits.all CodePoint.isDigit then none
    else some (if negative then -digits.toNat else digits.toNat)
  | _ => none

/-- Reads digits with a point, and an exponent. -/
def readDecimal? (t : Text) : Option Binary64 :=
  let whole := t.takeWhile CodePoint.isDigit
  let rest := t.drop whole.length
  let (fraction, rest) : Text × Text :=
    match rest with
    | .char '.' :: rest =>
      let fraction := rest.takeWhile CodePoint.isDigit
      (fraction, rest.drop fraction.length)
    | _ => ([], rest)
  if whole.isEmpty ∧ fraction.isEmpty then none
  else
    (readExponent? rest).map fun e =>
      .ofDecimal false (Text.toNat (whole ++ fraction)) (e - fraction.length)

/-- Reads a real number with blanks around it and a sign, none of which has to be there. -/
def readReal (t : Text) : Except LoadError Binary64 :=
  let (negative, rest) := sign (trimmed t)
  match (readWord? rest).or (readDecimal? rest) with
  | some x => .ok (if negative then x.negate else x)
  | none => .error (.fault (.value ("could not convert string to float: " ++ t.quoted)))

/-- The sum of the parts of sixty of a real number, given from the last to the first; `weight` is
what the next part counts for. -/
def sumSixtieths : (sum : Binary64) → (weight : Nat) → List Binary64 → Except LoadError Binary64
  | sum, _, [] => .ok sum
  | sum, weight, part :: parts =>
    match Binary64.ofNat weight with
    | .infinite _ => .error (.fault ⟨"OverflowError", "int too large to convert to float"⟩)
    | factor => sumSixtieths (sum.add (part.mul factor)) (weight * 60) parts

/-- Whether a text is the word for what is not a number, with a sign or without. -/
def isNan (t : Text) : Bool := (sign (withoutUnderscores t).lower).2 == ".nan"

/-- The real number that the text of a scalar stands for. -/
def real (t : Text) : Except LoadError Binary64 :=
  let t := (withoutUnderscores t).lower
  if t.isEmpty then .error missingDigit
  else
    let (negative, t) := sign t
    let magnitude : Except LoadError Binary64 :=
      if t = ".inf" then .ok (.infinite false)
      else if t = ".nan" then .ok .nan
      else if List.contains t (.char ':') then
        match (t.parts (.char ':')).mapM readReal with
        | .error e => .error e
        | .ok parts => sumSixtieths (.zero false) 1 parts.reverse
      else readReal t
    magnitude.map fun x => if negative then x.negate else x

end WorkflowLint.Yaml.Numeral
