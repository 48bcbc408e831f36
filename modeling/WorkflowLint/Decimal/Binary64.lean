/-!
# Real numbers in the binary64 format

The real numbers of JSON and YAML documents are those of the 64-bit binary format.  They are kept
here as what they are, a mantissa times a power of two, so that reading, comparing and printing
them are exact computations with natural numbers.  Reading rounds to the nearest number of the
format, and a tie goes to the even mantissa (`Binary64.ofRatio`).
-/

namespace WorkflowLint

/-- The finite number `mantissa * 2 ^ exponent`; of its representations, the one with the largest
mantissa below `2 ^ 53` that the least exponent allows. -/
structure Magnitude where
  mantissa : Nat
  exponent : Int
  normal : mantissa < Nat.pow 2 53 ∧ -1074 ≤ exponent ∧ exponent ≤ 971 ∧
    (Nat.pow 2 52 ≤ mantissa ∨ exponent = -1074)
deriving DecidableEq

/-- A number of the format, an infinity, or the value that is not a number. -/
inductive Binary64 where
  | nan
  | infinite (negative : Bool)
  | finite (negative : Bool) (magnitude : Magnitude)
deriving DecidableEq

namespace Binary64

/-- Zero, with a sign. -/
def zero (negative : Bool) : Binary64 := .finite negative ⟨0, -1074, by decide⟩

/-- The number with the given mantissa and exponent, or an infinity if the format has none. -/
def ofParts (negative : Bool) (mantissa : Nat) (exponent : Int) : Binary64 :=
  if h : mantissa < Nat.pow 2 53 ∧ -1074 ≤ exponent ∧ exponent ≤ 971 ∧
      (Nat.pow 2 52 ≤ mantissa ∨ exponent = -1074) then
    .finite negative ⟨mantissa, exponent, h⟩
  else .infinite negative

/-- The quotient rounded to the nearest natural number, a tie going to the even one. -/
def roundQuotient (num den : Nat) : Nat :=
  let q := num / den
  let r := num % den
  if 2 * r > den ∨ (2 * r = den ∧ q % 2 = 1) then q + 1 else q

/-- The fraction `num / (den * 2 ^ e)` as a numerator and a denominator. -/
def scaleDown (num den : Nat) (e : Int) : Nat × Nat :=
  (num * Nat.pow 2 (-e).toNat, den * Nat.pow 2 e.toNat)

/-- The exponent that a positive fraction gets: the least one for which the mantissa stays below
`2 ^ 53`, but not less than that of the format. -/
def exponentOf (num den : Nat) : Int :=
  let e : Int := Nat.log2 num - Nat.log2 den - 53
  let (n, d) := scaleDown num den e
  max (-1074) (if n / d < Nat.pow 2 53 then e else e + 1)

/-- The number of the format nearest to `num / den`, a tie going to the even mantissa. -/
def ofRatio (negative : Bool) (num den : Nat) : Binary64 :=
  if num = 0 then zero negative
  else
    let e := exponentOf num den
    let (n, d) := scaleDown num den e
    let q := roundQuotient n d
    if q = Nat.pow 2 53 then ofParts negative (Nat.pow 2 52) (e + 1) else ofParts negative q e

/-- The number of the format nearest to `digits * 10 ^ exponent`.  Exponents that are far out of
range are settled without the power. -/
def ofDecimal (negative : Bool) (digits : Nat) (exponent : Int) : Binary64 :=
  if digits = 0 then zero negative
  else if exponent > 400 then .infinite negative
  else if exponent < -400 - Nat.log2 digits then zero negative
  else ofRatio negative (digits * Nat.pow 10 exponent.toNat) (Nat.pow 10 (-exponent).toNat)

/-- The number with its sign inverted. -/
def negate : Binary64 → Binary64
  | .nan => .nan
  | .infinite s => .infinite (!s)
  | .finite s m => .finite (!s) m

/-- The number of the format nearest to a natural number. -/
def ofNat (n : Nat) : Binary64 := ofRatio false n 1

/-- A magnitude as a fraction. -/
def fraction (m : Magnitude) : Nat × Nat := scaleDown m.mantissa 1 (-m.exponent)

/-- The sum of two numbers.  A sum of zero is positive unless both numbers are negative zeros. -/
def add : Binary64 → Binary64 → Binary64
  | .nan, _ => .nan
  | _, .nan => .nan
  | .infinite s, .infinite t => if s = t then .infinite s else .nan
  | .infinite s, _ => .infinite s
  | _, .infinite t => .infinite t
  | .finite s a, .finite t b =>
    let signed (negative : Bool) (n : Nat) : Int := if negative then -n else n
    let (n, d) := fraction a
    let (n', d') := fraction b
    let sum := signed s (n * d') + signed t (n' * d)
    if sum = 0 then zero (s && t) else ofRatio (decide (sum < 0)) sum.natAbs (d * d')

/-- The product of two numbers. -/
def mul : Binary64 → Binary64 → Binary64
  | .nan, _ => .nan
  | _, .nan => .nan
  | .finite s a, .finite t b =>
    let (n, d) := fraction a
    let (n', d') := fraction b
    ofRatio (s != t) (n * n') (d * d')
  | .infinite s, .infinite t => .infinite (s != t)
  | .infinite s, .finite t b => if b.mantissa = 0 then .nan else .infinite (s != t)
  | .finite s a, .infinite t => if a.mantissa = 0 then .nan else .infinite (s != t)

/-- Whether the number is zero, whatever its sign. -/
def isZero : Binary64 → Bool
  | .finite _ m => m.mantissa == 0
  | _ => false

/-- Whether the number equals an integer exactly. -/
def equalsInt (x : Binary64) (n : Int) : Bool :=
  match x with
  | .finite s m =>
    let (a, d) := fraction m
    a == n.natAbs * d && (a == 0 || s == decide (n < 0))
  | _ => false

/-- Equality of numbers: both zeros are equal, and a value that is not a number equals itself. -/
def same (x y : Binary64) : Bool := x == y || (x.isZero && y.isZero)

end Binary64
end WorkflowLint
