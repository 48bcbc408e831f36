import WorkflowLint.Decimal.Binary64

/-!
# The shortest decimal that reads back

A number is written with the fewest decimal digits that are read as that number again
(`Magnitude.readsAs`); of two such decimals of one length the nearer is taken, and of two that are
equally near the even one.  The decimals of each length form a grid, and if any point of it reads
back then so does one of the number's two neighbours on it.
-/

namespace WorkflowLint.Magnitude

/-- Whether `digits * 10 ^ exponent` is read as the given number. -/
def readsAs (x : Magnitude) (digits : Nat) (exponent : Int) : Bool :=
  Binary64.ofDecimal false digits exponent == .finite false x

/-- The fraction `x / 10 ^ k`. -/
def inTens (x : Magnitude) (k : Int) : Nat × Nat :=
  let (n, d) := Binary64.scaleDown x.mantissa 1 (-x.exponent)
  (n * Nat.pow 10 (-k).toNat, d * Nat.pow 10 k.toNat)

/-- Searches upwards from `k` for the least power of ten above the number, in at most `steps`. -/
def orderFrom (x : Magnitude) : (steps : Nat) → (k : Int) → Int
  | 0, k => k
  | steps + 1, k =>
    let (n, d) := x.inTens k
    if n < d then k else orderFrom x steps (k + 1)

/-- The least `k` for which the number lies below `10 ^ k`.  The search starts from the power of
two that bounds the number, at a little more than three bits a digit. -/
def order (x : Magnitude) : Int :=
  let bits : Int := Nat.log2 x.mantissa + x.exponent
  x.orderFrom 400 (bits * 30103 / 100000 - 1)

/-- The number's neighbour on the grid of step `10 ^ k` that reads back, if there is one. -/
def onGrid? (x : Magnitude) (k : Int) : Option Nat :=
  let (n, d) := x.inTens k
  let low := n / d
  match x.readsAs low k, x.readsAs (low + 1) k with
  | false, false => none
  | true, false => some low
  | false, true => some (low + 1)
  | true, true =>
    match compare (2 * n) ((2 * low + 1) * d) with
    | .lt => some low
    | .gt => some (low + 1)
    | .eq => some (if low % 2 = 0 then low else low + 1)

/-- The digits and the decimal exponent with which the number is written; a number that no grid of
seventeen digits holds is written out in full. -/
def shortest (x : Magnitude) : Nat × Int :=
  let p := x.order
  let grid? (n : Nat) : Option (Nat × Int) :=
    (x.onGrid? (p - (n + 1))).map fun digits => (digits, p - (n + 1))
  match (List.range 17).findSome? grid? with
  | some found => found
  | none =>
    (x.mantissa * Nat.pow 2 x.exponent.toNat * Nat.pow 5 (-x.exponent).toNat, min x.exponent 0)

end WorkflowLint.Magnitude
