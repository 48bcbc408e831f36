import WorkflowLint.Decimal.Shortest
import WorkflowLint.Text.Basic

/-!
# How real numbers are laid out

A number is written positionally when its point falls near its digits and with an exponent
otherwise.  The three places where numbers are written — messages, JSON and YAML — agree on that and
differ in a few words; `RealLayout` holds what they differ in.
-/

namespace WorkflowLint

/-- The wording of the values that have no digits, and whether a number with an exponent always has
a point. -/
structure RealLayout where
  notANumber : Text
  infinity : Text
  pointBeforeExponent : Bool

namespace RealLayout

/-- Messages. -/
def message : RealLayout := ⟨"nan", "inf", false⟩

/-- JSON documents. -/
def json : RealLayout := ⟨"NaN", "Infinity", false⟩

/-- YAML documents. -/
def yaml : RealLayout := ⟨".nan", ".inf", true⟩

/-- So many zeros. -/
def zeros (n : Nat) : Text := List.replicate n (.char '0')

/-- A number with digits `ds` and its point after the first `point` of them: positional if that is
after no more than sixteen digits and before no more than three leading zeros. -/
def layOut (l : RealLayout) (ds : Text) (point : Int) : Text :=
  if -4 < point ∧ point ≤ 16 then
    if point ≤ 0 then "0." ++ zeros (-point).toNat ++ ds
    else
      let whole : Text := ds.take point.toNat ++ zeros (point.toNat - ds.length)
      let rest : Text := ds.drop point.toNat
      whole ++ "." ++ (if rest.isEmpty then ↑"0" else rest)
  else
    let exponent := point - 1
    let tail : Text :=
      match ds.drop 1 with
      | [] => if l.pointBeforeExponent then ".0" else []
      | rest => .char '.' :: rest
    let sign : Text := if exponent < 0 then "-" else "+"
    ds.take 1 ++ tail ++ "e" ++ sign ++ Text.ofNatPadded 10 2 exponent.natAbs

/-- Drops the zeros at the end of a numeral. -/
def dropZeros (ds : Text) : Text := (ds.reverse.dropWhile (· == .char '0')).reverse

/-- A number that is not negative and finite. -/
def renderMagnitude (l : RealLayout) (m : Magnitude) : Text :=
  if m.mantissa = 0 then l.layOut "0" 1
  else
    let (digits, exponent) := m.shortest
    let ds := Text.ofNat digits
    l.layOut (dropZeros ds) (ds.length + exponent)

/-- The sign before a number. -/
def sign (negative : Bool) : Text := if negative then "-" else ""

/-- The text of a number. -/
def render (l : RealLayout) : Binary64 → Text
  | .nan => l.notANumber
  | .infinite s => sign s ++ l.infinity
  | .finite s m => sign s ++ l.renderMagnitude m

end RealLayout
end WorkflowLint
