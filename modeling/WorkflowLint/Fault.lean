import WorkflowLint.Json.Reader
import WorkflowLint.Text.Utf8

/-!
# Faults

A check or a fix can stop with a fault instead of giving its result.  Nothing but the text of a
fault and the name of its kind is ever used, so that is what a fault consists of; this module names
the faults that the library itself meets.
-/

namespace WorkflowLint

/-- The kind of a fault, and its text. -/
structure Fault where
  kind : Text
  text : Text
deriving DecidableEq

namespace Fault

/-- A value that has no acceptable form. -/
def value (text : Text) : Fault := ⟨"ValueError", text⟩

/-- The wording for a whole number with too many digits, which tells how many there are if the
number is being read. -/
def digitsText (count : Option Nat) : Text :=
  let counted : Text :=
    (count.map fun n => ": value has " ++ Text.ofNat n ++ " digits").getD []
  "Exceeds the limit (4300 digits) for integer string conversion" ++ counted
    ++ "; use sys.set_int_max_str_digits() to increase the limit"

/-- The fault of a whole number with too many digits to be read. -/
def tooManyDigits (count : Nat) : Fault := value (digitsText (some count))

/-- The fault of a whole number with too many digits to be written. -/
def tooLong : Fault := value (digitsText none)

/-- The fault of a text that cannot be read as JSON. -/
def ofReadError (t : Text) : Json.ReadError → Fault
  | .malformed problem ahead =>
    ⟨"JSONDecodeError",
      problem.message ++ ": line " ++ Text.ofNat (Json.lineOf t ahead) ++ " column "
        ++ Text.ofNat (Json.columnOf t ahead) ++ " (char " ++ Text.ofNat (Json.offsetOf t ahead)
        ++ ")"⟩
  | .tooDeep bracket =>
    let collection : Text := match bracket with | .array => "array" | .object => "object"
    ⟨"RecursionError",
      "maximum recursion depth exceeded while decoding a JSON " ++ collection
        ++ " from a unicode string"⟩
  | .tooManyDigits count => tooManyDigits count

/-- The fault of a text that cannot be written. -/
def ofSurrogates (e : SurrogateError) : Fault := ⟨"UnicodeEncodeError", e.message⟩

end Fault
end WorkflowLint
