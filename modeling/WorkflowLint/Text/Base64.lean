import WorkflowLint.Text.Basic

/-!
# Base 64

Bytes written as letters, digits, `+` and `/`, six bits each, in groups of four that stand for
three bytes; the last group is filled up with `=`.  When reading, code points outside the alphabet
count for nothing.
-/

namespace WorkflowLint.Base64

/-- The code points that stand for six bits. -/
def alphabet : Text := "ABCDEFGHIJKLMNOPQRSTUVWXYZabcdefghijklmnopqrstuvwxyz0123456789+/"

/-- The six bits of a code point. -/
def value? (c : CodePoint) : Option Nat := alphabet.findIdx? (· == c)

/-- What can be wrong with a written text. -/
inductive Defect where
  | oneTooMany (count : Nat)
  | padding
deriving DecidableEq

/-- The wording of a defect. -/
def Defect.message : Defect → Text
  | .oneTooMany count =>
    "Invalid base64-encoded string: number of data characters (" ++ Text.ofNat count
      ++ ") cannot be 1 more than a multiple of 4"
  | .padding => "Incorrect padding"

/-- Reads bytes.  `count` is the number of code points of the alphabet so far, `left` the bits of
the current group that no byte has yet, and `pads` the number of signs of padding since the last
code point of the alphabet. -/
def readFrom : (count left pads : Nat) → Text → Except Defect (List UInt8)
  | count, _, _, [] =>
    if count % 4 = 0 then .ok []
    else if count % 4 = 1 then .error (.oneTooMany count)
    else .error .padding
  | count, left, pads, c :: t =>
    if c = .char '=' then
      if 2 ≤ count % 4 then
        if 4 ≤ count % 4 + pads + 1 then .ok [] else readFrom count left (pads + 1) t
      else readFrom count left pads t
    else
      match value? c with
      | none => readFrom count left pads t
      | some v =>
        let byte (n : Nat) (rest : Except Defect (List UInt8)) : Except Defect (List UInt8) :=
          rest.map (n.toUInt8 :: ·)
        match count % 4 with
        | 0 => readFrom (count + 1) v 0 t
        | 1 => byte (left * 4 + v / 16) (readFrom (count + 1) (v % 16) 0 t)
        | 2 => byte (left * 16 + v / 4) (readFrom (count + 1) (v % 4) 0 t)
        | _ => byte (left * 64 + v) (readFrom (count + 1) 0 0 t)

/-- The bytes that a text stands for. -/
def read (t : Text) : Except Defect (List UInt8) := readFrom 0 0 0 t

/-- The code point of six bits. -/
def unit (n : Nat) : CodePoint := (alphabet[n % 64]?).getD (.char '=')

/-- Writes bytes without line breaks. -/
def write : List UInt8 → Text
  | a :: b :: c :: rest =>
    let n := a.toNat * 65536 + b.toNat * 256 + c.toNat
    unit (n / 262144) :: unit (n / 4096) :: unit (n / 64) :: unit n :: write rest
  | [a, b] =>
    let n := a.toNat * 65536 + b.toNat * 256
    [unit (n / 262144), unit (n / 4096), unit (n / 64), .char '=']
  | [a] =>
    let n := a.toNat * 65536
    [unit (n / 262144), unit (n / 4096), .char '=', .char '=']
  | [] => []

/-- Writes bytes in lines, so many bytes a line, each ended by a line feed. -/
def writeLines (perLine : Nat) : (fuel : Nat) → List UInt8 → Text
  | 0, _ => []
  | _ + 1, [] => []
  | fuel + 1, bytes =>
    write (bytes.take perLine) ++ Text.ofChar '\n' ++ writeLines perLine fuel (bytes.drop perLine)

/-- Writes bytes in lines of 57 bytes. -/
def lines (bytes : List UInt8) : Text := writeLines 57 bytes.length bytes

end WorkflowLint.Base64
