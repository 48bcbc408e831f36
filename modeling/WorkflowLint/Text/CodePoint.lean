/-!
# Code points

The texts this library handles come from files and from escapes inside JSON and YAML, and such an
escape may name one half of a surrogate pair.  So the unit of text is not a character but a code
point: a character, or a surrogate that stands alone.  A text can be stored in a file exactly when
none of its code points is a surrogate.

The ASCII classes here (`isDigit`, `isLower`, `isUpper`, `isAlphanum`, `hexValue?`) are those of
the grammars of JSON, YAML and placeholders; classes that range over all scripts have modules of
their own.
-/

namespace WorkflowLint

/-- A character, or a surrogate that stands alone, given by its distance from the first one. -/
inductive CodePoint where
  | char (c : Char)
  | surrogate (offset : Fin 0x800)
deriving DecidableEq

namespace CodePoint

instance : Coe Char CodePoint := ⟨.char⟩

instance : Inhabited CodePoint := ⟨.char ' '⟩

/-- The number of a code point. -/
def val : CodePoint → Nat
  | .char c => c.toNat
  | .surrogate k => 0xD800 + k.val

instance : Hashable CodePoint := ⟨fun c => hash c.val⟩

/-- The code point of a number; numbers beyond the last code point give the first one. -/
def ofNat (n : Nat) : CodePoint :=
  if h : 0xD800 ≤ n ∧ n < 0xE000 then .surrogate ⟨n - 0xD800, by omega⟩ else .char (Char.ofNat n)

/-- Whether the code point is a surrogate. -/
def isSurrogate : CodePoint → Bool
  | .char _ => false
  | .surrogate _ => true

/-- The surrogates that come first in a pair. -/
def isHighSurrogate (c : CodePoint) : Bool := decide (0xD800 ≤ c.val) && decide (c.val < 0xDC00)

/-- The surrogates that come second in a pair. -/
def isLowSurrogate (c : CodePoint) : Bool := decide (0xDC00 ≤ c.val) && decide (c.val < 0xE000)

/-- The character that a pair of surrogates stands for. -/
def ofSurrogates (high low : CodePoint) : CodePoint :=
  ofNat (0x10000 + (high.val - 0xD800) * 0x400 + (low.val - 0xDC00))

/-- A digit from `0` to `9`. -/
def isDigit : CodePoint → Bool
  | .char c => c.isDigit
  | .surrogate _ => false

/-- A letter from `a` to `z`. -/
def isLower : CodePoint → Bool
  | .char c => c.isLower
  | .surrogate _ => false

/-- A letter from `A` to `Z`. -/
def isUpper : CodePoint → Bool
  | .char c => c.isUpper
  | .surrogate _ => false

/-- A letter from `a` to `z` or `A` to `Z`, or a digit from `0` to `9`. -/
def isAlphanum (c : CodePoint) : Bool := c.isDigit || c.isLower || c.isUpper

/-- The value of a digit from `0` to `9`. -/
def digitValue (c : CodePoint) : Nat := c.val - 0x30

/-- The value of a hexadecimal digit in either case. -/
def hexValue? (c : CodePoint) : Option Nat :=
  if c.isDigit then some (c.val - 0x30)
  else if 0x41 ≤ c.val ∧ c.val ≤ 0x46 then some (c.val - 0x37)
  else if 0x61 ≤ c.val ∧ c.val ≤ 0x66 then some (c.val - 0x57)
  else none

@[simp] theorem val_char (c : Char) : (char c).val = c.toNat := rfl

theorem val_lt (c : CodePoint) : c.val < 0x110000 := by
  cases c with
  | char c =>
    have h := c.valid
    simp only [UInt32.isValidChar, Nat.isValidChar] at h
    simp only [val, Char.toNat]
    omega
  | surrogate k => simp only [val]; omega

end CodePoint
end WorkflowLint
