import WorkflowLint.Text.Basic

/-!
# UTF-8

The bytes of a text and the text of some bytes.  Reading stops at the first defect and says which
bytes are at fault and why; writing stops at the first run of surrogates.  A decoded text is read
line by line elsewhere, so this module also has the rule for line ends: a carriage return, alone or
before a line feed, ends a line just as a line feed does.
-/

namespace WorkflowLint

/-- Why bytes are not UTF-8. -/
inductive Utf8Defect where
  | invalidStart
  | invalidContinuation
  | endOfData
deriving DecidableEq

/-- The bytes at fault: `count` of them from `offset` on, the first being `byte`. -/
structure Utf8Error where
  defect : Utf8Defect
  offset : Nat
  count : Nat
  byte : UInt8
deriving DecidableEq

/-- The surrogates that cannot be written: `count` of them from `offset` on. -/
structure SurrogateError where
  offset : Nat
  count : Nat
  first : CodePoint
deriving DecidableEq

namespace Utf8

/-! ## Reading -/

/-- Whether a byte continues a sequence. -/
def isContinuation (b : UInt8) : Bool := b &&& 0xC0 == 0x80

/-- The payload of a continuation byte. -/
def payload (b : UInt8) : Nat := (b &&& 0x3F).toNat

/-- Whether `b` may follow the first byte `lead`: a continuation byte that makes the sequence
neither overlong, nor a surrogate, nor a number beyond the last code point. -/
def maySecond (lead b : UInt8) : Bool :=
  isContinuation b &&
    (if lead == 0xE0 then b ≥ 0xA0
    else if lead == 0xED then b < 0xA0
    else if lead == 0xF0 then b ≥ 0x90
    else if lead == 0xF4 then b < 0x90
    else true)

/-- The length of the sequence that a byte starts. -/
def sequenceLength? (lead : UInt8) : Option Nat :=
  if lead < 0x80 then some 1
  else if lead < 0xC2 then none
  else if lead < 0xE0 then some 2
  else if lead < 0xF0 then some 3
  else if lead < 0xF5 then some 4
  else none

/-- Reads the sequence of `length` bytes that starts with `lead`, or says what is wrong with it
and how many bytes are at fault. -/
def readSequence (lead : UInt8) (length : Nat) (rest : List UInt8) :
    Except (Utf8Defect × Nat) CodePoint :=
  let start := lead.toNat % Nat.pow 2 (7 - length)
  match length, rest with
  | 1, _ => .ok (.ofNat lead.toNat)
  | _, [] => .error (.endOfData, 1)
  | 2, b :: _ =>
    if isContinuation b then .ok (.ofNat (start * 64 + payload b))
    else .error (.invalidContinuation, 1)
  | 3, b :: rest =>
    if !maySecond lead b then .error (.invalidContinuation, 1)
    else match rest with
      | [] => .error (.endOfData, 2)
      | c :: _ =>
        if !isContinuation c then .error (.invalidContinuation, 2)
        else .ok (.ofNat ((start * 64 + payload b) * 64 + payload c))
  | _, b :: rest =>
    if !maySecond lead b then .error (.invalidContinuation, 1)
    else match rest with
      | [] => .error (.endOfData, 2)
      | c :: rest =>
        if !isContinuation c then .error (.invalidContinuation, 2)
        else match rest with
          | [] => .error (.endOfData, 3)
          | d :: _ =>
            if !isContinuation d then .error (.invalidContinuation, 3)
            else .ok (.ofNat (((start * 64 + payload b) * 64 + payload c) * 64 + payload d))

/-- The text of the bytes after `skip` of them, `offset` bytes having been read before. -/
def decodeFrom : (offset skip : Nat) → List UInt8 → Except Utf8Error Text
  | _, _, [] => .ok []
  | offset, skip + 1, _ :: rest => decodeFrom (offset + 1) skip rest
  | offset, 0, lead :: rest =>
    match sequenceLength? lead with
    | none => .error ⟨.invalidStart, offset, 1, lead⟩
    | some length =>
      match readSequence lead length rest with
      | .error (defect, count) => .error ⟨defect, offset, count, lead⟩
      | .ok c =>
        match decodeFrom (offset + 1) (length - 1) rest with
        | .error e => .error e
        | .ok t => .ok (c :: t)

/-- The text that some bytes stand for. -/
def decode (bytes : List UInt8) : Except Utf8Error Text := decodeFrom 0 0 bytes

/-! ## Writing -/

/-- The bytes of a number as a code point. -/
def encodeNat (n : Nat) : List UInt8 :=
  if n < 0x80 then [n.toUInt8]
  else if n < 0x800 then [(0xC0 + n / 64).toUInt8, (0x80 + n % 64).toUInt8]
  else if n < 0x10000 then
    [(0xE0 + n / 4096).toUInt8, (0x80 + n / 64 % 64).toUInt8, (0x80 + n % 64).toUInt8]
  else
    [(0xF0 + n / 262144).toUInt8, (0x80 + n / 4096 % 64).toUInt8, (0x80 + n / 64 % 64).toUInt8,
      (0x80 + n % 64).toUInt8]

/-- The bytes of a text, `offset` code points having been written before. -/
def encodeFrom : (offset : Nat) → Text → Except SurrogateError (List UInt8)
  | _, [] => .ok []
  | offset, .surrogate k :: t =>
    .error ⟨offset, 1 + (t.takeWhile CodePoint.isSurrogate).length, .surrogate k⟩
  | offset, .char c :: t =>
    match encodeFrom (offset + 1) t with
    | .error e => .error e
    | .ok bytes => .ok (encodeNat c.toNat ++ bytes)

/-- The bytes of a text, unless it has a surrogate. -/
def encode (t : Text) : Except SurrogateError (List UInt8) := encodeFrom 0 t

end Utf8

/-! ## Messages -/

/-- The wording of a defect. -/
def Utf8Defect.message : Utf8Defect → Text
  | .invalidStart => "invalid start byte"
  | .invalidContinuation => "invalid continuation byte"
  | .endOfData => "unexpected end of data"

/-- One byte is named, several are given by their positions. -/
def Utf8Error.message (e : Utf8Error) : Text :=
  (if e.count = 1 then
      "'utf-8' codec can't decode byte 0x" ++ Text.ofNatPadded 16 2 e.byte.toNat ++ " in position "
        ++ Text.ofNat e.offset
    else
      "'utf-8' codec can't decode bytes in position " ++ Text.ofNat e.offset ++ "-"
        ++ Text.ofNat (e.offset + e.count - 1)) ++ ": " ++ e.defect.message

/-- One surrogate is named, several are given by their positions. -/
def SurrogateError.message (e : SurrogateError) : Text :=
  (if e.count = 1 then
      "'utf-8' codec can't encode character '\\u" ++ Text.ofNatPadded 16 4 e.first.val
        ++ "' in position " ++ Text.ofNat e.offset
    else
      "'utf-8' codec can't encode characters in position " ++ Text.ofNat e.offset ++ "-"
        ++ Text.ofNat (e.offset + e.count - 1)) ++ ": surrogates not allowed"

/-! ## Line ends -/

/-- Every line end becomes one line feed. -/
def Text.normaliseLineEnds : Text → Text
  | [] => []
  | .char '\r' :: .char '\n' :: t => .char '\n' :: normaliseLineEnds t
  | .char '\r' :: t => .char '\n' :: normaliseLineEnds t
  | c :: t => c :: normaliseLineEnds t

end WorkflowLint
