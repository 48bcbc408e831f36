import WorkflowLint.Json.Value

/-!
# Reading JSON

`Json.read` reads a document.  Three things can go wrong: the text is not JSON, its values are
nested too deeply, or a whole number has too many digits.  The first defect from the left decides.

Every reader takes the text that lies ahead and returns what follows the value; a defect points to
the text that lay ahead where it was found, from which `SyntaxError.offset` recovers its place.
Besides JSON proper the values `NaN`, `Infinity` and `-Infinity` are read.
-/

namespace WorkflowLint.Json

/-- What is wrong with a text that is not JSON. -/
inductive Problem where
  | expectingValue
  | expectingName
  | expectingColon
  | expectingComma
  | unterminatedString
  | invalidControl
  | invalidEscape
  | invalidUnicodeEscape
  | extraData
  | byteOrderMark
deriving DecidableEq

/-- The wording of a problem. -/
def Problem.message : Problem → Text
  | .expectingValue => "Expecting value"
  | .expectingName => "Expecting property name enclosed in double quotes"
  | .expectingColon => "Expecting ':' delimiter"
  | .expectingComma => "Expecting ',' delimiter"
  | .unterminatedString => "Unterminated string starting at"
  | .invalidControl => "Invalid control character at"
  | .invalidEscape => "Invalid \\escape"
  | .invalidUnicodeEscape => "Invalid \\uXXXX escape"
  | .extraData => "Extra data"
  | .byteOrderMark => "Unexpected UTF-8 BOM (decode using utf-8-sig)"

/-- The two brackets that nest values. -/
inductive Bracket where
  | array
  | object
deriving DecidableEq

/-- A defect of a document. -/
inductive ReadError where
  | malformed (problem : Problem) (ahead : Text)
  | tooDeep (bracket : Bracket)
  | tooManyDigits (count : Nat)
deriving DecidableEq

/-- The most digits that a whole number may have. -/
def digitLimit : Nat := 4300

/-- The greatest depth to which values may be nested. -/
def depthLimit : Nat := 1000

/-! ## Strings -/

/-- The blanks between the parts of a document. -/
def isSpace (c : CodePoint) : Bool :=
  c == .char ' ' || c == .char '\t' || c == .char '\n' || c == .char '\r'

/-- Drops the blanks ahead. -/
def skipSpaces (t : Text) : Text := t.dropWhile isSpace

/-- The code point of a short escape. -/
def shortEscape? : CodePoint → Option CodePoint
  | .char '"' => some (.char '"')
  | .char '\\' => some (.char '\\')
  | .char '/' => some (.char '/')
  | .char 'b' => some (.char '\x08')
  | .char 'f' => some (.char '\x0c')
  | .char 'n' => some (.char '\n')
  | .char 'r' => some (.char '\r')
  | .char 't' => some (.char '\t')
  | _ => none

/-- The number that the first four code points denote as hexadecimal digits; one more code point
has to follow, since a string never ends with an escape. -/
def hexUnit? : Text → Option Nat
  | a :: b :: c :: d :: _ :: _ => do
    let a ← a.hexValue?
    let b ← b.hexValue?
    let c ← c.hexValue?
    let d ← d.hexValue?
    pure (((a * 16 + b) * 16 + c) * 16 + d)
  | _ => none

/-- The code point of an escape with four digits, `ahead` starting at its `u`, and the number of
code points it takes after the `u`.  A high surrogate joins with an escape of a low one. -/
def readUnicodeEscape (ahead : Text) : Except ReadError (CodePoint × Nat) :=
  match hexUnit? (ahead.drop 1) with
  | none => .error (.malformed .invalidUnicodeEscape ahead)
  | some n =>
    let first := CodePoint.ofNat n
    match first.isHighSurrogate, ahead.drop 5 with
    | true, .char '\\' :: .char 'u' :: rest =>
      if rest.length < 5 then .ok (first, 4)
      else match hexUnit? rest with
        | none => .error (.malformed .invalidUnicodeEscape (.char 'u' :: rest))
        | some m =>
          let second := CodePoint.ofNat m
          if second.isLowSurrogate then .ok (CodePoint.ofSurrogates first second, 10)
          else .ok (first, 4)
    | _, _ => .ok (first, 4)

/-- Reads what follows the opening quote of a string, after `skip` code points; `start` is the text
from the quote on. -/
def readStringFrom (start : Text) : (skip : Nat) → Text → Except ReadError (Text × Text)
  | _, [] => .error (.malformed .unterminatedString start)
  | skip + 1, _ :: t => readStringFrom start skip t
  | 0, c :: t =>
    if c = .char '"' then .ok ([], t)
    else if c = .char '\\' then
      match t with
      | [] => .error (.malformed .unterminatedString start)
      | e :: _ =>
        if e = .char 'u' then
          match readUnicodeEscape t with
          | .error err => .error err
          | .ok (u, n) =>
            match readStringFrom start (n + 1) t with
            | .error err => .error err
            | .ok (s, rest) => .ok (u :: s, rest)
        else match shortEscape? e with
          | none => .error (.malformed .invalidEscape (c :: t))
          | some u =>
            match readStringFrom start 1 t with
            | .error err => .error err
            | .ok (s, rest) => .ok (u :: s, rest)
    else if c.val < 0x20 then .error (.malformed .invalidControl (c :: t))
    else match readStringFrom start 0 t with
      | .error err => .error err
      | .ok (s, rest) => .ok (c :: s, rest)

/-- Reads what follows the opening quote of a string. -/
def readString (t : Text) : Except ReadError (Text × Text) := readStringFrom (.char '"' :: t) 0 t

/-! ## Numbers -/

/-- The digits ahead. -/
def digits (t : Text) : Text := t.takeWhile CodePoint.isDigit

/-- The digits of a fraction: a point and at least one digit. -/
def fraction : Text → Text
  | .char '.' :: t => digits t
  | _ => []

/-- The exponent ahead, as its value and its length: an `e`, a sign that may be missing, and at
least one digit. -/
def exponent? : Text → Option (Int × Nat)
  | .char e :: t =>
    if e = 'e' ∨ e = 'E' then
      match t with
      | .char '-' :: r =>
        if (digits r).isEmpty then none else some (-Text.toNat (digits r), (digits r).length + 2)
      | .char '+' :: r =>
        if (digits r).isEmpty then none else some (Text.toNat (digits r), (digits r).length + 2)
      | r => if (digits r).isEmpty then none else some (Text.toNat (digits r), (digits r).length + 1)
    else none
  | _ => none

/-- The digits before the point: a single zero, or digits of which the first is not zero. -/
def whole (t : Text) : Text :=
  match t with
  | .char '0' :: _ => [.char '0']
  | _ => digits t

/-- Reads a number, `start` being the text from its sign on and `t` the text after the sign. -/
def readNumber (start : Text) (negative : Bool) (t : Text) : Except ReadError (Json × Text) :=
  let w := whole t
  if w.isEmpty then .error (.malformed .expectingValue start)
  else
    let t₁ := t.drop w.length
    let f := fraction t₁
    let t₂ := if f.isEmpty then t₁ else t₁.drop (f.length + 1)
    match f.isEmpty, exponent? t₂ with
    | true, none =>
      if w.length > digitLimit then .error (.tooManyDigits w.length)
      else .ok (.integer (if negative then -Text.toNat w else Text.toNat w), t₁)
    | _, none => .ok (.real (.ofDecimal negative (Text.toNat (w ++ f)) (-f.length)), t₂)
    | _, some (e, n) =>
      .ok (.real (.ofDecimal negative (Text.toNat (w ++ f)) (e - f.length)), t₂.drop n)

/-! ## Values

The readers of values are told what to make of the members of an object, which they give in the order
in which they are written. -/

/-- The words that are values. -/
def readWord? (t : Text) : Option (Json × Text) :=
  [((("null" : Text)), Json.null), ("true", .bool true), ("false", .bool false),
    ("NaN", .real .nan), ("Infinity", .real (.infinite false)),
    ("-Infinity", .real (.infinite true))].findSome? fun (word, value) =>
      (Text.afterStart? word t).map fun rest => (value, rest)

mutual

/-- Reads a value, inside which values may be nested to the given depth. -/
def readValue (gather : List (Text × Json) → Members) (depth : Nat) :
    (fuel : Nat) → Text → Except ReadError (Json × Text)
  | 0, t => .error (.malformed .expectingValue t)
  | fuel + 1, t =>
    match t with
    | .char '"' :: rest =>
      match readString rest with
      | .error e => .error e
      | .ok (s, rest) => .ok (.string s, rest)
    | .char '[' :: rest =>
      match depth with
      | 0 => .error (.tooDeep .array)
      | depth + 1 =>
        match skipSpaces rest with
        | .char ']' :: rest => .ok (.array [], rest)
        | rest =>
          match readItems gather depth fuel rest with
          | .error e => .error e
          | .ok (items, rest) => .ok (.array items, rest)
    | .char '\x7b' :: rest =>
      match depth with
      | 0 => .error (.tooDeep .object)
      | depth + 1 =>
        match skipSpaces rest with
        | .char '\x7d' :: rest => .ok (.object (gather []), rest)
        | rest =>
          match readMembers gather depth fuel rest with
          | .error e => .error e
          | .ok (pairs, rest) => .ok (.object (gather pairs), rest)
    | _ =>
      match readWord? t with
      | some found => .ok found
      | none =>
        match t with
        | .char '-' :: rest => readNumber t true rest
        | _ => readNumber t false t

/-- Reads the items of an array that has some, up to its closing bracket. -/
def readItems (gather : List (Text × Json) → Members) (depth : Nat) :
    (fuel : Nat) → Text → Except ReadError (List Json × Text)
  | 0, t => .error (.malformed .expectingValue t)
  | fuel + 1, t =>
    match readValue gather depth fuel t with
    | .error e => .error e
    | .ok (item, rest) =>
      match skipSpaces rest with
      | .char ']' :: rest => .ok ([item], rest)
      | .char ',' :: rest =>
        match readItems gather depth fuel (skipSpaces rest) with
        | .error e => .error e
        | .ok (items, rest) => .ok (item :: items, rest)
      | rest => .error (.malformed .expectingComma rest)

/-- Reads the members of an object that has some, up to its closing brace. -/
def readMembers (gather : List (Text × Json) → Members) (depth : Nat) :
    (fuel : Nat) → Text → Except ReadError (List (Text × Json) × Text)
  | 0, t => .error (.malformed .expectingName t)
  | fuel + 1, t =>
    match t with
    | .char '"' :: rest =>
      match readString rest with
      | .error e => .error e
      | .ok (name, rest) =>
        match skipSpaces rest with
        | .char ':' :: rest =>
          match readValue gather depth fuel (skipSpaces rest) with
          | .error e => .error e
          | .ok (value, rest) =>
            match skipSpaces rest with
            | .char '\x7d' :: rest => .ok ([(name, value)], rest)
            | .char ',' :: rest =>
              match readMembers gather depth fuel (skipSpaces rest) with
              | .error e => .error e
              | .ok (pairs, rest) => .ok ((name, value) :: pairs, rest)
            | rest => .error (.malformed .expectingComma rest)
        | rest => .error (.malformed .expectingColon rest)
    | _ => .error (.malformed .expectingName t)

end

/-- Reads a document: one value with blanks around it.  Every step of reading takes a code point or
descends into a value that does, so twice the length is fuel enough. -/
def readWith (gather : List (Text × Json) → Members) (t : Text) : Except ReadError Json :=
  match t with
  | .char '\uFEFF' :: _ => .error (.malformed .byteOrderMark t)
  | _ =>
    match readValue gather depthLimit (2 * t.length + 2) (skipSpaces t) with
    | .error e => .error e
    | .ok (value, rest) =>
      match skipSpaces rest with
      | [] => .ok value
      | rest => .error (.malformed .extraData rest)

/-- Reads a document in which the last member with a name counts. -/
def read (t : Text) : Except ReadError Json := readWith Members.ofPairs t

/-- Reads a document whose objects keep all members in the order in which they are written. -/
def readWritten (t : Text) : Except ReadError Json := readWith id t

/-- The members of the object that a text is. -/
def readObject (t : Text) : Except ReadError (Option Members) :=
  match read t with
  | .ok v => .ok v.members?
  | .error (.malformed _ _) => .ok none
  | .error e => .error e

/-! ## Places -/

/-- The offset of a defect, given what lay ahead of it. -/
def offsetOf (t ahead : Text) : Nat := t.length - ahead.length

/-- The number of the line on which a defect was found. -/
def lineOf (t ahead : Text) : Nat := Text.lineAt t (offsetOf t ahead)

/-- The number of the column at which a defect was found, counted from one. -/
def columnOf (t ahead : Text) : Nat :=
  (((t.take (offsetOf t ahead)).reverse).takeWhile (· != .char '\n')).length + 1

end WorkflowLint.Json
