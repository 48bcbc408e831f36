import WorkflowLint.Yaml.ScalarStyle

/-!
# Writing scalars

The text written so far, with what decides how it goes on: the column, whether a blank comes last,
and whether the line has nothing yet but indentation and the signs of entries.  Long scalars are
continued on the next line where a single space stands behind the eightieth column.
-/

namespace WorkflowLint.Yaml

/-- A text that is being written; what was written last comes first. -/
structure Writer where
  reversed : Text
  column : Nat
  afterBlank : Bool
  indenting : Bool

namespace Writer

/-- Nothing written. -/
def empty : Writer := ⟨[], 0, true, true⟩

/-- The text that has been written. -/
def text (w : Writer) : Text := w.reversed.reverse

/-- The column behind which lines are continued. -/
def width : Nat := 80

/-- Writes a part of a line. -/
def put (t : Text) (w : Writer) : Writer :=
  { w with reversed := t.reverseAux w.reversed, column := w.column + t.length }

/-- Ends the line. -/
def endLineWith (c : CodePoint) (w : Writer) : Writer := ⟨c :: w.reversed, 0, true, true⟩

/-- Ends the line with a line feed. -/
def endLine (w : Writer) : Writer := w.endLineWith (.char '\n')

/-- Starts a line at a column, or goes on with a line that has not reached the column yet. -/
def indentTo (column : Nat) (w : Writer) : Writer :=
  let w :=
    if !w.indenting ∨ column < w.column ∨ (w.column = column ∧ !w.afterBlank) then w.endLine else w
  if w.column < column then { w.put (Text.spaces (column - w.column)) with afterBlank := true }
  else w

/-- Writes a sign of the grammar with a space before it if there is no blank. -/
def sign (t : Text) (w : Writer) : Writer :=
  let w := w.put (if w.afterBlank then t else .char ' ' :: t)
  { w with afterBlank := false, indenting := false }

/-- Writes the sign of an entry, after which a block may start on the same line. -/
def entrySign (t : Text) (w : Writer) : Writer := { w.sign t with indenting := w.indenting }

/-- Writes a sign directly after what comes before. -/
def closing (t : Text) (w : Writer) : Writer :=
  { w.put t with afterBlank := false, indenting := false }

/-- What follows inside a scalar is neither indentation nor after a blank. -/
def within (w : Writer) : Writer := { w with afterBlank := false, indenting := false }

/-- Writes the line ends inside a quoted scalar; a first line feed is written twice. -/
def putBreaks (run : Text) (w : Writer) : Writer :=
  let w := if run.head? = some (.char '\n') then w.endLine else w
  run.foldl (fun w c => w.endLineWith c) w

/-- Writes the parts of a plain scalar. -/
def putPlain (split : Bool) (column : Nat) : (fuel : Nat) → Text → Writer → Writer
  | 0, _, w => w
  | _ + 1, [], w => w
  | fuel + 1, c :: t, w =>
    let isSpace := Scalar.isSpace
    let run := (c :: t).takeWhile fun d => isSpace d == isSpace c
    let rest := (c :: t).drop run.length
    let w :=
      if isSpace c ∧ run.length = 1 ∧ width < w.column ∧ split then (w.indentTo column).within
      else w.put run
    putPlain split column fuel rest w

/-- Writes a plain scalar. -/
def plain (split : Bool) (column : Nat) (t : Text) (w : Writer) : Writer :=
  if t.isEmpty then w
  else
    let w := if w.afterBlank then w else w.put (Text.ofChar ' ')
    putPlain split column t.length t w.within

/-- Writes the parts of a scalar between single quotes. -/
def putSingleQuoted (split : Bool) (column : Nat) : (fuel : Nat) → (first : Bool) → Text → Writer →
    Writer
  | 0, _, _, w => w
  | _ + 1, _, [], w => w
  | fuel + 1, first, c :: t, w =>
    if c = .char '\'' then putSingleQuoted split column fuel false t (w.put "''")
    else
      let kind (d : CodePoint) : Bool × Bool × Bool :=
        (Scalar.isSpace d, Scalar.isLineEnd d, d == .char '\'')
      let run := (c :: t).takeWhile fun d => kind d == kind c
      let rest := (c :: t).drop run.length
      let w :=
        if Scalar.isLineEnd c then (w.putBreaks run).indentTo column
        else if Scalar.isSpace c ∧ run.length = 1 ∧ width < w.column ∧ split ∧ !first
            ∧ !rest.isEmpty then
          w.indentTo column
        else w.put run
      putSingleQuoted split column fuel false rest w

/-- Writes a scalar between single quotes. -/
def singleQuoted (split : Bool) (column : Nat) (t : Text) (w : Writer) : Writer :=
  (putSingleQuoted split column t.length true t (w.sign "'")).closing "'"

/-- The escapes that have a letter. -/
def escapeLetter? : CodePoint → Option Char
  | .char '\x00' => some '0'
  | .char '\x07' => some 'a'
  | .char '\x08' => some 'b'
  | .char '\t' => some 't'
  | .char '\n' => some 'n'
  | .char '\x0b' => some 'v'
  | .char '\x0c' => some 'f'
  | .char '\r' => some 'r'
  | .char '\x1b' => some 'e'
  | .char '"' => some '"'
  | .char '\\' => some '\\'
  | .char '\u0085' => some 'N'
  | .char '\u00a0' => some '_'
  | .char '\u2028' => some 'L'
  | .char '\u2029' => some 'P'
  | _ => none

/-- A hexadecimal numeral with capital letters. -/
def hexNumeral (digits n : Nat) : Text :=
  (Text.ofNatPadded 16 digits n).map fun c =>
    if c.isLower then CodePoint.ofNat (c.val - 0x20) else c

/-- The escape of a code point between double quotes, for those that need one. -/
def escape? (c : CodePoint) : Option Text :=
  let n := c.val
  let isKept := (decide (0x20 ≤ n) && decide (n ≤ 0x7E) && n != 0x22 && n != 0x5C)
    || (decide (0xA0 ≤ n) && decide (n ≤ 0xD7FF) && n != 0x2028 && n != 0x2029)
    || (decide (0xE000 ≤ n) && decide (n ≤ 0xFFFD) && n != 0xFEFF)
  if isKept then none
  else some <|
    match escapeLetter? c with
    | some letter => [.char '\\', .char letter]
    | none =>
      if n ≤ 0xFF then "\\x" ++ hexNumeral 2 n
      else if n ≤ 0xFFFF then "\\u" ++ hexNumeral 4 n
      else "\\U" ++ hexNumeral 8 n

/-- Writes a scalar between double quotes; `run` is what was read of it and is not written yet.  The
line can be continued before a space and around an escape. -/
def putDoubleQuoted (split : Bool) (column : Nat) : (first : Bool) → (run : Text) → Text → Writer →
    Writer
  | _, run, [], w => w.put run
  | first, run, c :: t, w =>
    let escape := escape? c
    let w := match escape with
      | some e => (w.put run).put e
      | none => w
    let run := if escape.isSome then [] else run
    let reached := if escape.isSome then w.column - 1 else w.column + run.length
    let mayBreak := c == .char ' ' || run.isEmpty
    let keep := if escape.isSome then [] else [c]
    if !first ∧ !t.isEmpty ∧ mayBreak ∧ width < reached ∧ split then
      let w := ((w.put (run ++ "\\")).indentTo column).within
      let next := if escape.isSome then t.head? else some c
      let w := if next = some (.char ' ') then w.put "\\" else w
      putDoubleQuoted split column false keep t w
    else putDoubleQuoted split column false (run ++ keep) t w

/-- Writes a scalar between double quotes. -/
def doubleQuoted (split : Bool) (column : Nat) (t : Text) (w : Writer) : Writer :=
  (putDoubleQuoted split column true [] t (w.sign "\"")).closing "\""

/-- Writes lines that each end with a line feed, as a block. -/
def block (column : Nat) (t : Text) (w : Writer) : Writer :=
  let lines := (t.parts (.char '\n')).dropLast
  lines.foldl (fun w line => ((w.indentTo column).put line).endLine) (w.sign "|").endLine

/-- Writes a scalar, with its tag if it needs one. -/
def scalar (s : Scalar) (isKey : Bool) (column : Nat) (w : Writer) : Writer :=
  let style := s.style isKey
  let w := if s.needsTag style then w.sign (Scalar.shortTag s.tag) else w
  match style with
  | .plain => w.plain (!isKey) column s.text
  | .singleQuoted => w.singleQuoted (!isKey) column s.text
  | .doubleQuoted => w.doubleQuoted (!isKey) column s.text
  | .lines => w.block column s.text

end Writer
end WorkflowLint.Yaml
