import WorkflowLint.Text.Quoted
import WorkflowLint.Yaml.Token

/-!
# Directives, anchors and tags

Readers of the tokens that consist of a name or an address.  Each takes the cursor at the start of
the token and returns what the token says and the cursor after it.
-/

namespace WorkflowLint.Yaml

/-- The result of reading a part of a token. -/
abbrev Reading (α : Type) := Except LoadError (α × Cursor)

/-- What follows from the text up to the code point some places ahead.  If that one lies behind the
barrier, nothing does but that the text cannot be read so far. -/
def Cursor.upTo {α : Type} (c : Cursor) (n : Nat) (r : Except LoadError α) : Except LoadError α :=
  match c.barrierWithin? n with
  | some b => .error (.unacceptable b.codePoint b.offset)
  | none => r

/-- A defect of a token at the cursor, as part of something that starts at a place.  It shows from
the text up to the code point that is `reach` places ahead. -/
def Cursor.fail {α : Type} (c : Cursor) (context : Text) (start : Mark) (problem : Text)
    (reach : Nat := 0) : Except LoadError α :=
  c.upTo reach <| .error (.defect ⟨.tokens, some context, some start, problem, c.mark⟩)

/-- A separator of documents is ahead or not, if the text can be read as far as that shows. -/
def Cursor.separates (c : Cursor) : Except LoadError Bool :=
  c.upTo c.separatorReach (.ok c.atDocumentSeparator)

/-- The code point some places ahead as a message shows it; the end is shown as a null. -/
def Cursor.found (c : Cursor) (n : Nat := 0) : Text :=
  Text.quoted [(c.peek n).getD (.char '\x00')]

/-- The code points of anchors and handles: letters, digits, hyphens and underscores. -/
def isWordUnit (c : CodePoint) : Bool := c.isAlphanum || c == .char '-' || c == .char '_'

/-- Whether a code point is one of some characters. -/
def isOneOf (chars : String) (c : CodePoint) : Bool := (Text.ofString chars).contains c

/-! ## Anchors and aliases -/

/-- Reads the name of an anchor or an alias, which is called `what`. -/
def readAnchor (what : Text) (c : Cursor) : Reading Text :=
  let context := "while scanning an " ++ what
  let problem (c : Cursor) : Text :=
    "expected alphabetic or numeric character, but found " ++ c.found
  let (name, c') := c.next.span isWordUnit
  if name.isEmpty then c'.fail context c.mark (problem c')
  else if c'.atBlankOrEnd || c'.peek.any (isOneOf "?:,]\x7d%@\x60") then .ok (name, c')
  else c'.fail context c.mark (problem c')

/-! ## Addresses -/

/-- The code points of addresses, other than the percent sign. -/
def isAddressUnit (c : CodePoint) : Bool := c.isAlphanum || isOneOf "-;/?:@&=+$,_.!~*'()[]" c

/-- Reads the bytes that are escaped as a percent sign and two hexadecimal digits each. -/
def readEscapedBytes (what : Text) (start : Mark) : (fuel : Nat) → Cursor → Reading (List UInt8)
  | 0, c => .ok ([], c)
  | fuel + 1, c =>
    if !c.at? '%' then .ok ([], c)
    else
      let c := c.next
      let digit (n : Nat) : Option Nat := (c.peek n).bind CodePoint.hexValue?
      let problem (n : Nat) : Text :=
        "expected URI escape sequence of 2 hexadecimal numbers, but found " ++ c.found n
      match digit 0, digit 1 with
      | none, _ => c.fail ("while scanning a " ++ what) start (problem 0)
      | _, none => c.fail ("while scanning a " ++ what) start (problem 1) 1
      | some a, some b =>
        match readEscapedBytes what start fuel (c.advance 2) with
        | .error e => .error e
        | .ok (bytes, c) => .ok ((a * 16 + b).toUInt8 :: bytes, c)

/-- Reads an address, `read` being what was read of it before. -/
def readAddressFrom (what : Text) (start : Mark) : (fuel : Nat) → (read : Text) → Cursor →
    Reading Text
  | 0, read, c => .ok (read, c)
  | fuel + 1, read, c =>
    let (run, c) := c.span isAddressUnit
    let read := read ++ run
    if c.at? '%' then
      match readEscapedBytes what start (c.left) c with
      | .error e => .error e
      | .ok (bytes, c') =>
        match Utf8.decode bytes with
        | .error e => c'.upTo 0 (c.fail ("while scanning a " ++ what) start e.message)
        | .ok t => readAddressFrom what start fuel (read ++ t) c'
    else if read.isEmpty then
      c.fail ("while parsing a " ++ what) start ("expected URI, but found " ++ c.found)
    else .ok (read, c)

/-- Reads an address. -/
def readAddress (what : Text) (start : Mark) (c : Cursor) : Reading Text :=
  readAddressFrom what start (c.left + 1) [] c

/-- Reads a handle: an exclamation mark, possibly followed by a word and another one. -/
def readHandle (what : Text) (start : Mark) (c : Cursor) : Reading Text :=
  let context := "while scanning a " ++ what
  if !c.at? '!' then c.fail context start ("expected '!', but found " ++ c.found)
  else if c.next.at? ' ' then .ok (Text.ofChar '!', c.next)
  else
    let (word, c') := c.next.span isWordUnit
    if c'.at? '!' then .ok ("!" ++ word ++ "!", c'.next)
    else c'.fail context start ("expected '!', but found " ++ c'.found)

/-! ## Tags -/

/-- The text up to the next exclamation mark, or the end of the word. -/
def beforeMark (t : Text) : Text :=
  t.takeWhile fun c => !(isBreak c || isOneOf " !" c)

/-- Reads the handle of a tag.  An exclamation mark that is not followed by another one, somewhere
in the same word, is a handle of its own. -/
def readTagHandle (c : Cursor) : Reading Text :=
  let c' := c.next.advance (beforeMark c.next.ahead).length
  c'.upTo 0 <|
    if c'.at? '!' then readHandle "tag" c.mark c else .ok (Text.ofChar '!', c.next)

/-- Reads a tag: a handle, which may be missing, and what follows it. -/
def readTag (c : Cursor) : Reading (Option Text × Text) :=
  let start := c.mark
  let read : Reading (Option Text × Text) :=
    if c.peek 1 = some (.char '<') then
      match readAddress "tag" start (c.advance 2) with
      | .error e => .error e
      | .ok (t, c) =>
        if c.at? '>' then .ok ((none, t), c.next)
        else c.fail "while parsing a tag" start ("expected '>', but found " ++ c.found)
    else if c.atBlankOrEnd 1 then .ok ((none, Text.ofChar '!'), c.next)
    else
      match readTagHandle c with
      | .error e => .error e
      | .ok (handle, c) =>
        match readAddress "tag" start c with
        | .error e => .error e
        | .ok (t, c) => .ok ((some handle, t), c)
  match read with
  | .error e => .error e
  | .ok (tag, c) =>
    if c.atSpaceBreakOrEnd then .ok (tag, c)
    else c.fail "while scanning a tag" start ("expected ' ', but found " ++ c.found)

/-! ## Directives -/

/-- The context of the defects of a directive. -/
def directiveContext : Text := "while scanning a directive"

/-- Reads the rest of a line on which nothing but a comment may stand, and the break after it. -/
def readLineRest (context : Text) (start : Mark) (c : Cursor) : Except LoadError Cursor :=
  let c := c.skipSpaces.skipComment
  if c.atBreakOrEnd then .ok c.lineBreak.2
  else c.fail context start ("expected a comment or a line break, but found " ++ c.found)

/-- Reads a number of a version, which may not have too many digits. -/
def readVersionNumber (start : Mark) (c : Cursor) : Reading Nat :=
  let (digits, c') := c.span CodePoint.isDigit
  if digits.isEmpty then c.fail directiveContext start ("expected a digit, but found " ++ c.found)
  else if Json.digitLimit < digits.length then
    c'.upTo 0 <| .error (.fault (.tooManyDigits digits.length))
  else .ok (digits.toNat, c')

/-- Reads the two numbers of a version. -/
def readVersion (start : Mark) (c : Cursor) : Reading Directive :=
  match readVersionNumber start c.skipSpaces with
  | .error e => .error e
  | .ok (major, c) =>
    if !c.at? '.' then
      c.fail directiveContext start ("expected a digit or '.', but found " ++ c.found)
    else
      match readVersionNumber start c.next with
      | .error e => .error e
      | .ok (minor, c) =>
        if c.atSpaceBreakOrEnd then .ok (.version major minor, c)
        else c.fail directiveContext start ("expected a digit or ' ', but found " ++ c.found)

/-- Reads a handle and the start of the tags that it stands for. -/
def readTagDirective (start : Mark) (c : Cursor) : Reading Directive :=
  match readHandle "directive" start c.skipSpaces with
  | .error e => .error e
  | .ok (handle, c) =>
    if !c.at? ' ' then c.fail directiveContext start ("expected ' ', but found " ++ c.found)
    else
      match readAddress "directive" start c.skipSpaces with
      | .error e => .error e
      | .ok (address, c) =>
        if c.atSpaceBreakOrEnd then .ok (.tag handle address, c)
        else c.fail directiveContext start ("expected ' ', but found " ++ c.found)

/-- Reads a directive, the place where it ends, and the rest of its line. -/
def readDirective (c : Cursor) : Reading (Directive × Mark) :=
  let start := c.mark
  let (name, c) := c.next.span isWordUnit
  let problem (c : Cursor) : Text :=
    "expected alphabetic or numeric character, but found " ++ c.found
  if name.isEmpty || !c.atSpaceBreakOrEnd then c.fail directiveContext start (problem c)
  else
    let read : Reading (Directive × Mark) :=
      if name = "YAML" then
        match readVersion start c with
        | .error e => .error e
        | .ok (d, c) => .ok ((d, c.mark), c)
      else if name = "TAG" then
        match readTagDirective start c with
        | .error e => .error e
        | .ok (d, c) => .ok ((d, c.mark), c)
      else .ok ((.other name, c.mark), c.skip fun ch => !isBreak ch)
    match read with
    | .error e => .error e
    | .ok (d, c) =>
      match readLineRest directiveContext start c with
      | .error e => .error e
      | .ok c => .ok (d, c)

end WorkflowLint.Yaml
