import WorkflowLint.Yaml.ScalarText

/-!
# The tokens of a text

`tokens` gives the tokens of a text from left to right, and the defect that ends them if there is
one.  The text may have a barrier: then the tokens end before the first one that cannot be told
without the text behind it.

Whether a scalar is the key of a mapping shows only at the colon after it.  So a token that may turn
out to start a key is remembered as a *candidate*, one for each level of brackets; when the colon
comes, a key token is put before it.  Until then the token and those after it are held back: they
are released when the candidate is given up, because its line ended or it grew too long.
-/

namespace WorkflowLint.Yaml

/-- A token that may start a key: its number among all tokens, its place, and whether it must turn
out to be a key because it stands where only a key can. -/
structure Candidate where
  number : Nat
  mark : Mark
  required : Bool

/-- The state between two tokens.  `columns` are the columns of the open block collections, the
innermost first, and `depth` is the number of open brackets.  `held` are the tokens that are not yet
released, `released` being the number of those that are. -/
structure Scan where
  cursor : Cursor
  columns : List Nat
  depth : Nat
  candidates : List (Nat × Candidate)
  allowsKey : Bool
  released : Nat
  held : List Token
  finished : Bool

namespace Scan

/-- The state before the first token of a text; the start of the stream is a token. -/
def start (t : Text) (barrier : Option Barrier) : Scan where
  cursor := .start t barrier
  columns := []
  depth := 0
  candidates := []
  allowsKey := true
  released := 0
  held := [⟨.streamStart, ⟨0, 0, 0⟩, ⟨0, 0, 0⟩⟩]
  finished := false

/-- Whether the cursor is inside brackets. -/
def inFlow (s : Scan) : Bool := s.depth != 0

/-- The least column of what belongs to the innermost block collection. -/
def minColumn (s : Scan) : Nat :=
  match s.columns with
  | [] => 0
  | column :: _ => column + 1

/-- A defect at the cursor that is not part of something else. -/
def fail (s : Scan) (problem : Text) : Except LoadError Scan :=
  .error (.defect ⟨.tokens, none, none, problem, s.cursor.mark⟩)

/-- Appends a token. -/
def emit (s : Scan) (t : Token) : Scan := { s with held := s.held ++ [t] }

/-- Appends a token of no width at the cursor. -/
def emitHere (s : Scan) (kind : TokenKind) : Scan := s.emit ⟨kind, s.cursor.mark, s.cursor.mark⟩

/-- Appends the token that ends where `c` is, and moves there. -/
def emitUpTo (s : Scan) (kind : TokenKind) (c : Cursor) : Scan :=
  { s.emit ⟨kind, s.cursor.mark, c.mark⟩ with cursor := c }

/-- Appends a token of some code points. -/
def emitUnits (s : Scan) (kind : TokenKind) (n : Nat) : Scan := s.emitUpTo kind (s.cursor.advance n)

/-! ## Candidates for keys -/

/-- The defect of a candidate that must be a key and is not. -/
def missingColon (s : Scan) (k : Candidate) : LoadError :=
  .defect ⟨.tokens, some "while scanning a simple key", some k.mark,
    "could not find expected ':'", s.cursor.mark⟩

/-- Whether a candidate can no longer be a key: it has to be on one line, and not too long. -/
def isStale (s : Scan) (k : Candidate) : Bool :=
  k.mark.line != s.cursor.mark.line || k.mark.index + 1024 < s.cursor.mark.index

/-- Gives up the candidates that can no longer be keys. -/
def dropStale (s : Scan) : Except LoadError Scan :=
  match s.candidates.find? fun k => s.isStale k.2 && k.2.required with
  | some k => .error (s.missingColon k.2)
  | none => .ok { s with candidates := s.candidates.filter fun k => !s.isStale k.2 }

/-- Gives up the candidate of the current level. -/
def dropCandidate (s : Scan) : Except LoadError Scan :=
  match Keyed.get? s.depth s.candidates with
  | none => .ok s
  | some k =>
    if k.required then .error (s.missingColon k)
    else .ok { s with candidates := s.candidates.filter fun k => k.1 != s.depth }

/-- Makes the next token the candidate of the current level, if a key may stand there. -/
def markCandidate (s : Scan) : Except LoadError Scan :=
  if !s.allowsKey then .ok s
  else
    match s.dropCandidate with
    | .error e => .error e
    | .ok s =>
      let required := !s.inFlow && s.columns.head? == some s.cursor.mark.column
      let k : Candidate := ⟨s.released + s.held.length, s.cursor.mark, required⟩
      .ok { s with candidates := Keyed.set s.depth k s.candidates }

/-! ## Indentation -/

/-- Closes the block collections that are indented further than to a column. -/
def closeBlocks (column : Option Nat) (s : Scan) : Scan :=
  if s.inFlow then s
  else
    let closed := s.columns.takeWhile fun c => column.all fun column => column < c
    { s with
      columns := s.columns.drop closed.length
      held := s.held ++ closed.map fun _ => ⟨.blockEnd, s.cursor.mark, s.cursor.mark⟩ }

/-- Whether a block collection would start at a column. -/
def opensBlock (s : Scan) (column : Nat) : Bool := s.columns.head?.all fun c => c < column

/-- Starts a block collection at the cursor, unless the cursor is in it already. -/
def openBlock (kind : TokenKind) (s : Scan) : Scan :=
  let column := s.cursor.mark.column
  if s.opensBlock column then { s.emitHere kind with columns := column :: s.columns } else s

/-- Starts a block collection for an entry of it, which may stand only where a key may. -/
def openBlockFor (kind : TokenKind) (entries : Text) (s : Scan) : Except LoadError Scan :=
  if s.inFlow then .ok s
  else if !s.allowsKey then s.fail (entries ++ " are not allowed here")
  else .ok (s.openBlock kind)

/-! ## The tokens one by one -/

/-- Reads the end of the text. -/
def readEnd (s : Scan) : Except LoadError Scan :=
  match (s.closeBlocks none).dropCandidate with
  | .error e => .error e
  | .ok s =>
    .ok { s.emitHere .streamEnd with candidates := [], allowsKey := false, finished := true }

/-- Reads a directive. -/
def readDirectiveToken (s : Scan) : Except LoadError Scan :=
  match (s.closeBlocks none).dropCandidate with
  | .error e => .error e
  | .ok s =>
    match readDirective s.cursor with
    | .error e => .error e
    | .ok ((d, stop), c) =>
      .ok { s.emit ⟨.directive d, s.cursor.mark, stop⟩ with cursor := c, allowsKey := false }

/-- Reads a separator of documents. -/
def readSeparator (kind : TokenKind) (s : Scan) : Except LoadError Scan :=
  match (s.closeBlocks none).dropCandidate with
  | .error e => .error e
  | .ok s => .ok { s.emitUnits kind 3 with allowsKey := false }

/-- Reads an opening bracket. -/
def readOpening (kind : TokenKind) (s : Scan) : Except LoadError Scan :=
  match s.markCandidate with
  | .error e => .error e
  | .ok s => .ok { s.emitUnits kind 1 with depth := s.depth + 1, allowsKey := true }

/-- Reads a closing bracket. -/
def readClosing (kind : TokenKind) (s : Scan) : Except LoadError Scan :=
  match s.dropCandidate with
  | .error e => .error e
  | .ok s => .ok { s.emitUnits kind 1 with depth := s.depth - 1, allowsKey := false }

/-- Reads a comma between entries. -/
def readComma (s : Scan) : Except LoadError Scan :=
  match s.dropCandidate with
  | .error e => .error e
  | .ok s => .ok { s.emitUnits .flowEntry 1 with allowsKey := true }

/-- Reads the hyphen before an item. -/
def readHyphen (s : Scan) : Except LoadError Scan :=
  match s.openBlockFor .blockSequenceStart "sequence entries" with
  | .error e => .error e
  | .ok s =>
    match s.dropCandidate with
    | .error e => .error e
    | .ok s => .ok { s.emitUnits .blockEntry 1 with allowsKey := true }

/-- Reads the question mark before a key. -/
def readQuestionMark (s : Scan) : Except LoadError Scan :=
  match s.openBlockFor .blockMappingStart "mapping keys" with
  | .error e => .error e
  | .ok s =>
    match s.dropCandidate with
    | .error e => .error e
    | .ok s => .ok { s.emitUnits .key 1 with allowsKey := !s.inFlow }

/-- Puts the token of a key before a candidate, and the start of a mapping before that if the key
is the first of one. -/
def insertKey (k : Candidate) (s : Scan) : Scan :=
  let (before, after) := s.held.splitAt (k.number - s.released)
  let opens := !s.inFlow && s.opensBlock k.mark.column
  let opening : List Token := if opens then [⟨.blockMappingStart, k.mark, k.mark⟩] else []
  { s with
    held := before ++ opening ++ [⟨.key, k.mark, k.mark⟩] ++ after
    columns := if opens then k.mark.column :: s.columns else s.columns
    candidates := s.candidates.filter fun k => k.1 != s.depth
    allowsKey := false }

/-- Reads the colon before a value. -/
def readColon (s : Scan) : Except LoadError Scan :=
  match Keyed.get? s.depth s.candidates with
  | some k => .ok ((s.insertKey k).emitUnits .value 1)
  | none =>
    match s.openBlockFor .blockMappingStart "mapping values" with
    | .error e => .error e
    | .ok s => .ok { s.emitUnits .value 1 with allowsKey := !s.inFlow }

/-- Reads a token that may start a key. -/
def readNamed (read : Cursor → Reading TokenKind) (s : Scan) : Except LoadError Scan :=
  match s.markCandidate with
  | .error e => .error e
  | .ok s =>
    match read s.cursor with
    | .error e => .error e
    | .ok (kind, c) => .ok { s.emitUpTo kind c with allowsKey := false }

/-- Reads an alias or an anchor. -/
def readReference (what : Text) (kind : Text → TokenKind) (c : Cursor) : Reading TokenKind :=
  match readAnchor what c with
  | .error e => .error e
  | .ok (name, c) => .ok (kind name, c)

/-- Reads the tag of a node. -/
def readTagToken (c : Cursor) : Reading TokenKind :=
  match readTag c with
  | .error e => .error e
  | .ok ((handle, rest), c) => .ok (.tag handle rest, c)

/-- Reads a scalar between quotes. -/
def readQuotedToken (quote : Char) (c : Cursor) : Reading TokenKind :=
  match readQuoted quote c with
  | .error e => .error e
  | .ok (t, c) => .ok (.scalar t false, c)

/-- Reads a block of lines. -/
def readBlock (folded : Bool) (s : Scan) : Except LoadError Scan :=
  match s.dropCandidate with
  | .error e => .error e
  | .ok s =>
    match readBlockScalar folded s.minColumn s.cursor with
    | .error e => .error e
    | .ok (b, c) =>
      let s := s.emit ⟨.scalar b.text false, s.cursor.mark, b.stop⟩
      .ok { s with cursor := c, allowsKey := true }

/-- Reads a plain scalar. -/
def readPlainToken (s : Scan) : Except LoadError Scan :=
  match s.markCandidate with
  | .error e => .error e
  | .ok s =>
    match readPlain s.inFlow s.minColumn s.cursor with
    | .error e => .error e
    | .ok (p, c) =>
      .ok { s.emit ⟨.scalar p.text true, s.cursor.mark, p.stop⟩ with
            cursor := c, allowsKey := p.brokeLine }

/-! ## All tokens -/

/-- Moves to the next token, over spaces, comments and line breaks.  In blocks a key may follow a
line break. -/
def skipBlanksFrom : (fuel : Nat) → Scan → Scan
  | 0, s => s
  | fuel + 1, s =>
    let c := s.cursor.skipSpaces.skipComment
    if c.atBreak then
      skipBlanksFrom fuel { s with cursor := c.lineBreak.2, allowsKey := s.allowsKey || !s.inFlow }
    else { s with cursor := c }

/-- Moves to the next token; a byte order mark may start the text. -/
def skipBlanks (s : Scan) : Scan :=
  let s :=
    if s.cursor.mark.index = 0 ∧ s.cursor.at? '\uFEFF' then { s with cursor := s.cursor.next }
    else s
  skipBlanksFrom (s.cursor.left + 1) s

/-- Whether a plain scalar can start at the cursor. -/
def startsPlain (s : Scan) : Bool :=
  let c := s.cursor
  match c.peek with
  | none => false
  | some ch =>
    !(isBreak ch || isOneOf " \t-?:,[]\x7b\x7d#&*!|>'\"%@\x60" ch)
      || (!c.atBlankOrEnd 1 && (ch == .char '-' || (!s.inFlow && isOneOf "?:" ch)))

/-- How far ahead it shows which token is at the cursor, unless none can be. -/
def lookahead (s : Scan) : Nat :=
  let c := s.cursor
  if c.mark.column = 0 ∧ (c.at? '-' ∨ c.at? '.') then c.separatorReach
  else if c.at? '-' ∨ (!s.inFlow ∧ (c.at? '?' ∨ c.at? ':')) then 1
  else 0

/-- Reads the token at the cursor. -/
def readToken (s : Scan) : Except LoadError Scan :=
  let c := s.cursor
  let atLineStart := c.mark.column == 0
  match c.ahead with
  | [] => s.readEnd
  | ch :: _ =>
    if atLineStart && ch == .char '%' then s.readDirectiveToken
    else if atLineStart && c.atSeparator '-' then s.readSeparator .documentStart
    else if atLineStart && c.atSeparator '.' then s.readSeparator .documentEnd
    else if ch = .char '[' then s.readOpening .flowSequenceStart
    else if ch = .char '\x7b' then s.readOpening .flowMappingStart
    else if ch = .char ']' then s.readClosing .flowSequenceEnd
    else if ch = .char '\x7d' then s.readClosing .flowMappingEnd
    else if ch = .char ',' then s.readComma
    else if ch = .char '-' ∧ c.atBlankOrEnd 1 then s.readHyphen
    else if ch = .char '?' ∧ (s.inFlow ∨ c.atBlankOrEnd 1) then s.readQuestionMark
    else if ch = .char ':' ∧ (s.inFlow ∨ c.atBlankOrEnd 1) then s.readColon
    else if ch = .char '*' then s.readNamed (readReference "alias" .alias)
    else if ch = .char '&' then s.readNamed (readReference "anchor" .anchor)
    else if ch = .char '!' then s.readNamed readTagToken
    else if ch = .char '|' ∧ !s.inFlow then s.readBlock false
    else if ch = .char '>' ∧ !s.inFlow then s.readBlock true
    else if ch = .char '\'' then s.readNamed (readQuotedToken '\'')
    else if ch = .char '"' then s.readNamed (readQuotedToken '"')
    else if s.startsPlain then s.readPlainToken
    else
      c.upTo 1 <| .error <| .defect ⟨.tokens, some "while scanning for the next token", none,
        "found character " ++ c.found ++ " that cannot start any token", c.mark⟩

/-- Reads the token at the cursor, after closing the blocks that end before it.  Where it ends shows
only from the code point after it. -/
def readWhole (s : Scan) : Except LoadError Scan :=
  s.cursor.upTo s.lookahead <|
    match (s.closeBlocks (some s.cursor.mark.column)).readToken with
    | .error e => .error e
    | .ok s => s.cursor.upTo 0 (.ok s)

/-- Moves to the next token and reads it. -/
def advance (s : Scan) : Except LoadError Scan :=
  let s := s.skipBlanks
  s.cursor.upTo 0 <|
    match s.dropStale with
    | .error e => .error e
    | .ok s => s.readWhole

/-- Releases the tokens before the first candidate. -/
def release (s : Scan) : List Token × Scan :=
  let count := s.candidates.foldl (fun n k => min n (k.2.number - s.released)) s.held.length
  (s.held.take count, { s with held := s.held.drop count, released := s.released + count })

/-- The tokens from a state on, and the defect that ends them. -/
def tokensFrom : (fuel : Nat) → Scan → List Token × Option LoadError
  | 0, s => (s.held, none)
  | fuel + 1, s =>
    let (ready, s) := s.release
    let (rest, stop) :=
      match s.advance with
      | .error e => ([], some e)
      | .ok s =>
        if s.finished then (s.held, none)
        else
          match s.dropStale with
          | .error e => ([], some e)
          | .ok s => tokensFrom fuel s
    (ready ++ rest, stop)

end Scan

/-- The tokens of a text up to its barrier, and the defect that ends them if there is one. -/
def tokens (t : Text) (barrier : Option Barrier) : List Token × Option LoadError :=
  Scan.tokensFrom (t.length + 2) (Scan.start t barrier)

end WorkflowLint.Yaml
