import WorkflowLint.Text.Basic
import WorkflowLint.Text.Printable

/-!
# Quoted texts

How a text is shown inside a message or inside a shown collection: between single quotes, or
between double quotes if it has single quotes and no double ones; the quote, the backslash and
everything unprintable are escaped.
-/

namespace WorkflowLint

/-- The escape of an unprintable code point, in the shortest of the three widths that holds it. -/
def CodePoint.escape (c : CodePoint) : Text :=
  if c.val ≤ 0xFF then "\\x" ++ Text.ofNatPadded 16 2 c.val
  else if c.val ≤ 0xFFFF then "\\u" ++ Text.ofNatPadded 16 4 c.val
  else "\\U" ++ Text.ofNatPadded 16 8 c.val

namespace Text

/-- The quote for a text: double if single quotes occur in it and no double ones. -/
def quoteFor (t : Text) : CodePoint :=
  if List.contains t (.char '\'') && !List.contains t (.char '"') then .char '"' else .char '\''

/-- One code point between quotes. -/
def quotedUnit (quote c : CodePoint) : Text :=
  if c = quote ∨ c = .char '\\' then [.char '\\', c]
  else if c = .char '\t' then "\\t"
  else if c = .char '\n' then "\\n"
  else if c = .char '\r' then "\\r"
  else if c.isPrintable then [c]
  else c.escape

/-- A text between quotes. -/
def quoted (t : Text) : Text :=
  let quote := t.quoteFor
  quote :: t.flatMap (quotedUnit quote) ++ [quote]

/-- Bytes between quotes, after a `b`; bytes outside printable ASCII are escaped. -/
def quotedBytes (bytes : List UInt8) : Text :=
  let t : Text := bytes.map fun b => CodePoint.ofNat b.toNat
  let quote := t.quoteFor
  let unit (c : CodePoint) : Text :=
    if c.val < 0x80 then quotedUnit quote c else c.escape
  .char 'b' :: quote :: t.flatMap unit ++ [quote]

end Text
end WorkflowLint
