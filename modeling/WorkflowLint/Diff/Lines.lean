import WorkflowLint.Text.Basic

/-!
# Lines of a text

The lines of a text, each with the line end that closes it.  Besides line feeds and carriage
returns, several other code points end a line.
-/

namespace WorkflowLint.Text

/-- The code points that end a line. -/
def isLineEnd (c : CodePoint) : Bool :=
  let n := c.val
  (decide (0xA ≤ n) && decide (n ≤ 0xD)) || (decide (0x1C ≤ n) && decide (n ≤ 0x1E)) || n == 0x85
    || n == 0x2028 || n == 0x2029

/-- The lines of a text, the first of which starts with `line`, given in reverse order.  A carriage
return and the line feed after it end one line. -/
def linesFrom (line : Text) : Text → List Text
  | [] => if line.isEmpty then [] else [line.reverse]
  | c :: t =>
    if isLineEnd c ∧ !(c = .char '\r' ∧ t.head? = some (.char '\n')) then
      (c :: line).reverse :: linesFrom [] t
    else linesFrom (c :: line) t

/-- The lines of a text with their line ends. -/
def lines (t : Text) : List Text := linesFrom [] t

end WorkflowLint.Text
