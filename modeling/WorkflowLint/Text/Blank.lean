import WorkflowLint.Text.Basic

/-!
# Blanks

The blank code points of all scripts: spaces, line and paragraph separators, and the controls that
move the position.  They are dropped at the ends of a keyword and allowed around a colon.
-/

namespace WorkflowLint

/-- Whether a code point is blank. -/
def CodePoint.isBlank (c : CodePoint) : Bool :=
  [0x9, 0xA, 0xB, 0xC, 0xD, 0x1C, 0x1D, 0x1E, 0x1F, 0x20, 0x85, 0xA0, 0x1680, 0x2000, 0x2001,
    0x2002, 0x2003, 0x2004, 0x2005, 0x2006, 0x2007, 0x2008, 0x2009, 0x200A, 0x2028, 0x2029, 0x202F,
    0x205F, 0x3000].contains c.val

/-- Drops the blanks at both ends. -/
def Text.strip (t : Text) : Text := t.trim CodePoint.isBlank

end WorkflowLint
