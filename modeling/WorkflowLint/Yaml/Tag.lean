import WorkflowLint.Keyed
import WorkflowLint.Text.Pattern

/-!
# Tags

The tag of a node says what kind of value it has.  A node without a tag gets one from its form: for
plain scalars it is decided by patterns, and a scalar that matches none of them is a text.
-/

namespace WorkflowLint.Yaml

/-- The tag of a node. -/
inductive Tag where
  | null
  | bool
  | integer
  | real
  | binary
  | timestamp
  | orderedMapping
  | pairs
  | set
  | string
  | sequence
  | mapping
  | merge
  | value
  | other (name : Text)
deriving DecidableEq

namespace Tag

/-- What the names of the standard tags start with. -/
def standard : Text := "tag:yaml.org,2002:"

/-- The standard tags with the ends of their names. -/
def names : List (Text × Tag) := [
  ("null", .null), ("bool", .bool), ("int", .integer), ("float", .real), ("binary", .binary),
  ("timestamp", .timestamp), ("omap", .orderedMapping), ("pairs", .pairs), ("set", .set),
  ("str", .string), ("seq", .sequence), ("map", .mapping), ("merge", .merge), ("value", .value)]

/-- The tag with a name. -/
def ofName (name : Text) : Tag :=
  ((Text.afterStart? standard name).bind fun rest => Keyed.get? rest names).getD (.other name)

/-- The name of a tag. -/
def name : Tag → Text
  | .other name => name
  | tag => standard ++ ((names.find? fun n => n.2 == tag).map (·.1)).getD []

/-! ## Tags of plain scalars -/

open Pattern

/-- A sign or none. -/
def sign : Pattern := optional (oneOf "+-")

/-- A digit and then digits and underscores. -/
def digits : Pattern := all [digit, manyOf "0123456789_"]

/-- Parts below sixty, each after a colon. -/
def sixtieths : Pattern := repeated (all [word ":", optional (oneOf "012345"), digit])

/-- An exponent with a sign, or none. -/
def exponent : Pattern := optional (all [oneOf "eE", oneOf "+-", digit, many CodePoint.isDigit])

/-- The truth values. -/
def boolPattern : Pattern :=
  oneWord ["yes", "Yes", "YES", "no", "No", "NO", "true", "True", "TRUE", "false", "False", "FALSE",
    "on", "On", "ON", "off", "Off", "OFF"]

/-- Real numbers: with a point, in parts of sixty, infinite, or not a number. -/
def realPattern : Pattern :=
  any [
    all [sign, digits, word ".", manyOf "0123456789_", exponent],
    all [word ".", digits, exponent],
    all [sign, digits, sixtieths, word ".", manyOf "0123456789_"],
    all [sign, oneWord [".inf", ".Inf", ".INF"]],
    oneWord [".nan", ".NaN", ".NAN"]]

/-- A positive number in base ten. -/
def positive : Pattern := all [oneOf "123456789", manyOf "0123456789_"]

/-- Whole numbers: in base two, eight, ten or sixteen, or in parts of sixty. -/
def integerPattern : Pattern :=
  all [sign, any [
    all [word "0b", oneOf "01_", manyOf "01_"],
    all [word "0", oneOf "01234567_", manyOf "01234567_"],
    word "0",
    positive,
    all [word "0x", oneOf "0123456789abcdefABCDEF_", manyOf "0123456789abcdefABCDEF_"],
    all [positive, sixtieths]]]

/-- A digit or two. -/
def twoDigits : Pattern := all [digit, optional digit]

/-- A clock time with an optional fraction and an optional zone. -/
def clockPattern : Pattern :=
  all [
    any [oneOf "Tt", all [oneOf " \t", manyOf " \t"]],
    twoDigits, word ":", digit, digit, word ":", digit, digit,
    optional (all [word ".", many CodePoint.isDigit]),
    optional (all [manyOf " \t",
      any [word "Z",
        all [oneOf "+-", twoDigits, optional (all [word ":", digit, digit])]]])]

/-- Dates, and times with a date. -/
def timestampPattern : Pattern :=
  all [digit, digit, digit, digit, word "-",
    any [
      all [digit, digit, word "-", digit, digit],
      all [twoDigits, word "-", twoDigits, clockPattern]]]

/-- The patterns and their tags. -/
def patterns : List (Pattern × Tag) := [
  (boolPattern, .bool), (realPattern, .real), (integerPattern, .integer), (word "<<", .merge),
  (oneWord ["~", "null", "Null", "NULL"], .null), (timestampPattern, .timestamp),
  (word "=", .value), (oneWord ["!", "&", "*"], .other (standard ++ "yaml"))]

/-- The tag of a plain scalar.  A line feed at its end does not count. -/
def ofPlain (t : Text) : Tag :=
  let body := if t.getLast? = some (.char '\n') then t.dropLast else t
  if t.isEmpty then .null
  else ((patterns.find? fun p => p.1.matchesAll body).map (·.2)).getD .string

end Tag
end WorkflowLint.Yaml
