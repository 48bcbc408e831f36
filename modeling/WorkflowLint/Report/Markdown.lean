import WorkflowLint.Calendar
import WorkflowLint.Check.Registry
import WorkflowLint.Finding.Result

/-!
# Reports in Markdown

A result as a Markdown document: its status, its counts, and a table of findings for each severity.
A registry as a table of its rules.
-/

namespace WorkflowLint

namespace Markdown

/-- A text as the cell of a table: bars are escaped and lines are joined. -/
def cell (t : Text) : Text := (t.replaceAll "|" "\\|").replaceAll "\n" " "

/-- A row of a table. -/
def row (cells : List Text) : Text := "| " ++ Text.join " | " cells ++ " |"

end Markdown

namespace Result

/-- The word for whether a result is valid. -/
def status (r : Result) : Text := if r.valid then "PASS" else "FAIL"

/-- The findings with a severity. -/
def withSeverity (r : Result) (s : Severity) : List Finding :=
  r.findings.filter fun f => f.severity == s

end Result

/-- Where a finding is: its path, and its line if it has one. -/
def Finding.location (f : Finding) : Text :=
  match f.line with
  | none => f.path
  | some n => f.path ++ ":" ++ Text.ofInt n

/-- The row of a finding. -/
def Finding.markdownRow (f : Finding) : Text :=
  Markdown.row <| [f.rule, f.location, f.message, (f.fix.map Fix.description).getD []].map
    Markdown.cell

/-- A time as the document shows it. -/
def Timestamp.reportText (t : Timestamp) : Text :=
  let date := t.date
  Text.join "-" [Text.ofNat date.year, Text.ofNatPadded 10 2 date.month,
    Text.ofNatPadded 10 2 date.day] ++ " " ++ t.clock ++ " UTC"

namespace Result

/-- The lines about the findings with a severity. -/
def markdownSection (r : Result) (s : Severity) : List Text :=
  let findings := r.withSeverity s
  let title : Text := "## " ++ s.name ++ " (" ++ Text.ofNat findings.length ++ ")"
  let body : List Text :=
    if findings.isEmpty then ["_None._"]
    else
      let head : List Text :=
        ["| Rule | Location | Message | Fix |", "|------|----------|---------|-----|"]
      head ++ findings.map Finding.markdownRow
  [title, []] ++ body ++ [[]]

/-- The lines about the result as a whole. -/
def markdownHead (r : Result) (time : Timestamp) : List Text :=
  let s := r.summary
  ["# Workflow Validation Report", [],
    "**Timestamp**: " ++ time.reportText,
    "**Status**: " ++ r.status,
    "**Files validated**: " ++ Text.ofNat r.files.length, [],
    "## Summary", [],
    "| must | should | nit | fixable |", "|------|--------|-----|---------|",
    Markdown.row ([s.must, s.should, s.nit, s.fixable].map Text.ofNat), []]

/-- The report on a result. -/
def markdown (r : Result) (time : Timestamp) : Text :=
  Text.join "\n" (r.markdownHead time ++ Severity.all.flatMap r.markdownSection)

end Result

/-- The row of a check. -/
def AnyCheck.markdownRow (c : AnyCheck) : Text :=
  let fixable : Text := if c.info.fixable then "yes" else "no"
  Markdown.row [Markdown.cell c.info.id, c.kind.name, c.info.severity.name, fixable,
    Markdown.cell c.info.description]

/-- The table of the rules of a registry. -/
def Registry.markdown (r : Registry) : Text :=
  let head : List Text :=
    ["| Rule | Kind | Severity | Fixable | Description |",
      "|------|------|----------|---------|-------------|"]
  Text.join "\n" (head ++ r.all.map AnyCheck.markdownRow)

end WorkflowLint
