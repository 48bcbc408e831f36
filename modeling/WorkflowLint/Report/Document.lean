import WorkflowLint.Report.Markdown

/-!
# Reports as documents

A result as a JSON document, with its findings grouped by severity.
-/

namespace WorkflowLint.Result

/-- The version of the form of reports. -/
def reportVersion : Text := "1.0"

/-- The report on a result. -/
def report (r : Result) (time : Timestamp) : Json :=
  let grouped : Json.Members :=
    Severity.all.map fun s => (s.name, .array ((r.withSeverity s).map Finding.toJson))
  .object [("version", .string reportVersion), ("timestamp", .string (time.isoSeconds "T")),
    ("status", .string r.status), ("valid", .bool r.valid), ("summary", r.summary.toJson),
    ("files_validated", .array (r.files.map Json.string)), ("findings", .object grouped)]

end WorkflowLint.Result
