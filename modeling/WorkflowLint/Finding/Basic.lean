import WorkflowLint.Finding.Fix
import WorkflowLint.Finding.Severity

/-!
# Findings

A finding is one violation of a rule, on one file or folder.  It can be mended by the library
exactly when it carries a fix.
-/

namespace WorkflowLint

/-- A section of the guides that explains a rule. -/
structure GuideRef where
  path : Text
  heading : Option Text

namespace GuideRef

/-- A reference as a reader sees it. -/
def format (g : GuideRef) : Text :=
  match g.heading.filter fun h => !h.isEmpty with
  | none => ".guides/" ++ g.path
  | some h => ".guides/" ++ g.path ++ " > \"" ++ h ++ "\""

/-- A reference as a document. -/
def toJson (g : GuideRef) : Json :=
  .object [("path", .string g.path), ("section", (g.heading.map Json.string).getD .null)]

end GuideRef

/-- A violation of a rule. -/
structure Finding where
  rule : Text
  severity : Severity
  path : Text
  message : Text
  detail : Option Text := none
  line : Option Int := none
  nodeId : Option Text := none
  fix : Option Fix := none
  guideRef : Option GuideRef := none

namespace Finding

/-- Whether the library can mend the violation. -/
def fixable (f : Finding) : Bool := f.fix.isSome

/-- A finding that is declared fixable or not, which has to agree with whether it has a fix. -/
def checked (f : Finding) (declared : Bool) : Except Fault Finding :=
  if declared = f.fixable then .ok f
  else
    let declaredText : Text := if declared then "True" else "False"
    let state : Text := if f.fixable then "present" else "missing"
    .error <| .value <|
      "Finding " ++ f.rule ++ ": fixable=" ++ declaredText ++ " but fix is " ++ state

/-- The same finding with another severity. -/
def withSeverity (s : Severity) (f : Finding) : Finding := { f with severity := s }

/-- The same finding with a text before its message. -/
def prefixed (start : Text) (f : Finding) : Finding := { f with message := start ++ f.message }

/-- The finding as a document; parts that are absent are left out. -/
def toJson (f : Finding) : Json :=
  let optional (name : Text) (value : Option Json) : Json.Members :=
    (value.map fun v => [(name, v)]).getD []
  let always : Json.Members :=
    [("rule", .string f.rule), ("severity", .string f.severity.name), ("path", .string f.path),
      ("message", .string f.message), ("fixable", .bool f.fixable)]
  .object <| always
    ++ optional "detail" ((f.detail.filter fun d => !d.isEmpty).map .string)
    ++ optional "line" (f.line.map .integer)
    ++ optional "nodeId" (f.nodeId.map .string)
    ++ optional "fix" (f.fix.map fun fix => .string fix.description)
    ++ optional "guideRef" (f.guideRef.map GuideRef.toJson)

end Finding
end WorkflowLint
