import WorkflowLint.Diff.Unified
import WorkflowLint.Finding.Basic
import WorkflowLint.Project.Config

/-!
# Fixing files

The fixes of the findings on a file are applied to its text one after the other, and the file is
written once at the end if its text has changed.  A fix that stops with a fault or gives no text is
passed over.  If the file cannot be written it stays as it was, and no fix counts as applied.

A preview tries every fix on its own on the text of the file, and writes nothing.
-/

namespace WorkflowLint

/-- What is done to the files of a workspace, and can stop with a fault. -/
abbrev Job (α : Type) := ExceptT Fault (StateM Workspace) α

/-- What came of fixing a file.  When fixes were only to be listed, they are. -/
structure FixResult where
  path : Text
  applied : Nat
  content : Text
  wouldFix : Option (List Finding) := none

/-- What a fix would do to a file. -/
structure FixPreview where
  rule : Text
  description : Text
  changes : Bool
  diff : Text
deriving DecidableEq

/-- What the fixes of some findings would do to a file, each on its own. -/
structure Preview where
  path : Text
  fixes : List FixPreview

/-- The fixes that would change the file. -/
def Preview.changing (p : Preview) : List FixPreview := p.fixes.filter (·.changes)

namespace Fixing

/-- The findings that carry a fix, each with its fix. -/
def candidates (findings : List Finding) : List (Finding × Fix) :=
  findings.filterMap fun f => f.fix.map fun fix => (f, fix)

/-- Applies a fix to a text, and counts it if the text changes. -/
def step (state : Text × Nat) (fix : Fix) : Text × Nat :=
  let t := fix.apply state.1
  if t = state.1 then state else (t, state.2 + 1)

/-- The text after some fixes, and how many of them changed it. -/
def fold (t : Text) (fixes : List Fix) : Text × Nat := fixes.foldl step (t, 0)

/-- Writes the text that the fixes of a file have made of it. -/
def write (path before content : Text) (applied : Nat) : Job FixResult := do
  if applied = 0 ∨ content = before then return ⟨path, applied, content, none⟩
  let w ← get
  match w.store.write path content with
  | .done after =>
    set { w with store := after }
    return ⟨path, applied, content, none⟩
  | .refused => return ⟨path, 0, before, none⟩
  | .fault after f =>
    set { w with store := after }
    throw f

/-- Applies the fixes of some findings to the file at a path, or lists the findings. -/
def apply (path : Text) (findings : List Finding) (dryRun : Bool) : Job FixResult := do
  let path := Path.clean path
  let fixes := candidates findings
  if dryRun then return ⟨path, 0, [], some (fixes.map (·.1))⟩
  if fixes.isEmpty then return ⟨path, 0, [], none⟩
  match (← get).store.read path with
  | .error (.fault f) => throw f
  | .error _ => return ⟨path, 0, [], none⟩
  | .ok before =>
    let (content, applied) := fold before (fixes.map (·.2))
    write path before content applied

/-- Applies fixes file by file. -/
def applyAll (groups : List (Text × List Finding)) (dryRun : Bool) : Job (List FixResult) :=
  groups.mapM fun g => apply g.1 g.2 dryRun

/-! ## Previews -/

/-- What a fix would do to a text; nothing is said of a fix that stops with a fault. -/
def previewOf? (path t : Text) (rule : Text) (fix : Fix) : Option FixPreview :=
  match fix.run t with
  | .fault _ => none
  | .noText => some ⟨rule, fix.description, false, []⟩
  | .text after =>
    if after = t then some ⟨rule, fix.description, false, []⟩
    else some ⟨rule, fix.description, true, Diff.unified t after path⟩

/-- What each fix of some findings would do to the file at a path; nothing if the file cannot be
read. -/
def preview (s : Store) (path : Text) (findings : List Finding) :
    Except Fault (List FixPreview) :=
  let path := Path.clean path
  match s.read path with
  | .error (.fault f) => .error f
  | .error _ => .ok ((candidates findings).map fun c => ⟨c.1.rule, c.2.description, false, []⟩)
  | .ok t => .ok ((candidates findings).filterMap fun c => previewOf? path t c.1.rule c.2)

/-- Tries the fixes of some findings on the file at a path. -/
def tryOut (path : Text) (findings : List Finding) : Job Preview := do
  match preview (← get).store path findings with
  | .error f => throw f
  | .ok fixes => return ⟨Path.clean path, fixes⟩

end Fixing
end WorkflowLint
