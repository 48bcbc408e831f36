import WorkflowLint.Check.BuiltIn
import WorkflowLint.Proofs.Json.Reading
import WorkflowLint.Proofs.Run.Project

/-!
# Runs that have a result

A text is a workflow or is said not to be one, unless it has a whole number that is too long to be
read (`exists_parse_iff`).  Such a number is a fault, which no run survives: a run that changes no
file has a result exactly when none of the files that it looks at has one.  The main result,
`outcome_ok_iff_not_hasLongNumber`, says so of texts, of files and of projects.
-/

namespace WorkflowLint

open Job

/-! ## Texts and files -/

namespace Workflow.Graph

variable {t : Text} {n : Nat}

theorem parse_eq_tooManyDigits_iff :
    parse t = .error (.tooManyDigits n) ↔ Json.read t = .error (.tooManyDigits n) := by
  unfold parse
  cases Json.read t with
  | error e => cases e <;> simp
  | ok document =>
    simp only
    cases ofDocument t document <;> simp

/-- A text is a workflow or is said not to be one unless it has a number that cannot be read. -/
theorem exists_parse_iff :
    ((∃ g, parse t = .ok g) ∨ ∃ e, parse t = .error (.invalid e)) ↔
      ∀ n, Json.read t ≠ .error (.tooManyDigits n) := by
  simp only [ne_eq, ← parse_eq_tooManyDigits_iff]
  rcases parse t with (_ | n) | g
  · simp
  · simp
  · simp

end Workflow.Graph

/-- The file at a path has a whole number that is too long to be read. -/
def HasLongNumber (s : Store) (path : Text) : Prop :=
  ∃ t n, s.read path = .ok t ∧ Json.read t = .error (.tooManyDigits n)

section File

variable {s : Store} {r : Registry} {o : Options} {path : Text} {w : Workspace}

/-- Reading a workflow stops with a fault only at a number that is too long. -/
theorem readWorkflow_eq_fault_iff {f : Fault} :
    readWorkflow s path = .error (.fault f) ↔
      ∃ t n, s.read path = .ok t ∧ Json.read t = .error (.tooManyDigits n) ∧
        f = .tooManyDigits n := by
  cases hread : s.read path with
  | error e =>
    obtain ⟨f', hf⟩ := readWorkflow_of_read_error hread
    simp [hf]
  | ok t =>
    rw [readWorkflow_of_read hread]
    constructor
    · intro h
      rcases hp : Workflow.Graph.parse t with (e | n) | g
      · simp [hp] at h
      · obtain rfl : Fault.tooManyDigits n = f := by simpa [hp] using h
        exact ⟨t, n, rfl, Workflow.Graph.parse_eq_tooManyDigits_iff.1 hp, rfl⟩
      · simp [hp] at h
    · rintro ⟨t', n, heq, hn, rfl⟩
      obtain rfl := Except.ok.inj heq
      rw [Workflow.Graph.parse_eq_tooManyDigits_iff.2 hn]

theorem exists_fault_iff_hasLongNumber :
    (∃ f, readWorkflow s path = .error (.fault f)) ↔ HasLongNumber s path := by
  simp only [readWorkflow_eq_fault_iff, HasLongNumber]
  constructor
  · rintro ⟨f, t, n, ht, hn, -⟩
    exact ⟨t, n, ht, hn⟩
  · rintro ⟨t, n, ht, hn⟩
    exact ⟨_, t, n, ht, hn, rfl⟩

variable (ho : o.ReadsOnly)
include ho

theorem outcome_validateWorkflow_snd : (outcome (validateWorkflow r o path) w).2 = w := by
  rcases h : readWorkflow w.store (w.store.absolute path) with (f | f) | ⟨t, g⟩
  · rw [outcome_validateWorkflow_obstacle h]
  · rw [outcome_validateWorkflow_fault h]
  · rw [outcome_validateWorkflow_plain h ho]

/-- A run on a file that changes no file has a result unless the file has a number that is too
long. -/
theorem exists_outcome_validateWorkflow_iff :
    (∃ result, outcome (validateWorkflow r o path) w = (.ok result, w)) ↔
      ¬ HasLongNumber w.store (w.store.absolute path) := by
  rw [← exists_fault_iff_hasLongNumber]
  rcases h : readWorkflow w.store (w.store.absolute path) with (f | f) | ⟨t, g⟩
  · rw [outcome_validateWorkflow_obstacle h]
    simp
  · rw [outcome_validateWorkflow_fault h]
    simp
  · rw [outcome_validateWorkflow_plain h ho]
    simp

end File

/-! ## Projects -/

section Project

variable {r : Registry} {o : Options} {folder path : Text} {w : Workspace}

theorem outcome_fileJob (r : Registry) (o : Options) (path : Text) (w : Workspace) :
    outcome (fileJob r o path) w =
      match outcome (validateWorkflow r o.forChild path) w with
      | (.error f, v) => (.error f, v)
      | (.ok result, v) => (.ok (result.ofFile path), v) := by
  unfold fileJob
  rw [outcome_bind]
  rcases outcome (validateWorkflow r o.forChild path) w with ⟨_ | result, v⟩ <;> rfl

variable (ho : o.ReadsOnly)
include ho

theorem outcome_fileJob_snd : (outcome (fileJob r o path) w).2 = w := by
  have hsnd : (outcome (validateWorkflow r o.forChild path) w).2 = w :=
    outcome_validateWorkflow_snd ho
  rw [outcome_fileJob]
  rcases h : outcome (validateWorkflow r o.forChild path) w with ⟨_ | result, v⟩ <;>
    (rw [h] at hsnd; exact hsnd)

theorem exists_outcome_fileJob_iff :
    (∃ result, outcome (fileJob r o path) w = (.ok result, w)) ↔
      ¬ HasLongNumber w.store (w.store.absolute path) := by
  have hiff : (∃ result, outcome (validateWorkflow r o.forChild path) w = (.ok result, w)) ↔ _ :=
    exists_outcome_validateWorkflow_iff ho
  rw [← hiff, outcome_fileJob]
  rcases outcome (validateWorkflow r o.forChild path) w with ⟨_ | result, v⟩ <;> simp

/-- A run on a project that changes no file has a result unless it comes to a workflow file with a
number that is too long. -/
theorem exists_outcome_validateProject_iff :
    (∃ result, outcome (validateProject r o folder) w = (.ok result, w)) ↔
      ¬ (w.store.isFolder (w.store.absolute folder) = true ∧ o.skipWorkflows = false ∧
        ∃ paths, w.workflowFiles (w.store.absolute folder) = .ok paths ∧
          ∃ path ∈ paths, HasLongNumber w.store (w.store.absolute path)) := by
  cases hfolder : w.store.isFolder (w.store.absolute folder) with
  | false => simp [outcome_validateProject_missing hfolder]
  | true =>
    rw [outcome_validateProject hfolder, outcome_projectFindings_readsOnly ho]
    cases hskip : o.skipWorkflows with
    | true => simp
    | false =>
      cases hlist : w.workflowFiles (w.store.absolute folder) with
      | error f => simp [hlist]
      | ok paths =>
        have hsnd : ∀ path ∈ paths, (outcome (fileJob r o path) w).2 = w :=
          fun path _ => outcome_fileJob_snd ho
        have hiff := exists_outcome_mapM_iff hsnd
        simp only [exists_outcome_fileJob_iff ho] at hiff
        have hnone : (¬ ∃ path ∈ paths, HasLongNumber w.store (w.store.absolute path)) ↔ _ :=
          not_exists.trans (forall_congr' fun path => not_and)
        simp only [true_and, hlist, Except.ok.injEq, exists_eq_left', hnone, ← hiff]
        rcases outcome (paths.mapM (fileJob r o)) w with ⟨_ | results, v⟩ <;> simp

end Project

/-! ## The main result -/

/-- A text gives a graph or a defect exactly when no number of it is too long to be read, in which
case more digits stand in a row than a number may have.  A run that changes no file, on one file or
on a project, has a result exactly when it comes to no such number; and a run on a project, whatever
its options, stops at the turn of a file that has one. -/
theorem outcome_ok_iff_not_hasLongNumber (t : Text) (r : Registry) (o : Options) (w : Workspace)
    (path folder : Text) :
    (((∃ g, Workflow.Graph.parse t = .ok g) ∨ ∃ e, Workflow.Graph.parse t = .error (.invalid e)) ↔
      ∀ n, Json.read t ≠ .error (.tooManyDigits n)) ∧
    (∀ n, Json.read t = .error (.tooManyDigits n) → Json.digitLimit < n ∧ Json.HasDigits t n) ∧
    (o.ReadsOnly →
      ((∃ result, outcome (validateWorkflow r o path) w = (.ok result, w)) ↔
        ¬ HasLongNumber w.store (w.store.absolute path))) ∧
    (o.ReadsOnly →
      ((∃ result, outcome (validateProject r o folder) w = (.ok result, w)) ↔
        ¬ (w.store.isFolder (w.store.absolute folder) = true ∧ o.skipWorkflows = false ∧
          ∃ paths, w.workflowFiles (w.store.absolute folder) = .ok paths ∧
            ∃ path ∈ paths, HasLongNumber w.store (w.store.absolute path)))) ∧
    (w.store.isFolder (w.store.absolute folder) = true → ∀ v path,
      FileTurn r o (w.store.absolute folder) w v path →
      HasLongNumber v.store (v.store.absolute path) →
      ∃ n, outcome (validateProject r o folder) w = (.error (.tooManyDigits n), v)) := by
  refine ⟨Workflow.Graph.exists_parse_iff, fun n h => Json.digits_of_read_eq_tooManyDigits h,
    exists_outcome_validateWorkflow_iff, exists_outcome_validateProject_iff,
    fun hfolder v path hturn hlong => ?_⟩
  obtain ⟨t, n, ht, hn⟩ := hlong
  have hfault : readWorkflow v.store (v.store.absolute path) = .error (.fault (.tooManyDigits n)) :=
    readWorkflow_eq_fault_iff.2 ⟨t, n, ht, hn, rfl⟩
  exact ⟨n, (outcome_validateProject_error_iff_fixTurn hfolder).2 (.inr ⟨path, hturn, hfault⟩)⟩

/-- A file without any number has a result. -/
theorem exists_outcome_validateWorkflow_empty :
    ∃ result, outcome (validateWorkflow .builtIn {} "w.json") (.single "w.json" "[]") =
      (.ok result, .single "w.json" "[]") := by
  refine ((outcome_ok_iff_not_hasLongNumber [] _ _ _ _ []).2.2.1 (.inl rfl)).2 ?_
  rintro ⟨t, n, ht, hn⟩
  have hfile : (Workspace.single "w.json" "[]").store.file?
      ((Workspace.single "w.json" "[]").store.absolute "w.json") = some [91, 93] := by
    decide +kernel
  have hdec : Utf8.decode [91, 93] = .ok "[]" := by rfl
  rw [Store.read_of_file? hfile, hdec] at ht
  obtain rfl := Except.ok.inj ht
  obtain ⟨hlimit, run, hrun, hlen, -⟩ := Json.digits_of_read_eq_tooManyDigits hn
  have hle : run.length ≤ 2 := hrun.length_le
  exact absurd hlimit (by rw [← hlen, Json.digitLimit]; omega)

/-- A workflow with a number of 4301 digits. -/
def longNumber : Text :=
  ("\x7b\"nodes\":[],\"x\":" : Text) ++ List.replicate 4301 (.char '1') ++ ("\x7d" : Text)

/-- The workflow gives neither a graph nor a defect, and a run on a file with it has no result. -/
theorem not_exists_parse_longNumber :
    ¬ ((∃ g, Workflow.Graph.parse longNumber = .ok g) ∨
      ∃ e, Workflow.Graph.parse longNumber = .error (.invalid e)) := by
  rw [Workflow.Graph.exists_parse_iff]
  intro h
  refine h 4301 ?_
  have hread : errorOf? (Json.read longNumber) = some (.tooManyDigits 4301) := by decide +kernel
  exact eq_error_of_errorOf? hread

end WorkflowLint
