import WorkflowLint.Proofs.Finding.Choice
import WorkflowLint.Proofs.Run.Returning

/-!
# Dry runs and strict runs

Two runs that start in the same workspace and differ in one option are compared from beginning to end.

A dry run leaves everything as it is and has the result of a run that was not asked for fixes
(`dryRun_observes`): what can be mended is listed, but neither done nor left out.

A strict run does to the files what a run does that is not strict, stops where that stops, and finds
the same; only what should be mended must be (`strict_hardens`).  Strictness is decided before anything
is fixed and left out, and again for what was found on the files of a project.  That does no harm: it
keeps the rule, the file and the fix of a finding, by which all this is decided.
-/

namespace WorkflowLint

open Job

/-! ## Jobs that come to the same -/

namespace Job

variable {α β γ : Type}

theorem ext {job job' : Job α} (h : ∀ w, outcome job w = outcome job' w) : job = job' := funext h

/-- An outcome with another result in the same workspace. -/
def mapped (change : α → β) (o : Except Fault α × Workspace) : Except Fault β × Workspace :=
  (o.1.map change, o.2)

@[simp] theorem mapped_ok (change : α → β) (a : α) (w : Workspace) :
    mapped change (.ok a, w) = (.ok (change a), w) := rfl

@[simp] theorem mapped_error (change : α → β) (f : Fault) (w : Workspace) :
    mapped change (.error f, w) = (.error f, w) := rfl

/-- Jobs whose results differ by a change have results for a list that differ by it. -/
theorem outcome_mapM_mapped {change : β → γ} {job : α → Job β} {job' : α → Job γ} {as : List α}
    (h : ∀ a ∈ as, ∀ w, outcome (job' a) w = mapped change (outcome (job a) w)) (w : Workspace) :
    outcome (as.mapM job') w = mapped (List.map change) (outcome (as.mapM job) w) := by
  induction as generalizing w with
  | nil => rfl
  | cons a as ih =>
    have htail := ih fun a ha => h a (List.mem_cons_of_mem _ ha)
    rw [outcome_mapM_cons, outcome_mapM_cons]
    simp only [outcome_bind, h a List.mem_cons_self, htail]
    rcases outcome (job a) w with ⟨f | b, u⟩
    · rfl
    · simp only [mapped_ok]
      rcases outcome (as.mapM job) u with ⟨f | bs, v⟩ <;> rfl

end Job

/-! ## Dry runs -/

section DryRun

variable {r : Registry} {o o' : Options} {w : Workspace}

/-- Runs on a file that change nothing and choose alike come to the same. -/
theorem validateWorkflow_congr (ho : o.ReadsOnly) (ho' : o'.ReadsOnly)
    (hchoose : o'.choose = o.choose) (path : Text) :
    validateWorkflow r o' path = validateWorkflow r o path := by
  refine Job.ext fun w => ?_
  rcases hread : readWorkflow w.store (w.store.absolute path) with (f | f) | ⟨t, g⟩
  · rw [outcome_validateWorkflow_obstacle hread, outcome_validateWorkflow_obstacle hread]
  · rw [outcome_validateWorkflow_fault hread, outcome_validateWorkflow_fault hread]
  · rw [outcome_validateWorkflow_plain hread ho, outcome_validateWorkflow_plain hread ho',
      chosenFindings, chosenFindings, hchoose]

/-- Runs on a project that change nothing, choose alike and look at the same files come to the same. -/
theorem validateProject_congr (ho : o.ReadsOnly) (ho' : o'.ReadsOnly) (hchoose : o'.choose = o.choose)
    (hskip : o'.skipWorkflows = o.skipWorkflows) (folder : Text) :
    validateProject r o' folder = validateProject r o folder := by
  refine Job.ext fun w => ?_
  cases hfolder : w.store.isFolder (w.store.absolute folder) with
  | false => rw [outcome_validateProject_missing hfolder, outcome_validateProject_missing hfolder]
  | true =>
    have hfiles : fileJob r o' = fileJob r o := by
      funext path
      have hfile : validateWorkflow r o'.forChild path = validateWorkflow r o.forChild path :=
        validateWorkflow_congr ho ho' hchoose path
      rw [fileJob, fileJob, hfile]
    rw [outcome_validateProject hfolder, outcome_validateProject hfolder,
      outcome_projectFindings_readsOnly ho, outcome_projectFindings_readsOnly ho']
    simp only [projectChosen, unlisted, gathered, hchoose, hskip, hfiles]

/-- A run on a project that is to change no file leaves everything as it is. -/
theorem outcome_validateProject_snd (ho : o.ReadsOnly) (folder : Text) :
    (outcome (validateProject r o folder) w).2 = w := by
  cases hfolder : w.store.isFolder (w.store.absolute folder) with
  | false => rw [outcome_validateProject_missing hfolder]
  | true =>
    rw [outcome_validateProject hfolder, outcome_projectFindings_readsOnly ho]
    cases o.skipWorkflows with
    | true => rfl
    | false =>
      cases hlist : w.workflowFiles (w.store.absolute folder) with
      | error f => simp [hlist]
      | ok paths =>
        have hsnd : (outcome (paths.mapM (fileJob r o)) w).2 = w :=
          outcome_mapM_snd fun path _ => outcome_fileJob_snd ho
        rcases hout : outcome (paths.mapM (fileJob r o)) w with ⟨f | results, v⟩ <;>
          simpa [hlist, hout] using hsnd

end DryRun

/-- A dry run, on a file or on a project and whether or not fixes are asked for, leaves everything as
it is and comes to what the run comes to that is no dry run and was not asked for fixes. -/
theorem dryRun_observes (r : Registry) (o : Options) (w : Workspace) :
    (∀ path,
      (outcome (validateWorkflow r { o with dryRun := true } path) w).2 = w ∧
      outcome (validateWorkflow r { o with dryRun := true } path) w =
        outcome (validateWorkflow r { o with fix := false, dryRun := false } path) w) ∧
    ∀ folder,
      (outcome (validateProject r { o with dryRun := true } folder) w).2 = w ∧
      outcome (validateProject r { o with dryRun := true } folder) w =
        outcome (validateProject r { o with fix := false, dryRun := false } folder) w := by
  have hdry : ({ o with dryRun := true } : Options).ReadsOnly := .inr rfl
  have hplain : ({ o with fix := false, dryRun := false } : Options).ReadsOnly := .inl rfl
  constructor
  · intro path
    exact ⟨outcome_validateWorkflow_snd hdry, by rw [validateWorkflow_congr hplain hdry rfl]⟩
  · intro folder
    exact ⟨outcome_validateProject_snd hdry folder, by rw [validateProject_congr hplain hdry rfl rfl]⟩

/-! ## What strictness changes -/

namespace Finding

theorem hardened_hardened (f : Finding) : f.hardened.hardened = f.hardened :=
  hardened_of_ne_should f.severity_hardened_ne_should

theorem hardened_eq (f : Finding) :
    f.hardened = { f with severity := if f.severity = .should then .must else f.severity } := by
  obtain ⟨_, severity, _, _, _, _, _, _, _⟩ := f
  cases severity <;> rfl

theorem severity_hardened (f : Finding) :
    f.hardened.severity = if f.severity = .should then .must else f.severity := by
  rw [hardened_eq]

theorem hardened_prefixed (start : Text) (f : Finding) :
    (f.prefixed start).hardened = f.hardened.prefixed start := by
  obtain ⟨_, severity, _, _, _, _, _, _, _⟩ := f
  cases severity <;> rfl

theorem select_hardened (rules excludeRules : List Text) (findings : List Finding) :
    select rules excludeRules (findings.map hardened) =
      (select rules excludeRules findings).map hardened := by
  simp only [select, List.filter_map, Function.comp_def, rule_hardened]

/-- Taken strictly, findings are on the same files. -/
theorem byFile_hardened (findings : List Finding) :
    byFile (findings.map hardened) = (byFile findings).map (Prod.map id (List.map hardened)) :=
  Keyed.groupBy_map hardened path_hardened findings

end Finding

/-- A result with its findings taken strictly. -/
def Result.hardened (r : Result) : Result := { r with findings := r.findings.map Finding.hardened }

/-- The options of a run with everything taken strictly. -/
def Options.strictly (o : Options) : Options := { o with strict := true }

namespace Options

variable (o : Options)

@[simp] theorem wantsFixes_strictly : o.strictly.wantsFixes = o.wantsFixes := rfl

@[simp] theorem dryRun_strictly : o.strictly.dryRun = o.dryRun := rfl

@[simp] theorem skipWorkflows_strictly : o.strictly.skipWorkflows = o.skipWorkflows := rfl

theorem forChild_strictly : o.strictly.forChild = o.forChild.strictly := rfl

theorem readsOnly_strictly_iff : o.strictly.ReadsOnly ↔ o.ReadsOnly := Iff.rfl

end Options

section Strict

variable {o : Options} {findings : List Finding}

/-- What is chosen strictly is what is chosen otherwise, taken strictly. -/
theorem choose_strict (ho : o.strict = false) (findings : List Finding) :
    o.strictly.choose findings = (o.choose findings).map Finding.hardened := by
  rw [Options.choose, Options.choose, ho]
  rfl

/-- Strictness does no more when it is asked for again. -/
theorem choose_strict_hardened (ho : o.strict = false) (findings : List Finding) :
    o.strictly.choose (findings.map Finding.hardened) =
      (o.choose findings).map Finding.hardened := by
  rw [choose_strict ho, Options.choose, Options.choose, ho, Finding.select_hardened]
  simp [Finding.escalate, Finding.hardened_hardened]

theorem fixableRules_hardened (findings : List Finding) :
    fixableRules (findings.map Finding.hardened) = fixableRules findings := by
  simp [fixableRules, List.filter_map, Function.comp_def]

theorem dropFixed_hardened (rules : List Text) (findings : List Finding) :
    dropFixed rules (findings.map Finding.hardened) =
      (dropFixed rules findings).map Finding.hardened := by
  simp [dropFixed, List.filter_map, Function.comp_def]

theorem unfixable_hardened (findings : List Finding) :
    unfixable (findings.map Finding.hardened) = (unfixable findings).map Finding.hardened := by
  simp [unfixable, List.filter_map, Function.comp_def]

/-- Findings taken strictly have the same fixes, and so their file is fixed in the same way. -/
theorem Fixing.apply_hardened (path : Text) (findings : List Finding) :
    apply path (findings.map Finding.hardened) false = apply path findings false := by
  have hfixes : (candidates (findings.map Finding.hardened)).map (·.2) =
      (candidates findings).map (·.2) := by
    simp [map_snd_candidates, List.filterMap_map]
  have hempty : (candidates (findings.map Finding.hardened)).isEmpty = (candidates findings).isEmpty := by
    rw [← List.isEmpty_map (f := (·.2)), hfixes, List.isEmpty_map]
  refine Job.ext fun w => ?_
  simp only [outcome_apply, mended, changes, hfixes, hempty]

end Strict

/-! ## Strict runs -/

section Runs

variable {r : Registry} {o : Options} {w : Workspace}

/-- A strict run on a file comes to what the run comes to that is not strict, taken strictly. -/
theorem outcome_validateWorkflow_strict (ho : o.strict = false) (path : Text) (w : Workspace) :
    outcome (validateWorkflow r o.strictly path) w =
      mapped Result.hardened (outcome (validateWorkflow r o path) w) := by
  rcases hread : readWorkflow w.store (w.store.absolute path) with (f | f) | ⟨t, g⟩
  · -- what keeps a file from being checked must be mended anyhow
    have hmust : f.hardened = f := Finding.hardened_of_ne_should <| by
      simp [(exists_obstacle_of_readWorkflow hread).1]
    rw [outcome_validateWorkflow_obstacle hread, outcome_validateWorkflow_obstacle hread, mapped_ok,
      Result.hardened, List.map_singleton, hmust]
  · rw [outcome_validateWorkflow_fault hread, outcome_validateWorkflow_fault hread, mapped_error]
  have hchosen : chosenFindings r o.strictly (w.store.absolute path) t g =
      (chosenFindings r o (w.store.absolute path) t g).map Finding.hardened := choose_strict ho _
  by_cases hfix : o.wantsFixes = true ∧ o.dryRun = false
  · obtain ⟨hw, hdry⟩ := hfix
    have hw' : o.strictly.wantsFixes = true := hw
    have hdry' : o.strictly.dryRun = false := hdry
    rw [outcome_validateWorkflow_fixing hread hw hdry, outcome_validateWorkflow_fixing hread hw' hdry',
      hchosen, Fixing.apply_hardened, unfixable_hardened]
    rcases outcome (Fixing.apply (w.store.absolute path)
      (chosenFindings r o (w.store.absolute path) t g) false) w with ⟨f | fixed, v⟩
    · rfl
    · simp only [mapped_ok, Result.hardened]
      split <;> rfl
  · have hreads := Options.readsOnly_iff.2 hfix
    rw [outcome_validateWorkflow_plain hread hreads,
      outcome_validateWorkflow_plain hread (o.readsOnly_strictly_iff.2 hreads), hchosen]
    rfl

theorem flatMap_findings_hardened (results : List Result) :
    (results.map Result.hardened).flatMap Result.findings =
      (results.flatMap Result.findings).map Finding.hardened := by
  rw [List.flatMap_map, List.map_flatMap]
  rfl

theorem flatMap_files_hardened (results : List Result) :
    (results.map Result.hardened).flatMap Result.files = results.flatMap Result.files := by
  rw [List.flatMap_map]
  rfl

/-- The result of a workflow file is the same part of that of its project. -/
theorem outcome_fileJob_strict (ho : o.strict = false) (path : Text) (w : Workspace) :
    outcome (fileJob r o.strictly path) w =
      mapped Result.hardened (outcome (fileJob r o path) w) := by
  have hchild : o.forChild.strict = false := ho
  rw [outcome_fileJob, outcome_fileJob, Options.forChild_strictly,
    outcome_validateWorkflow_strict hchild]
  rcases outcome (validateWorkflow r o.forChild path) w with ⟨f | result, v⟩
  · rfl
  · simp [Result.hardened, Result.ofFile, Finding.hardened_prefixed, Function.comp_def]

/-- What is left of findings on a project does not depend on how strictly they are taken. -/
theorem leftAfter_hardened (findings : List Finding) (results : List FixResult) :
    leftAfter (findings.map Finding.hardened) results =
      (leftAfter findings results).map Finding.hardened := by
  simp [leftAfter, Finding.byFile_hardened, List.zip_map_left, List.filter_map, Function.comp_def,
    List.flatMap_map, fixableRules_hardened, dropFixed_hardened]

theorem outcome_projectFindings_strict (ho : o.strict = false) (folder : Text) (w : Workspace) :
    outcome (projectFindings r o.strictly folder) w =
      mapped (List.map Finding.hardened) (outcome (projectFindings r o folder) w) := by
  have hchosen : projectChosen r o.strictly folder w =
      (projectChosen r o folder w).map Finding.hardened := choose_strict ho _
  by_cases hfix : o.wantsFixes = true ∧ o.dryRun = false
  · obtain ⟨hw, hdry⟩ := hfix
    have hgroup : ∀ group : Text × List Finding,
        groupJob o.strictly (Prod.map id (List.map Finding.hardened) group) =
          groupJob o group := by
      intro group
      simp only [groupJob, o.dryRun_strictly, hdry]
      exact Fixing.apply_hardened group.1 group.2
    have hgroups : (Finding.byFile ((projectChosen r o folder w).map Finding.hardened)).mapM
        (groupJob o.strictly) =
          (Finding.byFile (projectChosen r o folder w)).mapM (groupJob o) := by
      rw [Finding.byFile_hardened, List.mapM_map]
      simp only [Function.comp_def, hgroup]
    rw [outcome_projectFindings, outcome_projectFindings, o.wantsFixes_strictly, hw, if_pos rfl,
      if_pos rfl, outcome_fixProject, outcome_fixProject, hchosen, hgroups]
    rcases outcome ((Finding.byFile (projectChosen r o folder w)).mapM (groupJob o)) w with
      ⟨f | results, v⟩
    · rfl
    · simp [hdry, leftAfter_hardened]
  · have hreads := Options.readsOnly_iff.2 hfix
    rw [outcome_projectFindings_readsOnly hreads,
      outcome_projectFindings_readsOnly (o.readsOnly_strictly_iff.2 hreads), hchosen]
    rfl

/-- A strict run on a project comes to what the run comes to that is not strict, taken strictly. -/
theorem outcome_validateProject_strict (ho : o.strict = false) (folder : Text) (w : Workspace) :
    outcome (validateProject r o.strictly folder) w =
      mapped Result.hardened (outcome (validateProject r o folder) w) := by
  cases hfolder : w.store.isFolder (w.store.absolute folder) with
  | false =>
    rw [outcome_validateProject_missing hfolder, outcome_validateProject_missing hfolder]
    rfl
  | true =>
    rw [outcome_validateProject hfolder, outcome_validateProject hfolder,
      outcome_projectFindings_strict ho]
    rcases outcome (projectFindings r o (w.store.absolute folder)) w with ⟨f | own, v⟩
    · rfl
    simp only [mapped_ok]
    cases hskip : o.skipWorkflows with
    | true => simp [hskip, Result.hardened, choose_strict_hardened ho]
    | false =>
      simp only [o.skipWorkflows_strictly, hskip, Bool.false_eq_true, if_false]
      cases v.workflowFiles (w.store.absolute folder) with
      | error f =>
        simp only [unlisted, choose_strict_hardened ho]
        simp [Result.hardened, Obstacle.finding, Finding.hardened]
      | ok paths =>
        have hfiles : outcome (paths.mapM (fileJob r o.strictly)) v = _ :=
          outcome_mapM_mapped (fun path _ => outcome_fileJob_strict ho path) v
        simp only [hfiles]
        rcases outcome (paths.mapM (fileJob r o)) v with ⟨f | results, u⟩
        · rfl
        · simp only [mapped_ok, gathered, flatMap_findings_hardened, flatMap_files_hardened,
            ← List.map_append, choose_strict_hardened ho]
          rfl

end Runs

/-! ## The main result on strictness -/

/-- A result is another one with exactly the findings that should be mended turned into findings that
must be: nothing else about a finding is different, nor the order of the findings. -/
structure Hardens (relaxed strict : Result) : Prop where
  files : strict.files = relaxed.files
  findings : strict.findings = relaxed.findings.map fun f =>
    { f with severity := if f.severity = .should then .must else f.severity }
  summary : strict.summary = ⟨relaxed.summary.must + relaxed.summary.should, 0, relaxed.summary.nit,
    relaxed.summary.fixable⟩
  valid : strict.valid = true → relaxed.valid = true

/-- Two runs stop with the same fault, or both have results of which one is the other one taken
strictly; and they leave the same workspace. -/
inductive HardensTo : Except Fault Result × Workspace → Except Fault Result × Workspace → Prop
  | stops (f : Fault) (v : Workspace) : HardensTo (.error f, v) (.error f, v)
  | ends {relaxed strict : Result} (v : Workspace) (h : Hardens relaxed strict) :
    HardensTo (.ok relaxed, v) (.ok strict, v)

/-- How many findings have a severity once they are taken strictly. -/
theorem summary_hardened (result : Result) :
    result.hardened.summary = ⟨result.summary.must + result.summary.should, 0, result.summary.nit,
      result.summary.fixable⟩ := by
  obtain ⟨findings, files⟩ := result
  simp only [Result.summary, Result.hardened, Summary.of, Summary.count, Summary.mk.injEq]
  induction findings with
  | nil => simp
  | cons f findings ih =>
    obtain ⟨hmust, hshould, hnit, hfixable⟩ := ih
    simp only [List.map_cons, List.countP_cons, hmust, hshould, hnit, hfixable,
      Finding.fixable_hardened, Finding.severity_hardened]
    cases f.severity <;> simp <;> omega

theorem hardens_hardened (result : Result) : Hardens result result.hardened where
  files := rfl
  findings := List.map_congr_left fun f _ => f.hardened_eq
  summary := summary_hardened result
  valid h := by
    have hmust : result.hardened.summary.must = 0 := by simpa [Result.valid] using h
    rw [summary_hardened] at hmust
    simpa [Result.valid] using (Nat.add_eq_zero_iff.1 hmust).1

theorem hardensTo_mapped (o : Except Fault Result × Workspace) :
    HardensTo o (mapped Result.hardened o) := by
  obtain ⟨f | result, v⟩ := o
  · exact .stops f v
  · exact .ends v (hardens_hardened result)

/-- Taking findings strictly or not makes no difference to what a run does, on a file or on a project:
both runs stop in the same way, or leave the same files and have the same findings, of which exactly
those that should be mended must be. -/
theorem strict_hardens (r : Registry) (o : Options) (w : Workspace) :
    (∀ path, HardensTo (outcome (validateWorkflow r { o with strict := false } path) w)
      (outcome (validateWorkflow r { o with strict := true } path) w)) ∧
    ∀ folder, HardensTo (outcome (validateProject r { o with strict := false } folder) w)
      (outcome (validateProject r { o with strict := true } folder) w) := by
  constructor
  · intro path
    have hrun : outcome (validateWorkflow r { o with strict := true } path) w =
        mapped Result.hardened (outcome (validateWorkflow r { o with strict := false } path) w) :=
      outcome_validateWorkflow_strict (o := { o with strict := false }) rfl path w
    rw [hrun]
    exact hardensTo_mapped _
  · intro folder
    have hrun : outcome (validateProject r { o with strict := true } folder) w =
        mapped Result.hardened (outcome (validateProject r { o with strict := false } folder) w) :=
      outcome_validateProject_strict (o := { o with strict := false }) rfl folder w
    rw [hrun]
    exact hardensTo_mapped _

end WorkflowLint
