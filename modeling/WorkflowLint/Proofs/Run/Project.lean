import WorkflowLint.Proofs.Keyed
import WorkflowLint.Proofs.Run.Workflow

/-!
# How the validation of a project ends

A run on a project fixes the files that the findings on the project are on, group by group, and then
validates the workflow files of the project, file by file.  A group and a file have their turns in
workspaces that the turns before have left (`GroupTurn`, `FileTurn`).

The run stops with a fault exactly where one of its turns does (`outcome_validateProject_error_iff`).
Where it is followed to single fixes, `FixTurn` is the turn of the fixes of some findings on one
file, whether these are findings on the project or on a workflow file.
-/

namespace WorkflowLint

open Job

/-- The findings on a project of which the options make a choice. -/
def projectChosen (r : Registry) (o : Options) (folder : Text) (w : Workspace) : List Finding :=
  o.choose (r.project.flatMap (ProjectCheck.runIsolated w folder))

/-- Fixes the file that a group of findings is on. -/
def groupJob (o : Options) (group : Text × List Finding) : Job FixResult :=
  Fixing.apply group.1 group.2 o.dryRun

/-- Validates a workflow file as part of its project. -/
def fileJob (r : Registry) (o : Options) (path : Text) : Job Result :=
  do return (← validateWorkflow r o.forChild path).ofFile path

theorem applyAll_eq (o : Options) (groups : List (Text × List Finding)) :
    Fixing.applyAll groups o.dryRun = groups.mapM (groupJob o) := rfl

theorem validateFiles_eq (r : Registry) (o : Options) (paths : List Text) :
    validateFiles r o paths = paths.mapM (fileJob r o) := rfl

/-! ## The findings on the project -/

/-- The findings that are left when the groups of findings have been fixed with some results. -/
def leftAfter (findings : List Finding) (results : List FixResult) : List Finding :=
  let fixed := ((Finding.byFile findings).zip results).filter fun p => decide (0 < p.2.applied)
  dropFixed (fixed.flatMap fun p => fixableRules p.1.2) findings

section Findings

variable {r : Registry} {o : Options} {folder : Text} {w v : Workspace}

theorem outcome_fixProject (o : Options) (findings : List Finding) (w : Workspace) :
    outcome (fixProject o findings) w =
      match outcome ((Finding.byFile findings).mapM (groupJob o)) w with
      | (.error f, v) => (.error f, v)
      | (.ok results, v) =>
        (.ok (if o.dryRun then findings else leftAfter findings results), v) := by
  unfold fixProject
  simp only [applyAll_eq, outcome_bind]
  rcases outcome ((Finding.byFile findings).mapM (groupJob o)) w with ⟨_ | results, v⟩
  · rfl
  · cases o.dryRun <;> rfl

theorem outcome_projectFindings (r : Registry) (o : Options) (folder : Text) (w : Workspace) :
    outcome (projectFindings r o folder) w =
      if o.wantsFixes then outcome (fixProject o (projectChosen r o folder w)) w
      else (.ok (projectChosen r o folder w), w) := by
  unfold projectFindings
  rw [outcome_bind_ok (outcome_get w)]
  simp only [projectChosen]
  cases o.wantsFixes <;> rfl

/-- Where no fixes are wanted, the findings on the project are those chosen. -/
theorem outcome_projectFindings_plain (h : o.wantsFixes = false) :
    outcome (projectFindings r o folder) w = (.ok (projectChosen r o folder w), w) := by
  rw [outcome_projectFindings, h, if_neg Bool.false_ne_true]

theorem exists_outcome_groupJob (hdry : o.dryRun = true) (group : Text × List Finding) :
    ∃ fixed, outcome (groupJob o group) w = (.ok fixed, w) := by
  unfold groupJob
  rw [hdry]
  exact ⟨_, Fixing.outcome_apply_dryRun _ _ w⟩

/-- Where no file is to be changed, the findings on a project are those chosen. -/
theorem outcome_projectFindings_readsOnly (ho : o.ReadsOnly) :
    outcome (projectFindings r o folder) w = (.ok (projectChosen r o folder w), w) := by
  cases hw : o.wantsFixes with
  | false => exact outcome_projectFindings_plain hw
  | true =>
    have hdry : o.dryRun = true := by simpa [Options.ReadsOnly, hw] using ho
    have hgroups : ∀ group ∈ Finding.byFile (projectChosen r o folder w),
        ∃ fixed, outcome (groupJob o group) w = (.ok fixed, w) :=
      fun group _ => exists_outcome_groupJob hdry group
    obtain ⟨results, h⟩ := exists_outcome_mapM hgroups
    rw [outcome_projectFindings, hw, if_pos rfl, outcome_fixProject, h]
    simp only [hdry, if_true]

/-- A group has its turn among the groups of the findings on a project. -/
def GroupTurn (r : Registry) (o : Options) (folder : Text) (w u : Workspace)
    (group : Text × List Finding) : Prop :=
  o.wantsFixes = true ∧ Turn (groupJob o) w (Finding.byFile (projectChosen r o folder w)) u group

/-- Finding what there is to say of a project stops exactly where the turn of a group does. -/
theorem outcome_projectFindings_error_iff {f : Fault} :
    outcome (projectFindings r o folder) w = (.error f, v) ↔
      ∃ u group, GroupTurn r o folder w u group ∧ outcome (groupJob o group) u = (.error f, v) := by
  rw [outcome_projectFindings]
  simp only [GroupTurn]
  cases o.wantsFixes with
  | false => simp
  | true =>
    rw [if_pos rfl, outcome_fixProject]
    simp only [true_and]
    rw [← outcome_mapM_error_iff]
    rcases outcome ((Finding.byFile (projectChosen r o folder w)).mapM (groupJob o)) w with
      ⟨_ | results, u⟩ <;> simp

end Findings

/-! ## Findings on the project that cannot be mended -/

section Fixless

variable {r : Registry} {o : Options} {folder : Text} {w : Workspace} {findings : List Finding}

theorem candidates_of_fixless (h : ∀ f ∈ findings, f.fix = none) :
    Fixing.candidates findings = [] := by
  rw [Fixing.candidates, List.filterMap_eq_nil_iff]
  intro f hf
  rw [h f hf]
  rfl

/-- A group of findings that cannot be mended costs its file nothing. -/
theorem exists_outcome_groupJob_of_fixless {group : Text × List Finding}
    (h : ∀ f ∈ group.2, f.fix = none) : ∃ fixed, outcome (groupJob o group) w = (.ok fixed, w) := by
  cases hdry : o.dryRun with
  | true => exact exists_outcome_groupJob hdry group
  | false =>
    unfold groupJob
    rw [hdry, Fixing.outcome_apply, candidates_of_fixless h]
    exact ⟨_, rfl⟩

theorem leftAfter_of_fixless (h : ∀ f ∈ findings, f.fix = none) (results : List FixResult) :
    leftAfter findings results = findings := by
  refine List.filter_eq_self.2 fun f hf => ?_
  rw [Finding.fixable, h f hf]
  rfl

/-- Where none of the findings on a project can be mended they are left as they are. -/
theorem outcome_projectFindings_of_fixless (h : ∀ f ∈ projectChosen r o folder w, f.fix = none) :
    outcome (projectFindings r o folder) w = (.ok (projectChosen r o folder w), w) := by
  rw [outcome_projectFindings]
  cases o.wantsFixes with
  | false => rw [if_neg Bool.false_ne_true]
  | true =>
    have hgroups : ∀ group ∈ Finding.byFile (projectChosen r o folder w),
        ∃ fixed, outcome (groupJob o group) w = (.ok fixed, w) := fun group hgroup =>
      exists_outcome_groupJob_of_fixless fun f hf => h f (Keyed.mem_of_mem_groupBy hgroup hf).1
    obtain ⟨results, hresults⟩ := exists_outcome_mapM hgroups
    rw [if_pos rfl, outcome_fixProject, hresults]
    simp only [leftAfter_of_fixless h, ite_self]

end Fixless

/-! ## The whole project -/

section Project

variable {r : Registry} {o : Options} {folder : Text} {w v : Workspace}

/-- The result of a run on what is no folder. -/
def noProject (folder : Text) : Result :=
  ⟨[Obstacle.projectNotFound.finding folder ("Project folder not found: " ++ folder) none],
    [folder]⟩

/-- The result of a run on a project whose workflow files cannot be listed. -/
def unlisted (o : Options) (folder : Text) (own : List Finding) (f : Fault) : Result :=
  ⟨o.choose own ++
    [Obstacle.projectUnreadable.finding folder ("Cannot list workflow files: " ++ f.text) none],
    [folder]⟩

/-- The result of a run on a project from what was found on it and the results of its files. -/
def gathered (o : Options) (folder : Text) (own : List Finding) (results : List Result) : Result :=
  ⟨o.choose (own ++ results.flatMap Result.findings), folder :: results.flatMap Result.files⟩

theorem outcome_validateProject_missing (h : w.store.isFolder (w.store.absolute folder) = false) :
    outcome (validateProject r o folder) w = (.ok (noProject (w.store.absolute folder)), w) := by
  unfold validateProject
  rw [outcome_bind_ok (outcome_get w), outcome_bind_ok (outcome_get w), h]
  rfl

/-- The run on a project looks at the project first, and at its files after that. -/
theorem outcome_validateProject (h : w.store.isFolder (w.store.absolute folder) = true) :
    outcome (validateProject r o folder) w =
      match outcome (projectFindings r o (w.store.absolute folder)) w with
      | (.error f, v) => (.error f, v)
      | (.ok own, v) =>
        if o.skipWorkflows then (.ok ⟨o.choose own, [w.store.absolute folder]⟩, v)
        else match v.workflowFiles (w.store.absolute folder) with
          | .error f => (.ok (unlisted o (w.store.absolute folder) own f), v)
          | .ok paths =>
            match outcome (paths.mapM (fileJob r o)) v with
            | (.error f, u) => (.error f, u)
            | (.ok results, u) => (.ok (gathered o (w.store.absolute folder) own results), u) := by
  unfold validateProject
  rw [outcome_bind_ok (outcome_get w), outcome_bind_ok (outcome_get w), h]
  simp only [Bool.not_true, Bool.false_eq_true, if_false]
  rw [outcome_bind]
  rcases outcome (projectFindings r o (w.store.absolute folder)) w with ⟨f | own, v⟩
  · rfl
  cases o.skipWorkflows with
  | true => rfl
  | false =>
    simp only [Bool.false_eq_true, if_false]
    rw [outcome_bind_ok (outcome_get v)]
    cases v.workflowFiles (w.store.absolute folder) with
    | error f => rfl
    | ok paths =>
      simp only [validateFiles_eq, outcome_bind]
      rcases outcome (paths.mapM (fileJob r o)) v with ⟨_ | results, u⟩ <;> rfl

/-- A workflow file has its turn in the run on a project. -/
def FileTurn (r : Registry) (o : Options) (folder : Text) (w u : Workspace) (path : Text) : Prop :=
  ∃ own v paths, outcome (projectFindings r o folder) w = (.ok own, v) ∧
    o.skipWorkflows = false ∧ v.workflowFiles folder = .ok paths ∧
    Turn (fileJob r o) v paths u path

/-- The files of a project have their turns after what was found on the project. -/
theorem fileTurn_iff {own : List Finding} {paths : List Text} {u : Workspace} {path : Text}
    (hown : outcome (projectFindings r o folder) w = (.ok own, v)) (hskip : o.skipWorkflows = false)
    (hlist : v.workflowFiles folder = .ok paths) :
    FileTurn r o folder w u path ↔ Turn (fileJob r o) v paths u path := by
  constructor
  · rintro ⟨own', v', paths', hown', -, hlist', ht⟩
    obtain ⟨rfl, rfl⟩ : own = own' ∧ v = v' := by simpa [hown] using hown'
    obtain rfl : paths = paths' := by simpa [hlist] using hlist'
    exact ht
  · intro ht
    exact ⟨own, v, paths, hown, hskip, hlist, ht⟩

/-- The run on a project stops exactly where the turn of a group or a file does. -/
theorem outcome_validateProject_error_iff {f : Fault}
    (h : w.store.isFolder (w.store.absolute folder) = true) :
    outcome (validateProject r o folder) w = (.error f, v) ↔
      (∃ u group, GroupTurn r o (w.store.absolute folder) w u group ∧
        outcome (groupJob o group) u = (.error f, v)) ∨
      ∃ u path, FileTurn r o (w.store.absolute folder) w u path ∧
        outcome (fileJob r o path) u = (.error f, v) := by
  rw [outcome_validateProject h, ← outcome_projectFindings_error_iff]
  rcases hown : outcome (projectFindings r o (w.store.absolute folder)) w with ⟨f' | own, v'⟩
  · simp [FileTurn, hown]
  cases hskip : o.skipWorkflows with
  | true => simp [FileTurn, hskip]
  | false =>
    cases hlist : v'.workflowFiles (w.store.absolute folder) with
    | error f' => simp [FileTurn, hown, hlist]
    | ok paths =>
      have hstop : outcome (paths.mapM (fileJob r o)) v' = (.error f, v) ↔ _ :=
        outcome_mapM_error_iff
      simp only [fileTurn_iff hown hskip hlist, ← hstop, hlist]
      rcases outcome (paths.mapM (fileJob r o)) v' with ⟨f' | results, u'⟩ <;> simp

end Project

/-! ## Single fixes -/

/-- The fixes of some findings have their turn on the file at a path, in the run on a project that
starts in `w`. -/
inductive FixTurn (r : Registry) (o : Options) (folder : Text) (w : Workspace) :
    Workspace → Text → List Finding → Prop
  /-- The findings are some of those on the project. -/
  | own {u : Workspace} {path : Text} {findings : List Finding} : o.dryRun = false →
      GroupTurn r o folder w u (path, findings) → FixTurn r o folder w u path findings
  /-- The findings are those on a workflow file of the project. -/
  | file {u : Workspace} {path t : Text} {g : Workflow.Graph} : o.wantsFixes = true →
      o.dryRun = false → FileTurn r o folder w u path →
      readWorkflow u.store (u.store.absolute path) = .ok (t, g) →
      FixTurn r o folder w u (u.store.absolute path)
        (chosenFindings r o.forChild (u.store.absolute path) t g)

section

variable {r : Registry} {o : Options} {folder : Text} {w v : Workspace} {f : Fault}

theorem outcome_groupJob_error_iff {group : Text × List Finding} :
    outcome (groupJob o group) w = (.error f, v) ↔
      o.dryRun = false ∧ outcome (Fixing.apply group.1 group.2 false) w = (.error f, v) := by
  unfold groupJob
  cases o.dryRun with
  | false => simp
  | true => simp [Fixing.outcome_apply_dryRun]

theorem outcome_fileJob_error_iff {path : Text} :
    outcome (fileJob r o path) w = (.error f, v) ↔
      outcome (validateWorkflow r o.forChild path) w = (.error f, v) := by
  unfold fileJob
  rw [outcome_bind_error_iff]
  simp

/-- The run on a project stops exactly where fixing a file stops, or where a workflow file cannot be
read without a fault. -/
theorem outcome_validateProject_error_iff_fixTurn
    (h : w.store.isFolder (w.store.absolute folder) = true) :
    outcome (validateProject r o folder) w = (.error f, v) ↔
      (∃ u path findings, FixTurn r o (w.store.absolute folder) w u path findings ∧
        outcome (Fixing.apply path findings false) u = (.error f, v)) ∨
      ∃ path, FileTurn r o (w.store.absolute folder) w v path ∧
        readWorkflow v.store (v.store.absolute path) = .error (.fault f) := by
  simp only [outcome_validateProject_error_iff h, outcome_groupJob_error_iff,
    outcome_fileJob_error_iff, outcome_validateWorkflow_error_iff]
  constructor
  · rintro (⟨u, group, ht, hdry, hstop⟩ | ⟨u, path, ht, ⟨hread, rfl⟩ | ⟨t, g, hread, hw, hdry, hstop⟩⟩)
    · exact .inl ⟨u, group.1, group.2, .own hdry ht, hstop⟩
    · exact .inr ⟨path, ht, hread⟩
    · exact .inl ⟨u, _, _, .file hw hdry ht hread, hstop⟩
  · rintro (⟨u, path, findings, ht, hstop⟩ | ⟨path, ht, hread⟩)
    · cases ht with
      | own hdry ht => exact .inl ⟨u, (path, findings), ht, hdry, hstop⟩
      | file hw hdry ht hread => exact .inr ⟨u, _, ht, .inr ⟨_, _, hread, hw, hdry, hstop⟩⟩
    · exact .inr ⟨v, path, ht, .inl ⟨hread, rfl⟩⟩

end

end WorkflowLint
