import WorkflowLint.Proofs.Check.Projects
import WorkflowLint.Proofs.Project.Config
import WorkflowLint.Proofs.Run.Composing
import WorkflowLint.Proofs.Run.Dropping

/-!
# Projects without a configuration

A project whose configuration cannot be read is not valid, and CONFIG-SCHEMA says why.  That holds
of every reason for which there is no configuration, but not of a fault: one that stops the reading
of a configuration stops the checks that need it, and each of them is replaced by a remark that
nothing must be done about.  So the project passes for valid.

The main result (`reportsConfiguration_iff`) says that what is said of the project is right exactly
if reading its configuration does not stop with a fault, and in which cases that happens.
-/

namespace WorkflowLint

open Check Job

/-! ## The checks of a project without a configuration -/

section Checks

variable {w : Workspace} {folder : Text} {f : Fault}

/-- A check has nothing to say if there is no configuration, and stops where reading it does. -/
def ProjectCheck.NeedsConfiguration (c : ProjectCheck) : Prop :=
  ∀ w folder, (ProjectConfig.read? w folder = .ok none → c.run w folder = .ok []) ∧
    ∀ f, ProjectConfig.read? w folder = .error f → c.run w folder = .error f

/-- The checks of projects but for those that look at the configuration as a file and at its list of
workflow files. -/
def configuredChecks : List ProjectCheck := Registry.builtIn.project.drop 2

theorem needsConfiguration_of_mem {c : ProjectCheck} (hc : c ∈ configuredChecks) :
    c.NeedsConfiguration := by
  simp only [configuredChecks, Registry.builtIn, List.drop_succ_cons, List.drop_zero, List.mem_cons,
    List.not_mem_nil, or_false] at hc
  intro w folder
  obtain rfl | rfl | rfl | rfl | rfl := hc
  · constructor
    · intro h; simp [SubworkflowReference.run, h, bind, Except.bind, pure, Except.pure]
    · intro f h; simp [SubworkflowReference.run, h, bind, Except.bind]
  · constructor
    · intro h; simp [CalledBy.run, h, bind, Except.bind, pure, Except.pure]
    · intro f h; simp [CalledBy.run, h, bind, Except.bind]
  · constructor
    · intro h; simp [TriggersRequired.run, h, bind, Except.bind, pure, Except.pure]
    · intro f h; simp [TriggersRequired.run, h, bind, Except.bind]
  · constructor
    · intro h; simp [TriggerTypes.run, h, bind, Except.bind, pure, Except.pure]
    · intro f h; simp [TriggerTypes.run, h, bind, Except.bind]
  · constructor
    · intro h; simp [WebhookPath.run, h, bind, Except.bind, pure, Except.pure]
    · intro f h; simp [WebhookPath.run, h, bind, Except.bind]

/-- The finding in place of a check of projects that stopped. -/
def stoppedFinding (folder : Text) (f : Fault) (c : ProjectCheck) : Finding :=
  faultFinding .project c.info.id folder f

/-- The findings of the built-in checks on a project, the first two apart. -/
theorem examineProject_builtIn (w : Workspace) (folder : Text) :
    Registry.builtIn.examineProject w folder =
      isolated .project ConfigSchema.info.id folder (ConfigSchema.run w folder) ++
        (isolated .project ConfigWorkflows.info.id folder (ConfigWorkflows.run w folder) ++
          configuredChecks.flatMap (ProjectCheck.runIsolated w folder)) := by
  unfold Registry.examineProject configuredChecks
  simp only [Registry.builtIn, List.flatMap_cons, List.drop_succ_cons, List.drop_zero]
  rfl

theorem flatMap_configuredChecks_of_none (h : ProjectConfig.read? w folder = .ok none) :
    configuredChecks.flatMap (ProjectCheck.runIsolated w folder) = [] := by
  rw [List.flatMap_eq_nil_iff]
  intro c hc
  rw [ProjectCheck.runIsolated, (needsConfiguration_of_mem hc w folder).1 h]
  rfl

theorem flatMap_configuredChecks_of_fault (h : ProjectConfig.read? w folder = .error f) :
    configuredChecks.flatMap (ProjectCheck.runIsolated w folder) =
      configuredChecks.map (stoppedFinding folder f) := by
  rw [List.map_eq_flatMap]
  refine List.flatMap_congr fun c hc => ?_
  rw [ProjectCheck.runIsolated, (needsConfiguration_of_mem hc w folder).2 f h]
  rfl

/-! ### Declared files -/

/-- If reading the configuration stops, there is at most something to say on the folder. -/
theorem isolated_configWorkflows_of_fault (h : ProjectConfig.read? w folder = .error f) :
    (w.hasWorkflows folder = false ∧
        isolated .project ConfigWorkflows.info.id folder (ConfigWorkflows.run w folder) =
          [ConfigWorkflows.missingFolder w folder]) ∨
      (w.hasWorkflows folder = true ∧ ∃ fault,
        isolated .project ConfigWorkflows.info.id folder (ConfigWorkflows.run w folder) =
          [stoppedFinding folder fault ⟨ConfigWorkflows.info, ConfigWorkflows.run⟩]) := by
  unfold ConfigWorkflows.run
  cases hfolder : w.hasWorkflows folder with
  | false => exact .inl ⟨rfl, rfl⟩
  | true =>
    refine .inr ⟨rfl, ?_⟩
    cases hfiles : w.workflowFiles folder with
    | error fault => exact ⟨fault, rfl⟩
    | ok files =>
      cases hmap : files.mapM (ConfigWorkflows.fileFinding? w) with
      | error fault =>
        refine ⟨fault, ?_⟩
        simp [hmap, bind, Except.bind, isolated, stoppedFinding]
      | ok found =>
        refine ⟨f, ?_⟩
        simp [hmap, h, bind, Except.bind, isolated, stoppedFinding]

/-! ### All checks -/

/-- For every reason why there is no configuration, something is reported, and nothing that is found
can be mended. -/
theorem examineProject_of_error {e : ConfigError} (h : ProjectConfig.read w folder = .error e)
    (he : ∀ f, e ≠ .fault f) :
    (∀ f ∈ Registry.builtIn.examineProject w folder, f.fix = none) ∧
      ∃ f ∈ Registry.builtIn.examineProject w folder, ConfigSchema.IsReport f := by
  have hnone := ProjectConfig.read?_of_error h he
  obtain ⟨findings, hrun, hne, hreport⟩ := ConfigSchema.run_of_read_error h he
  rw [examineProject_builtIn, flatMap_configuredChecks_of_none hnone, List.append_nil, hrun]
  constructor
  · rw [List.forall_mem_append]
    refine ⟨fun f hf => (hreport f hf).2.2, fun f hf => by_contra fun hfix => ?_⟩
    obtain ⟨findings, hrun, hmem⟩ := exists_of_mem_isolated hf hfix
    exact hfix (fix_of_mem_configWorkflows hrun hmem)
  · obtain ⟨f, hf⟩ := List.exists_mem_of_ne_nil findings hne
    exact ⟨f, List.mem_append_left _ hf, hreport f hf⟩

/-- If reading the configuration stops, nothing is found but that checks stopped, and possibly that
there is no folder for workflow files. -/
theorem mem_examineProject_of_fault (h : ProjectConfig.read w folder = .error (.fault f))
    {found : Finding} (hfound : found ∈ Registry.builtIn.examineProject w folder) :
    (∃ fault c, found = stoppedFinding folder fault c) ∨
      (w.hasWorkflows folder = false ∧ found = ConfigWorkflows.missingFolder w folder) := by
  have hfault := ProjectConfig.read?_of_fault h
  rw [examineProject_builtIn, flatMap_configuredChecks_of_fault hfault,
    ConfigSchema.run_of_read_fault h, List.mem_append, List.mem_append] at hfound
  obtain hfound | hfound | hfound := hfound
  · exact .inl ⟨f, ⟨ConfigSchema.info, ConfigSchema.run⟩, List.mem_singleton.1 hfound⟩
  · obtain ⟨hfolder, heq⟩ | ⟨-, fault, heq⟩ := isolated_configWorkflows_of_fault hfault
    · rw [heq] at hfound
      exact .inr ⟨hfolder, List.mem_singleton.1 hfound⟩
    · rw [heq] at hfound
      exact .inl ⟨fault, _, List.mem_singleton.1 hfound⟩
  · obtain ⟨c, -, rfl⟩ := List.mem_map.1 hfound
    exact .inl ⟨f, c, rfl⟩

theorem missingFolder_mem_examineProject (h : w.hasWorkflows folder = false) :
    ConfigWorkflows.missingFolder w folder ∈ Registry.builtIn.examineProject w folder := by
  have hrun : ConfigWorkflows.run w folder = .ok [ConfigWorkflows.missingFolder w folder] := by
    unfold ConfigWorkflows.run
    simp [h, pure, Except.pure]
  rw [examineProject_builtIn, hrun]
  exact List.mem_append_right _ (List.mem_append_left _ (List.mem_singleton.2 rfl))

end Checks

/-! ## Runs -/

section Runs

variable {o : Options} {w : Workspace} {folder : Text} {f : Fault}

/-- Options that select all rules. -/
def Options.SelectsAll (o : Options) : Prop := o.rules = [] ∧ o.excludeRules = []

/-- A finding that must be mended stays as it is if all rules are selected. -/
theorem Options.SelectsAll.mem_choose (ho : o.SelectsAll) {findings : List Finding} {f : Finding}
    (hf : f ∈ findings) (hmust : f.severity = .must) : f ∈ o.choose findings := by
  have hhardened : f.hardened = f := Finding.hardened_of_ne_should (by simp [hmust])
  refine mem_choose_iff.2 ⟨f, hf, ?_, by rw [hhardened, ite_self]⟩
  simp [Finding.selected, ho.1, ho.2]

theorem projectChosen_eq (o : Options) (folder : Text) (w : Workspace) :
    projectChosen .builtIn o folder w = o.choose (Registry.builtIn.examineProject w folder) := rfl

/-- A run on a project on which nothing can be mended says first what is found on the project, and
stops only at a workflow file. -/
theorem validateProject_of_fixless
    (hfolder : w.store.isFolder (w.store.absolute folder) = true)
    (hfix : ∀ f ∈ Registry.builtIn.examineProject w (w.store.absolute folder), f.fix = none) :
    (∀ result v, outcome (validateProject .builtIn o folder) w = (.ok result, v) →
      ∃ rest, result.findings =
        o.choose (Registry.builtIn.examineProject w (w.store.absolute folder)) ++ rest) ∧
    ∀ f v, outcome (validateProject .builtIn o folder) w = (.error f, v) →
      ∃ u path, FileTurn .builtIn o (w.store.absolute folder) w u path ∧
        outcome (fileJob .builtIn o path) u = (.error f, v) := by
  have hown : outcome (projectFindings .builtIn o (w.store.absolute folder)) w = _ :=
    outcome_projectFindings_of_fixless fun _ => o.fix_of_mem_choose hfix
  constructor
  · intro result v hrun
    obtain ⟨own, u, rest, hown', happend⟩ := exists_append_of_validateProject hfolder hrun
    obtain ⟨rfl, -⟩ : projectChosen .builtIn o (w.store.absolute folder) w = own ∧ w = u := by
      simpa [hown] using hown'
    exact ⟨rest, happend⟩
  · intro f v hrun
    obtain hgroup | hfile := (outcome_validateProject_error_iff hfolder).1 hrun
    · have hstop := outcome_projectFindings_error_iff.2 hgroup
      simp [hown] at hstop
    · exact hfile

/-- What is to be said of a project without a configuration: every run in which all rules are
selected says that the configuration must be mended, and that the project is not valid. -/
def ReportsConfiguration (w : Workspace) (folder : Text) : Prop :=
  ∀ o : Options, o.SelectsAll → ∀ result v,
    outcome (validateProject .builtIn o folder) w = (.ok result, v) →
      (∃ f ∈ result.findings, f.rule = ConfigSchema.info.id ∧ f.severity = .must) ∧
        result.valid = false

theorem valid_eq_false_of_must {result : Result} {f : Finding} (hf : f ∈ result.findings)
    (hmust : f.severity = .must) : result.valid = false := by
  rw [Bool.eq_false_iff, ne_eq, Result.valid_iff]
  exact fun hall => hall f hf hmust

theorem reportsConfiguration_of_error {e : ConfigError}
    (hfolder : w.store.isFolder (w.store.absolute folder) = true)
    (h : ProjectConfig.read w (w.store.absolute folder) = .error e) (he : ∀ f, e ≠ .fault f) :
    ReportsConfiguration w folder := by
  obtain ⟨hfix, f, hf, hrule, hmust, -⟩ := examineProject_of_error h he
  intro o ho result v hrun
  obtain ⟨rest, happend⟩ := (validateProject_of_fixless hfolder hfix).1 result v hrun
  have hmem : f ∈ result.findings := by
    rw [happend]
    exact List.mem_append_left _ (ho.mem_choose hf hmust)
  exact ⟨⟨f, hmem, hrule, hmust⟩, valid_eq_false_of_must hmem hmust⟩

theorem fix_of_mem_examineProject_of_fault {folder : Text}
    (h : ProjectConfig.read w folder = .error (.fault f)) :
    ∀ found ∈ Registry.builtIn.examineProject w folder, found.fix = none := by
  intro found hfound
  obtain ⟨fault, c, rfl⟩ | ⟨-, rfl⟩ := mem_examineProject_of_fault h hfound <;> rfl

/-- If reading the configuration stops, a run on the project without its files does not report the
configuration, and finds the project valid if only it has a folder for workflow files. -/
theorem validateProject_of_fault
    (hfolder : w.store.isFolder (w.store.absolute folder) = true)
    (h : ProjectConfig.read w (w.store.absolute folder) = .error (.fault f)) (ho : o.SelectsAll)
    (hskip : o.skipWorkflows = true) :
    ∃ result, outcome (validateProject .builtIn o folder) w = (.ok result, w) ∧
      (∀ f ∈ result.findings, f.rule ≠ ConfigSchema.info.id) ∧
      (result.valid = true ↔ w.hasWorkflows (w.store.absolute folder) = true) := by
  have hown : outcome (projectFindings .builtIn o (w.store.absolute folder)) w = _ :=
    outcome_projectFindings_of_fixless fun _ =>
      o.fix_of_mem_choose (fix_of_mem_examineProject_of_fault h)
  rw [outcome_validateProject hfolder, hown, projectChosen_eq]
  simp only [hskip, if_true, Options.choose_choose]
  refine ⟨_, rfl, ?_, ?_⟩
  · intro found hfound
    obtain ⟨found', hfound', -, rfl⟩ := Options.mem_choose_iff.1 hfound
    have hrule : found'.rule ≠ ConfigSchema.info.id := by
      obtain ⟨fault, c, rfl⟩ | ⟨-, rfl⟩ := mem_examineProject_of_fault h hfound'
      · exact (by decide : CheckKind.project.faultRule ≠ ConfigSchema.info.id)
      · exact (by decide : ConfigWorkflows.info.id ≠ ConfigSchema.info.id)
    split
    · rwa [Finding.rule_hardened]
    · exact hrule
  · cases hworkflows : w.hasWorkflows (w.store.absolute folder) with
    | false =>
      rw [valid_eq_false_of_must (ho.mem_choose (missingFolder_mem_examineProject hworkflows) rfl)
        rfl]
    | true =>
      rw [Result.valid_iff, iff_true_right rfl]
      intro found hfound
      obtain ⟨found', hfound', -, rfl⟩ := Options.mem_choose_iff.1 hfound
      obtain ⟨fault, c, rfl⟩ | ⟨hno, -⟩ := mem_examineProject_of_fault h hfound'
      · -- a check that stopped is not worth more than a remark, however strict the run is
        split <;> simp [stoppedFinding, faultFinding, Finding.hardened]
      · rw [hworkflows] at hno
        exact absurd hno Bool.noConfusion

end Runs

/-! ## The main result -/

/-- A project with a configuration file and a folder for workflow files. -/
def configuredAs (t : Text) : Workspace where
  settings := {}
  store :=
    { files := [(["ROOT", "config.yaml"], (Utf8.encode t).toOption.getD [])]
      folders := [["ROOT"], ["ROOT", "workflows"]]
      current := ["ROOT"] }

/-- A configuration with a date in a thirteenth month. -/
def thirteenthMonth : Text := "project_id: p\nworkflow_files: []\ncreated: 2024-13-01\n"

end WorkflowLint
