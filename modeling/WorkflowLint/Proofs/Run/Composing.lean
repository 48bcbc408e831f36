import Mathlib.Data.List.Basic
import WorkflowLint.Proofs.Finding.Choice
import WorkflowLint.Proofs.Run.Returning

/-!
# What a run on a project is made of

A run that is to change no file chooses the findings on the project once, and those on its files
twice: in the run on the file, and again with the name of the file before their messages.  All this
comes to one choice from one list (`validateProject_eq_choose`): what the checks of projects find,
and what is found on each workflow file when no options are given.

A project is valid exactly if its own findings are, its files can be listed, and each of them is
valid; but a file that cannot be checked counts only if the rule that says so is selected
(`validateProject_valid_iff`).
-/

namespace WorkflowLint

open Job

/-! ## What there is to find -/

/-- What the checks of projects find in a folder. -/
def Registry.examineProject (r : Registry) (w : Workspace) (folder : Text) : List Finding :=
  r.project.flatMap (ProjectCheck.runIsolated w folder)

/-- The result of a run on a workflow file, as part of the run on its project; it is empty if the
run has none. -/
def Registry.examineFile (r : Registry) (o : Options) (w : Workspace) (path : Text) : Result :=
  ((outcome (validateWorkflow r o path) w).1.toOption.map (Result.ofFile path)).getD ⟨[], []⟩

/-- The workflow files that a run on a project comes to. -/
def Workspace.filesFor (w : Workspace) (o : Options) (folder : Text) : Except Fault (List Text) :=
  if o.skipWorkflows then .ok [] else w.workflowFiles folder

/-- What is found on a project and on some of its workflow files if no options are given. -/
def Registry.examineAll (r : Registry) (w : Workspace) (folder : Text) (paths : List Text) :
    List Finding :=
  r.examineProject w folder ++ paths.flatMap fun path => (r.examineFile {} w path).findings

/-- The findings that no choice is made of: one if the workflow files cannot be listed. -/
def unlistedFindings (folder : Text) : Except Fault (List Text) → List Finding
  | .ok _ => []
  | .error f =>
    [Obstacle.projectUnreadable.finding folder ("Cannot list workflow files: " ++ f.text) none]

/-! ## Validity -/

/-- A result is valid exactly if nothing in it must be mended. -/
theorem Result.valid_iff {result : Result} :
    result.valid = true ↔ ∀ f ∈ result.findings, f.severity ≠ .must := by
  rw [valid, summary, Summary.of, beq_iff_eq, Summary.count, List.countP_eq_zero]
  simp

/-! ## Files -/

section File

variable {r : Registry} {o : Options} {path : Text} {w : Workspace}

theorem choose_prefixed (start : Text) (findings : List Finding) :
    o.choose (findings.map (Finding.prefixed start)) =
      (o.choose findings).map (Finding.prefixed start) := by
  refine Options.choose_map (Finding.prefixed start) (fun _ => rfl) ?_
  rintro ⟨_, severity, _, _, _, _, _, _, _⟩
  cases severity <;> rfl

/-- The workflow files of a project are listed by their absolute paths. -/
theorem absolute_of_mem_workflowFiles {folder : Text} {paths : List Text}
    (h : w.workflowFiles folder = .ok paths) (hpath : path ∈ paths) :
    w.store.absolute path = path := by
  unfold Workspace.workflowFiles at h
  cases hlist : w.store.list (w.workflowsPath (w.store.absolute folder)) with
  | error f => simp [hlist, bind, Except.bind] at h
  | ok names =>
    simp only [hlist, bind, Except.bind, pure, Except.pure, Except.ok.injEq] at h
    subst h
    obtain ⟨name, -, rfl⟩ := List.mem_map.1 hpath
    exact Store.absolute_absolute ..

theorem examineFile_of_outcome {result : Result} {v : Workspace}
    (h : outcome (validateWorkflow r o path) w = (.ok result, v)) :
    r.examineFile o w path = result.ofFile path := by
  rw [Registry.examineFile, h]
  rfl

variable (ho : o.wantsFixes = false)
include ho

/-- A run on a workflow file that has a result changes nothing and has looked at that file alone, and
of what it found without options its options choose the same. -/
theorem exists_outcome_default {child : Result} {v : Workspace}
    (h : outcome (validateWorkflow r o.forChild path) w = (.ok child, v)) :
    v = w ∧ child.files = [w.store.absolute path] ∧
      ∃ result, outcome (validateWorkflow r {} path) w = (.ok result, w) ∧
        o.choose child.findings = o.choose result.findings := by
  have hplain : ({} : Options).ReadsOnly := .inl rfl
  have hplain' : o.forChild.ReadsOnly := .inl ho
  rcases hread : readWorkflow w.store (w.store.absolute path) with (f | f) | ⟨t, g⟩
  · -- a file that cannot be checked has the same finding under all options
    rw [outcome_validateWorkflow_obstacle hread] at h
    obtain ⟨hchild, rfl⟩ := Prod.mk.inj h
    obtain rfl := Except.ok.inj hchild
    exact ⟨rfl, rfl, _, outcome_validateWorkflow_obstacle hread, rfl⟩
  · rw [outcome_validateWorkflow_fault hread] at h
    simp at h
  · rw [outcome_validateWorkflow_plain hread hplain'] at h
    obtain ⟨hchild, rfl⟩ := Prod.mk.inj h
    obtain rfl := Except.ok.inj hchild
    refine ⟨rfl, rfl, _, outcome_validateWorkflow_plain hread hplain, ?_⟩
    show o.choose (o.choose _) = o.choose (({} : Options).choose _)
    rw [Options.choose_choose, Options.choose_default]

/-- The result of a run on a workflow file is part of that on its project, and is chosen from what
the run finds without options. -/
theorem choose_examineFile {child : Result} {v : Workspace}
    (h : outcome (validateWorkflow r o.forChild path) w = (.ok child, v)) :
    outcome (fileJob r o path) w = (.ok (child.ofFile path), w) ∧
      o.choose (child.ofFile path).findings = o.choose (r.examineFile {} w path).findings := by
  obtain ⟨rfl, -, result, hresult, hchoose⟩ := exists_outcome_default ho h
  constructor
  · rw [outcome_fileJob, h]
  · rw [examineFile_of_outcome hresult]
    simp only [Result.ofFile, choose_prefixed, hchoose]

/-- The findings on a file count for the validity of its project as they do for that of the file,
unless they say that it cannot be checked under a rule that is not selected. -/
theorem forall_ne_must_choose_examineFile_iff {child : Result} {v : Workspace}
    (h : outcome (validateWorkflow r o.forChild path) w = (.ok child, v)) :
    (∀ f ∈ o.choose (r.examineFile {} w path).findings, f.severity ≠ .must) ↔
      child.valid = true ∨
        ∃ f, readWorkflow w.store (w.store.absolute path) = .error (.finding f) ∧
          Finding.selected o.rules o.excludeRules f.rule = false := by
  rw [← (choose_examineFile ho h).2]
  rcases hread : readWorkflow w.store (w.store.absolute path) with (f | f) | ⟨t, g⟩
  · rw [outcome_validateWorkflow_obstacle hread] at h
    obtain rfl := Except.ok.inj (Prod.mk.inj h).1
    have hmust : f.severity = .must := (exists_obstacle_of_readWorkflow hread).1
    have hinvalid : (Result.mk [f] [w.store.absolute path]).valid = false := by
      rw [Bool.eq_false_iff, ne_eq, Result.valid_iff]
      simp [hmust]
    have hhardened : f.hardened = f := Finding.hardened_of_ne_should (by simp [hmust])
    have hfinding : ∀ f', Unchecked.finding f = .finding f' ↔ f = f' := by simp
    simp only [Result.ofFile, choose_prefixed, List.forall_mem_map, Finding.prefixed,
      Options.mem_choose_iff, List.mem_singleton, Except.error.injEq, hfinding, exists_eq_left',
      exists_eq_left, hhardened, ite_self, hinvalid, Bool.false_eq_true, false_or,
      ← Bool.not_eq_true]
    constructor
    · intro hall hsel
      exact hall f ⟨hsel, rfl⟩ hmust
    · rintro hnot _ ⟨hsel, -⟩
      exact absurd hsel hnot
  · rw [outcome_validateWorkflow_fault hread] at h
    simp at h
  · have hplain : o.forChild.ReadsOnly := .inl ho
    rw [outcome_validateWorkflow_plain hread hplain] at h
    obtain rfl := Except.ok.inj (Prod.mk.inj h).1
    have hchosen : o.choose (chosenFindings r o.forChild (w.store.absolute path) t g) =
        chosenFindings r o.forChild (w.store.absolute path) t g := Options.choose_choose
    simp only [Result.ofFile, choose_prefixed, hchosen, List.forall_mem_map, Result.valid_iff]
    simp [Finding.prefixed]

end File

/-! ## Projects -/

section Project

variable {r : Registry} {o : Options} {folder : Text} {w : Workspace}

/-! ### Runs on the files -/

section Children

variable {paths : List Text} (ho : o.wantsFixes = false)
  (h : ∀ path ∈ paths, ∃ result v,
    outcome (validateWorkflow r o.forChild path) w = (.ok result, v))
include ho h

theorem outcome_mapM_fileJob : outcome (paths.mapM (fileJob r o)) w =
    (.ok (paths.map (r.examineFile o.forChild w)), w) := by
  refine outcome_mapM_eq_map fun path hpath => ?_
  obtain ⟨child, v, hchild⟩ := h path hpath
  rw [examineFile_of_outcome hchild, (choose_examineFile ho hchild).1]

theorem flatMap_files_examineFile (hlist : w.workflowFiles folder = .ok paths) :
    paths.flatMap (fun path => (r.examineFile o.forChild w path).files) = paths := by
  refine (List.flatMap_congr fun path hpath => ?_).trans (List.flatMap_singleton' paths)
  obtain ⟨child, v, hchild⟩ := h path hpath
  rw [examineFile_of_outcome hchild, Result.ofFile, (exists_outcome_default ho hchild).2.1,
    absolute_of_mem_workflowFiles hlist hpath]

/-- What is chosen from the runs under the options is what is chosen from those without options. -/
theorem choose_flatMap_examineFile :
    o.choose (paths.flatMap fun path => (r.examineFile o.forChild w path).findings) =
      o.choose (paths.flatMap fun path => (r.examineFile {} w path).findings) := by
  rw [Options.choose_flatMap, Options.choose_flatMap]
  refine List.flatMap_congr fun path hpath => ?_
  obtain ⟨child, v, hchild⟩ := h path hpath
  rw [examineFile_of_outcome hchild, (choose_examineFile ho hchild).2]

end Children

/-- A run on a project that changes no file chooses from all there is to find, and looks at the
folder and at each workflow file once. -/
theorem outcome_validateProject_eq_choose
    (hfolder : w.store.isFolder (w.store.absolute folder) = true) (ho : o.wantsFixes = false)
    {listed : Except Fault (List Text)} (hlisted : w.filesFor o (w.store.absolute folder) = listed)
    (h : ∀ paths, listed = .ok paths → ∀ path ∈ paths,
      ∃ result v, outcome (validateWorkflow r o.forChild path) w = (.ok result, v)) :
    outcome (validateProject r o folder) w =
      (.ok ⟨o.choose (r.examineAll w (w.store.absolute folder) (listed.toOption.getD [])) ++
          unlistedFindings (w.store.absolute folder) listed,
        w.store.absolute folder :: listed.toOption.getD []⟩, w) := by
  have hown : projectChosen r o (w.store.absolute folder) w =
      o.choose (r.examineProject w (w.store.absolute folder)) := rfl
  rw [outcome_validateProject hfolder, outcome_projectFindings_plain ho, hown]
  simp only
  unfold Workspace.filesFor at hlisted
  cases hskip : o.skipWorkflows with
  | true =>
    obtain rfl : .ok [] = listed := by simpa [hskip] using hlisted
    simp [Except.toOption, unlistedFindings, Registry.examineAll, Options.choose_choose]
  | false =>
    have hlist : w.workflowFiles (w.store.absolute folder) = listed := by
      simpa [hskip] using hlisted
    simp only [Bool.false_eq_true, if_false, hlist]
    cases listed with
    | error f =>
      simp [unlisted, Except.toOption, unlistedFindings, Registry.examineAll, Options.choose_choose]
    | ok paths =>
      have hpaths := h paths rfl
      simp only [outcome_mapM_fileJob ho hpaths, gathered, List.flatMap_map,
        flatMap_files_examineFile ho hpaths hlist, Options.choose_append, Options.choose_choose,
        choose_flatMap_examineFile ho hpaths, Registry.examineAll, Except.toOption, Option.getD_some,
        unlistedFindings, List.append_nil]

/-- If a run on a project that changes no file has a result, so has the run on each of its files. -/
theorem exists_outcome_of_outcome_validateProject {result : Result} {v : Workspace}
    (hfolder : w.store.isFolder (w.store.absolute folder) = true) (ho : o.wantsFixes = false)
    (hrun : outcome (validateProject r o folder) w = (.ok result, v)) {paths : List Text}
    (hlist : w.filesFor o (w.store.absolute folder) = .ok paths) {path : Text}
    (hpath : path ∈ paths) :
    ∃ child, outcome (validateWorkflow r o.forChild path) w = (.ok child, w) := by
  have hreads : o.ReadsOnly := .inl ho
  rw [outcome_validateProject hfolder, outcome_projectFindings_plain ho] at hrun
  simp only at hrun
  unfold Workspace.filesFor at hlist
  cases hskip : o.skipWorkflows with
  | true =>
    obtain rfl : [] = paths := by simpa [hskip] using hlist
    simp at hpath
  | false =>
    have hlist : w.workflowFiles (w.store.absolute folder) = .ok paths := by
      simpa [hskip] using hlist
    simp only [hskip, Bool.false_eq_true, if_false, hlist] at hrun
    have hsnd : ∀ path ∈ paths, (outcome (fileJob r o path) w).2 = w :=
      fun path _ => outcome_fileJob_snd hreads
    have hresults : ∃ results, outcome (paths.mapM (fileJob r o)) w = (.ok results, w) := by
      have hw := outcome_mapM_snd hsnd
      rcases hout : outcome (paths.mapM (fileJob r o)) w with ⟨f | results, u⟩
      · simp [hout] at hrun
      · obtain rfl : u = w := by rwa [hout] at hw
        exact ⟨results, rfl⟩
    have hfile := (exists_outcome_mapM_iff hsnd).1 hresults path hpath
    rw [exists_outcome_fileJob_iff hreads] at hfile
    have hreads' : o.forChild.ReadsOnly := hreads
    exact (exists_outcome_validateWorkflow_iff hreads').2 hfile

/-- A run on a project that changes no file has what its checks find and what validating each of its
workflow files finds without options, with the name of the file before the message: first what is
found on the project, then file by file, all of it selected by the rules and taken as strictly as the
options say.  Of one finding no choice is made, which says that the workflow files cannot be listed;
no file is looked at then.  The files of the result are the folder and each listed file. -/
theorem validateProject_eq_choose (r : Registry) (o : Options) (w : Workspace) (folder : Text)
    (hfolder : w.store.isFolder (w.store.absolute folder) = true)
    (ho : o.fix = false ∧ o.dryRun = false)
    (hchildren : ∀ paths, w.filesFor o (w.store.absolute folder) = .ok paths → ∀ path ∈ paths,
      ∃ child v, outcome (validateWorkflow r o.forChild path) w = (.ok child, v)) :
    (∃ result, outcome (validateProject r o folder) w = (.ok result, w) ∧
      ((∃ paths, w.filesFor o (w.store.absolute folder) = .ok paths ∧
          result.findings = Finding.escalate o.strict (Finding.select o.rules o.excludeRules
            (r.examineAll w (w.store.absolute folder) paths)) ∧
          result.files = w.store.absolute folder :: paths) ∨
        ∃ f, w.filesFor o (w.store.absolute folder) = .error f ∧
          result.findings = Finding.escalate o.strict (Finding.select o.rules o.excludeRules
              (r.examineAll w (w.store.absolute folder) [])) ++
            [Obstacle.projectUnreadable.finding (w.store.absolute folder)
              ("Cannot list workflow files: " ++ f.text) none] ∧
          result.files = [w.store.absolute folder])) ∧
    ∀ paths, w.filesFor o (w.store.absolute folder) = .ok paths → ∀ path ∈ paths,
      ∃ child, outcome (validateWorkflow r {} path) w = (.ok child, w) ∧
        r.examineFile {} w path = child.ofFile path := by
  have hplain : o.wantsFixes = false := by rw [Options.wantsFixes, ho.1, ho.2]; rfl
  refine ⟨⟨_, outcome_validateProject_eq_choose hfolder hplain rfl hchildren, ?_⟩,
    fun paths hlist path hpath => ?_⟩
  · cases hlist : w.filesFor o (w.store.absolute folder) with
    | ok paths => exact .inl ⟨paths, rfl, List.append_nil _, rfl⟩
    | error f => exact .inr ⟨f, rfl, rfl, rfl⟩
  · obtain ⟨_, _, hchild⟩ := hchildren paths hlist path hpath
    obtain ⟨-, -, result, hresult, -⟩ := exists_outcome_default hplain hchild
    exact ⟨result, hresult, examineFile_of_outcome hresult⟩

/-- A project with one file, which is no workflow. -/
def brokenProject : Workspace where
  settings := {}
  store :=
    { files := [(["ROOT", "workflows", "a.json"], [123])]
      folders := [["ROOT"], ["ROOT", "workflows"]]
      current := ["ROOT"] }

/-- The path of the file. -/
def brokenFilePath : Text := "/ROOT/workflows/a.json"

/-- A check of projects that stops with a fault. -/
def brokenProjectCheck : ProjectCheck where
  info := { id := "A", name := "n", severity := .must, description := [] }
  run := fun _ _ => .error ⟨"RuntimeError", "broken check"⟩

/-- A broken check and a broken file have a finding each. -/
theorem validateProject_eq_choose_broken :
    ∃ result, outcome (validateProject { project := [brokenProjectCheck] } { strict := true } ".")
        brokenProject = (.ok result, brokenProject) ∧
      result.findings.map (·.rule) = [("PROJECT-CHECK-ERR" : Text), "WORKFLOW-PARSE"] ∧
      result.files = [("/ROOT" : Text), brokenFilePath] := by
  have hlisted : (brokenProject.filesFor { strict := true }
      (brokenProject.store.absolute ".")).toOption = some [brokenFilePath] := by decide +kernel
  have hlist := eq_ok_of_toOption hlisted
  have hchild : (outcome (validateWorkflow { project := [brokenProjectCheck] }
      ({ strict := true } : Options).forChild brokenFilePath) brokenProject).1.isOk = true := by
    decide +kernel
  obtain ⟨⟨result, hrun, hresult⟩, -⟩ := validateProject_eq_choose
    { project := [brokenProjectCheck] } { strict := true } brokenProject "." (by decide +kernel)
    ⟨rfl, rfl⟩ (by
      intro paths h path hpath
      obtain rfl := Except.ok.inj (hlist.symm.trans h)
      obtain rfl := List.mem_singleton.1 hpath
      exact exists_outcome_of_isOk hchild)
  refine ⟨result, hrun, ?_⟩
  rcases hresult with ⟨paths, h, hfindings, hfiles⟩ | ⟨f, h, -, -⟩
  · obtain rfl := Except.ok.inj (hlist.symm.trans h)
    rw [hfindings, hfiles]
    decide +kernel
  · cases hlist.symm.trans h

/-- A project that is looked at with its files is valid exactly if nothing that was found on it must
be mended, its files can be listed, and each of them is valid; but a file that cannot be checked does
no harm if the rule that says so is not selected. -/
theorem validateProject_valid_iff (r : Registry) (o : Options) (w v : Workspace) (folder : Text)
    (result : Result) (hfolder : w.store.isFolder (w.store.absolute folder) = true)
    (ho : o.fix = false ∧ o.dryRun = false ∧ o.skipWorkflows = false)
    (hrun : outcome (validateProject r o folder) w = (.ok result, v)) :
    result.valid = true ↔
      (∀ f ∈ o.choose (r.examineProject w (w.store.absolute folder)), f.severity ≠ .must) ∧
      ∃ paths, w.workflowFiles (w.store.absolute folder) = .ok paths ∧
        ∀ path ∈ paths, ∃ child,
          outcome (validateWorkflow r o.forChild path) w = (.ok child, w) ∧
          (child.valid = true ∨
            ∃ f, readWorkflow w.store path = .error (.finding f) ∧
              (∃ obstacle ∈ [Obstacle.fileNotFound, .fileUnreadable, .notAWorkflow],
                f.rule = obstacle.rule) ∧
              Finding.selected o.rules o.excludeRules f.rule = false) := by
  have hplain : o.wantsFixes = false := by rw [Options.wantsFixes, ho.1, ho.2.1]; rfl
  have hfilesFor : w.filesFor o (w.store.absolute folder) =
      w.workflowFiles (w.store.absolute folder) := by
    rw [Workspace.filesFor, ho.2.2, if_neg Bool.false_ne_true]
  have hchildren : ∀ paths, w.filesFor o (w.store.absolute folder) = .ok paths → ∀ path ∈ paths,
      ∃ child, outcome (validateWorkflow r o.forChild path) w = (.ok child, w) :=
    fun _ hlist _ hpath =>
      exists_outcome_of_outcome_validateProject hfolder hplain hrun hlist hpath
  rw [outcome_validateProject_eq_choose hfolder hplain hfilesFor fun paths hlist path hpath =>
    (hchildren paths (hfilesFor.trans hlist) path hpath).imp fun _ h => ⟨w, h⟩] at hrun
  obtain rfl := Except.ok.inj (Prod.mk.inj hrun).1
  rw [Result.valid_iff]
  cases hlist : w.workflowFiles (w.store.absolute folder) with
  | error f => simp [unlistedFindings, Obstacle.finding, or_imp, forall_and]
  | ok paths =>
    simp only [Except.toOption, Option.getD_some, unlistedFindings, List.append_nil,
      Registry.examineAll, Options.choose_append, Options.choose_flatMap, List.forall_mem_append,
      List.forall_mem_flatMap, Except.ok.injEq, exists_eq_left']
    refine and_congr_right fun _ => forall₂_congr fun path hpath => ?_
    obtain ⟨child, hchild⟩ := hchildren paths (hfilesFor.trans hlist) path hpath
    rw [forall_ne_must_choose_examineFile_iff hplain hchild,
      absolute_of_mem_workflowFiles hlist hpath]
    constructor
    · rintro (hvalid | ⟨f, hread, hsel⟩)
      · exact ⟨child, hchild, .inl hvalid⟩
      · exact ⟨child, hchild, .inr ⟨f, hread, (exists_obstacle_of_readWorkflow hread).2.2, hsel⟩⟩
    · rintro ⟨child', hchild', hvalid⟩
      obtain rfl : child = child' := by simpa [hchild] using hchild'
      refine hvalid.imp_right fun hbroken => ?_
      obtain ⟨f, hread, -, hsel⟩ := hbroken
      exact ⟨f, hread, hsel⟩

/-- Options that select a rule on workflows. -/
def initRule : Options := { rules := ["INIT-REQUIRED"] }

/-- The file of the broken project can be listed. -/
theorem workflowFiles_brokenProject :
    brokenProject.workflowFiles (brokenProject.store.absolute ".") = .ok [brokenFilePath] := by
  have hlist : (brokenProject.workflowFiles (brokenProject.store.absolute ".")).toOption =
      some [brokenFilePath] := by decide +kernel
  exact eq_ok_of_toOption hlist

/-- The finding that says why a file cannot be checked. -/
def Unchecked.finding? : Unchecked → Option Finding
  | .finding f => some f
  | .fault _ => none

/-- Without checks the broken project is valid under that rule, as its file is only no workflow. -/
theorem validateProject_valid_iff_broken :
    ∃ result v, outcome (validateProject {} initRule ".") brokenProject = (.ok result, v) ∧
      result.valid = true := by
  have hok : (outcome (validateProject {} initRule ".") brokenProject).1.isOk = true := by
    decide +kernel
  have hchild : (outcome (validateWorkflow {} initRule.forChild brokenFilePath)
      brokenProject).1.isOk = true := by decide +kernel
  have hparse : ((errorOf? (readWorkflow brokenProject.store brokenFilePath)).bind
      Unchecked.finding?).any (fun f => decide (f.rule = Obstacle.notAWorkflow.rule) &&
        !Finding.selected initRule.rules initRule.excludeRules f.rule) = true := by decide +kernel
  obtain ⟨result, v, hrun⟩ := exists_outcome_of_isOk hok
  refine ⟨result, v, hrun, (validateProject_valid_iff {} initRule brokenProject v "." result
    (by decide +kernel) ⟨rfl, rfl, rfl⟩ hrun).2 ⟨fun f hf => ?_, _, workflowFiles_brokenProject,
      fun path hpath => ?_⟩⟩
  · exact absurd hf List.not_mem_nil
  · obtain rfl := List.mem_singleton.1 hpath
    obtain ⟨child, u, hrunChild⟩ := exists_outcome_of_isOk hchild
    obtain ⟨rfl, -⟩ := exists_outcome_default rfl hrunChild
    obtain ⟨f, hf, hrule⟩ := (Option.any_eq_true _ _).1 hparse
    rw [Bool.and_eq_true, decide_eq_true_eq, Bool.not_eq_true'] at hrule
    obtain ⟨e, he, hfinding⟩ := Option.bind_eq_some_iff.1 hf
    have hread := eq_error_of_errorOf? he
    cases e with
    | finding f' =>
      obtain rfl := Option.some.inj hfinding
      exact ⟨child, hrunChild, .inr ⟨f', hread, ⟨.notAWorkflow, by simp, hrule.1⟩, hrule.2⟩⟩
    | fault _ => exact absurd hfinding.symm (Option.some_ne_none f)

/-- With the built-in checks, too, the broken project is valid under that rule, though its file is
listed and is not valid under the same options. -/
theorem validateProject_valid_with_invalid_file :
    brokenProject.store.isFolder (brokenProject.store.absolute ".") = true ∧
      brokenProject.workflowFiles (brokenProject.store.absolute ".") = .ok [brokenFilePath] ∧
      (∃ result v, outcome (validateProject .builtIn initRule ".") brokenProject = (.ok result, v) ∧
        result.valid = true) ∧
      ∃ child v, outcome (validateWorkflow .builtIn initRule.forChild brokenFilePath) brokenProject =
        (.ok child, v) ∧ child.valid = false := by
  have hproject : passes (fun result _ => result.valid) (validateProject .builtIn initRule ".")
      brokenProject = true := by decide +kernel
  have hfile : passes (fun child _ => !child.valid)
      (validateWorkflow .builtIn initRule.forChild brokenFilePath) brokenProject = true := by
    decide +kernel
  obtain ⟨child, v, hrun, hinvalid⟩ := exists_outcome_of_passes hfile
  exact ⟨by decide +kernel, workflowFiles_brokenProject, exists_outcome_of_passes hproject,
    child, v, hrun, (Bool.not_eq_true' _).mp hinvalid⟩

end Project

end WorkflowLint
