import WorkflowLint.Check.ConfigWorkflows
import WorkflowLint.Proofs.Project.TemplateIds

/-!
# Declared files are those that there are

The check of declared files finds nothing exactly if each of them is in the folder of workflow files and
each file that is listed there is declared.  Declared files are looked up under the path of the project
as it is given, and the listing is that of its absolute form, which can be too long to be looked up
(`workflowFiles_of_tooLong`).  Unless it is, silence means that the names that are declared and end like
workflow files are the names that are listed (`names_agree_iff`).
-/

namespace WorkflowLint

/-! ## Listings -/

namespace Workspace

variable {w : Workspace} {folder n : Text} {files : List Text}

theorem exists_locate_of_hasWorkflows (h : w.hasWorkflows folder = true) :
    ∃ l, w.store.locate (w.workflowsPath folder) = .ok l ∧ w.store.hasFolder l = true := by
  unfold hasWorkflows Store.isFolder Store.locate? at h
  exact exists_ok_of_any h

/-- The folder of the listing is that of the project, if its path is not too long. -/
theorem locate_workflowsPath_absolute {l : Location} (hs : w.store.Sound)
    (hl : w.store.locate (w.workflowsPath folder) = .ok l) (hfolder : w.store.hasFolder l = true)
    (hshort : Path.byteLength (w.workflowsPath (w.store.absolute folder)) ≤ Path.longestPath) :
    w.store.locate (w.workflowsPath (w.store.absolute folder)) = .ok l := by
  cases hrelative : Path.isAbsolute w.settings.workflowsDir with
  | true =>
    have hsame : ∀ p, w.workflowsPath p = w.settings.workflowsDir := fun p => if_pos hrelative
    rwa [hsame] at hl ⊢
  | false => exact hs.locate_join_absolute hrelative hl hfolder hshort

/-- What is there under a name with the ending of workflow files is listed. -/
theorem mem_map_base_of_isFile (hs : w.store.Sound) (hfolder : w.hasWorkflows folder = true)
    (hshort : Path.byteLength (w.workflowsPath (w.store.absolute folder)) ≤ Path.longestPath)
    (hfiles : w.workflowFiles folder = .ok files) (hn : Path.slash ∉ n)
    (hfile : w.store.isFile (Path.join (w.workflowsPath folder) n) = true)
    (hsuffix : w.isWorkflowName n = true) : n ∈ files.map Path.base := by
  obtain ⟨l, hl, hl'⟩ := exists_locate_of_hasWorkflows hfolder
  have hmem := hs.mem_fileNames_of_isFile hl hl' hn hfile
  have hentry : Store.IsEntry n := hs.entries _
    (List.mem_append_left _ (Store.mem_fileNames_iff.1 hmem)) n
    (List.mem_append_right _ (List.mem_singleton_self n))
  obtain ⟨names, hlist, hnames⟩ := exists_of_bind_eq_ok hfiles
  obtain rfl := Except.ok.inj hnames
  rw [Store.list, Store.locate?, locate_workflowsPath_absolute hs hl hl' hshort] at hlist
  simp only [Except.toOption, Option.filter, hl', if_true] at hlist
  split_ifs at hlist
  rw [← Except.ok.inj hlist, List.map_map]
  refine List.mem_map.2 ⟨n, List.mem_filter.2 ⟨hmem, hsuffix⟩, ?_⟩
  exact hs.base_absolute_join hentry.isName hentry.ne_up _

/-- Nothing is listed in a folder whose path is too long. -/
theorem workflowFiles_of_tooLong
    (hlong : Path.longestPath < Path.byteLength (w.workflowsPath (w.store.absolute folder))) :
    w.workflowFiles folder = .ok [] := by
  have hnone : w.store.locate? (w.workflowsPath (w.store.absolute folder)) = none := by
    rw [Store.locate?]
    cases hl : w.store.locate (w.workflowsPath (w.store.absolute folder)) with
    | error e => rfl
    | ok l => exact absurd (Store.locate_eq_ok_iff.1 hl).2.2.1 (Nat.not_le.2 hlong)
  rw [workflowFiles, Store.list, hnone]
  rfl

end Workspace

/-! ## Findings -/

namespace Check.ConfigWorkflows

variable {w : Workspace} {folder : Text} {findings : List Finding} {files : List Text}
  {c : ProjectConfig}

/-- A declared file is there: its name leads to a file in the folder of workflow files. -/
def IsThere (w : Workspace) (folder declared : Text) : Prop :=
  w.store.isFile (Path.join (w.workflowsPath folder) (Path.base declared)) = true

/-- A file is declared under its name. -/
def IsDeclared (c : ProjectConfig) (path : Text) : Prop :=
  Path.base path ∈ c.workflowFiles.map Path.base

instance (declared : Text) : Decidable (IsThere w folder declared) :=
  inferInstanceAs (Decidable (_ = true))

instance (path : Text) : Decidable (IsDeclared c path) := inferInstanceAs (Decidable (_ ∈ _))

/-- Nothing is said on what is declared and what is there. -/
def Silent (findings : List Finding) : Prop := ∀ f ∈ findings, f.rule ≠ info.id

/-- A finding says that a declared file is missing. -/
structure SaysMissing (w : Workspace) (folder declared : Text) (f : Finding) : Prop where
  path : f.path = w.configPath folder
  message : f.message = "workflow_files references non-existent file: " ++ declared

/-- A finding says that a file is not declared. -/
structure SaysUndeclared (file : Text) (f : Finding) : Prop where
  path : f.path = file
  message : f.message = "Workflow file not listed in workflow_files: " ++ Path.base file

theorem rule_of_fileFinding? {path : Text} {found : Option Finding}
    (h : fileFinding? w path = .ok found) : ∀ f ∈ found, f.rule = jsonRule := by
  unfold fileFinding? at h
  split at h
  · obtain rfl := Except.ok.inj h
    simp
  · split at h
    · obtain rfl := Except.ok.inj h
      simp
    · obtain rfl := Except.ok.inj h
      simp
    · cases h

theorem differences_eq (w : Workspace) (folder : Text) (files : List Text) (c : ProjectConfig) :
    differences w folder files c =
      (c.workflowFiles.filter fun e => ¬ IsThere w folder e).map (missingFile w folder) ++
        (files.filter fun p => ¬ IsDeclared c p).map (undeclaredFile w) := by
  have hthere : ∀ e, (!w.store.isFile (Path.join (w.workflowsPath folder) (Path.base e))) =
      decide (¬ IsThere w folder e) := by
    intro e
    rw [Bool.eq_iff_iff, Bool.not_eq_true', decide_eq_true_eq, IsThere, Bool.not_eq_true]
  have hdeclared : ∀ p, (!(c.workflowFiles.map Path.base).contains (Path.base p)) =
      decide (¬ IsDeclared c p) := by
    intro p
    rw [Bool.eq_iff_iff, Bool.not_eq_true', decide_eq_true_eq, IsDeclared, List.contains_eq_mem,
      decide_eq_false_iff_not]
  unfold differences
  simp only [hthere, hdeclared]

/-- What is found where there is a folder: files that are not JSON, and the differences. -/
theorem exists_of_run (hread : ProjectConfig.read w folder = .ok c)
    (hfolder : w.hasWorkflows folder = true) (hrun : run w folder = .ok findings) :
    ∃ files invalid, w.workflowFiles folder = .ok files ∧
      findings = invalid ++ differences w folder files c ∧ ∀ f ∈ invalid, f.rule = jsonRule := by
  unfold run at hrun
  rw [hfolder, Bool.not_true, if_neg Bool.false_ne_true] at hrun
  obtain ⟨files, hfiles, hrun⟩ := exists_of_bind_eq_ok hrun
  obtain ⟨found, hfound, hrun⟩ := exists_of_bind_eq_ok hrun
  rw [ProjectConfig.read?_of_ok hread] at hrun
  refine ⟨files, found.filterMap id, hfiles, (Except.ok.inj hrun).symm, fun f hf => ?_⟩
  obtain ⟨found', hfound', hf⟩ := List.mem_filterMap.1 hf
  exact forall_mem_of_mapM (fun _ _ => rule_of_fileFinding?) hfound found' hfound' f hf

theorem silent_append_differences_iff (w : Workspace) (folder : Text) (files : List Text)
    (c : ProjectConfig) {invalid : List Finding} (hinvalid : ∀ f ∈ invalid, f.rule = jsonRule) :
    Silent (invalid ++ differences w folder files c) ↔
      (∀ e ∈ c.workflowFiles, IsThere w folder e) ∧ ∀ p ∈ files, IsDeclared c p := by
  have hrule : ∀ f ∈ invalid, f.rule ≠ info.id := by
    intro f hf
    rw [hinvalid f hf]
    decide
  have hall : ∀ {α : Type} (l : List α) (holds : α → Prop) [DecidablePred holds] (report : α → Finding),
      (∀ a, (report a).rule = info.id) → ((∀ f ∈ (l.filter fun a => ¬ holds a).map report,
        f.rule ≠ info.id) ↔ ∀ a ∈ l, holds a) := by
    intro α l holds _ report hreport
    rw [List.forall_mem_map]
    constructor
    · intro h a ha
      by_contra hnot
      exact h a (List.mem_filter.2 ⟨ha, decide_eq_true hnot⟩) (hreport a)
    · intro h a ha
      obtain ⟨hmem, hnot⟩ := List.mem_filter.1 ha
      exact absurd (h a hmem) (of_decide_eq_true hnot)
  rw [Silent, differences_eq, List.forall_mem_append, List.forall_mem_append,
    hall _ _ _ fun _ => rfl, hall _ _ _ fun _ => rfl]
  exact and_iff_right hrule

theorem not_silent_of_not_hasWorkflows (hfolder : w.hasWorkflows folder = false)
    (hrun : run w folder = .ok findings) : ¬ Silent findings := by
  unfold run at hrun
  rw [hfolder, Bool.not_false, if_pos rfl] at hrun
  rw [← Except.ok.inj hrun]
  exact fun h => h _ (List.mem_singleton_self _) rfl

/-- The findings of a severity on what is declared and what is there. -/
def ofSeverity (severity : Severity) (findings : List Finding) : List Finding :=
  findings.filter fun f => f.rule = info.id ∧ f.severity = severity

theorem ofSeverity_append_differences (w : Workspace) (folder : Text) (files : List Text)
    (c : ProjectConfig) {invalid : List Finding} (hinvalid : ∀ f ∈ invalid, f.rule = jsonRule) :
    ofSeverity .must (invalid ++ differences w folder files c) =
        (c.workflowFiles.filter fun e => ¬ IsThere w folder e).map (missingFile w folder) ∧
      ofSeverity .should (invalid ++ differences w folder files c) =
        (files.filter fun p => ¬ IsDeclared c p).map (undeclaredFile w) := by
  have hnone : ∀ severity, ofSeverity severity invalid = [] := by
    intro severity
    refine List.filter_eq_nil_iff.2 fun f hf => ?_
    rw [decide_eq_true_eq, hinvalid f hf]
    exact fun h => absurd h.1 (by decide)
  have hmap : ∀ {α : Type} (l : List α) (report : α → Finding) (severity other : Severity),
      (∀ a, (report a).rule = info.id ∧ (report a).severity = severity) →
        ofSeverity other (l.map report) = if severity = other then l.map report else [] := by
    intro α l report severity other hreport
    split_ifs with hsame
    · refine List.filter_eq_self.2 (List.forall_mem_map.2 fun a _ => decide_eq_true ?_)
      exact hsame ▸ hreport a
    · refine List.filter_eq_nil_iff.2 (List.forall_mem_map.2 fun a _ => ?_)
      rw [decide_eq_true_eq, (hreport a).2]
      exact fun h => hsame h.2
  have happend : ∀ severity, ofSeverity severity (invalid ++ differences w folder files c) =
      ofSeverity severity ((c.workflowFiles.filter fun e => ¬ IsThere w folder e).map
          (missingFile w folder)) ++
        ofSeverity severity ((files.filter fun p => ¬ IsDeclared c p).map (undeclaredFile w)) := by
    intro severity
    rw [differences_eq, ofSeverity, List.filter_append, List.filter_append]
    exact congrArg (· ++ _) (hnone severity)
  rw [happend, happend, hmap _ _ .must _ fun _ => ⟨rfl, rfl⟩, hmap _ _ .should _ fun _ => ⟨rfl, rfl⟩,
    hmap _ _ .must _ fun _ => ⟨rfl, rfl⟩, hmap _ _ .should _ fun _ => ⟨rfl, rfl⟩]
  exact ⟨List.append_nil _, rfl⟩

/-! ## Names -/

/-- Where all that is declared is there and all that is listed is declared, the names with the ending of
workflow files agree, unless the path of the listing is too long. -/
theorem names_agree_iff (hs : w.store.Sound) (hfolder : w.hasWorkflows folder = true)
    (hfiles : w.workflowFiles folder = .ok files) (hthere : ∀ e ∈ c.workflowFiles, IsThere w folder e)
    (hdeclared : ∀ p ∈ files, IsDeclared c p) :
    (∀ n, n ∈ files.map Path.base ↔ n ∈ c.workflowFiles.map Path.base ∧ w.isWorkflowName n = true) ↔
      Path.byteLength (w.workflowsPath (w.store.absolute folder)) ≤ Path.longestPath ∨
        ∀ e ∈ c.workflowFiles, w.isWorkflowName (Path.base e) = false := by
  constructor
  · intro hagree
    by_contra hnot
    rw [not_or, Nat.not_le] at hnot
    obtain ⟨hlong, hsome⟩ := hnot
    simp only [not_forall, Bool.not_eq_false] at hsome
    obtain ⟨e, he, hsuffix⟩ := hsome
    obtain rfl : files = [] := Except.ok.inj (hfiles.symm.trans (w.workflowFiles_of_tooLong hlong))
    exact nomatch (hagree (Path.base e)).2 ⟨List.mem_map_of_mem he, hsuffix⟩
  · intro h n
    constructor
    · intro hn
      obtain ⟨p, hp, rfl⟩ := List.mem_map.1 hn
      exact ⟨hdeclared p hp, List.isSuffixOf_iff_suffix.2 (w.names_of_mem_workflowFiles hs hfiles hp).1⟩
    · rintro ⟨hn, hsuffix⟩
      obtain ⟨e, he, rfl⟩ := List.mem_map.1 hn
      rcases h with hshort | hnone
      · exact w.mem_map_base_of_isFile hs hfolder hshort hfiles (Text.sep_not_mem_afterLast _ _)
          (hthere e he) hsuffix
      · rw [hnone e he] at hsuffix
        exact Bool.noConfusion hsuffix

end Check.ConfigWorkflows

open Check.ConfigWorkflows

/-- A project that declares workflow files and has one. -/
def declaringProject (suffix dir declared name : Text) : Workspace where
  settings := { suffix := suffix, workflowsDir := dir }
  store :=
    { files := [(["ROOT", "config.yaml"], (Utf8.encode
          ("project_id: p\nworkflow_files: [" ++ declared ++ "]\n")).toOption.getD []),
        (["ROOT", "workflows", name], (Utf8.encode "[]").toOption.getD [])]
      folders := [["ROOT"], ["ROOT", "workflows"]]
      current := ["ROOT"] }

/-- A project that declares its workflow file twice, once in a folder where it is not. -/
def agreeingProject : Workspace :=
  declaringProject ".json" "workflows" "sub/main.json, main.json" "main.json"

/-- A path that stays where it is for a number of steps before it leads on. -/
def winding (n : ℕ) (p : Text) : Text := (List.replicate n ("./" : Text)).flatten ++ p

theorem winding_succ (n : ℕ) (p : Text) :
    winding (n + 1) p = Path.here ++ Path.slash :: winding n p := by
  rw [winding, List.replicate_succ, List.flatten_cons, List.append_assoc]
  rfl

theorem names_winding (n : ℕ) (p : Text) : Path.names (winding n p) = Path.names p := by
  induction n with
  | zero => rfl
  | succ n ih =>
    rw [winding_succ, Path.names_append_slash, ih]
    rfl

theorem byteLength_winding (n : ℕ) (p : Text) :
    Path.byteLength (winding n p) = 2 * n + Path.byteLength p := by
  induction n with
  | zero => exact (Nat.zero_add _).symm
  | succ n ih =>
    have hstep : Path.here ++ Path.slash :: winding n p = ("./" : Text) ++ winding n p := rfl
    have htwo : Path.byteLength "./" = 2 := by decide
    rw [winding_succ, hstep, Path.byteLength_append, ih, htwo]
    omega

theorem pathFault?_winding {n : ℕ} {p : Text} (h : Store.pathFault? p = none) :
    Store.pathFault? (winding n p) = none := by
  have hdots : Store.pathFault? "./" = none := by decide
  rw [Store.pathFault?_eq_none_iff] at h hdots ⊢
  intro c hc
  rcases List.mem_append.1 hc with hc | hc
  · obtain ⟨step, hstep, hc⟩ := List.mem_flatten.1 hc
    exact hdots c (List.eq_of_mem_replicate hstep ▸ hc)
  · exact h c hc

/-- A project whose path to the folder of its workflow files winds. -/
def windingProject : Workspace := declaringProject ".a" (winding 2040 "workflows/") "b.a" "b.a"

theorem workflowsPath_windingProject : windingProject.workflowsPath "." = winding 2041 "workflows/" := by
  have hdir : windingProject.settings.workflowsDir = winding 2040 "workflows/" := rfl
  rw [winding_succ, Workspace.workflowsPath, hdir, winding_succ]
  rfl

/-- Nothing is listed, as the path is too long once it is absolute. -/
theorem workflowFiles_windingProject : windingProject.workflowFiles "." = .ok [] := by
  have habsolute : windingProject.store.absolute "." = "/ROOT" := by decide +kernel
  have hpath : windingProject.workflowsPath "/ROOT" = "/ROOT/" ++ winding 2040 "workflows/" := by
    have hdir : windingProject.settings.workflowsDir = winding 2040 "workflows/" := rfl
    rw [Workspace.workflowsPath, hdir, winding_succ]
    rfl
  refine Workspace.workflowFiles_of_tooLong ?_
  have hroot : Path.byteLength "/ROOT/" = 6 := by decide
  have hfolder : Path.byteLength "workflows/" = 10 := by decide
  rw [habsolute, hpath, Path.byteLength_append, byteLength_winding, hroot, hfolder]
  decide

/-- The path leads to the folder nevertheless, and on to the file in it. -/
theorem locate_windingProject :
    windingProject.store.locate (windingProject.workflowsPath ".") = .ok ["ROOT", "workflows"] ∧
      windingProject.store.isFile (Path.join (windingProject.workflowsPath ".") "b.a") = true := by
  have hfolder : windingProject.store.hasFolder ["ROOT", "workflows"] = true := by decide
  have hten : Path.byteLength "workflows/" = 10 := by decide
  rw [workflowsPath_windingProject]
  have hlocate : windingProject.store.locate (winding 2041 "workflows/") =
      .ok ["ROOT", "workflows"] := by
    refine Store.locate_eq_ok_iff.2 ⟨pathFault?_winding (by decide), ?_, ?_, ?_⟩
    · rw [winding_succ]
      exact List.cons_ne_nil _ _
    · rw [byteLength_winding, hten]
      decide
    · have hstart : windingProject.store.start (winding 2041 "workflows/") = ["ROOT"] := by
        rw [winding_succ]
        rfl
      rw [← Store.follow_names_iff hfolder, names_winding, hstart]
      decide +kernel
  have hshort : Path.byteLength (Path.join (winding 2041 "workflows/") "b.a") ≤ Path.longestPath := by
    have hlast : (winding 2041 "workflows/").getLast? = some Path.slash := by
      rw [winding, List.getLast?_append]
      rfl
    have hthree : Path.byteLength "b.a" = 3 := by decide
    have hrelative : Path.isAbsolute "b.a" = false := by decide
    rw [Path.join, hrelative, if_neg Bool.false_ne_true, if_pos (.inr hlast), Path.byteLength_append,
      byteLength_winding, hten, hthree]
    decide
  have hfile := Store.locate_join hlocate hfolder (n := "b.a") (by decide) hshort
  exact ⟨hlocate, Option.isSome_iff_exists.2 ⟨_, Store.file?_eq_some_iff.2 ⟨_, hfile, rfl⟩⟩⟩

end WorkflowLint
