import WorkflowLint.Proofs.Run.Composing
import WorkflowLint.Proofs.Run.Dropping
import WorkflowLint.Proofs.Run.Repair
import WorkflowLint.Proofs.Store.Frame

/-!
# Which files a run touches

Fixing a file changes the bytes of that file and nothing else (`sameBut_apply`), and so does a run that
goes from file to file for the files that it comes to (`sameBut_mapM`).  A workflow file that is fixed has
the text that the fixes of the chosen findings make of its text, one after the other; a run on a project
touches the files that chosen findings on the project are on and the workflow files of the project, and
neither creates a file nor removes one (`fixing_touches_chosen`).
-/

namespace WorkflowLint

open Job

/-- Nothing in a workspace is different but the bytes of files at some locations. -/
structure Workspace.SameBut (touched : Location → Prop) (w v : Workspace) : Prop where
  settings : v.settings = w.settings
  store : Store.SameBut touched w.store v.store

namespace Workspace.SameBut

variable {touched touched' : Location → Prop} {w v u : Workspace}

theorem refl (touched : Location → Prop) (w : Workspace) : SameBut touched w w :=
  ⟨rfl, .refl touched w.store⟩

theorem trans (h : SameBut touched w v) (h' : SameBut touched v u) : SameBut touched w u :=
  ⟨h'.settings.trans h.settings, h.store.trans h'.store⟩

theorem mono (h : SameBut touched w v) (himp : ∀ l, touched l → touched' l) :
    SameBut touched' w v :=
  ⟨h.settings, h.store.mono himp⟩

theorem workflowFiles (h : SameBut touched w v) (folder : Text) :
    v.workflowFiles folder = w.workflowFiles folder := by
  have hname : v.isWorkflowName = w.isWorkflowName := by
    funext name
    rw [Workspace.isWorkflowName, h.settings, Workspace.isWorkflowName]
  unfold Workspace.workflowFiles
  simp only [Workspace.workflowsPath, hname, h.settings, h.store.absolute, h.store.list]

/-- Jobs that touch nothing else for each element of a list touch nothing else for the list. -/
theorem mapM {α β : Type} {job : α → Job β} {as : List α}
    (h : ∀ a ∈ as, ∀ u, SameBut touched w u → SameBut touched u (outcome (job a) u).2) :
    SameBut touched w (outcome (as.mapM job) w).2 :=
  outcome_mapM_preserves (P := SameBut touched w) (fun a ha u hu => hu.trans (h a ha u hu))
    (.refl touched w)

end Workspace.SameBut

/-! ## One file -/

section File

variable {o : Options} {w : Workspace} {path t : Text}

/-- Fixing a file touches that file, if there is a fix at all. -/
theorem Fixing.sameBut_apply (w : Workspace) (path : Text) (findings : List Finding) :
    w.SameBut (fun l => candidates findings ≠ [] ∧ w.store.locate (Path.clean path) = .ok l)
      (outcome (apply path findings false) w).2 := by
  have hend := apply_ending w path findings
  generalize outcome (apply path findings false) w = out at hend ⊢
  have hwritten : ∀ {t : Text} (bytes : List UInt8), candidates findings ≠ [] →
      w.store.read (Path.clean path) = .ok t →
      w.SameBut (fun l => candidates findings ≠ [] ∧ w.store.locate (Path.clean path) = .ok l)
        { w with store := w.store.setBytes (Path.clean path) bytes } := fun bytes hc hread =>
    ⟨rfl, (Store.sameBut_setBytes bytes (Store.isFile_of_read hread)).mono fun l hl => ⟨hc, hl⟩⟩
  cases hend with
  | written hc hread _ _ _ => exact hwritten _ hc hread
  | emptied hc hread _ _ _ => exact hwritten [] hc hread
  | _ => exact .refl _ w

/-- Validating a workflow file touches no other file. -/
theorem sameBut_validateWorkflow (r : Registry) (o : Options) (path : Text) (w : Workspace) :
    w.SameBut (fun l => w.store.locate (w.store.absolute path) = .ok l)
      (outcome (validateWorkflow r o path) w).2 := by
  rcases hread : readWorkflow w.store (w.store.absolute path) with (f | f) | ⟨t, g⟩
  · rw [outcome_validateWorkflow_obstacle hread]
    exact .refl _ w
  · rw [outcome_validateWorkflow_fault hread]
    exact .refl _ w
  by_cases hfix : o.wantsFixes = true ∧ o.dryRun = false
  · rw [outcome_validateWorkflow_fixing hread hfix.1 hfix.2]
    have happly := (Fixing.sameBut_apply w (w.store.absolute path)
      (chosenFindings r o (w.store.absolute path) t g)).mono fun l hl => hl.2
    rw [Store.clean_absolute] at happly
    rcases hout : outcome (Fixing.apply (w.store.absolute path)
      (chosenFindings r o (w.store.absolute path) t g) false) w with ⟨_ | fixed, v⟩ <;>
      rwa [hout] at happly
  · rw [outcome_validateWorkflow_plain hread (Options.readsOnly_iff.2 hfix)]
    exact .refl _ w

/-- The fixes of chosen findings, in the order of the findings. -/
theorem candidates_choose (findings : List Finding) :
    (Fixing.candidates (o.choose findings)).map (·.2) =
      (Finding.select o.rules o.excludeRules findings).filterMap Finding.fix := by
  rw [Fixing.map_snd_candidates, Options.choose]
  exact Options.filterMap_fix_escalate _ _

/-- Where the text that the fixes make can be stored, fixing a file has a result: the file stays as it
is if that is its text or writing is refused, and else it has that text. -/
theorem Fixing.exists_outcome_apply (findings : List Finding)
    (hread : w.store.read (Path.clean path) = .ok t)
    (hstore : mended t findings ≠ t → (mended t findings).Storable) :
    ∃ fixed v, outcome (apply path findings false) w = (.ok fixed, v) ∧
      (mended t findings = t ∨ w.store.refusesWrites = true → v = w) ∧
      (mended t findings ≠ t → w.store.refusesWrites = false →
        ∃ bytes, Utf8.encode (mended t findings) = .ok bytes ∧
          v.store.file? (Path.clean path) = some bytes) := by
  have hend := apply_ending w path findings
  generalize outcome (apply path findings false) w = out at hend ⊢
  cases hend with
  | idle hc => exact ⟨_, w, rfl, fun _ => rfl, fun hne => absurd (mended_of_candidates_nil hc) hne⟩
  | noPath hc hread' => cases hread.symm.trans hread'
  | unreadable hc hf hread' => cases hread.symm.trans hread'
  | unchanged hc hread' hm =>
    obtain rfl := Except.ok.inj (hread.symm.trans hread')
    exact ⟨_, w, rfl, fun _ => rfl, fun hne => absurd hm hne⟩
  | refused hc hread' hm hr =>
    refine ⟨_, w, rfl, fun _ => rfl, fun _ hr' => ?_⟩
    rw [hr] at hr'
    cases hr'
  | @written u bytes hc hread' hm hr he =>
    obtain rfl := Except.ok.inj (hread.symm.trans hread')
    refine ⟨_, _, rfl, fun hsame => ?_, fun _ _ => ⟨bytes, he, ?_⟩⟩
    · rw [hr] at hsame
      exact absurd hsame (by simp [hm])
    · exact Store.file?_setBytes_self (Store.isFile_of_read hread')
  | @emptied u e hc hread' hm hr he =>
    obtain rfl := Except.ok.inj (hread.symm.trans hread')
    exact absurd (hstore hm) ((Utf8.exists_encode_error_iff _).1 ⟨e, he⟩)

end File

/-! ## A project -/

/-- A run on a project can touch the file at a location: a finding on the project that is selected and
can be mended is on it, or it is one of the workflow files. -/
def ProjectTouches (r : Registry) (o : Options) (folder : Text) (w : Workspace) (l : Location) : Prop :=
  (∃ f ∈ Finding.select o.rules o.excludeRules
      (r.project.flatMap (ProjectCheck.runIsolated w folder)),
    f.fixable = true ∧ w.store.locate (Path.clean f.path) = .ok l) ∨
  o.skipWorkflows = false ∧
    ∃ paths, w.workflowFiles folder = .ok paths ∧ ∃ path ∈ paths, w.store.locate path = .ok l

section Project

variable {r : Registry} {o : Options} {folder : Text} {w v : Workspace}

/-- The fixes of a group of findings touch a file that a selected finding is on. -/
theorem sameBut_groupJob {u : Workspace} {group : Text × List Finding}
    (hgroup : group ∈ Finding.byFile (projectChosen r o folder w))
    (hu : w.SameBut (ProjectTouches r o folder w) u) :
    u.SameBut (ProjectTouches r o folder w) (outcome (groupJob o group) u).2 := by
  unfold groupJob
  cases o.dryRun with
  | true => exact .refl _ u
  | false =>
    refine (Fixing.sameBut_apply u group.1 group.2).mono ?_
    rintro l ⟨hc, hl⟩
    obtain ⟨f, hf, hfixable⟩ := Fixing.exists_fixable_of_candidates_ne_nil hc
    obtain ⟨hchosen, hpath⟩ := Keyed.mem_of_mem_groupBy hgroup hf
    obtain ⟨f', hf', hselected, -, hfile, hfix⟩ := Options.exists_of_mem_choose hchosen
    rw [Finding.fixable, hfix] at hfixable
    refine .inl ⟨f', List.mem_filter.2 ⟨hf', hselected⟩, hfixable, ?_⟩
    rw [← hfile, hpath, ← hu.store.locate, hl]

/-- What is found on a project is fixed in files that selected findings are on. -/
theorem sameBut_projectFindings (r : Registry) (o : Options) (folder : Text) (w : Workspace) :
    w.SameBut (ProjectTouches r o folder w) (outcome (projectFindings r o folder) w).2 := by
  rw [outcome_projectFindings]
  split
  · rw [outcome_fixProject]
    have hgroups : w.SameBut (ProjectTouches r o folder w)
        (outcome ((Finding.byFile (projectChosen r o folder w)).mapM (groupJob o)) w).2 :=
      .mapM fun group hgroup u hu => sameBut_groupJob hgroup hu
    rcases hout : outcome ((Finding.byFile (projectChosen r o folder w)).mapM (groupJob o)) w with
      ⟨_ | results, v⟩ <;> rwa [hout] at hgroups
  · exact .refl _ w

theorem snd_outcome_fileJob (r : Registry) (o : Options) (path : Text) (u : Workspace) :
    (outcome (fileJob r o path) u).2 = (outcome (validateWorkflow r o.forChild path) u).2 := by
  unfold fileJob
  rw [outcome_bind]
  rcases outcome (validateWorkflow r o.forChild path) u with ⟨_ | result, v⟩ <;> rfl

/-- Workflow files are touched one by one. -/
theorem sameBut_mapM_fileJob (r : Registry) (o : Options) {paths : List Text}
    (habsolute : ∀ path ∈ paths, w.store.absolute path = path) :
    w.SameBut (fun l => ∃ path ∈ paths, w.store.locate path = .ok l)
      (outcome (paths.mapM (fileJob r o)) w).2 := by
  refine .mapM fun path hpath u hu => ?_
  rw [snd_outcome_fileJob]
  refine (sameBut_validateWorkflow r o.forChild path u).mono fun l hl => ?_
  rw [hu.store.locate, hu.store.absolute, habsolute path hpath] at hl
  exact ⟨path, hpath, hl⟩

/-- The workflow files of a project are touched after the project. -/
theorem sameBut_files {paths : List Text} (hskip : o.skipWorkflows = false)
    (hlist : w.workflowFiles folder = .ok paths) (hv : w.SameBut (ProjectTouches r o folder w) v) :
    v.SameBut (ProjectTouches r o folder w) (outcome (paths.mapM (fileJob r o)) v).2 := by
  have hfiles : v.SameBut _ (outcome (paths.mapM (fileJob r o)) v).2 :=
    sameBut_mapM_fileJob r o fun path hpath => by
      rw [hv.store.absolute, absolute_of_mem_workflowFiles hlist hpath]
  refine hfiles.mono ?_
  rintro l ⟨path, hpath, hl⟩
  rw [hv.store.locate] at hl
  exact .inr ⟨hskip, paths, hlist, path, hpath, hl⟩

/-- A run on a project touches nothing but files that selected findings are on and workflow files. -/
theorem sameBut_validateProject (r : Registry) (o : Options) (folder : Text) (w : Workspace) :
    w.SameBut (ProjectTouches r o (w.store.absolute folder) w)
      (outcome (validateProject r o folder) w).2 := by
  cases hfolder : w.store.isFolder (w.store.absolute folder) with
  | false =>
    rw [outcome_validateProject_missing hfolder]
    exact .refl _ w
  | true =>
    have hown := sameBut_projectFindings r o (w.store.absolute folder) w
    rw [outcome_validateProject hfolder]
    rcases hout : outcome (projectFindings r o (w.store.absolute folder)) w with ⟨f | own, v⟩
    · rwa [hout] at hown
    rw [hout] at hown
    cases hskip : o.skipWorkflows with
    | true => exact hown
    | false =>
      simp only [hown.workflowFiles]
      cases hlist : w.workflowFiles (w.store.absolute folder) with
      | error f => exact hown
      | ok paths =>
        have hfiles := sameBut_files hskip hlist hown
        simp only [Bool.false_eq_true, if_false]
        rcases houts : outcome (paths.mapM (fileJob r o)) v with ⟨f | results, u⟩ <;>
          rw [houts] at hfiles <;> exact hown.trans hfiles

end Project

/-- A run that fixes a workflow has a result if the text that the fixes of the selected findings make of
its text, in their order, can be stored.  It leaves everything as it is if that is the text that it read
or if writing is refused, and else gives the file that text and touches no other file.  A run on a project
creates no file and removes none, and touches nothing but files that selected findings are on and
workflow files. -/
theorem fixing_touches_chosen (r : Registry) {o : Options} (w : Workspace) (hfix : o.fix = true)
    (hdry : o.dryRun = false) :
    (∀ path t g, w.store.read (w.store.absolute path) = .ok t → Workflow.Graph.parse t = .ok g →
      ∀ after, after = Fix.applyAll ((Finding.select o.rules o.excludeRules
          (r.examine (w.store.absolute path) t g)).filterMap Finding.fix) t →
        (after ≠ t → after.Storable) →
        ∃ result v, outcome (validateWorkflow r o path) w = (.ok result, v) ∧
          w.SameBut (fun l => w.store.locate (w.store.absolute path) = .ok l) v ∧
          (after = t ∨ w.store.refusesWrites = true → v = w) ∧
          (after ≠ t → w.store.refusesWrites = false → ∃ bytes,
            Utf8.encode after = .ok bytes ∧ v.store.file? (w.store.absolute path) = some bytes)) ∧
    ∀ folder, w.SameBut (ProjectTouches r o (w.store.absolute folder) w)
      (outcome (validateProject r o folder) w).2 := by
  refine ⟨?file, fun folder => sameBut_validateProject r o folder w⟩
  rintro path t g hread hparse after hafter hstore
  have hw : o.wantsFixes = true := by rw [Options.wantsFixes, hfix, Bool.true_or]
  have hreads := readWorkflow_eq_ok_iff.2 ⟨hread, hparse⟩
  have hmended : Fixing.mended t (chosenFindings r o (w.store.absolute path) t g) = after := by
    rw [hafter, Fixing.mended, chosenFindings, candidates_choose]
  have hclean : Path.clean (w.store.absolute path) = w.store.absolute path := Store.clean_absolute ..
  have hsame := sameBut_validateWorkflow r o path w
  obtain ⟨fixed, v, hout, hstays, hchanges⟩ := Fixing.exists_outcome_apply
    (chosenFindings r o (w.store.absolute path) t g) (hclean ▸ hread) (hmended ▸ hstore)
  rw [outcome_validateWorkflow_fixing hreads hw hdry, hout] at hsame ⊢
  rw [hmended, hclean] at *
  exact ⟨_, v, rfl, hsame, hstays, hchanges⟩

/-- A check that would spoil a workflow. -/
def spoilingCheck : ContentCheck where
  info := { id := "B", name := "n", severity := .must, description := [] }
  run := fun _ path => .ok [mendable "B" path (.appending [] "spoiled")]

/-- The fix of a rule that is left out does not run. -/
theorem fixing_touches_chosen_spoilingCheck :
    ∃ t g result v bytes,
      emptyWorkflow.store.read emptyWorkflowPath = .ok t ∧ Workflow.Graph.parse t = .ok g ∧
      outcome (validateWorkflow { content := [spoilingCheck, lineEndCheck] }
        { fix := true, excludeRules := ["b"] } "w.json") emptyWorkflow = (.ok result, v) ∧
      emptyWorkflow.SameBut (fun l => emptyWorkflow.store.locate emptyWorkflowPath = .ok l) v ∧
      Utf8.encode (t ++ "\n") = .ok bytes ∧ v.store.file? emptyWorkflowPath = some bytes := by
  have hreads : (readWorkflow emptyWorkflow.store emptyWorkflowPath).toOption.any (fun read =>
      (Utf8.encode (read.1 ++ (↑"\n" : Text))).toOption.isSome) = true := by decide +kernel
  obtain ⟨⟨t, g⟩, hread, hencodes⟩ := exists_ok_of_any hreads
  obtain ⟨htext, hparse⟩ := readWorkflow_eq_ok_iff.1 hread
  have hstorable : (t ++ "\n").Storable := by
    obtain ⟨bytes, hbytes⟩ := Option.isSome_iff_exists.1 hencodes
    exact (Utf8.exists_encode_iff _).1 ⟨bytes, eq_ok_of_toOption hbytes⟩
  have hchanges : t ++ "\n" ≠ t := fun heq => absurd (List.append_right_eq_self.1 heq) (by decide)
  obtain ⟨result, v, hrun, hsame, -, hfile⟩ := (fixing_touches_chosen
    { content := [spoilingCheck, lineEndCheck] } (o := { fix := true, excludeRules := ["b"] })
    emptyWorkflow rfl rfl).1 "w.json" t g htext hparse (t ++ "\n") rfl fun _ => hstorable
  obtain ⟨bytes, hencode, hbytes⟩ := hfile hchanges rfl
  exact ⟨t, g, result, v, bytes, htext, hparse, hrun, hsame, hencode, hbytes⟩

end WorkflowLint
