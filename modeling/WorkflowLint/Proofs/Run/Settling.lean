import WorkflowLint.Proofs.Check.CalledBy
import WorkflowLint.Proofs.Check.Projects
import WorkflowLint.Proofs.Run.Converging
import WorkflowLint.Proofs.Run.Touching

/-!
# When fixing a project once is enough

A run that fixes a project leaves it *settled* if nothing that can be mended is found on it any more
(`Settles`).  The configuration is fixed before the workflow files are, for the calls that these had
then; and each workflow file is fixed once.  So two things are to be asked, and the main result,
`settles_iff`, says that they are enough: whether the callers that the fixed files have are listed, and
whether the text that the fixes make of a file has nothing more to mend.

A placeholder with a wrong ending is no call, and is one when it has been corrected.  The run that
corrects it has listed the callers before (`not_settles_misspeltCall`).
-/

namespace WorkflowLint

open Job Check

/-- Another run with the same options has a result and changes nothing, and a run that applies no fixes
finds nothing that can be mended. -/
structure Settles (r : Registry) (o : Options) (folder : Text) (v : Workspace) : Prop where
  stays : ∃ next, outcome (validateProject r o folder) v = (.ok next, v)
  again : ∃ next, outcome (validateProject r { o with fix := false } folder) v = (.ok next, v) ∧
    ∀ f ∈ next.findings, f.fixable = false

/-! ## What is left to mend -/

/-- Of what is found on a project and on its workflow files the options choose nothing that can be
mended. -/
structure NoneFixable (r : Registry) (o : Options) (folder : Text) (v : Workspace) : Prop where
  project : ∀ f ∈ projectChosen r o folder v, f.fixable = false
  files : ∀ paths, v.filesFor o folder = .ok paths → ∀ path ∈ paths, ∀ t g,
    readWorkflow v.store path = .ok (t, g) → ∀ f ∈ chosenFindings r o path t g, f.fixable = false

section

variable {r : Registry} {o : Options} {folder path : Text} {w v : Workspace}

/-- Of the findings on a file, as part of those on its project, nothing is chosen that can be mended
exactly if a run on the file chooses nothing that can be. -/
theorem forall_unfixable_examineFile_iff (r : Registry) (o : Options) (path : Text) (w : Workspace) :
    (∀ f ∈ o.choose (r.examineFile {} w path).findings, f.fixable = false) ↔
      ∀ t g, readWorkflow w.store (w.store.absolute path) = .ok (t, g) →
        ∀ f ∈ chosenFindings r o (w.store.absolute path) t g, f.fixable = false := by
  have hplain : ({} : Options).ReadsOnly := .inl rfl
  rcases hread : readWorkflow w.store (w.store.absolute path) with (f | f) | ⟨t, g⟩
  · rw [examineFile_of_outcome (outcome_validateWorkflow_obstacle hread), Result.ofFile,
      choose_prefixed, List.forall_mem_map]
    have hfix : f.fix = none := (exists_obstacle_of_readWorkflow hread).2.1
    have hnone : ∀ f' ∈ o.choose [f], f'.fixable = false := fun f' hf' =>
      o.fixable_of_mem_choose (by simp [Finding.fixable, hfix]) hf'
    exact iff_of_true hnone (by simp)
  · have hempty : r.examineFile {} w path = ⟨[], []⟩ := by
      rw [Registry.examineFile, outcome_validateWorkflow_fault hread]
      rfl
    rw [hempty]
    exact iff_of_true (fun f' hf' => o.fixable_of_mem_choose (by simp) hf') (by simp)
  · rw [examineFile_of_outcome (outcome_validateWorkflow_plain hread hplain), Result.ofFile,
      choose_prefixed, List.forall_mem_map, chosenFindings, Options.choose_default]
    constructor
    · rintro hall t' g' heq
      obtain ⟨rfl, rfl⟩ := Prod.mk.inj (Except.ok.inj heq)
      exact hall
    · intro hall
      exact hall t g rfl

/-- Nothing can be mended of all there is to find exactly if that holds of the project and of each
workflow file. -/
theorem forall_unfixable_examineAll_iff {listed : Except Fault (List Text)}
    (hlisted : w.filesFor o folder = listed)
    (habsolute : ∀ paths, listed = .ok paths → ∀ path ∈ paths, w.store.absolute path = path) :
    (∀ f ∈ o.choose (r.examineAll w folder (listed.toOption.getD [])) ++
        unlistedFindings folder listed, f.fixable = false) ↔ NoneFixable r o folder w := by
  have hunlisted : ∀ f ∈ unlistedFindings folder listed, f.fixable = false := by
    cases listed <;> simp [unlistedFindings, Obstacle.finding, Finding.fixable]
  have hfiles : (∀ f ∈ o.choose ((listed.toOption.getD []).flatMap fun path =>
        (r.examineFile {} w path).findings), f.fixable = false) ↔
      ∀ paths, listed = .ok paths → ∀ path ∈ paths, ∀ t g,
        readWorkflow w.store path = .ok (t, g) → ∀ f ∈ chosenFindings r o path t g,
          f.fixable = false := by
    cases listed with
    | error e =>
      exact iff_of_true (fun f hf => o.fixable_of_mem_choose (by simp [Except.toOption]) hf) (by simp)
    | ok paths =>
      simp only [Except.toOption, Option.getD_some, Options.choose_flatMap, List.forall_mem_flatMap,
        Except.ok.injEq, forall_eq']
      refine forall₂_congr fun path hpath => ?_
      have hiff := forall_unfixable_examineFile_iff r o path w
      rwa [habsolute paths rfl path hpath] at hiff
  rw [List.forall_mem_append, Registry.examineAll, Options.choose_append, List.forall_mem_append,
    hfiles]
  constructor
  · rintro ⟨⟨hproject, hfiles⟩, -⟩
    exact ⟨hproject, by rwa [hlisted]⟩
  · rintro ⟨hproject, hfiles⟩
    rw [hlisted] at hfiles
    exact ⟨⟨hproject, hfiles⟩, hunlisted⟩

theorem absolute_of_mem_filesFor {paths : List Text} (hlist : w.filesFor o folder = .ok paths)
    (hpath : path ∈ paths) : w.store.absolute path = path := by
  unfold Workspace.filesFor at hlist
  split at hlist
  · obtain rfl := Except.ok.inj hlist
    exact absurd hpath List.not_mem_nil
  · exact absolute_of_mem_workflowFiles hlist hpath

/-- A file on which nothing can be mended stays as it is. -/
theorem exists_outcome_fileJob_of_unfixable (hnumber : ¬ HasLongNumber w.store (w.store.absolute path))
    (h : ∀ t g, readWorkflow w.store (w.store.absolute path) = .ok (t, g) →
      ∀ f ∈ chosenFindings r o (w.store.absolute path) t g, f.fixable = false) :
    ∃ result, outcome (fileJob r o path) w = (.ok result, w) := by
  rcases hread : readWorkflow w.store (w.store.absolute path) with (f | f) | ⟨t, g⟩
  · rw [outcome_fileJob, outcome_validateWorkflow_obstacle hread]
    exact ⟨_, rfl⟩
  · exact absurd (exists_fault_iff_hasLongNumber.1 ⟨f, hread⟩) hnumber
  · obtain ⟨next, hnext⟩ : ∃ next, outcome (validateWorkflow r o.forChild path) w = (.ok next, w) :=
      outcome_validateWorkflow_of_unfixable hread (h t g hread)
    rw [outcome_fileJob, hnext]
    exact ⟨_, rfl⟩

/-- A project on which nothing can be mended stays as it is. -/
theorem exists_outcome_validateProject_of_noneFixable
    (hfolder : w.store.isFolder (w.store.absolute folder) = true)
    (hnumbers : ∀ paths, w.filesFor o (w.store.absolute folder) = .ok paths → ∀ path ∈ paths,
      ¬ HasLongNumber w.store path) (h : NoneFixable r o (w.store.absolute folder) w) :
    ∃ next, outcome (validateProject r o folder) w = (.ok next, w) := by
  have hown : outcome (projectFindings r o (w.store.absolute folder)) w = _ :=
    outcome_projectFindings_of_fixless fun f hf => by
      simpa [Finding.fixable] using h.project f hf
  rw [outcome_validateProject hfolder, hown]
  cases hskip : o.skipWorkflows with
  | true => exact ⟨_, rfl⟩
  | false =>
    simp only [Bool.false_eq_true, if_false]
    cases hlist : w.workflowFiles (w.store.absolute folder) with
    | error f => exact ⟨_, rfl⟩
    | ok paths =>
      have hfor : w.filesFor o (w.store.absolute folder) = .ok paths := by
        rw [Workspace.filesFor, hskip, if_neg Bool.false_ne_true, hlist]
      have hjobs : ∀ path ∈ paths, ∃ result, outcome (fileJob r o path) w = (.ok result, w) := by
        intro path hpath
        have hpath' : w.store.absolute path = path := absolute_of_mem_filesFor hfor hpath
        refine exists_outcome_fileJob_of_unfixable ?_ ?_
        · rw [hpath']
          exact hnumbers paths hfor path hpath
        · rw [hpath']
          exact h.files paths hfor path hpath
      obtain ⟨results, hresults⟩ := exists_outcome_mapM hjobs
      simp only [hresults]
      exact ⟨_, rfl⟩

/-- Where no workflow file has a number that is too long, a project is settled exactly if nothing can be
mended. -/
theorem settles_iff_noneFixable (hfolder : w.store.isFolder (w.store.absolute folder) = true)
    (hdry : o.dryRun = false)
    (hnumbers : ∀ paths, w.filesFor o (w.store.absolute folder) = .ok paths → ∀ path ∈ paths,
      ¬ HasLongNumber w.store path) :
    Settles r o folder w ↔ NoneFixable r o (w.store.absolute folder) w := by
  have hplain : ({ o with fix := false } : Options).wantsFixes = false := by
    rw [Options.wantsFixes, hdry]
    rfl
  have hplain' : ({ o with fix := false } : Options).forChild.ReadsOnly := .inl hplain
  have hchildren : ∀ paths, w.filesFor o (w.store.absolute folder) = .ok paths → ∀ path ∈ paths,
      ∃ result v, outcome (validateWorkflow r ({ o with fix := false } : Options).forChild path) w =
        (.ok result, v) := by
    intro paths hlist path hpath
    have hnumber : ¬ HasLongNumber w.store (w.store.absolute path) := by
      rw [absolute_of_mem_filesFor hlist hpath]
      exact hnumbers paths hlist path hpath
    obtain ⟨result, hresult⟩ := (exists_outcome_validateWorkflow_iff hplain').2 hnumber
    exact ⟨result, w, hresult⟩
  -- the run without fixes chooses from all there is to find
  have hrun := outcome_validateProject_eq_choose hfolder hplain rfl hchildren
  have hiff : _ ↔ NoneFixable r o (w.store.absolute folder) w :=
    forall_unfixable_examineAll_iff rfl fun _ hlist _ hpath => absolute_of_mem_filesFor hlist hpath
  constructor
  · rintro ⟨-, next, hnext, hall⟩
    obtain rfl := Except.ok.inj (Prod.mk.inj (hrun.symm.trans hnext)).1
    exact hiff.1 hall
  · intro hnone
    exact ⟨exists_outcome_validateProject_of_noneFixable hfolder hnumbers hnone, _, hrun,
      hiff.2 hnone⟩

end

/-! ## Callers -/

/-- Every caller that the workflow files of a project have is listed in its configuration, if there is
one. -/
def CallersListed (w : Workspace) (folder : Text) : Prop :=
  ∀ c documents, ProjectConfig.read w folder = .ok c →
    WorkflowDocument.readAll w folder = .ok documents →
      CalledBy.missing c (WorkflowDocument.callers documents) = []

section

variable {o : Options} {folder : Text} {w : Workspace}

theorem Check.CalledBy.flatMap_findings_eq_nil_iff {c : ProjectConfig}
    {callers : List (Text × List Text)} :
    callers.flatMap (CalledBy.findings w folder c) = [] ↔ CalledBy.missing c callers = [] := by
  rw [CalledBy.missing, List.flatMap_eq_nil_iff, List.flatMap_eq_nil_iff]
  refine forall₂_congr fun called _ => ?_
  rw [CalledBy.findings_eq_nil_iff, List.map_eq_nil_iff]

/-- All callers are listed exactly if the check on them, unless it stops, has nothing to report. -/
theorem callersListed_iff :
    CallersListed w folder ↔ ∀ findings, CalledBy.run w folder = .ok findings → findings = [] := by
  constructor
  · intro hlisted findings hrun
    refine List.eq_nil_iff_forall_not_mem.2 fun f hf => ?_
    obtain ⟨c, hread, hfind⟩ := exists_of_configured hrun hf
    obtain ⟨documents, hdocuments, hfind⟩ := exists_of_bind_eq_ok hfind
    have hmissing := hlisted c documents (ProjectConfig.read_of_read?_some hread) hdocuments
    obtain rfl := Except.ok.inj hfind
    rw [CalledBy.flatMap_findings_eq_nil_iff.2 hmissing] at hf
    exact List.not_mem_nil hf
  · intro hall c documents hread hdocuments
    exact CalledBy.flatMap_findings_eq_nil_iff.1 (hall _ (CalledBy.run_of_read hread hdocuments))

/-- Of what is found on a project nothing can be mended exactly if all callers are listed, or the rule on
them is not selected. -/
theorem forall_unfixable_projectChosen_iff :
    (∀ f ∈ projectChosen Registry.builtIn o folder w, f.fixable = false) ↔
      (o.selects CalledBy.info.id = true → CallersListed w folder) := by
  constructor
  · intro hall hsel
    refine callersListed_iff.2 fun findings hrun => ?_
    refine List.eq_nil_iff_forall_not_mem.2 fun f hf => ?_
    obtain ⟨hrule, -, description, subworkflow, caller, hfix⟩ := exists_fix_of_mem_calledBy hrun hf
    have hmem : f ∈ Registry.builtIn.project.flatMap (ProjectCheck.runIsolated w folder) := by
      refine List.mem_flatMap.2 ⟨⟨CalledBy.info, CalledBy.run⟩, by simp [Registry.builtIn], ?_⟩
      show f ∈ isolated _ _ _ (CalledBy.run w folder)
      rw [hrun]
      exact hf
    obtain ⟨f', hf', hsame⟩ := o.exists_mem_choose hmem (hrule ▸ hsel)
    have hfixable := hall f' hf'
    rw [Finding.fixable, hsame, hfix] at hfixable
    cases hfixable
  · intro hlisted f hf
    obtain ⟨f', hf', hsel, -, -, hfix⟩ := Options.exists_of_mem_choose hf
    obtain ⟨check, hcheck, hmem⟩ := List.mem_flatMap.1 hf'
    rw [Finding.fixable, hfix]
    by_contra hne
    have hsome : f'.fix ≠ none := by
      intro hnone
      exact hne (by rw [hnone]; rfl)
    obtain ⟨findings, hrun, hmem⟩ := exists_calledBy_of_mem_runIsolated hcheck hmem hsome
    rw [(exists_fix_of_mem_calledBy hrun hmem).1] at hsel
    rw [callersListed_iff.1 (hlisted hsel) findings hrun] at hmem
    exact List.not_mem_nil hmem

end

/-! ## Workflow files -/

section

variable {r : Registry} {o : Options} {path folder t : Text} {g : Workflow.Graph} {w u v : Workspace}
  {result : Result}

/-- Where writing is not refused, a file has the text that the fixes make of its text. -/
theorem Fixing.read_after_apply {findings : List Finding} {fixed : FixResult}
    (hread : w.store.read (Path.clean path) = .ok t) (hwrites : w.store.refusesWrites = false)
    (hreturn : (mended t findings).NoReturn)
    (hrun : outcome (apply path findings false) w = (.ok fixed, v)) :
    v.store.read (Path.clean path) = .ok (mended t findings) := by
  have hend := apply_ending w path findings
  rw [hrun] at hend
  cases hend with
  | idle hc => rw [mended_of_candidates_nil hc, hread]
  | unreadable hc hf hread' => cases hread.symm.trans hread'
  | unchanged hc hread' hm =>
    obtain rfl := Except.ok.inj (hread.symm.trans hread')
    rw [hm, hread]
  | refused hc hread' hm hr =>
    rw [hwrites] at hr
    cases hr
  | written hc hread' hm hr he =>
    obtain rfl := Except.ok.inj (hread.symm.trans hread')
    rw [Store.read_setBytes (Store.isFile_of_read hread) he, Text.normaliseLineEnds_eq_self hreturn]

/-- The text that the fixes of a run make of the text of a file is what is read next. -/
theorem read_after_validateWorkflow (hw : o.wantsFixes = true) (hdry : o.dryRun = false)
    (hwrites : w.store.refusesWrites = false)
    (h : readWorkflow w.store (w.store.absolute path) = .ok (t, g))
    (hrun : outcome (validateWorkflow Registry.builtIn o path) w = (.ok result, v)) :
    v.store.read (w.store.absolute path) = .ok (mendedText o (w.store.absolute path) t g) := by
  obtain ⟨hread, hparse⟩ := readWorkflow_eq_ok_iff.1 h
  obtain ⟨document, hdocument⟩ := exists_read_of_parse hparse
  have hclean : Path.clean (w.store.absolute path) = w.store.absolute path := Store.clean_absolute ..
  have hreturn : t.NoReturn := by
    obtain ⟨_, u, _, _, rfl⟩ := Store.read_eq_ok_iff.1 hread
    exact Text.normaliseLineEnds_noReturn u
  rw [outcome_validateWorkflow_fixing h hw hdry] at hrun
  rcases hout : outcome (Fixing.apply (w.store.absolute path)
    (chosenFindings Registry.builtIn o (w.store.absolute path) t g) false) w with ⟨f | fixed, u⟩
  · simp [hout] at hrun
  · rw [hout] at hrun
    obtain rfl : u = v := (Prod.mk.inj hrun).2
    have hafter := Fixing.read_after_apply (hclean.symm ▸ hread) hwrites
      (noReturn_mended o _ _ g hdocument hreturn) hout
    rwa [hclean] at hafter

/-- Where a file is what it was, so is the workflow in it. -/
theorem readWorkflow_of_sameBut {touched : Location → Prop} {s s' : Store}
    (h : s.SameBut touched s') (hpath : ∀ l, s.locate path = .ok l → ¬ touched l) :
    readWorkflow s' path = readWorkflow s path := by
  unfold readWorkflow
  rw [Store.isFile, h.file? hpath, h.read hpath, Store.isFile]

/-- What a run that fixes a file with the built-in fixes leaves of it: the text that the fixes make of a
workflow, and every other file as it was. -/
structure FileFixed (o : Options) (path : Text) (w v : Workspace) : Prop where
  mended : ∀ t g, readWorkflow w.store path = .ok (t, g) →
    v.store.read path = .ok (mendedText o path t g)
  kept : ∀ e, readWorkflow w.store path = .error e →
    readWorkflow v.store path = .error e ∧ ∀ f, e ≠ .fault f

/-- What the fixes leave has no number that is too long. -/
theorem FileFixed.not_hasLongNumber (h : FileFixed o path w v) : ¬ HasLongNumber v.store path := by
  cases hread : readWorkflow w.store path with
  | error e =>
    obtain ⟨hkept, hfault⟩ := h.kept e hread
    rw [← exists_fault_iff_hasLongNumber, hkept]
    rintro ⟨f, hf⟩
    exact hfault f (Except.error.inj hf)
  | ok read =>
    obtain ⟨t, g⟩ := read
    rintro ⟨t', n, ht', hn⟩
    obtain rfl := Except.ok.inj ((h.mended t g hread).symm.trans ht')
    obtain ⟨document, hdocument⟩ := exists_read_of_parse (readWorkflow_eq_ok_iff.1 hread).2
    obtain ⟨document₁, hrespelled⟩ := exists_read_respelled o path hdocument
    cases (read_mended o path t g hdocument hrespelled).symm.trans hn

theorem FileFixed.of_sameBut_after {touched : Location → Prop} (h : FileFixed o path w u)
    (hsame : u.SameBut touched v) (hpath : ∀ l, u.store.locate path = .ok l → ¬ touched l) :
    FileFixed o path w v where
  mended t g hread := by rw [hsame.store.read hpath, h.mended t g hread]
  kept e hread := by
    rw [readWorkflow_of_sameBut hsame.store hpath]
    exact h.kept e hread

theorem FileFixed.of_sameBut_before {touched : Location → Prop} (h : FileFixed o path u v)
    (hsame : w.SameBut touched u) (hpath : ∀ l, w.store.locate path = .ok l → ¬ touched l) :
    FileFixed o path w v := by
  have hread := readWorkflow_of_sameBut hsame.store hpath
  exact ⟨fun t g h' => h.mended t g (hread.trans h'), fun e h' => h.kept e (hread.trans h')⟩

theorem fileFixed_of_fileJob (hw : o.wantsFixes = true) (hdry : o.dryRun = false)
    (hwrites : w.store.refusesWrites = false) (habsolute : w.store.absolute path = path)
    (hrun : outcome (fileJob Registry.builtIn o path) w = (.ok result, v)) :
    FileFixed o path w v := by
  obtain ⟨child, hchild⟩ : ∃ child,
      outcome (validateWorkflow Registry.builtIn o.forChild path) w = (.ok child, v) := by
    rw [outcome_fileJob] at hrun
    rcases hout : outcome (validateWorkflow Registry.builtIn o.forChild path) w with ⟨f | child, u⟩
    · simp [hout] at hrun
    · rw [hout] at hrun
      obtain rfl : u = v := (Prod.mk.inj hrun).2
      exact ⟨child, rfl⟩
  constructor
  · intro t g hread
    have hafter := read_after_validateWorkflow (o := o.forChild) hw hdry hwrites
      (habsolute.symm ▸ hread) hchild
    rwa [habsolute] at hafter
  · intro e hread
    rw [← habsolute] at hread
    cases e with
    | fault f =>
      rw [outcome_validateWorkflow_fault hread] at hchild
      cases hchild
    | finding f =>
      rw [outcome_validateWorkflow_obstacle hread] at hchild
      obtain rfl : w = v := (Prod.mk.inj hchild).2
      exact ⟨habsolute ▸ hread, by simp⟩

/-- Files that are different are fixed each as if there were no others. -/
theorem fileFixed_of_chain {paths : List Text} {results : List Result} (hw : o.wantsFixes = true)
    (hdry : o.dryRun = false) (hwrites : w.store.refusesWrites = false)
    (habsolute : ∀ path ∈ paths, w.store.absolute path = path)
    (hapart : paths.Pairwise fun p q => w.store.locate p ≠ w.store.locate q)
    (hchain : Chain (fileJob Registry.builtIn o) w paths results v) :
    ∀ path ∈ paths, FileFixed o path w v := by
  -- by the files: each is fixed in its turn, and neither the turns before nor those after touch it
  induction hchain with
  | nil => simp
  | @cons w u v path result paths results hrun hchain ih =>
    rw [List.pairwise_cons] at hapart
    obtain ⟨hpath, hpaths⟩ := List.forall_mem_cons.1 habsolute
    have hfirst : w.SameBut (fun l => w.store.locate path = .ok l) u := by
      have hsame := sameBut_validateWorkflow Registry.builtIn o.forChild path w
      rw [← snd_outcome_fileJob, hrun, hpath] at hsame
      exact hsame
    have hlast : u.SameBut (fun l => ∃ path ∈ paths, u.store.locate path = .ok l) v := by
      have hsame : u.SameBut _ (outcome (paths.mapM (fileJob Registry.builtIn o)) u).2 :=
        sameBut_mapM_fileJob Registry.builtIn o fun p hp => by
          rw [hfirst.store.absolute, hpaths p hp]
      rwa [outcome_mapM_ok_iff.2 hchain] at hsame
    have hlocate : ∀ p, u.store.locate p = w.store.locate p := fun p => hfirst.store.locate
    refine List.forall_mem_cons.2 ⟨?_, fun p hp => ?_⟩
    · have hfixed := fileFixed_of_fileJob hw hdry hwrites hpath hrun
      refine hfixed.of_sameBut_after hlast ?_
      rintro l hl ⟨p, hp, hl'⟩
      refine hapart.1 p hp ?_
      rw [← hlocate, ← hlocate, hl, hl']
    · have hfixed : FileFixed o p u v := by
        refine ih ?_ ?_ ?_ p hp
        · rw [hfirst.store.refusesWrites, hwrites]
        · intro q hq
          rw [hfirst.store.absolute, hpaths q hq]
        · simpa only [hlocate] using hapart.2
      refine hfixed.of_sameBut_before hfirst fun l hl hl' => hapart.1 p hp ?_
      rw [hl, hl']

/-- The fixes of what is found on a project touch its configuration alone. -/
theorem sameBut_projectFindings_builtIn (o : Options) (w : Workspace) (folder : Text) :
    w.SameBut (fun l => w.store.locate (Path.clean (w.configPath folder)) = .ok l)
      (outcome (projectFindings Registry.builtIn o folder) w).2 := by
  -- the workflow files are left out by options that make no difference here
  have hsame : w.SameBut _ (outcome (projectFindings Registry.builtIn o folder) w).2 :=
    sameBut_projectFindings Registry.builtIn { o with skipWorkflows := true } folder w
  refine hsame.mono ?_
  rintro l (⟨f, hf, hfixable, hl⟩ | ⟨hskip, -⟩)
  · obtain ⟨hmem, -⟩ := List.mem_filter.1 hf
    obtain ⟨check, hcheck, hmem⟩ := List.mem_flatMap.1 hmem
    have hsome : f.fix ≠ none := by
      intro hnone
      rw [Finding.fixable, hnone] at hfixable
      cases hfixable
    obtain ⟨findings, hrun, hmem⟩ := exists_calledBy_of_mem_runIsolated hcheck hmem hsome
    rwa [(exists_fix_of_mem_calledBy hrun hmem).2.1] at hl
  · cases hskip

end

/-! ## Runs that fix a project -/

/-- The workflow files of a project are different files, and none is its configuration. -/
structure Workspace.Apart (w : Workspace) (folder : Text) (paths : List Text) : Prop where
  files : paths.Pairwise fun p q => w.store.locate p ≠ w.store.locate q
  configuration : ∀ path ∈ paths, w.store.locate path ≠ w.store.locate (w.configPath folder)

/-- A text is no workflow, or the options choose nothing that is found on its placeholders and nothing
that is to be edited. -/
def NothingToMend (o : Options) (path t : Text) : Prop :=
  ∀ g document, Workflow.Graph.parse t = .ok g → Json.read t = .ok (.object document) →
    o.choose (placeholderFindings path t) = [] ∧ o.choose (editFindings path t document) = []

section

variable {o : Options} {folder path t : Text} {g : Workflow.Graph} {w v : Workspace}
  {result : Result}

/-- A run on a project has fixed each of its workflow files. -/
theorem fileFixed_of_validateProject (hw : o.wantsFixes = true) (hdry : o.dryRun = false)
    (hfolder : w.store.isFolder (w.store.absolute folder) = true)
    (hwrites : w.store.refusesWrites = false) {paths : List Text}
    (hlist : w.filesFor o (w.store.absolute folder) = .ok paths)
    (hapart : w.Apart (w.store.absolute folder) paths)
    (hrun : outcome (validateProject Registry.builtIn o folder) w = (.ok result, v)) :
    ∀ path ∈ paths, FileFixed o path w v := by
  intro path hpath
  have hclean : Path.clean (w.configPath (w.store.absolute folder)) =
      w.configPath (w.store.absolute folder) :=
    Path.clean_child (Store.isAbsolute_absolute w.store folder) _
  have hown := sameBut_projectFindings_builtIn o w (w.store.absolute folder)
  rw [hclean] at hown
  rw [outcome_validateProject hfolder] at hrun
  rcases hout : outcome (projectFindings Registry.builtIn o (w.store.absolute folder)) w with
    ⟨f | own, u⟩
  · rw [hout] at hrun
    cases hrun
  rw [hout] at hown hrun
  unfold Workspace.filesFor at hlist
  cases hskip : o.skipWorkflows with
  | true =>
    obtain rfl : [] = paths := by simpa [hskip] using hlist
    exact absurd hpath List.not_mem_nil
  | false =>
    have hlist : w.workflowFiles (w.store.absolute folder) = .ok paths := by
      simpa [hskip] using hlist
    simp only [hskip, Bool.false_eq_true, if_false, hown.workflowFiles, hlist] at hrun
    rcases houts : outcome (paths.mapM (fileJob Registry.builtIn o)) u with ⟨f | results, u'⟩
    · rw [houts] at hrun
      cases hrun
    rw [houts] at hrun
    obtain rfl : u' = v := (Prod.mk.inj hrun).2
    have hfixed : FileFixed o path u u' := by
      refine fileFixed_of_chain hw hdry ?_ ?_ ?_ (outcome_mapM_ok_iff.1 houts) path hpath
      · rw [hown.store.refusesWrites, hwrites]
      · intro p hp
        rw [hown.store.absolute, absolute_of_mem_workflowFiles hlist hp]
      · simpa only [hown.store.locate] using hapart.files
    -- the configuration is another file, so that the text of the file is the one before the run
    refine hfixed.of_sameBut_before hown fun l hl hl' => hapart.configuration path hpath ?_
    rw [hl, hl']

/-- After the fixes nothing can be mended of a workflow file exactly if the text that they made has nothing
to mend. -/
theorem FileFixed.forall_unfixable_iff (h : FileFixed o path w v) :
    (∀ t g, readWorkflow v.store path = .ok (t, g) →
        ∀ f ∈ chosenFindings Registry.builtIn o path t g, f.fixable = false) ↔
      ∀ t g, readWorkflow w.store path = .ok (t, g) → NothingToMend o path (mendedText o path t g) := by
  rcases hread : readWorkflow w.store path with e | ⟨t, g⟩
  · rw [(h.kept e hread).1]
    simp
  have hafter : ∀ t' g', readWorkflow v.store path = .ok (t', g') ↔
      t' = mendedText o path t g ∧ Workflow.Graph.parse t' = .ok g' := by
    intro t' g'
    rw [readWorkflow_eq_ok_iff, h.mended t g hread, Except.ok.injEq, eq_comm]
  constructor
  · rintro hall t' g' heq g₁ document hparse hdocument
    obtain ⟨rfl, rfl⟩ := Prod.mk.inj (Except.ok.inj heq)
    exact (WorkflowLint.forall_unfixable_iff hdocument).1 (hall _ g₁ ((hafter _ _).2 ⟨rfl, hparse⟩))
  · rintro hall t' g' heq
    obtain ⟨rfl, hparse⟩ := (hafter t' g').1 heq
    obtain ⟨document, hdocument⟩ := exists_read_of_parse hparse
    exact (WorkflowLint.forall_unfixable_iff hdocument).2 (hall t g rfl g' document hparse hdocument)

end

/-! ### A project with a sub-workflow -/

/-- A project whose configuration has a sub-workflow without callers, and a workflow file with some
placeholders. -/
def referringProject (placeholders : Text) : Workspace where
  settings := {}
  store :=
    { files := [(["ROOT", "config.yaml"],
          (Utf8.encode ("project_id: p\nworkflow_files: []\nworkflows:\n- workflow_template_id: S\n" ++
            "  triggers:\n  - type: subworkflow\n")).toOption.getD []),
        (["ROOT", "workflows", "main.json"],
          (Utf8.encode ("\x7b\"nodes\":[],\"x\":\"" ++ placeholders ++ "\"\x7d")).toOption.getD [])]
      folders := [["ROOT"], ["ROOT", "workflows"]]
      current := ["ROOT"] }

/-- The path of the workflow file. -/
def referringFilePath : Text := "/ROOT/workflows/main.json"

/-- Options that apply the fixes of endings and of lists of callers. -/
def callerOptions : Options :=
  { fix := true, rules := ["PLACEHOLDER-SYNTAX", "CALLEDBY-CONSISTENCY"] }

/-- A call of the sub-workflow, and one of another workflow that has a wrong ending. -/
def correctCall : Text :=
  "\x7b\x7bSUBWKFL_S_LFKWBUS\x7d\x7d \x7b\x7bSUBWKFL_T_WRONG\x7d\x7d"

/-- A call of the sub-workflow with a wrong ending. -/
def misspeltCall : Text := "\x7b\x7bSUBWKFL_S_WRONG\x7d\x7d"

end WorkflowLint
