import WorkflowLint.Proofs.Fault
import WorkflowLint.Proofs.Project.Calls
import WorkflowLint.Proofs.Project.Config
import WorkflowLint.Proofs.Project.Entries
import WorkflowLint.Proofs.Store.Writing

/-!
# What becomes of lists that lack callers

The fixes of the check CALLEDBY-CONSISTENCY add the callers that it misses, one after another.  Storing
the configuration that they make resolves what the check reports exactly if every trigger that lacks
callers is one that adding a caller finds, and has no callers that are given as a set (`resolved_iff`).
The callers in a set are lost, and then they are what the check misses
(`not_resolved_callersInSet`).
-/

namespace WorkflowLint

open Yaml (Graph Tree)

/-! ## Callers -/

namespace Caller

/-- Sub-workflows that differ from each other, each with callers that do. -/
structure Distinct (callers : List (Text × List Text)) : Prop where
  subworkflows : (callers.map (·.1)).Nodup
  callers : ∀ called ∈ callers, called.2.Nodup

theorem distinct_ofDocuments (documents : List (Text × Text)) : Distinct (ofDocuments documents) :=
  ⟨nodup_map_fst_ofDocuments documents, fun _ => nodup_callers⟩

end Caller

namespace Check.CalledBy

variable {w : Workspace} {folder t : Text} {c : ProjectConfig} {called : Text × List Text}
  {callers : List (Text × List Text)} {documents : List WorkflowDocument} {findings : List Finding}

/-! ## Missing callers -/

/-- The callers of a sub-workflow that its trigger does not list. -/
def unlisted (c : ProjectConfig) (called : Text × List Text) : List Text :=
  match trigger? c called.1 with
  | none => []
  | some trigger => called.2.filter fun caller => !(trigger.calledBy.getD []).contains caller

/-- The calls that are not listed. -/
def missing (c : ProjectConfig) (callers : List (Text × List Text)) : List (Text × Text) :=
  callers.flatMap fun called => (unlisted c called).map (called.1, ·)

theorem unlisted_eq_nil (h : trigger? c called.1 = none) : unlisted c called = [] := by
  rw [unlisted, h]

/-- What a sub-workflow lacks depends on what it lists. -/
theorem unlisted_eq_filter {listed : Option (List Text)}
    (h : (trigger? c called.1).map (·.calledBy) = some listed) :
    unlisted c called = called.2.filter fun caller => !(listed.getD []).contains caller := by
  obtain ⟨trigger, htrigger, rfl⟩ := Option.map_eq_some_iff.1 h
  rw [unlisted, htrigger]

/-- Of the calls that are not listed, those of one sub-workflow are its missing callers. -/
theorem filter_missing (hnodup : (callers.map (·.1)).Nodup) (hcalled : called ∈ callers) :
    ((missing c callers).filter fun call => call.1 == called.1).map (·.2) = unlisted c called := by
  have hsplit : ∀ other : Text × List Text,
      ((unlisted c other).map (other.1, ·)).filter (fun call => call.1 == called.1) =
        if other.1 = called.1 then (unlisted c other).map (other.1, ·) else [] := by
    intro other
    by_cases h : other.1 = called.1 <;> simp [List.filter_map, Function.comp_def, h]
  have hnone : ∀ others : List (Text × List Text), called.1 ∉ others.map (·.1) →
      (missing c others).filter (fun call => call.1 == called.1) = [] := by
    intro others hnot
    rw [List.filter_eq_nil_iff]
    intro call hcall
    obtain ⟨other, hother, hcall⟩ := List.mem_flatMap.1 hcall
    obtain ⟨caller, -, rfl⟩ := List.mem_map.1 hcall
    have hne : other.1 ≠ called.1 := fun h => hnot (h ▸ List.mem_map_of_mem hother)
    simpa using hne
  induction callers with
  | nil => exact absurd hcalled List.not_mem_nil
  | cons first rest ih =>
    rw [List.map_cons, List.nodup_cons] at hnodup
    rw [missing, List.flatMap_cons, List.filter_append, hsplit]
    obtain rfl | hrest := List.mem_cons.1 hcalled
    · rw [if_pos rfl]
      show (_ ++ (missing c rest).filter _).map _ = _
      rw [hnone rest hnodup.1, List.append_nil, List.map_map]
      exact List.map_id _
    · have hne : first.1 ≠ called.1 := fun h => hnodup.1 (h ▸ List.mem_map_of_mem hrest)
      rw [if_neg hne, List.nil_append]
      exact ih hnodup.2 hrest

/-! ## Findings -/

theorem findings_of_trigger {trigger : TriggerConfig} (h : trigger? c called.1 = some trigger) :
    CalledBy.findings w folder c called =
      (unlisted c called).map (finding w folder called.1 trigger) := by
  rw [CalledBy.findings, unlisted, h]

theorem findings_of_none (h : trigger? c called.1 = none) :
    CalledBy.findings w folder c called = [] := by
  rw [CalledBy.findings, h]

theorem findings_eq_nil_iff : CalledBy.findings w folder c called = [] ↔ unlisted c called = [] := by
  cases h : trigger? c called.1 with
  | none => exact iff_of_true (findings_of_none h) (unlisted_eq_nil h)
  | some trigger => rw [findings_of_trigger h, List.map_eq_nil_iff]

variable (w folder) in
theorem exists_fix_finding (subworkflow : Text) (trigger : TriggerConfig) (caller : Text) :
    ∃ fix : Fix, (finding w folder subworkflow trigger caller).fix = some fix ∧
      fix.run = Caller.addToText subworkflow caller :=
  ⟨_, rfl, rfl⟩

/-- For every missing caller of a sub-workflow there is a finding with a fix that adds it. -/
theorem map_run_fix_findings : ((CalledBy.findings w folder c called).filterMap (·.fix)).map (·.run) =
    (unlisted c called).map fun caller => Caller.addToText called.1 caller := by
  cases h : trigger? c called.1 with
  | none =>
    rw [findings_of_none h, unlisted_eq_nil h]
    rfl
  | some trigger =>
    rw [findings_of_trigger h]
    induction unlisted c called with
    | nil => rfl
    | cons caller missed ih =>
      obtain ⟨fix, hfix, hrun⟩ := exists_fix_finding w folder called.1 trigger caller
      rw [List.map_cons, List.filterMap_cons_some hfix, List.map_cons, List.map_cons, ih, hrun]

/-- What the check reports of a configuration. -/
theorem run_of_read (hread : ProjectConfig.read w folder = .ok c)
    (hdocuments : WorkflowDocument.readAll w folder = .ok documents) : run w folder =
      .ok ((WorkflowDocument.callers documents).flatMap (CalledBy.findings w folder c)) := by
  unfold run
  rw [ProjectConfig.read?_of_ok hread, hdocuments]
  rfl

/-- The fixes of what the check reports add the missing callers. -/
theorem map_run_fixes (callers : List (Text × List Text)) :
    ((callers.flatMap (CalledBy.findings w folder c)).filterMap (·.fix)).map (·.run) =
      (missing c callers).map fun call => Caller.addToText call.1 call.2 := by
  induction callers with
  | nil => rfl
  | cons called callers ih =>
    rw [missing, List.flatMap_cons, List.flatMap_cons, List.filterMap_append, List.map_append,
      List.map_append, map_run_fix_findings, ih, List.map_map]
    rfl

/-! ## Storing a configuration -/

/-- A workspace in which the configuration of a project has another text, which no workflow file is. -/
structure Stores (w : Workspace) (folder mended : Text) (v : Workspace) : Prop where
  readable : ∃ t, w.store.read (w.configPath folder) = .ok t
  apart : ∀ paths, w.workflowFiles folder = .ok paths → ∀ p ∈ paths,
    w.store.locate p ≠ w.store.locate (w.configPath folder)
  settings : v.settings = w.settings
  written : w.store.write (w.configPath folder) mended = .done v.store

variable {v : Workspace} {mended : Text}

theorem Stores.exists_setBytes (h : Stores w folder mended v) : ∃ bytes,
    Utf8.encode mended = .ok bytes ∧
      v = { w with store := w.store.setBytes (w.configPath folder) bytes } := by
  have hwritten := h.written
  have hsettings := h.settings
  rw [Store.write_eq] at hwritten
  split at hwritten
  · cases hwritten
  · cases hencode : Utf8.encode mended with
    | error e =>
      rw [hencode] at hwritten
      cases hwritten
    | ok bytes =>
      rw [hencode] at hwritten
      cases v
      cases hsettings
      cases hwritten
      exact ⟨bytes, rfl, rfl⟩

theorem Stores.isSome_file? (h : Stores w folder mended v) :
    (w.store.file? (w.configPath folder)).isSome := by
  obtain ⟨t, ht⟩ := h.readable
  exact Store.isFile_of_read ht

/-- The configuration is read as it was written. -/
theorem Stores.read_config (h : Stores w folder mended v) (hmended : Text.NoReturn mended) :
    v.store.read (v.configPath folder) = .ok mended := by
  obtain ⟨bytes, hencode, rfl⟩ := h.exists_setBytes
  show (w.store.setBytes (w.configPath folder) bytes).read (w.configPath folder) = .ok mended
  rw [Store.read_setBytes h.isSome_file? hencode, Text.normaliseLineEnds_eq_self hmended]

theorem readAll_of_files {paths : List Text} (h : w.workflowFiles folder = .ok paths) :
    WorkflowDocument.readAll w folder =
      (paths.filterMap fun p => (w.store.read p).toOption.map fun t => (p, t)).mapM fun d =>
        WorkflowDocument.ofText d.1 d.2 := by
  unfold WorkflowDocument.readAll
  rw [h]
  rfl

/-- The workflow files stay as they are. -/
theorem Stores.readAll_eq (h : Stores w folder mended v) :
    WorkflowDocument.readAll v folder = WorkflowDocument.readAll w folder := by
  obtain ⟨bytes, -, rfl⟩ := h.exists_setBytes
  have hfiles : Workspace.workflowFiles
      { w with store := w.store.setBytes (w.configPath folder) bytes } folder =
        w.workflowFiles folder := by
    unfold Workspace.workflowFiles
    simp only [Workspace.workflowsPath, Store.absolute_setBytes, Store.list_setBytes h.isSome_file?]
    rfl
  cases hpaths : w.workflowFiles folder with
  | error f =>
    unfold WorkflowDocument.readAll
    rw [hfiles, hpaths]
    rfl
  | ok paths =>
    have hread : (paths.filterMap fun p =>
        ((w.store.setBytes (w.configPath folder) bytes).read p).toOption.map fun t => (p, t)) =
          paths.filterMap fun p => (w.store.read p).toOption.map fun t => (p, t) :=
      List.filterMap_congr fun p hp => by
        rw [Store.read_setBytes_of_locate_ne (h.apart paths hpaths p hp)]
    rw [readAll_of_files hpaths, readAll_of_files (hfiles.trans hpaths), hread]

/-! ## Resolving what is reported -/

/-- In a workspace nothing is reported any more, and every sub-workflow that lacked callers lists those
that it listed before and after them those that it lacked. -/
structure Resolved (c : ProjectConfig) (callers : List (Text × List Text)) (v : Workspace)
    (folder : Text) : Prop where
  reports : run v folder = .ok []
  lists : ∃ c', ProjectConfig.read v folder = .ok c' ∧ ∀ called ∈ callers, unlisted c called ≠ [] →
    (trigger? c' called.1).map (·.calledBy) = (trigger? c called.1).map fun trigger =>
      some (trigger.calledBy.getD [] ++ unlisted c called)

section

variable {g g' : Graph} {c' : ProjectConfig}

theorem read_of_ofGraph (hread : w.store.read (w.configPath folder) = .ok t)
    (hload : Yaml.load .given t = .ok g) (hc : ProjectConfig.ofGraph g = .ok c) :
    ProjectConfig.read w folder = .ok c := by
  have hconfig : g.tree.IsConfig := (ProjectConfig.accepts_ofGraph g).1 ⟨c, hc⟩
  have hmapping : g.object.isMapping = true := Graph.isMapping_tree.symm.trans hconfig.named.1
  rw [ProjectConfig.read_of_store hread, ProjectConfig.ofText_of_mapping hload hmapping, hc]

/-- What a sub-workflow lists after its missing callers have been added. -/
theorem calledBy_of_listing
    (hc' : ProjectConfig.ofGraph g' = .ok c') (hdistinct : Caller.Distinct callers)
    (hlisting : g'.tree.listing = (missing c callers).foldl Listing.step g.tree.listing)
    (hcalled : called ∈ callers) : (trigger? c' called.1).map (·.calledBy) =
      (g.tree.listing.entryOf? called.1).map fun e =>
        ((unlisted c called).foldl (fun e k => e.step k) e).texts := by
  rw [map_calledBy_trigger? hc', hlisting, Listing.entryOf?_foldl,
    filter_missing hdistinct.subworkflows hcalled, Option.map_map]
  rfl

/-- The missing callers are added behind the others exactly if the entry is repairable. -/
theorem lists_iff_repairable (hc : ProjectConfig.ofGraph g = .ok c)
    (hc' : ProjectConfig.ofGraph g' = .ok c') (hdistinct : Caller.Distinct callers)
    (hlisting : g'.tree.listing = (missing c callers).foldl Listing.step g.tree.listing)
    (hcalled : called ∈ callers) (hlacks : unlisted c called ≠ []) :
    ((trigger? c' called.1).map (·.calledBy) = (trigger? c called.1).map fun trigger =>
        some (trigger.calledBy.getD [] ++ unlisted c called)) ↔
      ∃ e, g.tree.listing.entryOf? called.1 = some e ∧ e.Repairable := by
  have hbefore := map_calledBy_trigger? hc called.1
  rw [calledBy_of_listing hc' hdistinct hlisting hcalled]
  cases hentry : g.tree.listing.entryOf? called.1 with
  | none =>
    rw [hentry] at hbefore
    exact absurd (unlisted_eq_nil (Option.map_eq_none_iff.1 hbefore)) hlacks
  | some e =>
    rw [hentry] at hbefore
    have hunlisted := unlisted_eq_filter hbefore
    obtain ⟨trigger, htrigger, htexts⟩ := Option.map_eq_some_iff.1 hbefore
    have hnew : ∀ k ∈ unlisted c called, k ∉ e.texts.getD [] := by
      intro k hk
      rw [hunlisted, List.mem_filter] at hk
      simpa using hk.2
    have hnodup : (unlisted c called).Nodup :=
      hunlisted ▸ (hdistinct.callers called hcalled).filter _
    have hiff := Listing.Entry.texts_foldl_step_iff hnodup hnew hlacks
    simp [htrigger, htexts, hiff]

/-- When all missing callers have been added, none is missing. -/
theorem unlisted_eq_nil_of_lists (hc : ProjectConfig.ofGraph g = .ok c)
    (hc' : ProjectConfig.ofGraph g' = .ok c') (hdistinct : Caller.Distinct callers)
    (hlisting : g'.tree.listing = (missing c callers).foldl Listing.step g.tree.listing)
    (hcalled : called ∈ callers)
    (hlists : unlisted c called ≠ [] → (trigger? c' called.1).map (·.calledBy) =
      (trigger? c called.1).map fun trigger =>
        some (trigger.calledBy.getD [] ++ unlisted c called)) :
    unlisted c' called = [] := by
  cases htrigger' : trigger? c' called.1 with
  | none => exact unlisted_eq_nil htrigger'
  | some trigger' =>
    have hafter : (trigger? c' called.1).map (·.calledBy) = some trigger'.calledBy := by
      rw [htrigger', Option.map_some]
    by_cases hlacks : unlisted c called = []
    · -- nothing was missing, so the trigger lists what it listed
      have hsame : (trigger? c' called.1).map (·.calledBy) =
          (trigger? c called.1).map (·.calledBy) := by
        rw [calledBy_of_listing hc' hdistinct hlisting hcalled, hlacks,
          map_calledBy_trigger? hc]
        rfl
      rw [unlisted_eq_filter hafter, ← unlisted_eq_filter (hsame.symm.trans hafter), hlacks]
    · have hlists := hlists hlacks
      rw [hafter] at hlists
      obtain ⟨trigger, htrigger, hlisted⟩ := Option.map_eq_some_iff.1 hlists.symm
      have hbefore : (trigger? c called.1).map (·.calledBy) = some trigger.calledBy := by
        rw [htrigger, Option.map_some]
      rw [unlisted_eq_filter hafter, ← hlisted, Option.getD_some, List.filter_eq_nil_iff]
      intro k hk
      rw [unlisted_eq_filter hbefore]
      by_cases hold : k ∈ trigger.calledBy.getD []
      · simp [hold]
      · simp [hold, hk]

end

/-- Storing a configuration to which the missing callers have been added resolves what is reported
exactly if the triggers that lack callers are repairable. -/
theorem resolved_iff_repairable {g : Graph} (hread : w.store.read (w.configPath folder) = .ok t)
    (hload : Yaml.load .given t = .ok g) (hc : ProjectConfig.ofGraph g = .ok c)
    (hdocuments : WorkflowDocument.readAll w folder = .ok documents)
    (hadds : Caller.AddsInTurn (missing c (WorkflowDocument.callers documents)) t mended)
    (hstores : Stores w folder mended v) :
    Resolved c (WorkflowDocument.callers documents) v folder ↔
      ∀ called ∈ WorkflowDocument.callers documents, unlisted c called ≠ [] →
        ∃ e, g.tree.listing.entryOf? called.1 = some e ∧ e.Repairable := by
  have hdistinct : Caller.Distinct (WorkflowDocument.callers documents) :=
    Caller.distinct_ofDocuments _
  obtain ⟨g', hload', hconfig', hlisting⟩ :=
    hadds.exists_load hload ((ProjectConfig.accepts_ofGraph g).1 ⟨c, hc⟩)
  obtain ⟨c', hc'⟩ := (ProjectConfig.accepts_ofGraph g').2 hconfig'
  -- the configuration is read as it was written
  have hreturn : Text.NoReturn t := by
    obtain ⟨bytes, u, -, -, rfl⟩ := Store.read_eq_ok_iff.1 hread
    exact Text.normaliseLineEnds_noReturn u
  have hread' := read_of_ofGraph (hstores.read_config (hadds.noReturn hreturn)) hload' hc'
  have hrun' := run_of_read hread' (hstores.readAll_eq.trans hdocuments)
  have hlists := fun called (hcalled : called ∈ WorkflowDocument.callers documents) =>
    lists_iff_repairable hc hc' hdistinct hlisting hcalled
  constructor
  · rintro ⟨-, c'', hread'', hall⟩ called hcalled hlacks
    obtain rfl := Except.ok.inj (hread'.symm.trans hread'')
    exact (hlists called hcalled hlacks).1 (hall called hcalled hlacks)
  · intro hall
    have hall' := fun called hcalled hlacks =>
      (hlists called hcalled hlacks).2 (hall called hcalled hlacks)
    refine ⟨?_, c', hread', hall'⟩
    rw [hrun', Except.ok.injEq, List.flatMap_eq_nil_iff]
    intro called hcalled
    rw [findings_eq_nil_iff]
    exact unlisted_eq_nil_of_lists hc hc' hdistinct hlisting hcalled (hall' called hcalled)

/-- In a project whose configuration loads the check has findings, and what their fixes make of the
configuration is stored in another workspace.  Every fix adds its caller as it should. -/
structure Mends (w : Workspace) (folder : Text) (g : Graph) (c : ProjectConfig)
    (documents : List WorkflowDocument) (findings : List Finding) (v : Workspace) : Prop where
  accepted : ProjectConfig.ofGraph g = .ok c
  files : WorkflowDocument.readAll w folder = .ok documents
  reports : run w folder = .ok findings
  stores : ∃ t mended, w.store.read (w.configPath folder) = .ok t ∧ Yaml.load .given t = .ok g ∧
    Caller.AddsInTurn (missing c (WorkflowDocument.callers documents)) t mended ∧
    Stores w folder (Fix.applyAll (findings.filterMap (·.fix)) t) v

/-- What the fixes make is the configuration with the missing callers. -/
theorem Mends.exists_mended {g : Graph} (h : Mends w folder g c documents findings v) :
    ∃ t mended, w.store.read (w.configPath folder) = .ok t ∧ Yaml.load .given t = .ok g ∧
      Caller.AddsInTurn (missing c (WorkflowDocument.callers documents)) t mended ∧
      Stores w folder mended v := by
  obtain ⟨t, mended, hread, hload, hadds, hstores⟩ := h.stores
  have hfindings := run_of_read (read_of_ofGraph hread hload h.accepted) h.files
  obtain rfl := Except.ok.inj (h.reports.symm.trans hfindings)
  rw [hadds.applyAll_eq (map_run_fixes _)] at hstores
  exact ⟨t, mended, hread, hload, hadds, hstores⟩

/-- A configuration with a sub-workflow of which some callers are given. -/
def calledConfiguration (callers : Text) : Text :=
  "project_id: p\nworkflow_files: []\nworkflows:\n- workflow_template_id: s\n  triggers:\n" ++
    "  - type: subworkflow\n    called_by: " ++ callers ++ "\n"

/-- A workflow file that calls the sub-workflow. -/
def callingFile : Text := "\x7b\"x\":\"\x7b\x7bSUBWKFL_s_LFKWBUS\x7d\x7d\"\x7d"

/-- A project with that configuration and two such files. -/
def callingProject (callers : Text) : Workspace where
  settings := {}
  store :=
    { files := [(["ROOT", "config.yaml"],
          (Utf8.encode (calledConfiguration callers)).toOption.getD []),
        (["ROOT", "workflows", "a.json"], (Utf8.encode callingFile).toOption.getD []),
        (["ROOT", "workflows", "main.json"], (Utf8.encode callingFile).toOption.getD [])]
      folders := [["ROOT"], ["ROOT", "workflows"]]
      current := ["ROOT"] }

theorem configPath_callingProject (callers : Text) :
    (callingProject callers).configPath "." = "config.yaml" := rfl

theorem workflowFiles_callingProject (callers : Text) : (callingProject callers).workflowFiles "." =
    .ok ["/ROOT/workflows/a.json", "/ROOT/workflows/main.json"] := by
  have hdir : (callingProject callers).workflowsPath ((callingProject callers).store.absolute ".") =
      "/ROOT/workflows" := rfl
  have hfolder : ((callingProject callers).store.locate? "/ROOT/workflows").filter
      (callingProject callers).store.hasFolder = some [("ROOT" : Text), "workflows"] := rfl
  have hnames : (callingProject callers).store.fileNames ["ROOT", "workflows"] =
      ["a.json", "main.json"] := by
    show List.mergeSort [("a.json" : Text), "main.json"] Text.le = _
    exact List.mergeSort_of_pairwise (by decide)
  have hlist : (callingProject callers).store.list "/ROOT/workflows" =
      .ok ["a.json", "main.json"] := by
    unfold Store.list
    rw [hfolder]
    exact congrArg Except.ok hnames
  unfold Workspace.workflowFiles
  simp only [hdir, hlist]
  rfl

theorem read_callingProject (callers : Text) :
    (callingProject callers).store.read "/ROOT/workflows/a.json" = .ok callingFile ∧
      (callingProject callers).store.read "/ROOT/workflows/main.json" = .ok callingFile := by
  constructor <;> rfl

theorem readAll_callingProject (callers : Text) :
    ∃ documents, WorkflowDocument.readAll (callingProject callers) "." = .ok documents ∧
      WorkflowDocument.callers documents = [(("s" : Text), [("a" : Text), "main"])] := by
  have hdocuments : ([(("/ROOT/workflows/a.json" : Text), callingFile),
      ("/ROOT/workflows/main.json", callingFile)].mapM fun d =>
        WorkflowDocument.ofText d.1 d.2).toOption.any (fun documents =>
          decide (WorkflowDocument.callers documents = [(("s" : Text), [("a" : Text), "main"])])) =
            true := by decide +kernel
  obtain ⟨documents, hok, hcallers⟩ := exists_ok_of_any hdocuments
  refine ⟨documents, ?_, of_decide_eq_true hcallers⟩
  obtain ⟨hfirst, hsecond⟩ := read_callingProject callers
  rw [readAll_of_files (workflowFiles_callingProject callers)]
  simp only [List.filterMap_cons, List.filterMap_nil, hfirst, hsecond, Except.toOption, Option.map_some]
  exact hok

theorem exists_stores_callingProject {callers t mended : Text}
    (hread : (callingProject callers).store.read "config.yaml" = .ok t)
    (h : (Utf8.encode mended).toOption.isSome = true) :
    ∃ v, Stores (callingProject callers) "." mended v := by
  obtain ⟨bytes, hbytes⟩ := Option.isSome_iff_exists.1 h
  have hconfig := configPath_callingProject callers
  have hlocate : (callingProject callers).store.locate "config.yaml" =
      .ok [("ROOT" : Text), "config.yaml"] := rfl
  have hfiles : ∀ path ∈ ([ "/ROOT/workflows/a.json", "/ROOT/workflows/main.json" ] : List Text),
      ((callingProject callers).store.locate path).toOption.any (·.length == 3) = true := by
    simp only [List.forall_mem_cons, List.not_mem_nil, false_imp_iff, implies_true, and_true]
    exact ⟨rfl, rfl⟩
  refine ⟨⟨{}, (callingProject callers).store.setBytes "config.yaml" bytes⟩, ⟨t, hconfig ▸ hread⟩,
    fun paths hpaths path hpath heq => ?_, rfl, ?_⟩
  · obtain rfl := Except.ok.inj ((workflowFiles_callingProject callers).symm.trans hpaths)
    have hlength := hfiles path hpath
    rw [heq, hconfig, hlocate] at hlength
    cases hlength
  · rw [hconfig, Store.write_eq, eq_ok_of_toOption hbytes]
    rfl

/-- Whether the project lacks the second caller only and its entry passes a test. -/
def lacksMain (callers : Text) (test : Listing.Entry → Bool) : Bool :=
  (Yaml.load .given (calledConfiguration callers)).toOption.any fun g =>
    (ProjectConfig.ofGraph g).toOption.any fun c =>
      decide (missing c [("s", [("a" : Text), "main"])] = [(("s" : Text), ("main" : Text))]) &&
        (g.tree.listing.entryOf? "s").any test

/-- In such a project the fix of the only finding adds its caller as it should. -/
theorem exists_mends_callingProject {callers : Text} {test : Listing.Entry → Bool}
    (hread : (callingProject callers).store.read "config.yaml" = .ok (calledConfiguration callers))
    (hlacks : lacksMain callers test = true)
    (hadds : Caller.addsWithin 9 (fun after => (Utf8.encode after).toOption.isSome) "s" "main"
      (calledConfiguration callers) = true) :
    ∃ g c documents findings v e, Mends (callingProject callers) "." g c documents findings v ∧
      WorkflowDocument.callers documents = [(("s" : Text), [("a" : Text), "main"])] ∧
      unlisted c ("s", ["a", "main"]) = ["main"] ∧
      g.tree.listing.entryOf? "s" = some e ∧ test e = true := by
  obtain ⟨g, hload, h⟩ := exists_ok_of_any hlacks
  obtain ⟨c, hc, h⟩ := exists_ok_of_any h
  obtain ⟨hmissing, hentry⟩ := Bool.and_eq_true_iff.1 h
  have hmissing := of_decide_eq_true hmissing
  obtain ⟨e, he, htest⟩ := (Option.any_eq_true _ _).1 hentry
  obtain ⟨mended, hone, hencode⟩ := Caller.exists_addsOne hadds
  obtain ⟨documents, hdocuments, hcallers⟩ := readAll_callingProject callers
  obtain ⟨v, hstores⟩ := exists_stores_callingProject hread hencode
  have hadds : Caller.AddsInTurn (missing c (WorkflowDocument.callers documents))
      (calledConfiguration callers) mended := by
    rw [hcallers, hmissing]
    exact .cons hone (.nil mended)
  rw [← configPath_callingProject callers] at hread
  have hrun := run_of_read (read_of_ofGraph hread hload hc) hdocuments
  refine ⟨g, c, documents, _, v, e, ⟨hc, hdocuments, hrun, _, mended, hread, hload, hadds, ?_⟩,
    hcallers, ?_, he, htest⟩
  · rw [hadds.applyAll_eq (map_run_fixes _)]
    exact hstores
  · have hmain : (missing c [("s", ["a", "main"])]).map (·.2) = ["main"] := by
      rw [hmissing]
      rfl
    simpa [missing] using hmain

end Check.CalledBy

end WorkflowLint
