import WorkflowLint.Check.WebhookPath
import WorkflowLint.Proofs.Check.Mending
import WorkflowLint.Proofs.Project.Entries
import WorkflowLint.Proofs.Project.TemplateIds

/-!
# Declared URLs lead to webhooks

Each URL that a configuration declares is decided once, in the order of the configuration: either it
leads to a webhook of its workflow (`Passes`), or there is one finding on it (`Reports`).  A URL is one of
the right form if its path can be cut off (`urlProblem?_eq_none_iff`), and its path is that of a webhook
if a node of the workflow file has it (`mem_paths_iff`).
-/

namespace WorkflowLint

/-! ## Webhooks -/

namespace Webhook

variable {document : Json.Members} {path url : Text}

/-- A document has a webhook with a path. -/
def HasPath (document : Json.Members) (path : Text) : Prop :=
  ∃ (items : List Json) (node parameters : Json.Members),
    document.get? "nodes" = some (.array items) ∧ .object node ∈ items ∧
    node.get? "type" = some (.string NodeKind.webhook) ∧
    node.get? "parameters" = some (.object parameters) ∧ parameters.get? "path" = some (.string path)

theorem members?_eq_some_iff {v : Json} {members : Json.Members} :
    v.members? = some members ↔ v = .object members := by
  cases v <;> simp [Json.members?]

theorem mem_nodeObjects_iff {node : Json.Members} : node ∈ Check.nodeObjects document ↔
    ∃ items, document.get? "nodes" = some (.array items) ∧ .object node ∈ items := by
  unfold Check.nodeObjects
  split
  · next items hitems => simp [hitems, members?_eq_some_iff]
  · next hnot => simp_all

/-- The path of a node that is a webhook. -/
def nodePath? (node : Json.Members) : Option Text := do
  if !((node.get? "type").any fun v => v.isText NodeKind.webhook) then none
  let params ← (← node.get? "parameters").members?
  Json.Members.fullText? params "path"

theorem nodePath?_eq_some_iff {node : Json.Members} (hpath : path ≠ []) : nodePath? node = some path ↔
    node.get? "type" = some (.string NodeKind.webhook) ∧ ∃ parameters : Json.Members,
      node.get? "parameters" = some (.object parameters) ∧
        parameters.get? "path" = some (.string path) := by
  have htype : ((node.get? "type").any fun v => v.isText NodeKind.webhook) = true ↔
      node.get? "type" = some (.string NodeKind.webhook) := by
    simp [Option.any_eq_true, Check.RequiredSettings.isText_iff]
  have hfull : ∀ parameters : Json.Members, parameters.fullText? "path" = some path ↔
      parameters.get? "path" = some (.string path) := by
    intro parameters
    unfold Json.Members.fullText? Json.Members.text?
    rw [Option.filter_eq_some_iff]
    split <;> simp_all
  unfold nodePath?
  rw [← htype]
  cases (node.get? "type").any fun v => v.isText NodeKind.webhook with
  | false => simp
  | true => simp [Option.bind_eq_some_iff, members?_eq_some_iff, hfull]

theorem mem_paths_iff (hpath : path ≠ []) : path ∈ paths document ↔ HasPath document path := by
  have hpaths : paths document = (Check.nodeObjects document).filterMap nodePath? := rfl
  simp only [hpaths, List.mem_filterMap, nodePath?_eq_some_iff hpath, mem_nodeObjects_iff]
  constructor
  · rintro ⟨node, ⟨items, hitems, hmem⟩, htype, parameters, hparameters, hvalue⟩
    exact ⟨items, node, parameters, hitems, hmem, htype, hparameters, hvalue⟩
  · rintro ⟨items, node, parameters, hitems, hmem, htype, hparameters, hvalue⟩
    exact ⟨node, ⟨items, hitems, hmem⟩, htype, parameters, hparameters, hvalue⟩

/-- A URL of the right form is the common one, the segment of webhooks and a path. -/
theorem urlProblem?_eq_none_iff :
    urlProblem? url = none ↔ ∃ path, url = basePlaceholder ++ segment ++ path := by
  unfold urlProblem?
  constructor
  · intro h
    split at h
    · cases h
    · next rest hrest =>
      split_ifs at h with hsegment
      obtain ⟨path, rfl⟩ := List.isPrefixOf_iff_prefix.1 hsegment
      exact ⟨path, by rw [Text.afterStart?_eq_some_iff.1 hrest, List.append_assoc]⟩
  · rintro ⟨path, rfl⟩
    have hafter : Text.afterStart? basePlaceholder (basePlaceholder ++ segment ++ path) =
        some (segment ++ path) := Text.afterStart?_eq_some_iff.2 (List.append_assoc ..)
    rw [hafter]
    exact if_pos (List.isPrefixOf_iff_prefix.2 (List.prefix_append _ _))

theorem pathOf_append (path : Text) : pathOf (basePlaceholder ++ segment ++ path) = path := by
  rw [pathOf, ← List.length_append, List.drop_left]

end Webhook

/-! ## Files -/

namespace Check.WebhookPath

open Check.SubworkflowReference (readable)

variable {w : Workspace} {folder : Text} {documents : List WorkflowDocument} {u : TriggerUrl}

/-- The last workflow file with an id that can be read, with what it says. -/
def lastFile? (w : Workspace) (folder id : Text) : Option (Text × Text) :=
  (w.workflowFiles folder).toOption.bind fun files =>
    (readable w files).reverse.find? fun file => Path.stem file.1 == id

theorem rel_lastFile? (h : WorkflowDocument.readAll w folder = .ok documents) (id : Text) :
    Option.Rel (fun file d => d.IsOf file) (lastFile? w folder id)
      (WorkflowDocument.withId? id documents) := by
  obtain ⟨files, hfiles, hall⟩ := WorkflowDocument.forall₂_of_readAll h
  rw [lastFile?, hfiles]
  refine rel_find? (List.rel_reverse hall) fun file d hd => ?_
  rw [hd.templateId]

theorem withId?_of_lastFile?_eq_none {id : Text} (h : WorkflowDocument.readAll w folder = .ok documents)
    (hfile : lastFile? w folder id = none) : WorkflowDocument.withId? id documents = none := by
  have hrel := rel_lastFile? h id
  rw [hfile] at hrel
  generalize WorkflowDocument.withId? id documents = found at hrel
  cases hrel
  rfl

theorem exists_withId?_of_lastFile? {id : Text} {file : Text × Text}
    (h : WorkflowDocument.readAll w folder = .ok documents) (hfile : lastFile? w folder id = some file) :
    ∃ d, WorkflowDocument.withId? id documents = some d ∧ d.IsOf file := by
  have hrel := rel_lastFile? h id
  rw [hfile] at hrel
  generalize WorkflowDocument.withId? id documents = found at hrel
  cases hrel with
  | some hd => exact ⟨_, rfl, hd⟩

/-! ## Decisions -/

/-- A URL leads to a webhook: there is a folder for workflow files, the URL has the right form, and its
path is that of a webhook in the file of its workflow, unless there is no path or the file is no object. -/
def Passes (w : Workspace) (folder : Text) (u : TriggerUrl) : Prop :=
  w.hasWorkflows folder = true ∧ ∃ path, u.url = Webhook.basePlaceholder ++ Webhook.segment ++ path ∧
    (path = [] ∨ ∃ file, lastFile? w folder u.templateId = some file ∧
      ∀ document, Json.read file.2 = .ok (.object document) → Webhook.HasPath document path)

/-- A finding on a URL is on the file of its workflow if this is where the webhook is missing, and on the
configuration otherwise. -/
structure Reports (w : Workspace) (folder : Text) (u : TriggerUrl) (f : Finding) : Prop where
  rule : f.rule = info.id
  severity : f.severity = .must
  names : u.templateId <:+: f.message
  onConfig : (w.hasWorkflows folder = false ∨
      (∀ path, u.url ≠ Webhook.basePlaceholder ++ Webhook.segment ++ path) ∨
      lastFile? w folder u.templateId = none) → f.path = w.configPath folder
  onFile : ∀ path file, w.hasWorkflows folder = true →
    u.url = Webhook.basePlaceholder ++ Webhook.segment ++ path →
    lastFile? w folder u.templateId = some file → f.path = file.1

/-- What is found on a URL: nothing exactly if it passes, or else one finding. -/
structure Decides (w : Workspace) (folder : Text) (u : TriggerUrl) (found : Option Finding) : Prop where
  eq_none_iff : found = none ↔ Passes w folder u
  reports : ∀ f, found = some f → Reports w folder u f

theorem decides_none (h : Passes w folder u) : Decides w folder u none :=
  ⟨iff_of_true rfl h, fun f hf => absurd hf.symm (Option.some_ne_none f)⟩

theorem decides_some {f : Finding} (hnot : ¬ Passes w folder u) (h : Reports w folder u f) :
    Decides w folder u (some f) :=
  ⟨iff_of_false (Option.some_ne_none f) hnot, fun _ hf => Option.some.inj hf ▸ h⟩

/-- A finding on the configuration is on a URL that has no file to go with it. -/
theorem reports_of_path_eq_configPath {f : Finding} (hrule : f.rule = info.id)
    (hseverity : f.severity = .must) (hnames : u.templateId <:+: f.message)
    (hpath : f.path = w.configPath folder)
    (hno : ¬ (w.hasWorkflows folder = true ∧
      (∃ path, u.url = Webhook.basePlaceholder ++ Webhook.segment ++ path) ∧
      ∃ file, lastFile? w folder u.templateId = some file)) : Reports w folder u f :=
  ⟨hrule, hseverity, hnames, fun _ => hpath, fun path file hfolder hurl hfile =>
    absurd ⟨hfolder, ⟨path, hurl⟩, file, hfile⟩ hno⟩

theorem decides_missingFolder (hfolder : w.hasWorkflows folder = false) (u : TriggerUrl) :
    Decides w folder u (some (missingFolder w folder u)) := by
  have hnot : w.hasWorkflows folder ≠ true := Bool.eq_false_iff.1 hfolder
  have hnames : u.templateId <:+: (missingFolder w folder u).message :=
    ⟨"Trigger \"" ++ (u.label ++ "\" in workflow \""), _, by
      simp only [missingFolder, finding, List.append_assoc]; rfl⟩
  exact decides_some (fun h => hnot h.1)
    (reports_of_path_eq_configPath rfl rfl hnames rfl fun h => hnot h.1)

theorem decides_malformed (problem : Text)
    (hurl : ¬ ∃ path, u.url = Webhook.basePlaceholder ++ Webhook.segment ++ path) :
    Decides w folder u (some (malformed w folder u problem)) := by
  have hnames : u.templateId <:+: (malformed w folder u problem).message :=
    ⟨"Invalid " ++
        (entryName u ++ (" structure in trigger \"" ++ (u.label ++ "\" of workflow \""))), _, by
      simp only [malformed, finding, List.append_assoc]; rfl⟩
  exact decides_some (fun h => hurl (h.2.imp fun _ hpath => hpath.1))
    (reports_of_path_eq_configPath rfl rfl hnames rfl fun h => hurl h.2.1)

/-! ## Files of workflows -/

section

variable {path : Text} {file : Text × Text} (hfolder : w.hasWorkflows folder = true)
  (hurl : u.url = Webhook.basePlaceholder ++ Webhook.segment ++ path)
include hfolder hurl

/-- A finding on the file of a workflow is on a URL that goes with it. -/
theorem reports_of_path_eq_file {f : Finding} (hfile : lastFile? w folder u.templateId = some file)
    (hrule : f.rule = info.id) (hseverity : f.severity = .must) (hnames : u.templateId <:+: f.message)
    (hpath : f.path = file.1) : Reports w folder u f := by
  refine ⟨hrule, hseverity, hnames, ?_, fun _ other _ _ hother => ?_⟩
  · rintro (hnone | hnone | hnone)
    · exact absurd hfolder (Bool.eq_false_iff.1 hnone)
    · exact absurd hurl (hnone path)
    · exact absurd (hfile.symm.trans hnone) (Option.some_ne_none file)
  · rw [hpath, Option.some.inj (hfile.symm.trans hother)]

/-- With a path a URL passes where its workflow has a file that is no object or has a webhook with the
path. -/
theorem passes_iff (hpath : path ≠ []) : Passes w folder u ↔
    ∃ file, lastFile? w folder u.templateId = some file ∧
      ∀ document, Json.read file.2 = .ok (.object document) → Webhook.HasPath document path := by
  constructor
  · rintro ⟨-, path', hurl', hpasses⟩
    obtain rfl : path = path' := List.append_cancel_left (hurl.symm.trans hurl')
    exact hpasses.resolve_left hpath
  · exact fun h => ⟨hfolder, path, hurl, .inr h⟩

theorem passes_iff_mem_paths {document : Json.Members} (hpath : path ≠ [])
    (hfile : lastFile? w folder u.templateId = some file)
    (hdocument : Json.read file.2 = .ok (.object document)) :
    Passes w folder u ↔ path ∈ Webhook.paths document := by
  rw [passes_iff hfolder hurl hpath, Webhook.mem_paths_iff hpath]
  constructor
  · rintro ⟨other, hother, hhas⟩
    obtain rfl := Option.some.inj (hfile.symm.trans hother)
    exact hhas document hdocument
  · intro hhas
    refine ⟨file, hfile, fun other hother => ?_⟩
    rwa [← Json.object.inj (Except.ok.inj (hdocument.symm.trans hother))]

theorem decides_missingFile (hpath : path ≠ []) (hfile : lastFile? w folder u.templateId = none) :
    Decides w folder u (some (missingFile w folder u)) := by
  have hno : ¬ ∃ file, lastFile? w folder u.templateId = some file := by simp [hfile]
  have hnames : u.templateId <:+: (missingFile w folder u).message :=
    ⟨"Cannot find workflow file for \"", _, by
      simp only [missingFile, finding, List.append_assoc]; rfl⟩
  refine decides_some ?_ (reports_of_path_eq_configPath rfl rfl hnames rfl fun h => hno h.2.2)
  rw [passes_iff hfolder hurl hpath]
  exact fun h => hno (h.imp fun _ hfile => hfile.1)

theorem decides_missingWebhook {document : Json.Members} (hpath : path ≠ [])
    (hfile : lastFile? w folder u.templateId = some file)
    (hdocument : Json.read file.2 = .ok (.object document)) (hempty : Webhook.paths document = []) :
    Decides w folder u (some (missingWebhook w u file.1)) := by
  have hnames : u.templateId <:+: (missingWebhook w u file.1).message :=
    ⟨"Workflow \"", _, by simp only [missingWebhook, finding, List.append_assoc]; rfl⟩
  refine decides_some ?_ (reports_of_path_eq_file hfolder hurl hfile rfl rfl hnames rfl)
  rw [passes_iff_mem_paths hfolder hurl hpath hfile hdocument, hempty]
  exact List.not_mem_nil

theorem decides_mismatch {document : Json.Members} (hpath : path ≠ [])
    (hfile : lastFile? w folder u.templateId = some file)
    (hdocument : Json.read file.2 = .ok (.object document))
    (hnot : path ∉ Webhook.paths document) :
    Decides w folder u (some (mismatch u file.1 (Webhook.paths document))) := by
  have hnames : u.templateId <:+: (mismatch u file.1 (Webhook.paths document)).message :=
    ⟨"Webhook path mismatch in \"", _, by simp only [mismatch, finding, List.append_assoc]; rfl⟩
  refine decides_some ?_ (reports_of_path_eq_file hfolder hurl hfile rfl rfl hnames rfl)
  rwa [passes_iff_mem_paths hfolder hurl hpath hfile hdocument]

/-- A URL of the right form is decided by the file of its workflow. -/
theorem decides_pathFinding? (hread : WorkflowDocument.readAll w folder = .ok documents)
    (hpath : path ≠ []) : Decides w folder u (pathFinding? w folder documents u) := by
  have hpathOf : Webhook.pathOf u.url = path := hurl ▸ Webhook.pathOf_append path
  unfold pathFinding?
  cases hfile : lastFile? w folder u.templateId with
  | none =>
    rw [withId?_of_lastFile?_eq_none hread hfile]
    exact decides_missingFile hfolder hurl hpath hfile
  | some file =>
    obtain ⟨d, hd, hof⟩ := exists_withId?_of_lastFile? hread hfile
    simp only [hd, hof.path, hpathOf]
    cases hmembers : d.members with
    | none =>
      refine decides_none ((passes_iff hfolder hurl hpath).2 ⟨file, hfile, fun document hdocument => ?_⟩)
      have hobject := Json.readObject_eq_ok_iff.2 hdocument
      rw [hof.members, hmembers] at hobject
      cases hobject
    | some document =>
      have hdocument := Json.readObject_eq_ok_iff.1 (hmembers ▸ hof.members)
      dsimp only
      split_ifs with hempty hcontains
      · exact decides_missingWebhook hfolder hurl hpath hfile hdocument (List.isEmpty_iff.1 hempty)
      · exact decides_none ((passes_iff_mem_paths hfolder hurl hpath hfile hdocument).2
          (List.contains_iff_mem.1 hcontains))
      · exact decides_mismatch hfolder hurl hpath hfile hdocument fun hmem =>
          hcontains (List.contains_iff_mem.2 hmem)

end

theorem decides_urlFinding? (hfolder : w.hasWorkflows folder = true)
    (hread : WorkflowDocument.readAll w folder = .ok documents) (u : TriggerUrl) :
    Decides w folder u (urlFinding? w folder documents u) := by
  unfold urlFinding?
  split
  · next problem hproblem =>
    refine decides_malformed problem fun hform => ?_
    rw [Webhook.urlProblem?_eq_none_iff.2 hform] at hproblem
    cases hproblem
  · next hform =>
    obtain ⟨path, hurl⟩ := Webhook.urlProblem?_eq_none_iff.1 hform
    have hpathOf : Webhook.pathOf u.url = path := hurl ▸ Webhook.pathOf_append path
    rw [hpathOf]
    split_ifs with hempty
    · exact decides_none ⟨hfolder, path, hurl, .inl (List.isEmpty_iff.1 hempty)⟩
    · exact decides_pathFinding? hfolder hurl hread (by simpa using hempty)

/-! ## Declared URLs -/

theorem url?_eq_some_iff {trigger : TriggerConfig} {url : Text} {manual : Bool} :
    trigger.url? = some (url, manual) ↔ url ≠ [] ∧
      (trigger.type = .http ∧ trigger.url = some url ∧ manual = false ∨
        trigger.type = .schedule ∧ trigger.manualTriggerUrl = some url ∧ manual = true) := by
  have hfull : ∀ (declared : Option Text) (kind : Bool),
      (declared.filter fun u => !u.isEmpty).map (·, kind) = some (url, manual) ↔
        url ≠ [] ∧ declared = some url ∧ manual = kind := by
    intro declared kind
    rw [Option.map_eq_some_iff]
    constructor
    · rintro ⟨u, hu, heq⟩
      obtain ⟨rfl, rfl⟩ := Prod.mk.inj heq
      obtain ⟨hdeclared, hne⟩ := Option.filter_eq_some_iff.1 hu
      exact ⟨by simpa using hne, hdeclared, rfl⟩
    · rintro ⟨hne, hdeclared, rfl⟩
      exact ⟨url, Option.filter_eq_some_iff.2 ⟨hdeclared, by simpa using hne⟩, rfl⟩
  unfold TriggerConfig.url?
  split
  · next htype =>
    rw [hfull, htype]
    simp
  · next htype =>
    rw [hfull, htype]
    simp
  · next hhttp hschedule =>
    refine iff_of_false (by simp) ?_
    rintro ⟨-, ⟨htype, -⟩ | ⟨htype, -⟩⟩
    · exact hhttp htype
    · exact hschedule htype

/-- The URLs of a configuration are those of its triggers that are not empty: of the triggers over HTTP,
and the ones for running by hand of schedules. -/
theorem mem_urls_iff {c : ProjectConfig} : u ∈ c.urls ↔ ∃ workflow ∈ c.workflows,
    ∃ trigger ∈ workflow.triggerList, u.templateId = workflow.templateId ∧ u.label = trigger.label ∧
      u.url ≠ [] ∧ (trigger.type = .http ∧ trigger.url = some u.url ∧ u.manual = false ∨
        trigger.type = .schedule ∧ trigger.manualTriggerUrl = some u.url ∧ u.manual = true) := by
  obtain ⟨templateId, label, url, manual⟩ := u
  simp only [ProjectConfig.urls, List.mem_flatMap, List.mem_filterMap, Option.map_eq_some_iff,
    TriggerUrl.mk.injEq, ← url?_eq_some_iff]
  refine exists_congr fun workflow => and_congr_right fun _ => exists_congr fun trigger =>
    and_congr_right fun _ => ?_
  constructor
  · rintro ⟨⟨url', manual'⟩, hurl, rfl, rfl, rfl, rfl⟩
    exact ⟨rfl, rfl, hurl⟩
  · rintro ⟨rfl, rfl, hurl⟩
    exact ⟨(url, manual), hurl, rfl, rfl, rfl, rfl⟩

/-- The URLs of a configuration are those of its triggers over HTTP and those for running its schedules
by hand, as far as they are not empty.  On each of them, in the order of the configuration, the check comes
to nothing if the URL leads to a webhook of its workflow, and to one finding otherwise; these are all
findings.  A finding is on the configuration if there is no folder for workflow files, the URL has the
wrong form or no file that can be read has the id of its workflow, and on the last such file otherwise. -/
theorem decides_each_url {c : ProjectConfig} {findings : List Finding}
    (hread : ProjectConfig.read w folder = .ok c) (hrun : run w folder = .ok findings) :
    (∀ u, u ∈ c.urls ↔ ∃ workflow ∈ c.workflows, ∃ trigger ∈ workflow.triggerList,
      u.templateId = workflow.templateId ∧ u.label = trigger.label ∧ u.url ≠ [] ∧
        (trigger.type = .http ∧ trigger.url = some u.url ∧ u.manual = false ∨
          trigger.type = .schedule ∧ trigger.manualTriggerUrl = some u.url ∧ u.manual = true)) ∧
    ∃ found, List.Forall₂ (Decides w folder) c.urls found ∧ findings = found.filterMap id := by
  refine ⟨fun u => mem_urls_iff, ?_⟩
  have hmap : ∀ (decide : TriggerUrl → Option Finding), (∀ u, Decides w folder u (decide u)) →
      List.Forall₂ (Decides w folder) c.urls (c.urls.map decide) := by
    intro decide h
    rw [List.forall₂_map_right_iff, List.forall₂_same]
    exact fun u _ => h u
  unfold run at hrun
  rw [ProjectConfig.read?_of_ok hread] at hrun
  obtain ⟨configured, hconfigured, hrun⟩ := exists_of_bind_eq_ok hrun
  obtain rfl := Except.ok.inj hconfigured
  simp only [Option.map_some, Option.getD_some] at hrun
  split_ifs at hrun with hempty hfolder
  · refine ⟨[], ?_, (Except.ok.inj hrun).symm⟩
    rw [List.isEmpty_iff.1 hempty]
    exact .nil
  · refine ⟨c.urls.map fun u => some (missingFolder w folder u), hmap _ fun u => ?_, ?_⟩
    · exact decides_missingFolder (by simpa using hfolder) u
    · rw [← Except.ok.inj hrun, List.filterMap_map]
      exact (congrFun List.filterMap_eq_map' c.urls).symm
  · obtain ⟨documents, hdocuments, hrun⟩ := exists_of_bind_eq_ok hrun
    refine ⟨c.urls.map (urlFinding? w folder documents), hmap _ fun u => ?_, ?_⟩
    · exact decides_urlFinding? (by simpa using hfolder) hdocuments u
    · rw [← Except.ok.inj hrun, List.filterMap_map]
      rfl

/-- A project that declares three URLs of a workflow: the one of its webhook, one with another path, and
one that has not the right form. -/
def hookedProject : Workspace where
  settings := {}
  store :=
    { files := [(["ROOT", "config.yaml"], (Utf8.encode
          ("project_id: p\nworkflow_files: []\nworkflows:\n- workflow_template_id: main\n" ++
            "  triggers:\n  - type: http\n    url: \"" ++ Webhook.basePlaceholder ++ "/webhook/go\"\n" ++
            "  - type: http\n    url: \"" ++ Webhook.basePlaceholder ++ "/webhook/stop\"\n" ++
            "  - type: http\n    url: /webhook/go\n")).toOption.getD []),
        (["ROOT", "workflows", "main.json"], (Utf8.encode
          ("\x7b\"nodes\":[\x7b\"type\":\"n8n-nodes-base.webhook\"," ++
            "\"parameters\":\x7b\"path\":\"go\"\x7d\x7d]\x7d")).toOption.getD [])]
      folders := [["ROOT"], ["ROOT", "workflows"]]
      current := ["ROOT"] }

/-- The first one passes, the second one is reported on the workflow file and the third one on the
configuration. -/
theorem decides_each_url_hookedProject :
    ∃ c findings found, ProjectConfig.read hookedProject "." = .ok c ∧
      run hookedProject "." = .ok findings ∧
      findings.map Finding.path = (["/ROOT/workflows/main.json", "config.yaml"] : List Text) ∧
      List.Forall₂ (Decides hookedProject ".") c.urls found ∧ findings = found.filterMap id := by
  have hany : (ProjectConfig.read hookedProject ".").toOption.any (fun c =>
      (run hookedProject ".").toOption.any fun findings =>
        decide (findings.map Finding.path =
          (["/ROOT/workflows/main.json", "config.yaml"] : List Text))) = true := by decide +kernel
  obtain ⟨c, hc, hrun⟩ := exists_ok_of_any hany
  obtain ⟨findings, hfindings, hpaths⟩ := exists_ok_of_any hrun
  obtain ⟨-, found, hdecides, hfound⟩ := decides_each_url hc hfindings
  exact ⟨c, findings, found, hc, hfindings, of_decide_eq_true hpaths, hdecides, hfound⟩

end Check.WebhookPath
end WorkflowLint
