import WorkflowLint.Proofs.Check.Mending
import WorkflowLint.Proofs.Check.Placeholder
import WorkflowLint.Proofs.Check.Unlined
import WorkflowLint.Proofs.Finding.Choice

/-!
# The findings of the built-in checks

On a text that is read as an object the built-in checks stop with no fault, and their findings come
in seven parts (`examine_builtIn`).  Those on graphs and credentials cannot be mended, and those of
the other five parts can.
-/

namespace WorkflowLint

open Check

/-! ## Parts of a run -/

/-- The findings on a graph. -/
def graphFindings (path : Text) (g : Workflow.Graph) : List Finding :=
  Registry.builtIn.graph.flatMap (GraphCheck.runIsolated g ⟨path, g.nodeLines⟩)

/-- The findings on the credentials of a document, whose nodes are located in a text. -/
def credentialFindings (path t : Text) (document : Json.Members) : List Finding :=
  (nodeObjects document).flatMap fun node =>
    (Credential.hardcoded node).map (Credential.finding (Workflow.Places.of t) path node)

/-- The findings on placeholders. -/
def placeholderFindings (path t : Text) : List Finding :=
  InstparmQuote.run t path ++ PlaceholderSyntax.run t path

/-- The findings on the settings of a document. -/
def settingFindings (path : Text) (document : Json.Members) : List Finding :=
  RequiredSettings.required.filterMap fun r => RequiredSettings.check? path document r.1 r.2

/-- The findings on the properties of a document. -/
def propertyFindings (path : Text) (document : Json.Members) : List Finding :=
  (ForbiddenProperties.forbidden.filter fun f => (document.get? f.1).isSome).map fun f =>
    ForbiddenProperties.finding path f.1 f.2

/-- The findings on the webhooks of a document, whose nodes are located in a text. -/
def webhookFindings (path t : Text) (document : Json.Members) : List Finding :=
  ((nodeObjects document).filter WebhookId.lacksId).map
    (WebhookId.finding (Workflow.Places.of t) path)

/-- The findings whose fixes edit the document. -/
def editFindings (path t : Text) (document : Json.Members) : List Finding :=
  settingFindings path document ++ propertyFindings path document ++ webhookFindings path t document

section

variable {path t : Text} {g : Workflow.Graph} {document : Json.Members}

theorem onDocument_of_read (h : Json.read t = .ok (.object document))
    (findings : Json.Members → List Finding) : onDocument t findings = .ok (findings document) := by
  rw [onDocument, Json.readObject_eq_ok_iff.2 h]

/-- A check of documents gives its findings on a text that is one. -/
theorem runIsolated_onDocument (h : Json.read t = .ok (.object document)) (info : CheckInfo)
    {run : (text path : Text) → Except Fault (List Finding)}
    {findings : Json.Members → List Finding} (hrun : run t path = onDocument t findings) :
    ContentCheck.runIsolated t path ⟨info, run⟩ = findings document := by
  unfold ContentCheck.runIsolated
  simp only [hrun, onDocument_of_read h]
  rfl

/-- What the built-in checks find on a workflow, part by part. -/
theorem examine_builtIn (h : Json.read t = .ok (.object document)) :
    Registry.builtIn.examine path t g =
      graphFindings path g ++ (placeholderFindings path t ++
        (credentialFindings path t document ++ editFindings path t document)) := by
  have hcredential : ContentCheck.runIsolated t path ⟨Credential.info, Credential.run⟩ =
      credentialFindings path t document := runIsolated_onDocument h _ rfl
  have hsettings : ContentCheck.runIsolated t path ⟨RequiredSettings.info, RequiredSettings.run⟩ =
      settingFindings path document := runIsolated_onDocument h _ rfl
  have hproperties : ContentCheck.runIsolated t path
      ⟨ForbiddenProperties.info, ForbiddenProperties.run⟩ = propertyFindings path document :=
    runIsolated_onDocument h _ rfl
  have hwebhooks : ContentCheck.runIsolated t path ⟨WebhookId.info, WebhookId.run⟩ =
      webhookFindings path t document := runIsolated_onDocument h _ rfl
  have hinstparm : ContentCheck.runIsolated t path (.total InstparmQuote.info InstparmQuote.run) =
      InstparmQuote.run t path := rfl
  have hsyntax : ContentCheck.runIsolated t path
      (.total PlaceholderSyntax.info PlaceholderSyntax.run) = PlaceholderSyntax.run t path := rfl
  unfold Registry.examine
  rw [graphFindings]
  congr 1
  simp only [Registry.builtIn, List.flatMap_cons, List.flatMap_nil, List.append_nil, hinstparm,
    hsyntax, hcredential, hsettings, hproperties, hwebhooks, placeholderFindings, editFindings,
    List.append_assoc]

end

/-! ## What can be mended -/

/-- Every finding of some is on a rule and has no fix. -/
def FixlessOn (rule : Text) (findings : List Finding) : Prop :=
  ∀ f ∈ findings, f.rule = rule ∧ f.fix = none

/-- Every finding of some is on a rule and has a fix. -/
def FixableOn (rule : Text) (findings : List Finding) : Prop :=
  ∀ f ∈ findings, f.rule = rule ∧ f.fixable = true

variable (path t : Text) (g : Workflow.Graph) (document : Json.Members)

theorem fixlessOn_nil (rule : Text) : FixlessOn rule [] := fun _ hf => absurd hf List.not_mem_nil

theorem fixlessOn_singleton {f : Finding} (h : f.fix = none) : FixlessOn f.rule [f] := by
  intro f' hf
  rw [List.mem_singleton.1 hf]
  exact ⟨rfl, h⟩

theorem fixlessOn_map {α : Type} {rule : Text} {as : List α} {finding : α → Finding}
    (h : ∀ a, (finding a).rule = rule ∧ (finding a).fix = none) :
    FixlessOn rule (as.map finding) := by
  intro f hf
  obtain ⟨a, -, rfl⟩ := List.mem_map.1 hf
  exact h a

theorem FixlessOn.of_mem {rule : Text} {rules : List Text} {findings : List Finding}
    (h : FixlessOn rule findings) (hrule : rule ∈ rules) :
    ∀ f ∈ findings, f.rule ∈ rules ∧ f.fix = none := by
  intro f hf
  obtain ⟨rfl, hfix⟩ := h f hf
  exact ⟨hrule, hfix⟩

theorem fixlessOn_initRequired (c : CheckContext) :
    FixlessOn InitRequired.info.id (InitRequired.run g c) := by
  unfold InitRequired.run
  split
  · exact fixlessOn_nil _
  · simp only
    split
    · exact fixlessOn_nil _
    · exact fixlessOn_singleton rfl

theorem fixlessOn_submitResult (c : CheckContext) :
    FixlessOn SubmitResult.info.id (SubmitResult.run g c) := by
  unfold SubmitResult.run
  split
  · exact fixlessOn_nil _
  · split
    · exact fixlessOn_nil _
    · exact fixlessOn_singleton rfl

theorem fixlessOn_subworkflowInput (c : CheckContext) :
    FixlessOn SubworkflowInput.info.id (SubworkflowInput.run g c) := by
  unfold SubworkflowInput.run
  split
  · exact fixlessOn_nil _
  · split
    · exact fixlessOn_nil _
    · exact fixlessOn_singleton rfl

theorem fixlessOn_scheduleWebhook (c : CheckContext) :
    FixlessOn ScheduleWebhook.info.id (ScheduleWebhook.run g c) := by
  unfold ScheduleWebhook.run
  split
  · exact fixlessOn_map fun _ => ⟨rfl, rfl⟩
  · exact fixlessOn_map fun _ => ⟨rfl, rfl⟩

theorem fixlessOn_errorBranch (c : CheckContext) :
    FixlessOn ErrorBranch.info.id (ErrorBranch.run g c) := fixlessOn_map fun _ => ⟨rfl, rfl⟩

/-- The findings on a graph, check by check. -/
theorem graphFindings_eq :
    graphFindings path g =
      InitRequired.run g ⟨path, g.nodeLines⟩ ++ (SubmitResult.run g ⟨path, g.nodeLines⟩ ++
        (SubworkflowInput.run g ⟨path, g.nodeLines⟩ ++ (ScheduleWebhook.run g ⟨path, g.nodeLines⟩ ++
          ErrorBranch.run g ⟨path, g.nodeLines⟩))) := by
  simp only [graphFindings, Registry.builtIn, List.flatMap_cons, List.flatMap_nil, List.append_nil]
  rfl

/-- What is found on a graph is on a rule of the checks of graphs and has no fix. -/
theorem rule_mem_of_mem_graphFindings {f : Finding} (hf : f ∈ graphFindings path g) :
    f.rule ∈ Registry.builtIn.graph.map (·.info.id) ∧ f.fix = none := by
  have hrules : Registry.builtIn.graph.map (·.info.id) = [InitRequired.info.id,
    SubmitResult.info.id, SubworkflowInput.info.id, ScheduleWebhook.info.id, ErrorBranch.info.id] :=
    rfl
  rw [graphFindings_eq] at hf
  rw [hrules]
  revert f
  simp only [List.forall_mem_append]
  refine ⟨?_, ?_, ?_, ?_, ?_⟩
  · exact (fixlessOn_initRequired g _).of_mem (by simp)
  · exact (fixlessOn_submitResult g _).of_mem (by simp)
  · exact (fixlessOn_subworkflowInput g _).of_mem (by simp)
  · exact (fixlessOn_scheduleWebhook g _).of_mem (by simp)
  · exact (fixlessOn_errorBranch g _).of_mem (by simp)

theorem fixlessOn_credentialFindings :
    FixlessOn Credential.info.id (credentialFindings path t document) := by
  intro f hf
  obtain ⟨node, -, hf⟩ := List.mem_flatMap.1 hf
  obtain ⟨credential, -, rfl⟩ := List.mem_map.1 hf
  exact ⟨rfl, rfl⟩

/-- The findings that no fix mends: those on the graph, and those on credentials. -/
def standingFindings : List Finding :=
  graphFindings path g ++ credentialFindings path t document

/-- No finding that stands has a fix, or says that the file is no workflow. -/
theorem of_mem_standingFindings {f : Finding} (hf : f ∈ standingFindings path t g document) :
    f.fix = none ∧ f.rule ≠ Obstacle.notAWorkflow.rule := by
  rcases List.mem_append.1 hf with hf | hf
  · obtain ⟨hrule, hfix⟩ := rule_mem_of_mem_graphFindings path g hf
    refine ⟨hfix, fun heq => ?_⟩
    rw [heq] at hrule
    exact absurd hrule (by decide)
  · obtain ⟨hrule, hfix⟩ := fixlessOn_credentialFindings path t document f hf
    refine ⟨hfix, fun heq => ?_⟩
    rw [heq] at hrule
    exact absurd hrule (by decide)

theorem unlined_graphFindings {g g' : Workflow.Graph} (h : g'.unplaced = g.unplaced) :
    (graphFindings path g').map Finding.unlined = (graphFindings path g).map Finding.unlined := by
  have hpath : (⟨path, g'.nodeLines⟩ : CheckContext).path =
    (⟨path, g.nodeLines⟩ : CheckContext).path := rfl
  rw [graphFindings_eq, graphFindings_eq]
  simp only [List.map_append]
  rw [ignoresIds_initRequired.map_unlined h hpath, ignoresIds_submitResult.map_unlined h hpath,
    ignoresIds_subworkflowInput.map_unlined h hpath, ignoresIds_scheduleWebhook.map_unlined h hpath,
    ignoresIds_errorBranch.map_unlined h hpath]

theorem fixableOn_map {α : Type} {rule : Text} {as : List α} {finding : α → Finding}
    (h : ∀ a, (finding a).rule = rule ∧ (finding a).fixable = true) :
    FixableOn rule (as.map finding) := by
  intro f hf
  obtain ⟨a, -, rfl⟩ := List.mem_map.1 hf
  exact h a

theorem fixableOn_instparmQuote : FixableOn InstparmQuote.info.id (InstparmQuote.run t path) :=
  fixableOn_map fun _ => ⟨rfl, rfl⟩

theorem fixableOn_placeholderSyntax :
    FixableOn PlaceholderSyntax.info.id (PlaceholderSyntax.run t path) :=
  fixableOn_map fun _ => ⟨rfl, rfl⟩

theorem fixableOn_propertyFindings :
    FixableOn ForbiddenProperties.info.id (propertyFindings path document) :=
  fixableOn_map fun _ => ⟨rfl, rfl⟩

theorem fixableOn_webhookFindings :
    FixableOn WebhookId.info.id (webhookFindings path t document) :=
  fixableOn_map fun _ => ⟨rfl, rfl⟩

/-- The finding on a setting is on its rule, and its fix sets the setting. -/
theorem exists_of_check?_eq_some {key value : Text} {f : Finding}
    (h : RequiredSettings.check? path document key value = some f) :
    f.rule = RequiredSettings.info.id ∧ ∃ description,
      f.fix = some (.ofEdit description (RequiredSettings.setSetting key (.string value))) := by
  unfold RequiredSettings.check? at h
  split at h
  · obtain rfl := Option.some.inj h
    exact ⟨rfl, _, rfl⟩
  · split at h
    · simp at h
    · obtain rfl := Option.some.inj h
      exact ⟨rfl, _, rfl⟩

theorem fixableOn_settingFindings :
    FixableOn RequiredSettings.info.id (settingFindings path document) := by
  intro f hf
  obtain ⟨r, -, hr⟩ := List.mem_filterMap.1 hf
  obtain ⟨hrule, description, hfix⟩ := exists_of_check?_eq_some path document hr
  exact ⟨hrule, by rw [Finding.fixable, hfix]; rfl⟩

/-! ## Documents on which nothing is found -/

theorem settingFindings_eq_nil_iff :
    settingFindings path document = [] ↔
      ∀ r ∈ RequiredSettings.required, RequiredSettings.Settled document r := by
  rw [settingFindings, List.filterMap_eq_nil_iff]
  exact forall₂_congr fun r hr => RequiredSettings.check?_eq_none_iff hr

theorem propertyFindings_eq_nil_iff :
    propertyFindings path document = [] ↔
      ∀ f ∈ ForbiddenProperties.forbidden, document.get? f.1 = none := by
  rw [propertyFindings, List.map_eq_nil_iff, List.filter_eq_nil_iff]
  refine forall₂_congr ?_
  intro f _
  cases document.get? f.1 <;> simp

theorem webhookFindings_eq_nil_iff :
    webhookFindings path t document = [] ↔
      ∀ node ∈ nodeObjects document, ¬ WebhookId.lacksId node = true := by
  rw [webhookFindings, List.map_eq_nil_iff, List.filter_eq_nil_iff]

/-! ## The edits of the fixes -/

/-- The settings on which there are findings. -/
def unsettled : List (Text × Text) :=
  RequiredSettings.required.filter fun r =>
    (RequiredSettings.check? path document r.1 r.2).isSome

/-- The properties on which there are findings. -/
def unwanted : List Text :=
  (ForbiddenProperties.forbidden.filter fun f => (document.get? f.1).isSome).map (·.1)

/-- The names of the webhooks on which there are findings. -/
def unidentified : List Json :=
  ((nodeObjects document).filter WebhookId.lacksId).map WebhookId.nameOf

theorem mem_unsettled_iff {r : Text × Text} (hr : r ∈ RequiredSettings.required) :
    r ∈ unsettled path document ↔ ¬ RequiredSettings.Settled document r := by
  have hsome : (RequiredSettings.check? path document r.1 r.2).isSome = true ↔
      ¬ RequiredSettings.check? path document r.1 r.2 = none := by
    cases RequiredSettings.check? path document r.1 r.2 <;> simp
  rw [unsettled, List.mem_filter, hsome, RequiredSettings.check?_eq_none_iff hr]
  exact and_iff_right hr

/-- The properties that are left out are forbidden ones. -/
theorem mem_unwanted_iff {name : Text} :
    name ∈ unwanted document ↔
      (document.get? name).isSome = true ∧ name ∈ ForbiddenProperties.forbidden.map (·.1) := by
  unfold unwanted
  constructor
  · intro hmem
    obtain ⟨f, hf, rfl⟩ := List.mem_map.1 hmem
    obtain ⟨hf, hsome⟩ := List.mem_filter.1 hf
    exact ⟨hsome, List.mem_map_of_mem hf⟩
  · rintro ⟨hsome, hmem⟩
    obtain ⟨f, hf, rfl⟩ := List.mem_map.1 hmem
    exact List.mem_map.2 ⟨f, List.mem_filter.2 ⟨hf, hsome⟩, rfl⟩

theorem mem_unidentified_iff {name : Json} :
    name ∈ unidentified document ↔
      ∃ node ∈ nodeObjects document, WebhookId.lacksId node = true ∧
        WebhookId.nameOf node = name := by
  simp only [unidentified, List.mem_map, List.mem_filter, and_assoc]

/-- The fixes of findings that all have one. -/
theorem filterMap_fix_map {α : Type} {finding : α → Finding} {fix : α → Fix}
    (h : ∀ a, (finding a).fix = some (fix a)) (as : List α) :
    (as.map finding).filterMap (·.fix) = as.map fix := by
  rw [List.filterMap_map, ← List.filterMap_eq_map]
  exact congrArg (List.filterMap · as) (funext h)

theorem makes_settingFindings :
    List.Forall₂ Fix.Makes ((settingFindings path document).filterMap (·.fix))
      ((unsettled path document).map fun r => RequiredSettings.setSetting r.1 (.string r.2)) := by
  unfold settingFindings unsettled
  generalize RequiredSettings.required = rs
  induction rs with
  | nil => exact .nil
  | cons r rs ih =>
    cases hcheck : RequiredSettings.check? path document r.1 r.2 with
    | none => simpa [hcheck] using ih
    | some f =>
      obtain ⟨-, description, hfix⟩ := exists_of_check?_eq_some path document hcheck
      simp only [List.filterMap_cons, hcheck, hfix, List.filter_cons, Option.isSome_some, if_true,
        List.map_cons]
      exact .cons ⟨description, rfl⟩ ih

theorem makes_propertyFindings :
    List.Forall₂ Fix.Makes ((propertyFindings path document).filterMap (·.fix))
      ((unwanted document).map ForbiddenProperties.dropProperty) := by
  have hfixes : (propertyFindings path document).filterMap (·.fix) =
      (ForbiddenProperties.forbidden.filter fun f => (document.get? f.1).isSome).map fun f =>
        Fix.ofEdit ("Remove \"" ++ f.1 ++ "\" property")
          (ForbiddenProperties.dropProperty f.1) := filterMap_fix_map (fun _ => rfl) _
  rw [hfixes, unwanted, List.map_map, List.forall₂_map_left_iff, List.forall₂_map_right_iff,
    List.forall₂_same]
  intro f _
  exact ⟨_, rfl⟩

theorem makes_webhookFindings :
    List.Forall₂ Fix.Makes ((webhookFindings path t document).filterMap (·.fix))
      ((unidentified document).map WebhookId.addId) := by
  have hfixes : (webhookFindings path t document).filterMap (·.fix) =
      ((nodeObjects document).filter WebhookId.lacksId).map fun node =>
        Fix.ofEdit ("Add webhookId \"" ++ WebhookId.generated (WebhookId.nameOf node)
          ++ "\" to webhook node \"" ++ (WebhookId.nameOf node).shown ++ "\"")
          (WebhookId.addId (WebhookId.nameOf node)) := filterMap_fix_map (fun _ => rfl) _
  rw [hfixes, unidentified, List.map_map, List.forall₂_map_left_iff, List.forall₂_map_right_iff,
    List.forall₂_same]
  intro node _
  exact ⟨_, rfl⟩

end WorkflowLint
