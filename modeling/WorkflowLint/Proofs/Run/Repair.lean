import WorkflowLint.Proofs.Check.BuiltIn
import WorkflowLint.Proofs.Run.Fixing

/-!
# What the built-in fixes make of a workflow

The fixes of placeholders come first, and give a text (`respelled`); if that is an object still, the
edits of the others are made of it one after the other (`repaired`).  The text that comes out is
read as the edited document (`read_mended`) and has the graph of the respelled text, but for lines
(`parse_repaired`).
-/

namespace WorkflowLint

open Check

/-! ## Choices of findings on one rule -/

namespace Options

variable (o : Options) {rule : Text} {findings : List Finding}

/-- Whether the options of a run select a rule. -/
def selects (rule : Text) : Bool := Finding.selected o.rules o.excludeRules rule

/-- Some elements if a rule is selected, and none otherwise. -/
def ifSelected {α : Type} (rule : Text) (as : List α) : List α := if o.selects rule then as else []

theorem mem_ifSelected_iff {α : Type} {as : List α} {a : α} :
    a ∈ o.ifSelected rule as ↔ o.selects rule = true ∧ a ∈ as := by
  unfold ifSelected
  split
  · next h => simp [h]
  · next h => simp [h]

theorem filterMap_fix_escalate (strict : Bool) (findings : List Finding) :
    (Finding.escalate strict findings).filterMap (·.fix) = findings.filterMap (·.fix) := by
  unfold Finding.escalate
  split
  · rw [List.filterMap_map]
    congr 1
    exact funext Finding.fix_hardened
  · rfl

theorem choose_of_rule (h : ∀ f ∈ findings, f.rule = rule) :
    o.choose findings = Finding.escalate o.strict (o.ifSelected rule findings) := by
  unfold choose
  congr 1
  unfold ifSelected Finding.select selects
  split
  · next hsel => exact List.filter_eq_self.2 fun f hf => by rw [h f hf, hsel]
  · next hsel => exact List.filter_eq_nil_iff.2 fun f hf => by rwa [h f hf]

/-- The fixes of chosen findings on one rule. -/
theorem filterMap_fix_choose (h : FixableOn rule findings) :
    (o.choose findings).filterMap (·.fix) = o.ifSelected rule (findings.filterMap (·.fix)) := by
  rw [choose_of_rule o fun f hf => (h f hf).1, filterMap_fix_escalate]
  unfold ifSelected
  split <;> rfl

theorem filterMap_fix_choose_eq_nil (h : ∀ f ∈ findings, f.fix = none) :
    (o.choose findings).filterMap (·.fix) = [] :=
  List.filterMap_eq_nil_iff.2 fun _ hf => o.fix_of_mem_choose h hf

theorem choose_eq_nil_iff (h : FixableOn rule findings) :
    o.choose findings = [] ↔ (o.selects rule = true → findings = []) := by
  rw [choose_of_rule o fun f hf => (h f hf).1]
  unfold Finding.escalate ifSelected
  cases o.strict <;> cases o.selects rule <;> simp

theorem unlined_choose (findings : List Finding) :
    (o.choose findings).map Finding.unlined = o.choose (findings.map Finding.unlined) := by
  have hhardened : ∀ f : Finding, f.unlined.hardened = f.hardened.unlined := by
    rintro ⟨_, severity, _, _, _, _, _, _, _⟩
    cases severity <;> rfl
  exact (choose_map Finding.unlined (fun _ => rfl) hhardened).symm

end Options

/-! ## The text that comes out -/

section

variable (o : Options) (path t : Text) (g : Workflow.Graph) (document document₁ : Json.Members)

/-- A text after the fixes of its placeholders. -/
def respelled : Text := Fixing.mended t (o.choose (placeholderFindings path t))

/-- A document after the edits for what was found on another one. -/
def repaired : Json.Members :=
  WebhookId.identify (o.ifSelected WebhookId.info.id (unidentified document)) <|
    ForbiddenProperties.sanitise
        (o.ifSelected ForbiddenProperties.info.id (unwanted document)) <|
      RequiredSettings.settle (o.ifSelected RequiredSettings.info.id (unsettled path document))
        document₁

/-- The fixes of a run that edit the document. -/
def editFixes : List Fix :=
  o.ifSelected RequiredSettings.info.id ((settingFindings path document).filterMap (·.fix)) ++
    o.ifSelected ForbiddenProperties.info.id ((propertyFindings path document).filterMap (·.fix)) ++
    o.ifSelected WebhookId.info.id ((webhookFindings path t document).filterMap (·.fix))

/-- The edits of these fixes. -/
def edits : List (Json.Members → Json.Members) :=
  o.ifSelected RequiredSettings.info.id
      ((unsettled path document).map fun r => RequiredSettings.setSetting r.1 (.string r.2)) ++
    o.ifSelected ForbiddenProperties.info.id
      ((unwanted document).map ForbiddenProperties.dropProperty) ++
    o.ifSelected WebhookId.info.id ((unidentified document).map WebhookId.addId)

theorem makes_ifSelected {rule : Text} {fixes : List Fix}
    {edits : List (Json.Members → Json.Members)} (h : List.Forall₂ Fix.Makes fixes edits) :
    List.Forall₂ Fix.Makes (o.ifSelected rule fixes) (o.ifSelected rule edits) := by
  unfold Options.ifSelected
  split
  · exact h
  · exact .nil

theorem makes_editFixes :
    List.Forall₂ Fix.Makes (editFixes o path t document) (edits o path document) :=
  List.rel_append (List.rel_append (makes_ifSelected o (makes_settingFindings path document))
    (makes_ifSelected o (makes_propertyFindings path document)))
    (makes_ifSelected o (makes_webhookFindings path t document))

theorem gentle_of_mem_edits : ∀ edit ∈ edits o path document, Gentle edit := by
  intro edit hedit
  rcases List.mem_append.1 hedit with hedit | hedit
  · rcases List.mem_append.1 hedit with hedit | hedit
    · obtain ⟨r, -, rfl⟩ := List.mem_map.1 (o.mem_ifSelected_iff.1 hedit).2
      exact RequiredSettings.gentle_setSetting r.1 r.2
    · obtain ⟨key, -, rfl⟩ := List.mem_map.1 (o.mem_ifSelected_iff.1 hedit).2
      exact ForbiddenProperties.gentle_dropProperty key
  · obtain ⟨name, -, rfl⟩ := List.mem_map.1 (o.mem_ifSelected_iff.1 hedit).2
    exact WebhookId.gentle_addId name

theorem ifSelected_map {α β : Type} (rule : Text) (f : α → β) (as : List α) :
    o.ifSelected rule (as.map f) = (o.ifSelected rule as).map f := by
  unfold Options.ifSelected
  split <;> rfl

/-- The edits, one after the other, repair the document. -/
theorem foldl_edits :
    (edits o path document).foldl (fun ms edit => edit ms) document₁ =
      repaired o path document document₁ := by
  simp only [edits, ifSelected_map, List.foldl_append, List.foldl_map]
  rfl

variable {document} (h : Json.read t = .ok (.object document))
include h

/-- The fixes of a run: those of placeholders, and those that edit the document. -/
theorem mended_examine :
    Fixing.mended t (o.choose (Registry.builtIn.examine path t g)) =
      Fix.applyAll (editFixes o path t document) (respelled o path t) := by
  have hplaceholders := Fixing.map_snd_candidates (o.choose (placeholderFindings path t))
  rw [respelled, Fixing.mended, Fixing.mended, hplaceholders, Fixing.map_snd_candidates,
    examine_builtIn h, editFindings]
  simp only [Options.choose_append, List.filterMap_append,
    o.filterMap_fix_choose_eq_nil fun f hf => (rule_mem_of_mem_graphFindings path g hf).2,
    o.filterMap_fix_choose_eq_nil fun f hf => (fixlessOn_credentialFindings path t document f hf).2,
    o.filterMap_fix_choose (fixableOn_settingFindings path document),
    o.filterMap_fix_choose (fixableOn_propertyFindings path document),
    o.filterMap_fix_choose (fixableOn_webhookFindings path t document), List.nil_append]
  rw [Fix.applyAll, List.foldl_append]
  rfl

/-- The text that comes out is read as the repaired document. -/
theorem read_mended {document₁ : Json.Members}
    (h₁ : Json.read (respelled o path t) = .ok (.object document₁)) :
    Json.read (Fixing.mended t (o.choose (Registry.builtIn.examine path t g))) =
      .ok (.object (repaired o path document document₁)) := by
  rw [mended_examine o path t g h, ← foldl_edits]
  exact Fix.read_applyAll (makes_editFixes o path t document) (gentle_of_mem_edits o path document) h₁

/-- The fixes of a run make no carriage return. -/
theorem noReturn_mended (ht : t.NoReturn) :
    (Fixing.mended t (o.choose (Registry.builtIn.examine path t g))).NoReturn := by
  have hplaceholders : ∀ fix ∈ (o.choose (placeholderFindings path t)).filterMap (·.fix),
      fix.KeepsLineEnds := by
    intro fix hfix
    obtain ⟨f, hf, hf'⟩ := List.mem_filterMap.1 hfix
    obtain ⟨f', hmem, -, -, -, hsame⟩ := Options.exists_of_mem_choose hf
    rw [hsame] at hf'
    rcases List.mem_append.1 hmem with hmem | hmem
    · obtain ⟨found, hfound, rfl⟩ := List.mem_map.1 hmem
      obtain rfl : InstparmQuote.fix found.2 = fix := Option.some.inj hf'
      exact InstparmQuote.keepsLineEnds_fix hfound
    · obtain ⟨found, hfound, rfl⟩ := List.mem_map.1 hmem
      obtain rfl : PlaceholderSyntax.fix found.2 = fix := Option.some.inj hf'
      exact PlaceholderSyntax.keepsLineEnds_fix hfound
  rw [mended_examine o path t g h, respelled, Fixing.mended, Fixing.map_snd_candidates]
  exact Fix.noReturn_applyAll (Fix.keepsLineEnds_of_makes (makes_editFixes o path t document)
    (gentle_of_mem_edits o path document)) (Fix.noReturn_applyAll hplaceholders ht)

end

/-! ## What the repaired document has -/

section

variable (o : Options) (path : Text) (document : Json.Members) {document₁ : Json.Members}

/-- What becomes of the nodes of a document that is repaired. -/
def repairedNode (node : Json.Members) : Json.Members :=
  WebhookId.identifyNode (o.ifSelected WebhookId.info.id (unidentified document)) node

theorem keepsParts_repairedNode : Workflow.KeepsParts (repairedNode o document) :=
  fun node _ hname => WebhookId.get?_identifyNode _ node hname

/-- A repair concerns nothing but settings, nodes and forbidden properties. -/
theorem get?_repaired {name : Text} (hsettings : name ≠ ↑"settings") (hnodes : name ≠ ↑"nodes") :
    (repaired o path document document₁).get? name =
      if name ∈ o.ifSelected ForbiddenProperties.info.id (unwanted document) then none
      else document₁.get? name := by
  rw [repaired, WebhookId.get?_identify _ hnodes, ForbiddenProperties.get?_sanitise,
    RequiredSettings.get?_settle _ hsettings]

theorem get?_repaired_of_not_forbidden {name : Text} (hsettings : name ≠ ↑"settings")
    (hnodes : name ≠ ↑"nodes") (hname : name ∉ ForbiddenProperties.forbidden.map (·.1)) :
    (repaired o path document document₁).get? name = document₁.get? name := by
  rw [get?_repaired o path document hsettings hnodes, if_neg]
  intro hmem
  exact hname ((mem_unwanted_iff document).1 (o.mem_ifSelected_iff.1 hmem).2).2

theorem rawNodes?_congr {ms ms' : Json.Members} (h : ms'.get? "nodes" = ms.get? "nodes") :
    rawNodes? ms' = rawNodes? ms := by
  rw [rawNodes?, h, rawNodes?]

theorem rawNodes?_repaired (document₁ : Json.Members) :
    rawNodes? (repaired o path document document₁) =
      (rawNodes? document₁).map (List.map (changeObject (repairedNode o document))) := by
  -- neither dropping properties nor setting settings concerns the nodes
  have hkept : ∀ ms, rawNodes? (ForbiddenProperties.sanitise
      (o.ifSelected ForbiddenProperties.info.id (unwanted document)) ms) = rawNodes? ms := by
    intro ms
    refine rawNodes?_congr ?_
    rw [ForbiddenProperties.get?_sanitise, if_neg]
    intro hmem
    exact absurd ((mem_unwanted_iff document).1 (o.mem_ifSelected_iff.1 hmem).2).2 (by decide)
  have hsettled : ∀ rs ms, rawNodes? (RequiredSettings.settle rs ms) = rawNodes? ms := fun rs ms =>
    rawNodes?_congr (RequiredSettings.get?_settle rs (by decide))
  rw [repaired, WebhookId.rawNodes?_identify, hkept, hsettled]
  rfl

theorem nodeObjects_repaired :
    nodeObjects (repaired o path document document₁) =
      (nodeObjects document₁).map (repairedNode o document) :=
  nodeObjects_of_rawNodes? (rawNodes?_repaired o path document document₁)

theorem settled_repaired_iff {r : Text × Text} (hr : r ∈ RequiredSettings.required) :
    RequiredSettings.Settled (repaired o path document document₁) r ↔
      r ∈ o.ifSelected RequiredSettings.info.id (unsettled path document) ∨
        RequiredSettings.Settled document₁ r := by
  have hmem : ∀ r' ∈ o.ifSelected RequiredSettings.info.id (unsettled path document),
      r' ∈ RequiredSettings.required := fun r' hr' =>
    (List.mem_filter.1 (o.mem_ifSelected_iff.1 hr').2).1
  have hget : (repaired o path document document₁).get? "settings" =
      (RequiredSettings.settle
        (o.ifSelected RequiredSettings.info.id (unsettled path document)) document₁).get?
          "settings" := by
    rw [repaired, WebhookId.get?_identify _ (by decide), ForbiddenProperties.get?_sanitise, if_neg]
    intro hmem
    exact absurd ((mem_unwanted_iff document).1 (o.mem_ifSelected_iff.1 hmem).2).2 (by decide)
  rw [← RequiredSettings.settled_settle_iff hr hmem, RequiredSettings.Settled,
    RequiredSettings.settings, hget]
  rfl

/-! ## What is left to mend -/

/-- Nothing of a document is to be edited exactly when its settings, its properties and its webhooks
are in order, as far as their rules are selected. -/
theorem choose_editFindings_eq_nil_iff (t : Text) (ms : Json.Members) :
    o.choose (editFindings path t ms) = [] ↔
      (o.selects RequiredSettings.info.id = true →
        ∀ r ∈ RequiredSettings.required, RequiredSettings.Settled ms r) ∧
      (o.selects ForbiddenProperties.info.id = true →
        ∀ f ∈ ForbiddenProperties.forbidden, ms.get? f.1 = none) ∧
      (o.selects WebhookId.info.id = true →
        ∀ node ∈ nodeObjects ms, ¬ WebhookId.lacksId node = true) := by
  rw [editFindings, Options.choose_append, Options.choose_append, List.append_eq_nil_iff,
    List.append_eq_nil_iff, o.choose_eq_nil_iff (fixableOn_settingFindings path ms),
    o.choose_eq_nil_iff (fixableOn_propertyFindings path ms),
    o.choose_eq_nil_iff (fixableOn_webhookFindings path t ms), and_assoc]
  exact and_congr (imp_congr_right fun _ => settingFindings_eq_nil_iff path ms)
    (and_congr (imp_congr_right fun _ => propertyFindings_eq_nil_iff path ms)
      (imp_congr_right fun _ => webhookFindings_eq_nil_iff path t ms))

/-- Nothing is to be edited after a repair exactly when what was in order before it was in order in
the document that was repaired, and each of its webhooks without an id has the name of one for which
there was an id that is not empty. -/
theorem choose_editFindings_repaired_iff (t : Text) :
    o.choose (editFindings path t (repaired o path document document₁)) = [] ↔
      (o.selects RequiredSettings.info.id = true → ∀ r ∈ RequiredSettings.required,
        RequiredSettings.Settled document r → RequiredSettings.Settled document₁ r) ∧
      (o.selects ForbiddenProperties.info.id = true → ∀ f ∈ ForbiddenProperties.forbidden,
        document.get? f.1 = none → document₁.get? f.1 = none) ∧
      (o.selects WebhookId.info.id = true → ∀ node ∈ nodeObjects document₁,
        WebhookId.lacksId node = true → ∃ node' ∈ nodeObjects document,
          WebhookId.lacksId node' = true ∧
          WebhookId.sameName (WebhookId.nameOf node) (WebhookId.nameOf node') = true ∧
          WebhookId.generated (WebhookId.nameOf node') ≠ []) := by
  rw [choose_editFindings_eq_nil_iff]
  refine and_congr (imp_congr_right fun hsel => ?_) (and_congr (imp_congr_right fun hsel => ?_)
    (imp_congr_right fun hsel => ?_))
  · refine forall₂_congr ?_
    intro r hr
    rw [settled_repaired_iff o path document hr, o.mem_ifSelected_iff,
      mem_unsettled_iff path document hr]
    simp only [hsel, true_and]
    exact imp_iff_not_or.symm
  · refine forall₂_congr ?_
    intro f hf
    have hname : f.1 ∈ ForbiddenProperties.forbidden.map (·.1) := List.mem_map_of_mem hf
    have hkept : ∀ f ∈ ForbiddenProperties.forbidden, f.1 ≠ ↑"settings" ∧ f.1 ≠ ↑"nodes" := by
      decide
    have hmem : f.1 ∈ o.ifSelected ForbiddenProperties.info.id (unwanted document) ↔
        (document.get? f.1).isSome = true := by
      rw [o.mem_ifSelected_iff, mem_unwanted_iff document]
      simp [hsel, hname]
    rw [get?_repaired o path document (hkept f hf).1 (hkept f hf).2]
    simp only [hmem]
    cases document.get? f.1 <;> simp
  · rw [nodeObjects_repaired, List.forall_mem_map]
    refine forall₂_congr ?_
    intro node _
    rw [repairedNode, WebhookId.lacksId_identifyNode_iff]
    simp only [o.mem_ifSelected_iff, hsel, true_and, mem_unidentified_iff]
    constructor
    · -- no id that is not empty means that the webhook still lacks one
      intro hmended hlacks
      by_contra hnone
      refine hmended ⟨hlacks, ?_⟩
      rintro _ ⟨node', hnode', hlacks', rfl⟩ hname
      by_contra hfull
      exact hnone ⟨node', hnode', hlacks', hname, hfull⟩
    · rintro hmended ⟨hlacks, hempty⟩
      obtain ⟨node', hnode', hlacks', hname, hfull⟩ := hmended hlacks
      exact hfull (hempty _ ⟨node', hnode', hlacks', rfl⟩ hname)

/-! ## The graph of what comes out -/

theorem parse_of_read {t : Text} {ms : Json.Members} (h : Json.read t = .ok (.object ms)) :
    Workflow.Graph.parse t =
      match Workflow.Graph.ofDocument t (.object ms) with
      | .error e => .error (.invalid e)
      | .ok g => .ok g := by
  unfold Workflow.Graph.parse
  cases hg : Workflow.Graph.ofDocument t (.object ms) with
  | error e => simp only [h, hg]
  | ok g => simp only [h, hg]

theorem exists_read_of_parse {t : Text} {g : Workflow.Graph} (h : Workflow.Graph.parse t = .ok g) :
    ∃ ms, Json.read t = .ok (.object ms) := by
  unfold Workflow.Graph.parse at h
  split at h
  · simp at h
  · simp at h
  · simp at h
  · next v hread =>
    cases v with
    | object ms => exact ⟨ms, hread⟩
    | _ => simp [Workflow.Graph.ofDocument] at h

/-- A repaired document is a workflow exactly when the document was one, and the graphs are equal but
for lines. -/
theorem parse_repaired {t₁ t' : Text} (h₁ : Json.read t₁ = .ok (.object document₁))
    (h' : Json.read t' = .ok (.object (repaired o path document document₁))) :
    (∃ e' e, Workflow.Graph.parse t' = .error e' ∧ Workflow.Graph.parse t₁ = .error e) ∨
      ∃ g' g₁, Workflow.Graph.parse t' = .ok g' ∧ Workflow.Graph.parse t₁ = .ok g₁ ∧
        g'.unplaced = g₁.unplaced := by
  rw [parse_of_read h₁, parse_of_read h']
  have hgraph := Workflow.ofDocument_unplaced (keepsParts_repairedNode o document) t₁ t'
    (rawNodes?_repaired o path document document₁)
    (get?_repaired_of_not_forbidden o path document (by decide) (by decide) (by decide))
    (get?_repaired_of_not_forbidden o path document (by decide) (by decide) (by decide))
  obtain ⟨e, hg', hg⟩ | ⟨g', g, hg', hg, heq⟩ := Workflow.eq_of_map_eq hgraph
  · rw [hg', hg]
    exact .inl ⟨_, _, rfl, rfl⟩
  · rw [hg', hg]
    exact .inr ⟨g', g, rfl, rfl, heq⟩

/-- The credentials of a repaired document are those of the document. -/
theorem unlined_credentialFindings_repaired (t₁ t' : Text) :
    (credentialFindings path t' (repaired o path document document₁)).map Finding.unlined =
      (credentialFindings path t₁ document₁).map Finding.unlined := by
  rw [credentialFindings, nodeObjects_repaired]
  exact unlined_credential (keepsParts_repairedNode o document) _ _ path (nodeObjects document₁)

end

end WorkflowLint
