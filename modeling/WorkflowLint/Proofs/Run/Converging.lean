import WorkflowLint.Proofs.Check.Retouching
import WorkflowLint.Proofs.Run.Dropping
import WorkflowLint.Proofs.Run.Repair

/-!
# When fixing a file once is enough

A run that fixes a file *converges* if validating the file again at once finds just what the run left,
but for lines, and nothing that can be mended.  The built-in fixes do not always do so: the id that a
webhook gets can be empty, and what the fixes write can have misspelt placeholders again.  The main
result, `converges_iff`, says what it takes (`RepairsAll`); for a file without misspelt
placeholders that comes down to the names of its webhooks (`converges_iff_of_spelled`).
-/

namespace WorkflowLint

open Job Check

/-- Validating at once what a run left finds nothing that can be mended, and for the rest what the
run found, but for lines; so another run that fixes files changes none. -/
structure Converges (r : Registry) (o : Options) (path : Text) (result : Result) (v : Workspace) :
    Prop where
  again : ∃ next, outcome (validateWorkflow r { o with fix := false } path) v = (.ok next, v) ∧
    (∀ f ∈ next.findings, f.fixable = false) ∧
    next.findings.map Finding.unlined = result.findings.map Finding.unlined
  stays : ∃ next, outcome (validateWorkflow r o path) v = (.ok next, v)

/-! ## Runs that write -/

section

variable {r : Registry} {o : Options} {path t : Text} {w v : Workspace} {g : Workflow.Graph}
  {result : Result}

/-- What a run finds that writes a file is what cannot be mended, and the file has the text that the
fixes made. -/
theorem written_of_rewrites (hw : o.wantsFixes = true) (hdry : o.dryRun = false)
    (h : readWorkflow w.store (w.store.absolute path) = .ok (t, g))
    (hrun : outcome (validateWorkflow r o path) w = (.ok result, v))
    (hrewrites : Rewrites w v (w.store.absolute path)) :
    result.findings = unfixable (chosenFindings r o (w.store.absolute path) t g) ∧
      v.store.absolute path = w.store.absolute path ∧
      v.store.read (w.store.absolute path) =
        .ok (Fixing.mended t (chosenFindings r o (w.store.absolute path) t g)).normaliseLineEnds := by
  rw [outcome_validateWorkflow_fixing h hw hdry] at hrun
  generalize chosenFindings r o (w.store.absolute path) t g = findings at hrun ⊢
  have hread : w.store.read (w.store.absolute path) = .ok t := (readWorkflow_eq_ok_iff.1 h).1
  have hend := Fixing.apply_ending w (w.store.absolute path) findings
  rw [Store.clean_absolute] at hend
  generalize outcome (Fixing.apply (w.store.absolute path) findings false) w = ended at hrun hend
  -- of the ways in which fixing can end, only one leaves the file with other bytes and a result
  have hsame : w ≠ v := fun heq => hrewrites (by rw [heq])
  cases hend with
  | idle => exact absurd (Prod.mk.inj hrun).2 hsame
  | noPath => simp at hrun
  | unreadable => exact absurd (Prod.mk.inj hrun).2 hsame
  | unchanged => exact absurd (Prod.mk.inj hrun).2 hsame
  | refused => exact absurd (Prod.mk.inj hrun).2 hsame
  | emptied => simp at hrun
  | @written u bytes hc hread' hm hr he =>
    obtain rfl : t = u := Except.ok.inj (hread.symm.trans hread')
    obtain ⟨hresult, rfl⟩ := Prod.mk.inj hrun
    obtain rfl := Except.ok.inj hresult
    obtain ⟨old, _, hold, -⟩ := Store.read_eq_ok_iff.1 hread
    refine ⟨?_, Store.absolute_setBytes, ?_⟩
    · simp only [if_neg (Fixing.changes_ne_zero hm)]
    · exact Store.read_setBytes (by rw [hold]; rfl) he

/-- A run that finds nothing that can be mended changes no file. -/
theorem outcome_validateWorkflow_of_unfixable
    (h : readWorkflow w.store (w.store.absolute path) = .ok (t, g))
    (hunfixable : ∀ f ∈ chosenFindings r o (w.store.absolute path) t g, f.fixable = false) :
    ∃ next, outcome (validateWorkflow r o path) w = (.ok next, w) := by
  by_cases hfix : o.wantsFixes = true ∧ o.dryRun = false
  · have hnone : Fixing.candidates (chosenFindings r o (w.store.absolute path) t g) = [] := by
      by_contra hne
      obtain ⟨f, hf, hfixable⟩ := Fixing.exists_fixable_of_candidates_ne_nil hne
      rw [hunfixable f hf] at hfixable
      exact Bool.false_ne_true hfixable
    have hout : outcome (Fixing.apply (w.store.absolute path)
        (chosenFindings r o (w.store.absolute path) t g) false) w =
        (.ok ⟨Path.clean (w.store.absolute path), 0, [], none⟩, w) := by
      rw [Fixing.outcome_apply, hnone]
      rfl
    rw [outcome_validateWorkflow_fixing h hfix.1 hfix.2, hout]
    exact ⟨_, rfl⟩
  · exact ⟨_, outcome_validateWorkflow_plain h (Options.readsOnly_iff.2 hfix)⟩

end

/-! ## What the built-in checks leave -/

section

variable {o : Options} {path t : Text} {g : Workflow.Graph} {document : Json.Members}

theorem chosenFindings_builtIn (h : Json.read t = .ok (.object document)) :
    chosenFindings Registry.builtIn o path t g =
      o.choose (graphFindings path g) ++ (o.choose (placeholderFindings path t) ++
        (o.choose (credentialFindings path t document) ++
          o.choose (editFindings path t document))) := by
  rw [chosenFindings, examine_builtIn h, Options.choose_append, Options.choose_append,
    Options.choose_append]

theorem fixable_of_mem_placeholderFindings {f : Finding} (hf : f ∈ placeholderFindings path t) :
    f.fixable = true := by
  rcases List.mem_append.1 hf with hf | hf
  · exact (fixableOn_instparmQuote path t f hf).2
  · exact (fixableOn_placeholderSyntax path t f hf).2

theorem fixable_of_mem_editFindings {f : Finding} (hf : f ∈ editFindings path t document) :
    f.fixable = true := by
  rcases List.mem_append.1 hf with hf | hf
  · rcases List.mem_append.1 hf with hf | hf
    · exact (fixableOn_settingFindings path document f hf).2
    · exact (fixableOn_propertyFindings path document f hf).2
  · exact (fixableOn_webhookFindings path t document f hf).2

theorem unfixable_append (findings findings' : List Finding) :
    unfixable (findings ++ findings') = unfixable findings ++ unfixable findings' :=
  List.filter_append ..

theorem unfixable_choose_of_fixable {findings : List Finding}
    (h : ∀ f ∈ findings, f.fixable = true) : unfixable (o.choose findings) = [] :=
  List.filter_eq_nil_iff.2 fun f hf => by simp [o.fixable_of_mem_choose h hf]

theorem unfixable_choose_of_fix_eq_none {findings : List Finding}
    (h : ∀ f ∈ findings, f.fix = none) : unfixable (o.choose findings) = o.choose findings := by
  refine List.filter_eq_self.2 ?_
  intro f hf
  rw [Finding.fixable, o.fix_of_mem_choose h hf]
  rfl

/-- What cannot be mended of the findings on a workflow are those that stand. -/
theorem unfixable_chosenFindings (h : Json.read t = .ok (.object document)) :
    unfixable (chosenFindings Registry.builtIn o path t g) =
      o.choose (standingFindings path t g document) := by
  have hgraph : ∀ f ∈ graphFindings path g, f.fix = none := fun f hf =>
    (rule_mem_of_mem_graphFindings path g hf).2
  have hcredentials : ∀ f ∈ credentialFindings path t document, f.fix = none := fun f hf =>
    (fixlessOn_credentialFindings path t document f hf).2
  rw [chosenFindings_builtIn h, unfixable_append, unfixable_append, unfixable_append,
    unfixable_choose_of_fix_eq_none hgraph, unfixable_choose_of_fix_eq_none hcredentials,
    unfixable_choose_of_fixable fun f hf => fixable_of_mem_placeholderFindings hf,
    unfixable_choose_of_fixable fun f hf => fixable_of_mem_editFindings hf, List.nil_append,
    List.append_nil, standingFindings, Options.choose_append]

/-- Nothing can be mended exactly when there is nothing on placeholders and nothing to edit. -/
theorem forall_unfixable_iff (h : Json.read t = .ok (.object document)) :
    (∀ f ∈ chosenFindings Registry.builtIn o path t g, f.fixable = false) ↔
      o.choose (placeholderFindings path t) = [] ∧ o.choose (editFindings path t document) = [] := by
  rw [chosenFindings_builtIn h]
  constructor
  · intro hall
    constructor
    · refine List.eq_nil_iff_forall_not_mem.2 ?_
      intro f hf
      have hfixable := o.fixable_of_mem_choose (fun f hf => fixable_of_mem_placeholderFindings hf) hf
      rw [hall f (by simp [hf])] at hfixable
      exact Bool.false_ne_true hfixable
    · refine List.eq_nil_iff_forall_not_mem.2 ?_
      intro f hf
      have hfixable := o.fixable_of_mem_choose (fun f hf => fixable_of_mem_editFindings hf) hf
      rw [hall f (by simp [hf])] at hfixable
      exact Bool.false_ne_true hfixable
  · rintro ⟨hplaceholders, hedits⟩ f hf
    rw [hplaceholders, hedits, List.nil_append, List.append_nil, ← Options.choose_append] at hf
    rw [Finding.fixable, o.fix_of_mem_choose (fun f hf =>
      (of_mem_standingFindings path t g document hf).1) hf]
    rfl

/-- If nothing can be mended, all that is found stands. -/
theorem chosenFindings_of_unfixable (h : Json.read t = .ok (.object document))
    (hall : ∀ f ∈ chosenFindings Registry.builtIn o path t g, f.fixable = false) :
    chosenFindings Registry.builtIn o path t g = o.choose (standingFindings path t g document) := by
  rw [← unfixable_chosenFindings h]
  exact (List.filter_eq_self.2 fun f hf => by simp [hall f hf]).symm

end

/-! ## What the fixes repair -/

/-- The text that the fixes of a run make of a workflow. -/
def mendedText (o : Options) (path t : Text) (g : Workflow.Graph) : Text :=
  Fixing.mended t (chosenFindings Registry.builtIn o path t g)

/-- The text that comes out is a workflow with nothing to mend, for which what stands is the same,
but for lines. -/
structure MendsAll (o : Options) (path t : Text) (g g' : Workflow.Graph)
    (document document' : Json.Members) : Prop where
  read : Json.read (mendedText o path t g) = .ok (.object document')
  parsed : Workflow.Graph.parse (mendedText o path t g) = .ok g'
  spelled : o.choose (placeholderFindings path (mendedText o path t g)) = []
  edited : o.choose (editFindings path (mendedText o path t g) document') = []
  standing :
    (o.choose (standingFindings path (mendedText o path t g) g' document')).map Finding.unlined =
      (o.choose (standingFindings path t g document)).map Finding.unlined

/-- The webhooks of a document without an id have the names of others for which there is an id that
is not empty. -/
def Identifiable (document document₁ : Json.Members) : Prop :=
  ∀ node ∈ nodeObjects document₁, WebhookId.lacksId node = true →
    ∃ node' ∈ nodeObjects document, WebhookId.lacksId node' = true ∧
      WebhookId.sameName (WebhookId.nameOf node) (WebhookId.nameOf node') = true ∧
      WebhookId.generated (WebhookId.nameOf node') ≠ []

instance (document document₁ : Json.Members) : Decidable (Identifiable document document₁) :=
  inferInstanceAs (Decidable (∀ node ∈ nodeObjects document₁, _ → _))

/-- The fixes of a run on a workflow repair all there is to mend.  The placeholders leave a workflow
for which what stands is the same, but for lines; in the text that comes out no placeholder is
misspelt; what was in order of the settings and the properties is so still in what the placeholders
left; and each webhook there without an id has the name of one that was found to have none, whose
slug is not empty. -/
structure RepairsAll (o : Options) (path t : Text) (g g₁ : Workflow.Graph)
    (document document₁ : Json.Members) : Prop where
  read : Json.read t = .ok (.object document)
  respelled : Json.read (respelled o path t) = .ok (.object document₁)
  parsed : Workflow.Graph.parse (WorkflowLint.respelled o path t) = .ok g₁
  standing :
    (o.choose (standingFindings path (WorkflowLint.respelled o path t) g₁ document₁)).map
        Finding.unlined =
      (o.choose (standingFindings path t g document)).map Finding.unlined
  spelled : o.choose (placeholderFindings path (mendedText o path t g)) = []
  settings : o.selects RequiredSettings.info.id = true → ∀ r ∈ RequiredSettings.required,
    RequiredSettings.Settled document r → RequiredSettings.Settled document₁ r
  properties : o.selects ForbiddenProperties.info.id = true →
    ∀ f ∈ ForbiddenProperties.forbidden, document.get? f.1 = none → document₁.get? f.1 = none
  webhooks : o.selects WebhookId.info.id = true → Identifiable document document₁

section

variable {o : Options} {path t : Text} {g : Workflow.Graph} {document : Json.Members}

/-- A repair of a document changes nothing of what stands, but for lines. -/
theorem unlined_choose_standingFindings_repaired {g₁ g' : Workflow.Graph} (t₁ t' : Text)
    (document₁ : Json.Members) (hgraph : g'.unplaced = g₁.unplaced) :
    (o.choose (standingFindings path t' g' (repaired o path document document₁))).map
        Finding.unlined =
      (o.choose (standingFindings path t₁ g₁ document₁)).map Finding.unlined := by
  rw [Options.unlined_choose, Options.unlined_choose, standingFindings, standingFindings,
    List.map_append, List.map_append, unlined_graphFindings path hgraph,
    unlined_credentialFindings_repaired o path document t₁ t']

/-- Where no placeholder is misspelt, nothing is respelt. -/
theorem respelled_of_spelled (hspelled : o.choose (placeholderFindings path t) = []) :
    respelled o path t = t := by
  rw [respelled, hspelled]
  rfl

variable (o path) in
/-- The placeholders of an object leave an object. -/
theorem exists_read_respelled (h : Json.read t = .ok (.object document)) :
    ∃ document₁, Json.read (respelled o path t) = .ok (.object document₁) := by
  have hretouch : ∀ fix ∈ (o.choose (placeholderFindings path t)).filterMap (·.fix),
      fix.IsRetouch := by
    intro fix hfix
    obtain ⟨f, hf, hsome⟩ := List.mem_filterMap.1 hfix
    obtain ⟨f', hf', -, -, -, heq⟩ := Options.exists_of_mem_choose hf
    exact Fix.isRetouch_of_mem hf' (heq ▸ hsome)
  obtain ⟨written, hwritten, hgathered⟩ := Json.read_eq_ok_iff.1 h
  obtain ⟨written', hwritten', halike⟩ :=
    Fix.written_applyAll hretouch (Json.readWritten_eq_ok_iff.1 hwritten)
  have hread : Json.read (respelled o path t) = .ok (Json.gathered Json.Members.ofPairs written') := by
    rw [respelled, Fixing.mended, Fixing.map_snd_candidates]
    exact Json.read_eq_ok_iff.2 ⟨written', Json.readWritten_eq_ok_iff.2 hwritten', rfl⟩
  -- an object is of the same shape as objects only
  cases halike with
  | object => exact ⟨_, hread⟩
  | _ => cases hgathered

/-- The text that comes out has nothing to mend exactly when the fixes repair all. -/
theorem exists_mendsAll_iff (hdocument : Json.read t = .ok (.object document)) :
    (∃ g' document', MendsAll o path t g g' document document') ↔
      ∃ g₁ document₁, RepairsAll o path t g g₁ document document₁ := by
  constructor
  · rintro ⟨g', document', hmends⟩
    -- the edits were made of an object, so what comes out is that object repaired
    obtain ⟨document₁, h₁⟩ := exists_read_respelled o path hdocument
    obtain rfl : _ = document' := Json.object.inj
      (Except.ok.inj ((read_mended o path t g hdocument h₁).symm.trans hmends.read))
    -- a repair concerns nothing that a graph is made of, so the graphs are the same but for lines
    obtain ⟨g₁, hparse₁, hgraph⟩ : ∃ g₁, Workflow.Graph.parse (respelled o path t) = .ok g₁ ∧
        g'.unplaced = g₁.unplaced := by
      obtain ⟨e', _, he', -⟩ | ⟨g'', g₁, hg'', hg₁, heq⟩ :=
        parse_repaired o path document h₁ hmends.read
      · rw [hmends.parsed] at he'
        simp at he'
      · obtain rfl := Except.ok.inj (hmends.parsed.symm.trans hg'')
        exact ⟨g₁, hg₁, heq⟩
    obtain ⟨hsettings, hproperties, hwebhooks⟩ :=
      (choose_editFindings_repaired_iff o path document _).1 hmends.edited
    exact ⟨g₁, document₁, {
      read := hdocument
      respelled := h₁
      parsed := hparse₁
      standing :=
        (unlined_choose_standingFindings_repaired _ _ document₁ hgraph).symm.trans hmends.standing
      spelled := hmends.spelled
      settings := hsettings
      properties := hproperties
      webhooks := hwebhooks }⟩
  · rintro ⟨g₁, document₁, hrepairs⟩
    have h' : Json.read (mendedText o path t g) =
        .ok (.object (repaired o path document document₁)) :=
      read_mended o path t g hdocument hrepairs.respelled
    obtain ⟨g', hparse', hgraph⟩ : ∃ g', Workflow.Graph.parse (mendedText o path t g) = .ok g' ∧
        g'.unplaced = g₁.unplaced := by
      obtain ⟨_, e, -, he⟩ | ⟨g', g₁', hg', hg₁', heq⟩ :=
        parse_repaired o path document hrepairs.respelled h'
      · rw [hrepairs.parsed] at he
        simp at he
      · obtain rfl := Except.ok.inj (hrepairs.parsed.symm.trans hg₁')
        exact ⟨g', hg', heq⟩
    exact ⟨g', _, {
      read := h'
      parsed := hparse'
      spelled := hrepairs.spelled
      edited := (choose_editFindings_repaired_iff o path document _).2
        ⟨hrepairs.settings, hrepairs.properties, hrepairs.webhooks⟩
      standing :=
        (unlined_choose_standingFindings_repaired _ _ document₁ hgraph).trans hrepairs.standing }⟩

/-- Where no placeholder is misspelt, all is repaired if none is so in the text that comes out and
the webhooks can get ids. -/
theorem exists_repairsAll_iff_of_spelled (hdocument : Json.read t = .ok (.object document))
    (hparse : Workflow.Graph.parse t = .ok g)
    (hspelled : o.choose (placeholderFindings path t) = []) :
    (∃ g₁ document₁, RepairsAll o path t g g₁ document document₁) ↔
      o.choose (placeholderFindings path (mendedText o path t g)) = [] ∧
      (o.selects WebhookId.info.id = true → Identifiable document document) := by
  have hsame : respelled o path t = t := respelled_of_spelled hspelled
  constructor
  · rintro ⟨g₁, document₁, hrepairs⟩
    have hread₁ := hrepairs.respelled
    rw [hsame] at hread₁
    obtain rfl := Json.object.inj (Except.ok.inj (hdocument.symm.trans hread₁))
    exact ⟨hrepairs.spelled, hrepairs.webhooks⟩
  · rintro ⟨hmended, hwebhooks⟩
    exact ⟨g, document, {
      read := hdocument
      respelled := hsame.symm ▸ hdocument
      parsed := hsame.symm ▸ hparse
      standing := by rw [hsame]
      spelled := hmended
      settings := fun _ _ _ hsettled => hsettled
      properties := fun _ _ _ hnone => hnone
      webhooks := hwebhooks }⟩

/-! ## Runs of the built-in fixes -/

/-- No finding that stands says that the file is no workflow. -/
theorem rule_ne_of_mem_choose_standingFindings {f : Finding}
    (hf : f ∈ o.choose (standingFindings path t g document)) :
    f.rule ≠ Obstacle.notAWorkflow.rule := by
  obtain ⟨f', hf', -, rfl⟩ := Options.mem_choose_iff.1 hf
  split
  · rw [Finding.rule_hardened]
    exact (of_mem_standingFindings path t g document hf').2
  · exact (of_mem_standingFindings path t g document hf').2

/-- A text that cannot be parsed is no workflow, or stops the run. -/
theorem readWorkflow_of_parse_error {s : Store} {failure : Workflow.ParseFailure}
    (hread : s.read path = .ok t) (h : Workflow.Graph.parse t = .error failure) :
    (∃ f, readWorkflow s path = .error (.finding f) ∧ f.rule = Obstacle.notAWorkflow.rule) ∨
      ∃ fault, readWorkflow s path = .error (.fault fault) := by
  rw [readWorkflow_of_read hread, h]
  cases failure with
  | invalid e => exact .inl ⟨_, rfl, rfl⟩
  | tooManyDigits n => exact .inr ⟨_, rfl⟩

variable {w v : Workspace} {result : Result}

/-- What a run left that converges is a workflow: else validating it would find only that it is none,
and no run leaves such a finding. -/
theorem exists_parse_of_converges {t' path' : Text}
    (hfindings : result.findings = o.choose (standingFindings path' t g document))
    (hread : v.store.read (v.store.absolute path) = .ok t')
    (hconverges : Converges Registry.builtIn o path result v) :
    ∃ g', Workflow.Graph.parse t' = .ok g' := by
  obtain ⟨next, hnext, -, heq⟩ := hconverges.again
  cases hparse : Workflow.Graph.parse t' with
  | ok g' => exact ⟨g', rfl⟩
  | error failure =>
    exfalso
    obtain ⟨f, hf, hrule⟩ | ⟨fault, hfault⟩ := readWorkflow_of_parse_error hread hparse
    · rw [outcome_validateWorkflow_obstacle hf] at hnext
      obtain rfl := Except.ok.inj (Prod.mk.inj hnext).1
      rw [hfindings, List.map_singleton] at heq
      obtain ⟨f', hf', hsame⟩ := List.mem_map.1 (heq ▸ List.mem_singleton_self _)
      exact rule_ne_of_mem_choose_standingFindings hf' ((congrArg Finding.rule hsame).trans hrule)
    · rw [outcome_validateWorkflow_fault hfault] at hnext
      simp at hnext

variable (hw : o.wantsFixes = true) (hdry : o.dryRun = false)
  (h : readWorkflow w.store (w.store.absolute path) = .ok (t, g))
  (hrun : outcome (validateWorkflow Registry.builtIn o path) w = (.ok result, v))
  (hrewrites : Rewrites w v (w.store.absolute path))
include hw hdry h hrun hrewrites

/-- The file that the built-in fixes wrote is read with the text that they made. -/
theorem read_of_rewrites :
    v.store.read (w.store.absolute path) = .ok (mendedText o (w.store.absolute path) t g) := by
  obtain ⟨-, -, hread⟩ := written_of_rewrites hw hdry h hrun hrewrites
  obtain ⟨hbefore, hparse⟩ := readWorkflow_eq_ok_iff.1 h
  obtain ⟨document, hdocument⟩ := exists_read_of_parse hparse
  -- reading drops carriage returns, but there were none before and no fix makes one
  obtain ⟨_, u, _, _, rfl⟩ := Store.read_eq_ok_iff.1 hbefore
  rw [hread]
  congr 1
  exact Text.normaliseLineEnds_eq_self
    (noReturn_mended o _ _ g hdocument (Text.normaliseLineEnds_noReturn u))

/-- A run converges exactly when the text that it wrote has nothing to mend. -/
theorem converges_iff_exists_mendsAll (hdocument : Json.read t = .ok (.object document)) :
    Converges Registry.builtIn o path result v ↔
      ∃ g' document', MendsAll o (w.store.absolute path) t g g' document document' := by
  have hread := read_of_rewrites hw hdry h hrun hrewrites
  obtain ⟨hfindings, habsolute, -⟩ := written_of_rewrites hw hdry h hrun hrewrites
  rw [unfixable_chosenFindings hdocument] at hfindings
  have hplain : ({ o with fix := false } : Options).ReadsOnly := by
    left
    simp [Options.wantsFixes, hdry]
  constructor
  · intro hconverges
    have hread' : v.store.read (v.store.absolute path) =
        .ok (mendedText o (w.store.absolute path) t g) := by
      rw [habsolute]
      exact hread
    obtain ⟨g', hparse⟩ := exists_parse_of_converges hfindings hread' hconverges
    obtain ⟨document', hdocument'⟩ := exists_read_of_parse hparse
    have hwork : readWorkflow v.store (v.store.absolute path) =
        .ok (mendedText o (w.store.absolute path) t g, g') :=
      readWorkflow_eq_ok_iff.2 ⟨hread', hparse⟩
    obtain ⟨next, hnext, hunfixable, heq⟩ := hconverges.again
    rw [outcome_validateWorkflow_plain hwork hplain, habsolute] at hnext
    obtain rfl := Except.ok.inj (Prod.mk.inj hnext).1
    have hall : ∀ f ∈ chosenFindings Registry.builtIn o (w.store.absolute path)
        (mendedText o (w.store.absolute path) t g) g', f.fixable = false := hunfixable
    obtain ⟨hspelled, hedited⟩ := (forall_unfixable_iff hdocument').1 hall
    exact ⟨g', document', {
      read := hdocument'
      parsed := hparse
      spelled := hspelled
      edited := hedited
      standing := by
        rw [← hfindings, ← heq, ← chosenFindings_of_unfixable hdocument' hall]
        rfl }⟩
  · rintro ⟨g', document', hmends⟩
    have hwork : readWorkflow v.store (v.store.absolute path) =
        .ok (mendedText o (w.store.absolute path) t g, g') := by
      rw [habsolute]
      exact readWorkflow_eq_ok_iff.2 ⟨hread, hmends.parsed⟩
    have hall : ∀ f ∈ chosenFindings Registry.builtIn o (v.store.absolute path)
        (mendedText o (w.store.absolute path) t g) g', f.fixable = false := by
      rw [habsolute]
      exact (forall_unfixable_iff hmends.read).2 ⟨hmends.spelled, hmends.edited⟩
    refine ⟨⟨_, outcome_validateWorkflow_plain hwork hplain, hall, ?_⟩,
      outcome_validateWorkflow_of_unfixable hwork hall⟩
    rw [habsolute] at hall ⊢
    rw [hfindings, ← hmends.standing, ← chosenFindings_of_unfixable hmends.read hall]
    rfl

/-- For a file without misspelt placeholders it depends on what is spelt in the text that comes out
and on the names of the webhooks. -/
theorem converges_iff_of_spelled (hdocument : Json.read t = .ok (.object document))
    (hspelled : o.choose (placeholderFindings (w.store.absolute path) t) = []) :
    Converges Registry.builtIn o path result v ↔
      o.choose (placeholderFindings (w.store.absolute path)
        (mendedText o (w.store.absolute path) t g)) = [] ∧
      (o.selects WebhookId.info.id = true → Identifiable document document) := by
  rw [converges_iff_exists_mendsAll hw hdry h hrun hrewrites hdocument,
    exists_mendsAll_iff hdocument,
    exists_repairsAll_iff_of_spelled hdocument (readWorkflow_eq_ok_iff.1 h).2 hspelled]

end

/-- A workflow whose only node is a webhook with a name and without an id. -/
def webhookWorkflow (name : Text) : Workspace :=
  .single "w.json" <|
    "\x7b\"nodes\":[\x7b\"id\":\"1\",\"type\":\"n8n-nodes-base.webhook\",\"name\":\"" ++ name ++
      "\"\x7d]\x7d"

/-- The path of that file. -/
def webhookWorkflowPath (name : Text) : Text := (webhookWorkflow name).store.absolute "w.json"

end WorkflowLint
