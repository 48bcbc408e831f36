import WorkflowLint.Check.BuiltIn
import WorkflowLint.Proofs.Fault

/-!
# What the built-in checks find on projects

Of all that is found on a project only a caller that a sub-workflow does not list can be mended, and
its fix adds the caller to the list (`exists_caller_of_mem_runIsolated`).  The findings of the other
checks have no fix, whatever the project is.
-/

namespace WorkflowLint

open Check

variable {w : Workspace} {folder : Text} {findings : List Finding} {f : Finding}

/-! ## Checks that stop -/

/-- A check that stopped has found nothing that can be mended. -/
theorem exists_of_mem_isolated {kind : CheckKind} {id path : Text}
    {found : Except Fault (List Finding)} (hf : f ∈ isolated kind id path found)
    (hfix : f.fix ≠ none) : ∃ findings, found = .ok findings ∧ f ∈ findings := by
  cases found with
  | ok findings => exact ⟨findings, rfl, hf⟩
  | error fault =>
    rw [List.mem_singleton.1 hf] at hfix
    exact absurd rfl hfix

/-- The findings of a check that looks at the configuration are those for a configuration. -/
theorem exists_of_configured {find : ProjectConfig → Except Fault (List Finding)}
    (h : (do match ← ProjectConfig.read? w folder with
          | none => return []
          | some c => find c) = Except.ok findings) (hf : f ∈ findings) :
    ∃ c, ProjectConfig.read? w folder = .ok (some c) ∧ find c = .ok findings := by
  obtain ⟨c | c, hread, hfind⟩ := exists_of_bind_eq_ok h
  · obtain rfl := Except.ok.inj hfind
    exact absurd hf List.not_mem_nil
  · exact ⟨c, hread, hfind⟩

/-! ## The configuration and the declared files -/

theorem fix_of_mem_configSchema (h : ConfigSchema.run w folder = .ok findings) (hf : f ∈ findings) :
    f.fix = none := by
  unfold ConfigSchema.run at h
  cases hread : ProjectConfig.read w folder with
  | ok c =>
    rw [hread] at h
    obtain rfl := Except.ok.inj h
    obtain ⟨id, -, rfl⟩ := List.mem_map.1 hf
    rfl
  | error e =>
    rw [hread] at h
    cases e with
    | fault fault => simp [ConfigSchema.ofError] at h
    | absent path =>
      obtain rfl := Except.ok.inj h
      rw [List.mem_singleton.1 hf]
      rfl
    | unreadable path reason =>
      obtain rfl := Except.ok.inj h
      rw [List.mem_singleton.1 hf]
      rfl
    | invalid path errors line =>
      obtain rfl := Except.ok.inj h
      obtain ⟨error, -, rfl⟩ := List.mem_map.1 hf
      rfl

theorem fix_of_fileFinding? {path : Text} {found : Option Finding}
    (h : ConfigWorkflows.fileFinding? w path = .ok found) : ∀ f ∈ found, f.fix = none := by
  unfold ConfigWorkflows.fileFinding? at h
  cases hread : w.store.read path with
  | error e =>
    simp only [hread, Except.ok.injEq] at h
    subst h
    simp
  | ok t =>
    simp only [hread] at h
    cases hjson : Json.read t with
    | ok v =>
      simp only [hjson, Except.ok.injEq] at h
      subst h
      simp
    | error e =>
      cases e with
      | malformed problem ahead =>
        simp only [hjson, Except.ok.injEq] at h
        subst h
        simp
      | _ => simp [hjson] at h

theorem fix_of_mem_configWorkflows (h : ConfigWorkflows.run w folder = .ok findings)
    (hf : f ∈ findings) : f.fix = none := by
  unfold ConfigWorkflows.run at h
  cases hfolder : w.hasWorkflows folder with
  | false =>
    obtain rfl : [ConfigWorkflows.missingFolder w folder] = findings := by
      simpa [hfolder, pure, Except.pure] using h
    rw [List.mem_singleton.1 hf]
    rfl
  | true =>
    simp only [hfolder, Bool.not_true, Bool.false_eq_true, if_false] at h
    obtain ⟨files, -, h⟩ := exists_of_bind_eq_ok h
    obtain ⟨found, hmap, h⟩ := exists_of_bind_eq_ok h
    obtain ⟨c, -, h⟩ := exists_of_bind_eq_ok h
    have hfiles : ∀ f ∈ found.filterMap id, f.fix = none := by
      intro f hf
      obtain ⟨found', hfound, hf⟩ := List.mem_filterMap.1 hf
      exact forall_mem_of_mapM (fun _ _ => fix_of_fileFinding?) hmap found' hfound f hf
    cases c with
    | none =>
      obtain rfl := Except.ok.inj h
      exact hfiles f hf
    | some c =>
      obtain rfl := Except.ok.inj h
      rcases List.mem_append.1 hf with hf | hf
      · exact hfiles f hf
      · rcases List.mem_append.1 hf with hf | hf
        · obtain ⟨declared, -, rfl⟩ := List.mem_map.1 hf
          rfl
        · obtain ⟨path, -, rfl⟩ := List.mem_map.1 hf
          rfl

/-! ## Sub-workflows -/

theorem fix_of_mem_subworkflowReference (h : SubworkflowReference.run w folder = .ok findings)
    (hf : f ∈ findings) : f.fix = none := by
  obtain ⟨c, -, h⟩ := exists_of_configured h hf
  obtain ⟨documents, -, h⟩ := exists_of_bind_eq_ok h
  obtain rfl := Except.ok.inj h
  obtain ⟨d, -, hf⟩ := List.mem_flatMap.1 hf
  obtain ⟨reference, -, rfl⟩ := List.mem_map.1 hf
  rfl

/-- The finding on a caller is on the configuration, and can be mended by adding the caller. -/
theorem exists_fix_of_mem_calledBy (h : CalledBy.run w folder = .ok findings) (hf : f ∈ findings) :
    f.rule = CalledBy.info.id ∧ f.path = w.configPath folder ∧
      ∃ description subworkflow caller,
        f.fix = some (Caller.fix description subworkflow caller) := by
  obtain ⟨c, -, h⟩ := exists_of_configured h hf
  obtain ⟨documents, -, h⟩ := exists_of_bind_eq_ok h
  obtain rfl := Except.ok.inj h
  obtain ⟨called, -, hf⟩ := List.mem_flatMap.1 hf
  unfold CalledBy.findings at hf
  split at hf
  · exact absurd hf List.not_mem_nil
  · obtain ⟨caller, -, rfl⟩ := List.mem_map.1 hf
    exact ⟨rfl, rfl, _, called.1, caller, rfl⟩

/-! ## Triggers -/

theorem fix_of_mem_triggersRequired (h : TriggersRequired.run w folder = .ok findings)
    (hf : f ∈ findings) : f.fix = none := by
  obtain ⟨c, -, h⟩ := exists_of_configured h hf
  obtain rfl := Except.ok.inj h
  obtain ⟨workflow, -, rfl⟩ := List.mem_map.1 hf
  rfl

theorem fix_of_mem_triggerTypes (h : TriggerTypes.run w folder = .ok findings) (hf : f ∈ findings) :
    f.fix = none := by
  obtain ⟨c, -, h⟩ := exists_of_configured h hf
  obtain ⟨documents, -, h⟩ := exists_of_bind_eq_ok h
  obtain rfl := Except.ok.inj h
  obtain ⟨workflow, -, hf⟩ := List.mem_flatMap.1 hf
  unfold TriggerTypes.findings at hf
  split at hf
  · exact absurd hf List.not_mem_nil
  · obtain ⟨t, -, hf⟩ := List.mem_filterMap.1 hf
    obtain ⟨problem, -, rfl⟩ := Option.map_eq_some_iff.1 hf
    rfl

theorem fix_of_urlFinding? {documents : List WorkflowDocument} {u : TriggerUrl}
    (h : WebhookPath.urlFinding? w folder documents u = some f) : f.fix = none := by
  unfold WebhookPath.urlFinding? WebhookPath.pathFinding? at h
  grind [WebhookPath.malformed, WebhookPath.missingFile, WebhookPath.missingWebhook,
    WebhookPath.mismatch, WebhookPath.finding]

theorem fix_of_mem_webhookPath (h : WebhookPath.run w folder = .ok findings) (hf : f ∈ findings) :
    f.fix = none := by
  obtain ⟨c, -, h⟩ := exists_of_bind_eq_ok h
  simp only at h
  split at h
  · obtain rfl := Except.ok.inj h
    exact absurd hf List.not_mem_nil
  split at h
  · obtain rfl := Except.ok.inj h
    obtain ⟨u, -, rfl⟩ := List.mem_map.1 hf
    rfl
  · obtain ⟨documents, -, h⟩ := exists_of_bind_eq_ok h
    obtain rfl := Except.ok.inj h
    obtain ⟨u, -, hu⟩ := List.mem_filterMap.1 hf
    exact fix_of_urlFinding? hu

/-! ## All checks of projects -/

/-- What is found on a project and can be mended is on a caller that a list lacks. -/
theorem exists_calledBy_of_mem_runIsolated {c : ProjectCheck} (hc : c ∈ Registry.builtIn.project)
    (hf : f ∈ c.runIsolated w folder) (hfix : f.fix ≠ none) :
    ∃ findings, CalledBy.run w folder = .ok findings ∧ f ∈ findings := by
  obtain ⟨findings, hrun, hmem⟩ := exists_of_mem_isolated hf hfix
  simp only [Registry.builtIn, List.mem_cons, List.not_mem_nil, or_false] at hc
  obtain rfl | rfl | rfl | rfl | rfl | rfl | rfl := hc
  · exact absurd (fix_of_mem_configSchema hrun hmem) hfix
  · exact absurd (fix_of_mem_configWorkflows hrun hmem) hfix
  · exact absurd (fix_of_mem_subworkflowReference hrun hmem) hfix
  · exact ⟨findings, hrun, hmem⟩
  · exact absurd (fix_of_mem_triggersRequired hrun hmem) hfix
  · exact absurd (fix_of_mem_triggerTypes hrun hmem) hfix
  · exact absurd (fix_of_mem_webhookPath hrun hmem) hfix

/-- Where something found on a project can be mended, that adds a caller to a list. -/
theorem exists_caller_of_mem_runIsolated {c : ProjectCheck} (hc : c ∈ Registry.builtIn.project)
    (hf : f ∈ c.runIsolated w folder) {fix : Fix} (hfix : f.fix = some fix) :
    ∃ description subworkflow caller, fix = Caller.fix description subworkflow caller := by
  obtain ⟨findings, hrun, hmem⟩ := exists_calledBy_of_mem_runIsolated hc hf (by simp [hfix])
  obtain ⟨-, -, description, subworkflow, caller, heq⟩ := exists_fix_of_mem_calledBy hrun hmem
  exact ⟨description, subworkflow, caller, Option.some.inj (hfix.symm.trans heq)⟩

end WorkflowLint
