import WorkflowLint.Proofs.Run.Fixing

/-!
# How the validation of a file ends

A file that cannot be checked gives one finding or a fault and stays as it is.  Any other file has
the findings of which the options make a choice (`chosenFindings`).  Without fixes they are the
result (`outcome_validateWorkflow_plain`); with fixes the findings that can be mended are left out
as soon as one fix changed the text (`outcome_validateWorkflow_fixing`).
-/

namespace WorkflowLint

open Job

/-! ## Dropping findings -/

theorem mem_fixableRules {rule : Text} {findings : List Finding} :
    rule ∈ fixableRules findings ↔ ∃ f ∈ findings, f.fixable = true ∧ f.rule = rule := by
  simp [fixableRules, and_assoc]

theorem mem_dropFixed {rules : List Text} {f : Finding} {findings : List Finding} :
    f ∈ dropFixed rules findings ↔ f ∈ findings ∧ (f.fixable = true → f.rule ∉ rules) := by
  cases hx : f.fixable <;> simp [dropFixed, hx]

/-- Findings without those that can be mended. -/
def unfixable (findings : List Finding) : List Finding := findings.filter fun f => !f.fixable

/-- Dropping by the rules of all findings that can be mended drops all of these. -/
theorem dropFixed_fixableRules (findings : List Finding) :
    dropFixed (fixableRules findings) findings = unfixable findings := by
  refine List.filter_congr ?_
  intro f hf
  cases hx : f.fixable with
  | false => rfl
  | true =>
    have hmem : f.rule ∈ fixableRules findings := mem_fixableRules.2 ⟨f, hf, hx, rfl⟩
    simpa using hmem

/-! ## One file -/

/-- The findings on the text of a file of which the options make a choice. -/
def chosenFindings (r : Registry) (o : Options) (path t : Text) (g : Workflow.Graph) :
    List Finding :=
  o.choose (r.examine path t g)

/-- Options under which a run changes no file. -/
def Options.ReadsOnly (o : Options) : Prop := o.wantsFixes = false ∨ o.dryRun = true

theorem Options.readsOnly_iff {o : Options} :
    o.ReadsOnly ↔ ¬ (o.wantsFixes = true ∧ o.dryRun = false) := by
  unfold Options.ReadsOnly
  cases o.wantsFixes <;> simp

theorem Fixing.outcome_apply_dryRun (path : Text) (findings : List Finding) (w : Workspace) :
    outcome (Fixing.apply path findings true) w =
      (.ok ⟨Path.clean path, 0, [], some ((Fixing.candidates findings).map (·.1))⟩, w) := rfl

section

variable {r : Registry} {o : Options} {path t : Text} {w : Workspace} {g : Workflow.Graph}

/-- A file that cannot be read gives a finding. -/
theorem readWorkflow_of_read_error {s : Store} {e : Store.ReadError} (h : s.read path = .error e) :
    ∃ f, readWorkflow s path = .error (.finding f) := by
  unfold readWorkflow
  rw [h]
  cases s.isFile path with
  | false => exact ⟨_, rfl⟩
  | true => exact ⟨_, rfl⟩

/-- A file that cannot be checked has a finding that must be mended, on what keeps it from that, and no
fix does so. -/
theorem exists_obstacle_of_readWorkflow {s : Store} {f : Finding}
    (h : readWorkflow s path = .error (.finding f)) :
    f.severity = .must ∧ f.fix = none ∧
      ∃ obstacle ∈ [Obstacle.fileNotFound, .fileUnreadable, .notAWorkflow], f.rule = obstacle.rule := by
  unfold readWorkflow at h
  split at h
  · obtain rfl := Unchecked.finding.inj (Except.error.inj h)
    exact ⟨rfl, rfl, .fileNotFound, by simp, rfl⟩
  · split at h
    · obtain rfl := Unchecked.finding.inj (Except.error.inj h)
      exact ⟨rfl, rfl, .fileUnreadable, by simp, rfl⟩
    · split at h
      · simp at h
      · obtain rfl := Unchecked.finding.inj (Except.error.inj h)
        exact ⟨rfl, rfl, .notAWorkflow, by simp, rfl⟩
      · simp at h

/-- The text of a file is parsed. -/
theorem readWorkflow_of_read {s : Store} (h : s.read path = .ok t) :
    readWorkflow s path =
      match Workflow.Graph.parse t with
      | .ok g => .ok (t, g)
      | .error (.invalid e) =>
        .error (.finding (Obstacle.notAWorkflow.finding path
          ("Failed to parse workflow: " ++ e.message) (e.line?.map Int.ofNat)))
      | .error (.tooManyDigits n) => .error (.fault (.tooManyDigits n)) := by
  unfold readWorkflow
  rw [Store.isFile_of_read h, h]
  rfl

/-- A workflow that is read is the graph of the text of its file. -/
theorem readWorkflow_eq_ok_iff {s : Store} :
    readWorkflow s path = .ok (t, g) ↔ s.read path = .ok t ∧ Workflow.Graph.parse t = .ok g := by
  cases hread : s.read path with
  | error e =>
    obtain ⟨f, hf⟩ := readWorkflow_of_read_error hread
    simp [hf]
  | ok t' =>
    rw [readWorkflow_of_read hread]
    constructor
    · intro h
      rcases hp : Workflow.Graph.parse t' with (e | n) | g'
      · simp [hp] at h
      · simp [hp] at h
      · obtain ⟨rfl, rfl⟩ : t' = t ∧ g' = g := by simpa [hp] using h
        exact ⟨rfl, hp⟩
    · rintro ⟨heq, hp⟩
      obtain rfl := Except.ok.inj heq
      rw [hp]

/-- Validating a file reads it first. -/
theorem outcome_validateWorkflow (r : Registry) (o : Options) (path : Text) (w : Workspace) :
    outcome (validateWorkflow r o path) w =
      match readWorkflow w.store (w.store.absolute path) with
      | .error (.fault f) => (.error f, w)
      | .error (.finding f) => (.ok ⟨[f], [w.store.absolute path]⟩, w)
      | .ok (t, g) =>
        let findings := chosenFindings r o (w.store.absolute path) t g
        if o.wantsFixes = false then (.ok ⟨findings, [w.store.absolute path]⟩, w)
        else outcome (do
          let fixed ← Fixing.apply (w.store.absolute path) findings o.dryRun
          if fixed.applied = 0 ∨ o.dryRun then return ⟨findings, [w.store.absolute path]⟩
          return ⟨dropFixed (fixableRules findings) findings, [w.store.absolute path]⟩) w := by
  unfold validateWorkflow
  rw [outcome_bind_ok (outcome_get w)]
  rcases h : readWorkflow w.store (w.store.absolute path) with (_ | _) | ⟨t, g⟩
  · simp only [h, outcome_pure]
  · simp only [h, outcome_throw]
  · simp only [h, chosenFindings]
    cases o.wantsFixes <;> rfl

theorem outcome_validateWorkflow_fault {f : Fault}
    (h : readWorkflow w.store (w.store.absolute path) = .error (.fault f)) :
    outcome (validateWorkflow r o path) w = (.error f, w) := by
  rw [outcome_validateWorkflow, h]

/-- A file that cannot be checked has one finding, whatever the options are. -/
theorem outcome_validateWorkflow_obstacle {f : Finding}
    (h : readWorkflow w.store (w.store.absolute path) = .error (.finding f)) :
    outcome (validateWorkflow r o path) w = (.ok ⟨[f], [w.store.absolute path]⟩, w) := by
  rw [outcome_validateWorkflow, h]

variable (h : readWorkflow w.store (w.store.absolute path) = .ok (t, g))
include h

/-- Where no file is to be changed, the result has all chosen findings. -/
theorem outcome_validateWorkflow_plain (hfix : o.ReadsOnly) :
    outcome (validateWorkflow r o path) w =
      (.ok ⟨chosenFindings r o (w.store.absolute path) t g, [w.store.absolute path]⟩, w) := by
  rw [outcome_validateWorkflow, h]
  cases hw : o.wantsFixes with
  | false => rfl
  | true =>
    have hdry : o.dryRun = true := by simpa [Options.ReadsOnly, hw] using hfix
    simp only [hdry, Bool.true_eq_false, if_false]
    rw [outcome_bind_ok (Fixing.outcome_apply_dryRun _ _ w)]
    simp

/-- Where fixes are to be applied, the result has all chosen findings if no fix changed the text,
and else those that cannot be mended. -/
theorem outcome_validateWorkflow_fixing (hw : o.wantsFixes = true) (hdry : o.dryRun = false) :
    outcome (validateWorkflow r o path) w =
      match outcome (Fixing.apply (w.store.absolute path)
        (chosenFindings r o (w.store.absolute path) t g) false) w with
      | (.error f, v) => (.error f, v)
      | (.ok fixed, v) =>
        (.ok ⟨if fixed.applied = 0 then chosenFindings r o (w.store.absolute path) t g
            else unfixable (chosenFindings r o (w.store.absolute path) t g),
          [w.store.absolute path]⟩, v) := by
  rw [outcome_validateWorkflow, h]
  simp only [hw, hdry, Bool.true_eq_false, Bool.false_eq_true, if_false, or_false]
  rw [outcome_bind]
  rcases outcome (Fixing.apply (w.store.absolute path)
    (chosenFindings r o (w.store.absolute path) t g) false) w with ⟨_ | fixed, v⟩
  · rfl
  · by_cases hz : fixed.applied = 0
    · simp [hz]
    · simp [hz, dropFixed_fixableRules]

end

/-- The validation of a file stops where reading the workflow or fixing the file does. -/
theorem outcome_validateWorkflow_error_iff {r : Registry} {o : Options} {path : Text}
    {w v : Workspace} {f : Fault} :
    outcome (validateWorkflow r o path) w = (.error f, v) ↔
      (readWorkflow w.store (w.store.absolute path) = .error (.fault f) ∧ v = w) ∨
      ∃ t g, readWorkflow w.store (w.store.absolute path) = .ok (t, g) ∧
        o.wantsFixes = true ∧ o.dryRun = false ∧
        outcome (Fixing.apply (w.store.absolute path)
          (chosenFindings r o (w.store.absolute path) t g) false) w = (.error f, v) := by
  rcases h : readWorkflow w.store (w.store.absolute path) with (f' | f') | ⟨t, g⟩
  · simp [outcome_validateWorkflow_obstacle h]
  · rw [outcome_validateWorkflow_fault h]
    constructor
    · intro heq
      obtain ⟨rfl, rfl⟩ : f' = f ∧ w = v := by simpa using heq
      exact .inl ⟨rfl, rfl⟩
    · rintro (⟨heq, rfl⟩ | ⟨t, g, hne, -⟩)
      · obtain rfl : f' = f := by simpa using heq
        rfl
      · simp at hne
  by_cases hfix : o.wantsFixes = true ∧ o.dryRun = false
  · rw [outcome_validateWorkflow_fixing h hfix.1 hfix.2]
    constructor
    · intro heq
      refine .inr ⟨t, g, rfl, hfix.1, hfix.2, ?_⟩
      rcases hout : outcome (Fixing.apply (w.store.absolute path)
        (chosenFindings r o (w.store.absolute path) t g) false) w with ⟨f' | fixed, u⟩
      · simpa [hout] using heq
      · simp [hout] at heq
    · rintro (⟨hne, -⟩ | ⟨t', g', heq, -, -, hout⟩)
      · simp at hne
      · obtain ⟨rfl, rfl⟩ : t = t' ∧ g = g' := by simpa using heq
        rw [hout]
  · rw [outcome_validateWorkflow_plain h (Options.readsOnly_iff.2 hfix)]
    constructor
    · intro hne
      simp at hne
    · rintro (⟨hne, -⟩ | ⟨t', g', -, hw, hdry, -⟩)
      · simp at hne
      · exact absurd ⟨hw, hdry⟩ hfix

end WorkflowLint
