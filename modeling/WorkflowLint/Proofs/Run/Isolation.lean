import Mathlib.Data.List.Forall2
import WorkflowLint.Proofs.Run.Dropping

/-!
# What each check contributes to a run

The findings on a file are those of the checks of graphs and then those of the checks of contents, each
kind in the order of its registration.  A check contributes all its findings, or a single one that names
it if it stops (`Contributes`); its place takes no findings of other checks and gives none away
(`validateWorkflow_isolates`).  How checks of different kinds were mixed when they were registered is
forgotten (`ofChecks_congr`).
-/

namespace WorkflowLint

open Job

/-! ## Checks by their kinds -/

/-- The checks of a kind, in order. -/
def AnyCheck.ofKind (kind : CheckKind) (checks : List AnyCheck) : List AnyCheck :=
  checks.filter fun c => c.kind = kind

/-- The finding on a check that stopped: a nit, which names the check and cannot be mended. -/
structure ReportsFault (rule title id path : Text) (e : Fault) (f : Finding) : Prop where
  rule : f.rule = rule
  severity : f.severity = .nit
  path : f.path = path
  message : f.message = title ++ " check " ++ id ++ " failed: " ++ e.text
  fix : f.fix = none

/-- What a check contributes to the findings on a file: all its findings, or a single one if it stops.
A check of projects contributes nothing. -/
inductive Contributes (path t : Text) (g : Workflow.Graph) : AnyCheck → List Finding → Prop
  | graph {c : GraphCheck} {fs : List Finding} (h : c.run g ⟨path, g.nodeLines⟩ = .ok fs) :
    Contributes path t g (.graph c) fs
  | graphFault {c : GraphCheck} {e : Fault} {f : Finding}
    (h : c.run g ⟨path, g.nodeLines⟩ = .error e)
    (hf : ReportsFault "GRAPH-CHECK-ERR" "Graph" c.info.id path e f) :
    Contributes path t g (.graph c) [f]
  | content {c : ContentCheck} {fs : List Finding} (h : c.run t path = .ok fs) :
    Contributes path t g (.content c) fs
  | contentFault {c : ContentCheck} {e : Fault} {f : Finding} (h : c.run t path = .error e)
    (hf : ReportsFault "CONTENT-CHECK-ERR" "Content" c.info.id path e f) :
    Contributes path t g (.content c) [f]
  | project {c : ProjectCheck} : Contributes path t g (.project c) []

/-! ## Registries -/

namespace Registry

theorem ofChecks_concat (checks : List AnyCheck) (c : AnyCheck) :
    ofChecks (checks ++ [c]) = (ofChecks checks).register c := by
  rw [ofChecks, List.foldl_append]
  rfl

/-- A registry holds the checks of each kind in the order in which they were registered. -/
theorem map_ofChecks (checks : List AnyCheck) :
    (ofChecks checks).graph.map .graph = AnyCheck.ofKind .graph checks ∧
      (ofChecks checks).content.map .content = AnyCheck.ofKind .content checks ∧
      (ofChecks checks).project.map .project = AnyCheck.ofKind .project checks := by
  induction checks using List.reverseRecOn with
  | nil => exact ⟨rfl, rfl, rfl⟩
  | append_singleton checks c ih =>
    obtain ⟨hgraph, hcontent, hproject⟩ := ih
    rw [ofChecks_concat]
    cases c <;>
      simp [register, AnyCheck.ofKind, AnyCheck.kind, hgraph, hcontent, hproject]

/-- Checks that agree in each kind make the same registry. -/
theorem ofChecks_congr {checks checks' : List AnyCheck}
    (h : ∀ kind, AnyCheck.ofKind kind checks' = AnyCheck.ofKind kind checks) :
    ofChecks checks' = ofChecks checks := by
  obtain ⟨hgraph, hcontent, hproject⟩ := map_ofChecks checks
  obtain ⟨hgraph', hcontent', hproject'⟩ := map_ofChecks checks'
  have hgraphs := List.map_injective_iff.2 (fun _ _ => AnyCheck.graph.inj)
    (hgraph'.trans ((h .graph).trans hgraph.symm))
  have hcontents := List.map_injective_iff.2 (fun _ _ => AnyCheck.content.inj)
    (hcontent'.trans ((h .content).trans hcontent.symm))
  have hprojects := List.map_injective_iff.2 (fun _ _ => AnyCheck.project.inj)
    (hproject'.trans ((h .project).trans hproject.symm))
  cases hchecks : ofChecks checks
  cases hchecks' : ofChecks checks'
  simp only [hchecks, hchecks'] at hgraphs hcontents hprojects
  rw [hgraphs, hcontents, hprojects]

end Registry

/-! ## Contributions -/

/-- What a check contributes to the findings on a file. -/
def AnyCheck.contribution (path t : Text) (g : Workflow.Graph) : AnyCheck → List Finding
  | .graph c => GraphCheck.runIsolated g ⟨path, g.nodeLines⟩ c
  | .content c => ContentCheck.runIsolated t path c
  | .project _ => []

section Contributions

variable {path t : Text} {g : Workflow.Graph}

theorem reportsFault_faultFinding (kind : CheckKind) (id path : Text) (e : Fault) :
    ReportsFault kind.faultRule kind.title id path e (faultFinding kind id path e) :=
  ⟨rfl, rfl, rfl, rfl, rfl⟩

theorem contributes_contribution (path t : Text) (g : Workflow.Graph) (c : AnyCheck) :
    Contributes path t g c (c.contribution path t g) := by
  cases c with
  | graph c =>
    rw [AnyCheck.contribution, GraphCheck.runIsolated]
    cases h : c.run g ⟨path, g.nodeLines⟩ with
    | ok fs => exact .graph h
    | error e => exact .graphFault h (reportsFault_faultFinding .graph _ _ e)
  | content c =>
    rw [AnyCheck.contribution, ContentCheck.runIsolated]
    cases h : c.run t path with
    | ok fs => exact .content h
    | error e => exact .contentFault h (reportsFault_faultFinding .content _ _ e)
  | project c => exact .project

/-- The contributions of the checks of a kind, in order. -/
def contributions (path t : Text) (g : Workflow.Graph) (kind : CheckKind) (checks : List AnyCheck) :
    List Finding :=
  (AnyCheck.ofKind kind checks).flatMap (AnyCheck.contribution path t g)

theorem examine_ofChecks (checks : List AnyCheck) :
    (Registry.ofChecks checks).examine path t g =
      contributions path t g .graph checks ++ contributions path t g .content checks := by
  obtain ⟨hgraph, hcontent, -⟩ := Registry.map_ofChecks checks
  rw [Registry.examine, contributions, contributions, ← hgraph, ← hcontent, List.flatMap_map,
    List.flatMap_map]
  rfl

theorem contributions_append (kind : CheckKind) (checks checks' : List AnyCheck) :
    contributions path t g kind (checks ++ checks') =
      contributions path t g kind checks ++ contributions path t g kind checks' := by
  rw [contributions, AnyCheck.ofKind, List.filter_append, List.flatMap_append]
  rfl

theorem contributions_cons (kind : CheckKind) (c : AnyCheck) (checks : List AnyCheck) :
    contributions path t g kind (c :: checks) =
      (if c.kind = kind then c.contribution path t g else []) ++
        contributions path t g kind checks := by
  by_cases h : c.kind = kind
  · rw [if_pos h, contributions, AnyCheck.ofKind, List.filter_cons_of_pos (by simpa using h)]
    rfl
  · rw [if_neg h, contributions, AnyCheck.ofKind, List.filter_cons_of_neg (by simpa using h)]
    rfl

/-- The place of a check has its contribution, whichever check of its kind stands there. -/
theorem exists_examine_eq (path t : Text) (g : Workflow.Graph) (before : List AnyCheck)
    (kind : CheckKind) (after : List AnyCheck) :
    ∃ earlier later, ∀ c : AnyCheck, c.kind = kind →
      (Registry.ofChecks (before ++ c :: after)).examine path t g =
        earlier ++ c.contribution path t g ++ later := by
  cases kind with
  | graph =>
    refine ⟨contributions path t g .graph before, contributions path t g .graph after ++
      contributions path t g .content (before ++ after), fun c hc => ?_⟩
    simp [examine_ofChecks, contributions_append, contributions_cons, hc]
  | content =>
    refine ⟨contributions path t g .graph (before ++ after) ++
      contributions path t g .content before, contributions path t g .content after, fun c hc => ?_⟩
    simp [examine_ofChecks, contributions_append, contributions_cons, hc]
  | project =>
    refine ⟨contributions path t g .graph (before ++ after) ++
      contributions path t g .content (before ++ after), [], fun c hc => ?_⟩
    have hnone : c.contribution path t g = [] := by
      cases c with
      | project c => rfl
      | _ => cases hc
    simp [examine_ofChecks, contributions_append, contributions_cons, hc, hnone]

end Contributions

/-- A run on a workflow that is not to change it has as findings the choice of what the checks
contribute, those of graphs before those of contents and each kind in order.  Whatever check of its
kind takes the place of another one, the findings before and after that place stay.  Checks that agree
in each kind have the same runs. -/
theorem validateWorkflow_isolates (checks : List AnyCheck) {o : Options} {path t : Text}
    {w : Workspace} {g : Workflow.Graph} (hread : w.store.read (w.store.absolute path) = .ok t)
    (hparse : Workflow.Graph.parse t = .ok g) (hfix : o.fix = false) (hdry : o.dryRun = false) :
    (∃ gs cs,
      List.Forall₂ (Contributes (w.store.absolute path) t g) (AnyCheck.ofKind .graph checks) gs ∧
      List.Forall₂ (Contributes (w.store.absolute path) t g) (AnyCheck.ofKind .content checks) cs ∧
      outcome (validateWorkflow (.ofChecks checks) o path) w =
        (.ok ⟨Finding.escalate o.strict
          (Finding.select o.rules o.excludeRules (gs.flatten ++ cs.flatten)),
          [w.store.absolute path]⟩, w)) ∧
    (∀ before c after, checks = before ++ c :: after →
      ∃ earlier later, ∀ c', c'.kind = c.kind →
        ∃ own, Contributes (w.store.absolute path) t g c' own ∧
          outcome (validateWorkflow (.ofChecks (before ++ c' :: after)) o path) w =
            (.ok ⟨earlier ++ Finding.escalate o.strict (Finding.select o.rules o.excludeRules own) ++
              later, [w.store.absolute path]⟩, w)) ∧
    ∀ checks', (∀ kind, AnyCheck.ofKind kind checks' = AnyCheck.ofKind kind checks) →
      ∀ o path,
        validateWorkflow (.ofChecks checks') o path = validateWorkflow (.ofChecks checks) o path ∧
        validateProject (.ofChecks checks') o path = validateProject (.ofChecks checks) o path := by
  have hreads : o.ReadsOnly := by
    left
    rw [Options.wantsFixes, hfix, hdry]
    rfl
  have hrun := fun r => outcome_validateWorkflow_plain (r := r)
    (readWorkflow_eq_ok_iff.2 ⟨hread, hparse⟩) hreads
  refine ⟨?segments, ?place, ?mixed⟩
  case segments =>
    have hcontributes : ∀ checks, List.Forall₂ (Contributes (w.store.absolute path) t g) checks
        (checks.map (AnyCheck.contribution (w.store.absolute path) t g)) := fun checks =>
      List.forall₂_map_right_iff.2 (List.forall₂_same.2 fun c _ => contributes_contribution _ t g c)
    refine ⟨_, _, hcontributes _, hcontributes _, ?_⟩
    rw [hrun, chosenFindings, examine_ofChecks, contributions, contributions, List.flatMap_def,
      List.flatMap_def]
    rfl
  case place =>
    rintro before c after -
    obtain ⟨earlier, later, hexamine⟩ :=
      exists_examine_eq (w.store.absolute path) t g before c.kind after
    refine ⟨o.choose earlier, o.choose later, fun c' hkind => ?_⟩
    refine ⟨_, contributes_contribution _ t g c', ?_⟩
    rw [hrun, chosenFindings, hexamine c' hkind, Options.choose_append, Options.choose_append]
    rfl
  case mixed =>
    intro checks' hsame o path
    rw [Registry.ofChecks_congr hsame]
    exact ⟨rfl, rfl⟩

/-- A check of graphs that stops. -/
def stoppingCheck : GraphCheck where
  info := { id := "G", name := "n", severity := .must, description := [] }
  run := fun _ _ => .error ⟨"RuntimeError", "no graph"⟩

/-- The check that stops is reported first, although it was registered last. -/
theorem validateWorkflow_isolates_stoppingCheck :
    ∃ t g gs cs result,
      emptyWorkflow.store.read emptyWorkflowPath = .ok t ∧ Workflow.Graph.parse t = .ok g ∧
      List.Forall₂ (Contributes emptyWorkflowPath t g) [.graph stoppingCheck] gs ∧
      List.Forall₂ (Contributes emptyWorkflowPath t g) [.content lineEndCheck] cs ∧
      outcome (validateWorkflow (.ofChecks [.content lineEndCheck, .graph stoppingCheck]) {} "w.json")
        emptyWorkflow = (.ok result, emptyWorkflow) ∧
      result.findings = gs.flatten ++ cs.flatten ∧
      result.findings.map Finding.rule = [↑"GRAPH-CHECK-ERR", ↑"A"] := by
  have hreads : (readWorkflow emptyWorkflow.store emptyWorkflowPath).toOption.isSome = true := by
    decide +kernel
  have hrules : passes
      (fun result _ => decide (result.findings.map Finding.rule = [↑"GRAPH-CHECK-ERR", ↑"A"]))
      (validateWorkflow (.ofChecks [.content lineEndCheck, .graph stoppingCheck]) {} "w.json")
      emptyWorkflow = true := by decide +kernel
  rcases hread : readWorkflow emptyWorkflow.store emptyWorkflowPath with e | ⟨t, g⟩
  · simp [hread, Except.toOption] at hreads
  obtain ⟨htext, hparse⟩ := readWorkflow_eq_ok_iff.1 hread
  obtain ⟨gs, cs, hgs, hcs, hrun⟩ := (validateWorkflow_isolates
    [.content lineEndCheck, .graph stoppingCheck] (o := {}) htext hparse rfl rfl).1
  obtain ⟨result, v, hresult, hrules⟩ := exists_outcome_of_passes hrules
  obtain ⟨heq, rfl⟩ := Prod.mk.inj (hresult.symm.trans hrun)
  obtain rfl := Except.ok.inj heq
  refine ⟨t, g, gs, cs, _, htext, hparse, hgs, hcs, hrun, ?_, of_decide_eq_true hrules⟩
  exact Options.choose_default _

end WorkflowLint
