import Mathlib.Logic.Basic
import WorkflowLint.Check.BuiltIn
import WorkflowLint.Proofs.Finding.Choice
import WorkflowLint.Proofs.Run.Project

/-!
# Which findings are dropped

After a run that fixes files the findings that can be mended are left out, by their rules and as
soon as some fix has changed a text.  A finding may so be left out though its own fix failed, or
though its file was not written.  The main result, `dropsOnlyFixed_iff`, says when that does not
happen: on one file, when every fix gave a text and the file has other bytes, or none counted; on a
project, when all findings of the rules of a fixed group were mended, wherever they are.
-/

namespace WorkflowLint

open Job

/-! ## What it is to be mended -/

/-- The fix of a finding gives a text whenever it has its turn among the fixes of some findings. -/
def Fixing.GivesText (t : Text) (findings : List Finding) (f : Finding) : Prop :=
  ∀ pre fix post, candidates findings = pre ++ (f, fix) :: post →
    ∃ after, fix.run (Fix.applyAll (pre.map (·.2)) t) = .text after

/-- The file at a path has other bytes in the second workspace. -/
def Rewrites (u v : Workspace) (path : Text) : Prop := v.store.file? path ≠ u.store.file? path

instance (u v : Workspace) (path : Text) : Decidable (Rewrites u v path) :=
  inferInstanceAs (Decidable (_ ≠ _))

/-- Every finding that can be mended and that a run on a file leaves out was mended. -/
def DropsOnlyFixed (findings left : List Finding) (mended : Finding → Prop) : Prop :=
  ∀ f ∈ findings, f.fixable = true → f ∉ left → mended f

/-- A finding on a project was mended: at the turn of its group its fix gave a text, and its file
got other bytes. -/
def MendedInProject (r : Registry) (o : Options) (folder : Text) (w : Workspace) (f : Finding) :
    Prop :=
  ∃ u v findings fixed t, GroupTurn r o folder w u (f.path, findings) ∧ f ∈ findings ∧
    outcome (groupJob o (f.path, findings)) u = (.ok fixed, v) ∧
    u.store.read (Path.clean f.path) = .ok t ∧ Fixing.GivesText t findings f ∧
    Rewrites u v (Path.clean f.path)

theorem Fixing.exists_fixable_of_candidates_ne_nil {findings : List Finding}
    (h : candidates findings ≠ []) : ∃ f ∈ findings, f.fixable = true := by
  obtain ⟨⟨f, fix⟩, hmem⟩ := List.exists_mem_of_ne_nil _ h
  obtain ⟨f', hf, hfix⟩ := List.mem_filterMap.1 hmem
  refine ⟨f', hf, ?_⟩
  rw [Finding.fixable]
  cases hx : f'.fix with
  | none => simp [hx] at hfix
  | some _ => rfl

theorem dropsOnlyFixed_self {findings : List Finding} {mended : Finding → Prop} :
    DropsOnlyFixed findings findings mended := fun _ hf _ hout => absurd hf hout

/-- Where all findings that can be mended are left out, all have to be mended. -/
theorem dropsOnlyFixed_unfixable_iff {findings : List Finding} {mended : Finding → Prop} :
    DropsOnlyFixed findings (unfixable findings) mended ↔
      ∀ f ∈ findings, f.fixable = true → mended f := by
  constructor
  · intro h f hf hfix
    exact h f hf hfix (by simp [unfixable, hfix])
  · intro h f hf hfix _
    exact h f hf hfix

/-! ## One file -/

namespace Fixing

/-- The fixes of a file do not count: none changed the text at its turn, or writing was refused. -/
def CountsNone (s : Store) (t : Text) (findings : List Finding) : Prop :=
  changes t findings = 0 ∨ (mended t findings ≠ t ∧ s.refusesWrites = true)

variable {w v : Workspace} {path t : Text} {findings : List Finding}

theorem changes_of_candidates_nil (h : candidates findings = []) : changes t findings = 0 := by
  rw [changes, h]
  rfl

/-- Fixing a file says that no fix was applied exactly when none counts. -/
theorem applied_eq_zero_iff {fixed : FixResult} (hread : w.store.read (Path.clean path) = .ok t)
    (h : outcome (apply path findings false) w = (.ok fixed, v)) :
    fixed.applied = 0 ↔ CountsNone w.store t findings := by
  have hend := apply_ending w path findings
  rw [h] at hend
  cases hend with
  | idle hc => simp [CountsNone, changes_of_candidates_nil hc]
  | unreadable hc hf hread' => simp [hread] at hread'
  | @unchanged u hc hread' hm =>
    obtain rfl : t = u := by simpa [hread] using hread'
    simp [CountsNone, hm]
  | @refused u hc hread' hm hr =>
    obtain rfl : t = u := by simpa [hread] using hread'
    simp [CountsNone, hm, hr]
  | @written u bytes hc hread' hm hr he =>
    obtain rfl : t = u := by simpa [hread] using hread'
    simp [CountsNone, hr]

theorem exists_fixable_of_not_countsNone {s : Store} (h : ¬ CountsNone s t findings) :
    ∃ f ∈ findings, f.fixable = true :=
  exists_fixable_of_candidates_ne_nil fun hc => h (.inl (changes_of_candidates_nil hc))

end Fixing

section File

variable {r : Registry} {o : Options} {w v : Workspace} {path t : Text} {g : Workflow.Graph}
  {result : Result}

/-- What is left out after a run on a file was mended exactly when the fixes did not count, or all
of them gave a text and the file has other bytes. -/
theorem dropsOnlyFixed_file_iff (hw : o.wantsFixes = true)
    (h : readWorkflow w.store (w.store.absolute path) = .ok (t, g))
    (hrun : outcome (validateWorkflow r o path) w = (.ok result, v)) :
    DropsOnlyFixed (chosenFindings r o (w.store.absolute path) t g) result.findings
        (fun f => Fixing.GivesText t (chosenFindings r o (w.store.absolute path) t g) f ∧
          Rewrites w v (w.store.absolute path)) ↔
      o.dryRun = true ∨
        Fixing.CountsNone w.store t (chosenFindings r o (w.store.absolute path) t g) ∨
        ((∀ f ∈ chosenFindings r o (w.store.absolute path) t g, f.fixable = true →
            Fixing.GivesText t (chosenFindings r o (w.store.absolute path) t g) f) ∧
          Rewrites w v (w.store.absolute path)) := by
  cases hdry : o.dryRun with
  | true =>
    rw [outcome_validateWorkflow_plain h (.inr hdry)] at hrun
    obtain rfl := Except.ok.inj (Prod.mk.inj hrun).1
    simp [dropsOnlyFixed_self]
  | false =>
    rw [outcome_validateWorkflow_fixing h hw hdry] at hrun
    generalize chosenFindings r o (w.store.absolute path) t g = findings at hrun ⊢
    have hread : w.store.read (Path.clean (w.store.absolute path)) = .ok t := by
      rw [Store.clean_absolute]
      exact (readWorkflow_eq_ok_iff.1 h).1
    rcases hout : outcome (Fixing.apply (w.store.absolute path) findings false) w with
      ⟨f | fixed, v'⟩
    · simp [hout] at hrun
    simp only [hout, Prod.mk.injEq, Except.ok.injEq] at hrun
    obtain ⟨rfl, rfl⟩ := hrun
    -- the count of fixes decides for all findings at once, not each fix for its own
    have happlied := Fixing.applied_eq_zero_iff hread hout
    by_cases hz : fixed.applied = 0
    · simp [hz, happlied.1 hz, dropsOnlyFixed_self]
    · have hcounts : ¬ Fixing.CountsNone w.store t findings := fun hn => hz (happlied.2 hn)
      obtain ⟨f₀, hf₀, hfix₀⟩ := Fixing.exists_fixable_of_not_countsNone hcounts
      simp only [if_neg hz, dropsOnlyFixed_unfixable_iff, hcounts, Bool.false_eq_true, false_or]
      constructor
      · intro hall
        exact ⟨fun f hf hfix => (hall f hf hfix).1, (hall f₀ hf₀ hfix₀).2⟩
      · rintro ⟨hall, hrew⟩ f hf hfix
        exact ⟨hall f hf hfix, hrew⟩

end File

/-! ## A project -/

section Project

variable {r : Registry} {o : Options} {folder : Text} {w u v : Workspace}

/-- A finding is left when it cannot be mended, or no fixed group has a mendable finding of its
rule. -/
theorem mem_leftAfter_iff {findings : List Finding} {results : List FixResult} {f : Finding} :
    f ∈ leftAfter findings results ↔
      f ∈ findings ∧ (f.fixable = true → ∀ group fixed,
        (group, fixed) ∈ (Finding.byFile findings).zip results → 0 < fixed.applied →
          f.rule ∉ fixableRules group.2) := by
  simp only [leftAfter, mem_dropFixed, List.mem_flatMap, List.mem_filter, decide_eq_true_eq,
    not_exists, not_and, and_imp, Prod.forall]

/-- The findings on a project that are left out have the rule of a fixed group. -/
theorem not_mem_of_projectFindings_iff {own : List Finding} {f : Finding}
    (hdry : o.dryRun = false) (hw : o.wantsFixes = true)
    (hrun : outcome (projectFindings r o folder) w = (.ok own, v))
    (hf : f ∈ projectChosen r o folder w) (hfix : f.fixable = true) :
    f ∉ own ↔ ∃ u group fixed u', GroupTurn r o folder w u group ∧
      outcome (groupJob o group) u = (.ok fixed, u') ∧ 0 < fixed.applied ∧
      f.rule ∈ fixableRules group.2 := by
  rw [outcome_projectFindings, hw, if_pos rfl, outcome_fixProject] at hrun
  rcases hm : outcome ((Finding.byFile (projectChosen r o folder w)).mapM (groupJob o)) w with
    ⟨e | results, v'⟩
  · simp [hm] at hrun
  simp only [hm, hdry, Bool.false_eq_true, if_false, Prod.mk.injEq, Except.ok.injEq] at hrun
  obtain ⟨rfl, rfl⟩ := hrun
  -- each result belongs to the turn of its group
  have hchain := outcome_mapM_ok_iff.1 hm
  rw [mem_leftAfter_iff]
  simp only [hf, hfix, true_and, true_imp_iff, not_forall, not_not, exists_prop,
    hchain.mem_zip_iff, GroupTurn, hw]
  constructor
  · rintro ⟨group, fixed, ⟨u, u', ht, hout⟩, hpos, hrule⟩
    exact ⟨u, group, fixed, u', ht, hout, hpos, hrule⟩
  · rintro ⟨u, group, fixed, u', ht, hout, hpos, hrule⟩
    exact ⟨group, fixed, ⟨u, u', ht, hout⟩, hpos, hrule⟩

/-- The findings on a project that are left are among those chosen. -/
theorem mem_projectChosen_of_projectFindings {own : List Finding}
    (hrun : outcome (projectFindings r o folder) w = (.ok own, v)) :
    ∀ f ∈ own, f ∈ projectChosen r o folder w := by
  rw [outcome_projectFindings, outcome_fixProject] at hrun
  cases hw : o.wantsFixes with
  | false =>
    obtain ⟨rfl, -⟩ : projectChosen r o folder w = own ∧ w = v := by simpa [hw] using hrun
    intro f hf
    exact hf
  | true =>
    rcases hm : outcome ((Finding.byFile (projectChosen r o folder w)).mapM (groupJob o)) w with
      ⟨e | results, v'⟩
    · simp [hw, hm] at hrun
    · simp only [hw, hm, if_true, Prod.mk.injEq, Except.ok.injEq] at hrun
      obtain ⟨rfl, -⟩ := hrun
      split
      · intro f hf
        exact hf
      · intro f hf
        exact (mem_leftAfter_iff.1 hf).1

/-- The result of a run on a project starts with what is left of the findings on the project. -/
theorem exists_append_of_validateProject {result : Result}
    (hfolder : w.store.isFolder (w.store.absolute folder) = true)
    (hrun : outcome (validateProject r o folder) w = (.ok result, v)) :
    ∃ own u rest, outcome (projectFindings r o (w.store.absolute folder)) w = (.ok own, u) ∧
      result.findings = own ++ rest := by
  rw [outcome_validateProject hfolder] at hrun
  rcases hown : outcome (projectFindings r o (w.store.absolute folder)) w with ⟨e | own, u⟩
  · simp [hown] at hrun
  have hchoose : o.choose own = own := Options.choose_eq_self fun f hf =>
    Options.chosen_of_mem_choose (mem_projectChosen_of_projectFindings hown f hf)
  simp only [hown] at hrun
  refine ⟨own, u, ?_⟩
  cases hskip : o.skipWorkflows with
  | true =>
    obtain ⟨rfl, -⟩ : _ = result ∧ u = v := by simpa [hskip, hchoose] using hrun
    exact ⟨[], rfl, by simp⟩
  | false =>
    cases hlist : u.workflowFiles (w.store.absolute folder) with
    | error f =>
      obtain ⟨rfl, -⟩ : _ = result ∧ u = v := by simpa [hskip, hlist, unlisted, hchoose] using hrun
      exact ⟨_, rfl, rfl⟩
    | ok paths =>
      rcases hfiles : outcome (paths.mapM (fileJob r o)) u with ⟨e | results, v'⟩
      · simp [hskip, hlist, hfiles] at hrun
      · obtain ⟨rfl, -⟩ : _ = result ∧ v' = v := by
          simpa [hskip, hlist, hfiles, gathered, Options.choose_append, hchoose] using hrun
        exact ⟨_, rfl, rfl⟩

/-- What is left out of the findings on a project was mended exactly when all findings with the rule
of a fixed group were. -/
theorem dropsOnlyFixed_project_iff {own : List Finding} (hw : o.wantsFixes = true)
    (hrun : outcome (projectFindings r o folder) w = (.ok own, v)) :
    DropsOnlyFixed (projectChosen r o folder w) own (MendedInProject r o folder w) ↔
      o.dryRun = true ∨ ∀ u group fixed u', GroupTurn r o folder w u group →
        outcome (groupJob o group) u = (.ok fixed, u') → 0 < fixed.applied →
        ∀ f ∈ projectChosen r o folder w, f.fixable = true → f.rule ∈ fixableRules group.2 →
          MendedInProject r o folder w f := by
  cases hdry : o.dryRun with
  | true =>
    rw [outcome_projectFindings_readsOnly (.inr hdry)] at hrun
    obtain ⟨rfl, -⟩ : projectChosen r o folder w = own ∧ w = v := by simpa using hrun
    simp [dropsOnlyFixed_self]
  | false =>
    simp only [Bool.false_eq_true, false_or]
    constructor
    · intro h u group fixed u' hturn hout hpos f hf hfix hrule
      refine h f hf hfix ?_
      exact (not_mem_of_projectFindings_iff hdry hw hrun hf hfix).2
        ⟨u, group, fixed, u', hturn, hout, hpos, hrule⟩
    · intro h f hf hfix hout
      obtain ⟨u, group, fixed, u', hturn, hjob, hpos, hrule⟩ :=
        (not_mem_of_projectFindings_iff hdry hw hrun hf hfix).1 hout
      exact h u group fixed u' hturn hjob hpos f hf hfix hrule

end Project

/-! ## The main result -/

/-- What runs that fix files leave out was mended exactly under these conditions.  On one file:
either no fix counts, or the fix of every finding that can be mended gives a text at its turn and
the file gets other bytes.  On a project, whose findings come first in its result: the same holds of
every finding whose rule is that of a mendable finding in a group that counts, whatever its own
group is. -/
theorem dropsOnlyFixed_iff (r : Registry) (o : Options) (w v : Workspace) (path folder : Text)
    (result : Result) :
    (∀ t g, o.wantsFixes = true → readWorkflow w.store (w.store.absolute path) = .ok (t, g) →
      outcome (validateWorkflow r o path) w = (.ok result, v) →
      (DropsOnlyFixed (chosenFindings r o (w.store.absolute path) t g) result.findings
          (fun f => Fixing.GivesText t (chosenFindings r o (w.store.absolute path) t g) f ∧
            Rewrites w v (w.store.absolute path)) ↔
        o.dryRun = true ∨
          Fixing.CountsNone w.store t (chosenFindings r o (w.store.absolute path) t g) ∨
          ((∀ f ∈ chosenFindings r o (w.store.absolute path) t g, f.fixable = true →
              Fixing.GivesText t (chosenFindings r o (w.store.absolute path) t g) f) ∧
            Rewrites w v (w.store.absolute path)))) ∧
    (o.wantsFixes = true → w.store.isFolder (w.store.absolute folder) = true →
      outcome (validateProject r o folder) w = (.ok result, v) →
      ∃ own u rest, outcome (projectFindings r o (w.store.absolute folder)) w = (.ok own, u) ∧
        result.findings = own ++ rest ∧
        (DropsOnlyFixed (projectChosen r o (w.store.absolute folder) w) own
            (MendedInProject r o (w.store.absolute folder) w) ↔
          o.dryRun = true ∨ ∀ u group fixed u',
            GroupTurn r o (w.store.absolute folder) w u group →
            outcome (groupJob o group) u = (.ok fixed, u') → 0 < fixed.applied →
            ∀ f ∈ projectChosen r o (w.store.absolute folder) w, f.fixable = true →
              f.rule ∈ fixableRules group.2 →
              MendedInProject r o (w.store.absolute folder) w f)) := by
  refine ⟨fun t g hw h hrun => dropsOnlyFixed_file_iff hw h hrun, fun hw hfolder hrun => ?_⟩
  obtain ⟨own, u, rest, hown, happend⟩ := exists_append_of_validateProject hfolder hrun
  exact ⟨own, u, rest, hown, happend, dropsOnlyFixed_project_iff hw hown⟩

/-- A finding on a file that can be mended by a fix. -/
def mendable (rule path : Text) (fix : Fix) : Finding where
  rule := rule
  severity := .must
  path := path
  message := []
  fix := some fix

/-- A workflow file without nodes. -/
def emptyWorkflow : Workspace := .single "w.json" "\x7b\"nodes\":[]\x7d"

/-- The path of that file. -/
def emptyWorkflowPath : Text := emptyWorkflow.store.absolute "w.json"

/-- A check that misses a line end. -/
def lineEndCheck : ContentCheck where
  info := { id := "A", name := "n", severity := .must, description := [] }
  run := fun _ path => .ok [mendable "A" path (.appending [] "\n")]

/-- A run with that check on a workflow mends what it leaves out. -/
theorem dropsOnlyFixed_lineEndCheck :
    ∃ t g result v,
      outcome (validateWorkflow { content := [lineEndCheck] } { fix := true } "w.json")
        emptyWorkflow = (.ok result, v) ∧ result.findings = [] ∧
      DropsOnlyFixed
        (chosenFindings { content := [lineEndCheck] } { fix := true } emptyWorkflowPath t g)
        result.findings fun f =>
          Fixing.GivesText t
            (chosenFindings { content := [lineEndCheck] } { fix := true } emptyWorkflowPath t g) f ∧
          Rewrites emptyWorkflow v emptyWorkflowPath := by
  have hreads : (readWorkflow emptyWorkflow.store emptyWorkflowPath).isOk = true := by decide +kernel
  have hmends : passes (fun result v => result.findings.isEmpty &&
        decide (Rewrites emptyWorkflow v emptyWorkflowPath))
      (validateWorkflow { content := [lineEndCheck] } { fix := true } "w.json") emptyWorkflow =
    true := by decide +kernel
  rcases hread : readWorkflow emptyWorkflow.store emptyWorkflowPath with e | ⟨t, g⟩
  · simp [hread, Except.isOk, Except.toBool] at hreads
  obtain ⟨result, v, hrun, hmended⟩ := exists_outcome_of_passes hmends
  simp only [Bool.and_eq_true, List.isEmpty_iff, decide_eq_true_eq] at hmended
  refine ⟨t, g, result, v, hrun, hmended.1, ?_⟩
  refine ((dropsOnlyFixed_iff _ _ _ v _ [] result).1 t g rfl hread hrun).2
    (.inr (.inr ⟨?_, hmended.2⟩))
  rintro f - - pre fix post hpre
  have hall : [(mendable "A" emptyWorkflowPath (.appending [] "\n"), Fix.appending [] "\n")] =
      pre ++ (f, fix) :: post := hpre
  have hmem : (f, fix) ∈ pre ++ (f, fix) :: post := by simp
  rw [← hall] at hmem
  obtain rfl := (Prod.mk.inj (List.mem_singleton.1 hmem)).2
  exact ⟨_, rfl⟩

/-- A fix that stops with a fault. -/
def brokenFix : Fix := ⟨[], fun _ => .fault ⟨"RuntimeError", "broken fix"⟩⟩

/-- A check that finds two things in every text; only the first has a fix that works. -/
def brokenFixCheck : ContentCheck where
  info := { id := "A", name := "n", severity := .must, description := [] }
  run := fun _ path => .ok [mendable "A" path (.appending [] "\n"), mendable "B" path brokenFix]

/-- A run with that check on a workflow leaves both findings out. -/
theorem not_dropsOnlyFixed_brokenFix :
    ∃ t g result v,
      readWorkflow emptyWorkflow.store emptyWorkflowPath =
        .ok (t, g) ∧
      outcome (validateWorkflow { content := [brokenFixCheck] } { fix := true } "w.json")
        emptyWorkflow = (.ok result, v) ∧
      ¬ DropsOnlyFixed
        (chosenFindings { content := [brokenFixCheck] } { fix := true } emptyWorkflowPath t g)
        result.findings fun f =>
          Fixing.GivesText t
            (chosenFindings { content := [brokenFixCheck] } { fix := true } emptyWorkflowPath t g) f ∧
          Rewrites emptyWorkflow v emptyWorkflowPath := by
  have hreads : (readWorkflow emptyWorkflow.store emptyWorkflowPath).isOk = true := by decide +kernel
  have hempties : passes (fun result _ => result.findings.isEmpty)
      (validateWorkflow { content := [brokenFixCheck] } { fix := true } "w.json") emptyWorkflow =
    true := by decide +kernel
  rcases hread : readWorkflow emptyWorkflow.store emptyWorkflowPath with e | ⟨t, g⟩
  · simp [hread, Except.isOk, Except.toBool] at hreads
  obtain ⟨result, v, hrun, hempty⟩ := exists_outcome_of_passes hempties
  have hnone : result.findings = [] := List.isEmpty_iff.1 hempty
  refine ⟨t, g, result, v, rfl, hrun, fun h => ?_⟩
  have hchosen :
      chosenFindings { content := [brokenFixCheck] } { fix := true } emptyWorkflowPath t g =
        [mendable "A" emptyWorkflowPath (.appending [] "\n"),
          mendable "B" emptyWorkflowPath brokenFix] := rfl
  rw [hnone, hchosen] at h
  have hmended := (h (mendable "B" emptyWorkflowPath brokenFix) (by simp) rfl List.not_mem_nil).1
  obtain ⟨after, hafter⟩ :=
    hmended [(mendable "A" emptyWorkflowPath (.appending [] "\n"), .appending [] "\n")] brokenFix []
      rfl
  simp [brokenFix] at hafter

end WorkflowLint
