import Mathlib.Logic.Basic
import WorkflowLint.Check.BuiltIn
import WorkflowLint.Proofs.Run.Project

/-!
# What fixing stores

The text that the fixes of a file make is stored as a whole or not at all, and the run goes on,
exactly when that text can be stored or writing is refused (`Fixing.CanStore`).  A text with a
surrogate cannot be stored: the file is then left empty and the run stops with a fault.  A fix that
writes a document again brings such a text about from a file that has none, since the surrogates of
a document may be written as escapes.
-/

namespace WorkflowLint

open Job

namespace Fixing

/-- The fixes of some findings make a new text for the file at a path, so that fixing the file sets
out to write it. -/
def SetsOutToWrite (s : Store) (path : Text) (findings : List Finding) (t : Text) : Prop :=
  ∃ before, s.read path = .ok before ∧ mended before findings = t ∧ t ≠ before

/-- Whatever the fixes of some findings make of the file at a path can be stored, or else is not
written. -/
def CanStore (s : Store) (path : Text) (findings : List Finding) : Prop :=
  s.refusesWrites = true ∨ ∀ t, SetsOutToWrite s path findings t → t.Storable

/-- Fixing the file at a path has a result and leaves the file with its bytes, no fix being counted
if a text should have been written, or else with the bytes of the text of the result. -/
def AllOrNothing (w : Workspace) (path : Text) (findings : List Finding) : Prop :=
  ∃ fixed v, outcome (apply path findings false) w = (.ok fixed, v) ∧
    ((v.store.file? (Path.clean path) = w.store.file? (Path.clean path) ∧
        ((∃ t, SetsOutToWrite w.store (Path.clean path) findings t) → fixed.applied = 0)) ∨
      ∃ bytes, Utf8.encode fixed.content = .ok bytes ∧
        v.store.file? (Path.clean path) = some bytes)

/-- Fixing the file at a path leaves the file empty, for the text that it should have has a
surrogate. -/
def Empties (w : Workspace) (path : Text) (findings : List Finding) (f : Fault) (v : Workspace) :
    Prop :=
  w.store.refusesWrites = false ∧ ∃ t e, SetsOutToWrite w.store path findings t ∧
    Utf8.encode t = .error e ∧ f = .ofSurrogates e ∧
    v = { w with store := w.store.setBytes path [] }

section

variable {w v : Workspace} {path : Text} {findings : List Finding} {f : Fault}

theorem candidates_ne_nil_of_setsOutToWrite {s : Store} {t : Text}
    (h : SetsOutToWrite s path findings t) : candidates findings ≠ [] := by
  obtain ⟨before, -, rfl, hne⟩ := h
  intro hc
  exact hne (mended_of_candidates_nil hc)

/-- What cannot be stored empties the file. -/
theorem exists_empties_iff :
    (∃ f v, Empties w path findings f v) ↔ ¬ CanStore w.store path findings := by
  simp only [Empties, CanStore, not_or, Bool.not_eq_true, not_forall, exists_prop,
    ← Utf8.exists_encode_error_iff]
  constructor
  · rintro ⟨f, v, hr, t, e, ht, he, -, -⟩
    exact ⟨hr, t, ht, e, he⟩
  · rintro ⟨hr, t, ht, e, he⟩
    exact ⟨_, _, hr, t, e, ht, he, rfl, rfl⟩

/-- Fixing a file stops where its path cannot be that of a file, and where it empties the file. -/
theorem outcome_apply_error_iff :
    outcome (apply path findings false) w = (.error f, v) ↔
      (candidates findings ≠ [] ∧ w.store.read (Path.clean path) = .error (.fault f) ∧ v = w) ∨
        Empties w (Path.clean path) findings f v := by
  constructor
  · intro h
    have hend := apply_ending w path findings
    rw [h] at hend
    cases hend with
    | noPath hc hread => exact .inl ⟨hc, hread, rfl⟩
    | @emptied t e hc hread hm hr he =>
      exact .inr ⟨hr, _, e, ⟨t, hread, rfl, hm⟩, he, rfl, rfl⟩
  · rintro (⟨hc, hread, rfl⟩ | ⟨hr, t, e, ht, he, rfl, rfl⟩)
    · rw [outcome_apply, if_neg (fun h => hc (List.isEmpty_iff.1 h)), hread]
    · have hc := candidates_ne_nil_of_setsOutToWrite ht
      obtain ⟨before, hread, rfl, hne⟩ := ht
      rw [outcome_apply, if_neg (fun h => hc (List.isEmpty_iff.1 h)), hread]
      refine outcome_write_fault ?_ hr he
      rw [not_or]
      exact ⟨changes_ne_zero hne, hne⟩

/-- Where a file can be read, fixing it stops only by emptying it. -/
theorem outcome_apply_error_iff_of_read {t : Text} (hread : w.store.read (Path.clean path) = .ok t) :
    outcome (apply path findings false) w = (.error f, v) ↔
      Empties w (Path.clean path) findings f v := by
  simp [outcome_apply_error_iff, hread]

/-- Fixing a file has a result unless it stops. -/
theorem exists_outcome_apply_ok_iff {t : Text} (hread : w.store.read (Path.clean path) = .ok t) :
    (∃ fixed v, outcome (apply path findings false) w = (.ok fixed, v)) ↔
      CanStore w.store (Path.clean path) findings := by
  rw [← not_iff_not, ← exists_empties_iff]
  simp only [← outcome_apply_error_iff_of_read hread]
  rcases outcome (apply path findings false) w with ⟨_ | _, _⟩ <;> simp

/-- A file is fixed as a whole or not at all exactly when what it should have can be stored. -/
theorem allOrNothing_iff {t : Text} (hread : w.store.read (Path.clean path) = .ok t) :
    AllOrNothing w path findings ↔ CanStore w.store (Path.clean path) findings := by
  rw [← exists_outcome_apply_ok_iff hread]
  constructor
  · rintro ⟨fixed, v, h, -⟩
    exact ⟨fixed, v, h⟩
  rintro ⟨fixed, v, h⟩
  refine ⟨fixed, v, h, ?_⟩
  have hend := apply_ending w path findings
  rw [h] at hend
  cases hend with
  | idle hc => exact .inl ⟨rfl, fun _ => rfl⟩
  | unreadable hc hf hread' => exact .inl ⟨rfl, fun _ => rfl⟩
  | @unchanged u hc hread' hm =>
    refine .inl ⟨rfl, ?_⟩
    rintro ⟨t', before, hbefore, rfl, hne⟩
    obtain rfl : u = before := by simpa [hread'] using hbefore
    exact absurd hm hne
  | refused hc hread' hm hr => exact .inl ⟨rfl, fun _ => rfl⟩
  | @written u bytes hc hread' hm hr he =>
    have hfile := Store.isFile_of_read hread'
    exact .inr ⟨bytes, he, Store.file?_setBytes_self hfile⟩

end

end Fixing

/-! ## Runs that fix files -/

/-- A run that fixes a workflow file has a result exactly when what the file should have can be
stored. -/
theorem exists_outcome_validateWorkflow_ok_iff {r : Registry} {o : Options} {w : Workspace}
    {path t : Text} {g : Workflow.Graph} (hw : o.wantsFixes = true) (hdry : o.dryRun = false)
    (h : readWorkflow w.store (w.store.absolute path) = .ok (t, g)) :
    (∃ result v, outcome (validateWorkflow r o path) w = (.ok result, v)) ↔
      Fixing.CanStore w.store (w.store.absolute path)
        (chosenFindings r o (w.store.absolute path) t g) := by
  have hread : w.store.read (Path.clean (w.store.absolute path)) = .ok t := by
    rw [Store.clean_absolute]
    exact (readWorkflow_eq_ok_iff.1 h).1
  have hiff : _ ↔ Fixing.CanStore w.store (Path.clean (w.store.absolute path))
      (chosenFindings r o (w.store.absolute path) t g) :=
    Fixing.exists_outcome_apply_ok_iff hread
  rw [Store.clean_absolute] at hiff
  rw [← hiff, outcome_validateWorkflow_fixing h hw hdry]
  rcases outcome (Fixing.apply (w.store.absolute path)
    (chosenFindings r o (w.store.absolute path) t g) false) w with ⟨_ | fixed, v⟩ <;> simp

/-- Fixing is all or nothing exactly where the text that a file should have can be stored or is not
written; elsewhere the file is emptied, and the run on the file or its project stops. -/
theorem allOrNothing_iff_canStore (r : Registry) (o : Options) (w : Workspace)
    (path folder : Text) (findings : List Finding) :
    (∀ bytes t, w.store.file? (Path.clean path) = some bytes → Utf8.decode bytes = .ok t →
      (Fixing.AllOrNothing w path findings ↔
        Fixing.CanStore w.store (Path.clean path) findings) ∧
      (¬ Fixing.CanStore w.store (Path.clean path) findings →
        ∃ e v, outcome (Fixing.apply path findings false) w = (.error (.ofSurrogates e), v) ∧
          v.store.file? (Path.clean path) = some [])) ∧
    (∀ t g, o.wantsFixes = true → o.dryRun = false →
      readWorkflow w.store (w.store.absolute path) = .ok (t, g) →
      ((∃ result v, outcome (validateWorkflow r o path) w = (.ok result, v)) ↔
        Fixing.CanStore w.store (w.store.absolute path)
          (chosenFindings r o (w.store.absolute path) t g))) ∧
    (w.store.isFolder (w.store.absolute folder) = true → ∀ f v,
      (outcome (validateProject r o folder) w = (.error f, v) ↔
        (∃ u path findings, FixTurn r o (w.store.absolute folder) w u path findings ∧
          (Fixing.Empties u (Path.clean path) findings f v ∨
            (Fixing.candidates findings ≠ [] ∧
              u.store.read (Path.clean path) = .error (.fault f) ∧ v = u))) ∨
        ∃ path, FileTurn r o (w.store.absolute folder) w v path ∧
          readWorkflow v.store (v.store.absolute path) = .error (.fault f))) := by
  refine ⟨fun bytes t hfile hdec => ?_,
    fun t g hw hdry h => exists_outcome_validateWorkflow_ok_iff hw hdry h, fun h f v => ?_⟩
  · have hread : w.store.read (Path.clean path) = .ok t.normaliseLineEnds :=
      Store.read_eq_ok_iff.2 ⟨bytes, t, hfile, hdec, rfl⟩
    refine ⟨Fixing.allOrNothing_iff hread, fun hno => ?_⟩
    obtain ⟨f, v, hempty⟩ := Fixing.exists_empties_iff.2 hno
    have hstop := (Fixing.outcome_apply_error_iff_of_read hread).2 hempty
    obtain ⟨-, t', e, -, -, rfl, rfl⟩ := hempty
    exact ⟨e, _, hstop, Store.file?_setBytes_self (by rw [hfile, Option.isSome_some])⟩
  · rw [outcome_validateProject_error_iff_fixTurn h]
    simp only [Fixing.outcome_apply_error_iff]
    refine or_congr_left (exists_congr fun u => exists_congr fun path => exists_congr fun fs => ?_)
    rw [or_comm]

/-- A line end that is appended to a file is stored. -/
theorem allOrNothing_appending :
    Fixing.AllOrNothing (.single "w.json" "[]") "w.json"
      [{ rule := "END", severity := .nit, path := "w.json", message := "No line end"
         fix := some (.appending "Append a line end" "\n") }] := by
  have hfile : (Workspace.single "w.json" "[]").store.file? (Path.clean "w.json") =
      some [91, 93] := by decide +kernel
  have hdec : Utf8.decode [91, 93] = .ok "[]" := by rfl
  refine ((allOrNothing_iff_canStore {} {} _ _ [] _).1 _ _ hfile hdec).1.2 (.inr ?_)
  rintro t ⟨before, hread, rfl, -⟩
  rw [Store.read_of_file? hfile, hdec] at hread
  obtain rfl := Except.ok.inj hread
  show ∀ c ∈ _, _
  decide +kernel

/-- A workflow file whose name is an escaped surrogate. -/
def escapedSurrogate : Workspace :=
  .single "w.json" "\x7b\"nodes\":[],\"name\":\"\\ud800\"\x7d"

/-- The findings of the built-in checks on that file. -/
def escapedSurrogateFindings : List Finding :=
  match readWorkflow escapedSurrogate.store (escapedSurrogate.store.absolute "w.json") with
  | .ok (t, g) =>
    chosenFindings .builtIn { fix := true } (escapedSurrogate.store.absolute "w.json") t g
  | .error _ => []

/-- Fixing the file is not all or nothing, and a run on it stops and leaves it empty. -/
theorem not_allOrNothing_escapedSurrogate :
    ¬ Fixing.AllOrNothing escapedSurrogate "w.json" escapedSurrogateFindings ∧
      (outcome (validateWorkflow .builtIn { fix := true } "w.json") escapedSurrogate).1.isOk =
        false ∧
      (outcome (validateWorkflow .builtIn { fix := true } "w.json") escapedSurrogate).2.store.file?
        "w.json" = some [] := by
  refine ⟨?_, by decide +kernel, by decide +kernel⟩
  rintro ⟨fixed, v, h, -⟩
  have hstop : (outcome (Fixing.apply "w.json" escapedSurrogateFindings false)
      escapedSurrogate).1.isOk = false := by decide +kernel
  simp [h, Except.isOk, Except.toBool] at hstop

end WorkflowLint
