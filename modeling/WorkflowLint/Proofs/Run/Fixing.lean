import Mathlib.Tactic.SplitIfs
import WorkflowLint.Proofs.Run.Job
import WorkflowLint.Proofs.Store.Path
import WorkflowLint.Proofs.Store.Writing

/-!
# How the fixing of a file ends

The fixes of the findings on a file make a text of its text (`mended`), and some number of them
change it on the way (`changes`).  `Fixing.Ending` lists the seven ways in which fixing a file can
end, each with what it needs and what it leaves; `apply_ending` says that these are all.  What is
proved of runs that fix files goes back to that list.
-/

namespace WorkflowLint.Fixing

open Job

/-! ## The fold of the fixes -/

/-- The text that the fixes of some findings make of a text. -/
def mended (t : Text) (findings : List Finding) : Text :=
  Fix.applyAll ((candidates findings).map (·.2)) t

/-- How many of the fixes of some findings change a text, each at its turn. -/
def changes (t : Text) (findings : List Finding) : Nat :=
  (fold t ((candidates findings).map (·.2))).2

theorem step_eq (state : Text × Nat) (fix : Fix) :
    step state fix =
      if fix.apply state.1 = state.1 then state else (fix.apply state.1, state.2 + 1) := rfl

theorem step_fst (state : Text × Nat) (fix : Fix) : (step state fix).1 = fix.apply state.1 := by
  rw [step_eq]
  split_ifs with h
  · exact h.symm
  · rfl

theorem foldl_step_fst (state : Text × Nat) (fixes : List Fix) :
    (fixes.foldl step state).1 = Fix.applyAll fixes state.1 := by
  induction fixes generalizing state with
  | nil => rfl
  | cons fix fixes ih => rw [List.foldl_cons, ih, step_fst, Fix.applyAll, Fix.applyAll, List.foldl_cons]

theorem fold_eq (t : Text) (findings : List Finding) :
    fold t ((candidates findings).map (·.2)) = (mended t findings, changes t findings) :=
  Prod.ext (foldl_step_fst (t, 0) _) rfl

theorem le_foldl_step (state : Text × Nat) (fixes : List Fix) :
    state.2 ≤ (fixes.foldl step state).2 := by
  induction fixes generalizing state with
  | nil => exact Nat.le_refl _
  | cons fix fixes ih =>
    refine Nat.le_trans ?_ (ih (step state fix))
    rw [step_eq]
    split_ifs
    · exact Nat.le_refl _
    · exact Nat.le_succ _

/-- A count that does not grow means that no fix changed the text. -/
theorem foldl_step_eq_self {state : Text × Nat} {fixes : List Fix}
    (h : (fixes.foldl step state).2 = state.2) : (fixes.foldl step state).1 = state.1 := by
  induction fixes generalizing state with
  | nil => rfl
  | cons fix fixes ih =>
    rw [List.foldl_cons] at h ⊢
    by_cases hs : fix.apply state.1 = state.1
    · have hself : step state fix = state := if_pos hs
      rw [hself] at h ⊢
      exact ih h
    · -- this fix was counted, and no later one takes that back
      have hnext : step state fix = (fix.apply state.1, state.2 + 1) := if_neg hs
      have hle := le_foldl_step (step state fix) fixes
      rw [h, hnext] at hle
      exact absurd hle (Nat.not_succ_le_self _)

/-- A text that comes out changed was changed by some fix. -/
theorem changes_ne_zero {t : Text} {findings : List Finding} (h : mended t findings ≠ t) :
    changes t findings ≠ 0 := by
  intro hz
  refine h ?_
  have hself : _ = t := foldl_step_eq_self hz
  rwa [foldl_step_fst] at hself

theorem map_snd_candidates (findings : List Finding) :
    (candidates findings).map (·.2) = findings.filterMap (·.fix) := by
  rw [candidates, List.map_filterMap]
  congr 1
  funext f
  cases f.fix <;> rfl

theorem mended_of_candidates_nil {t : Text} {findings : List Finding} (h : candidates findings = []) :
    mended t findings = t := by
  rw [mended, h]
  rfl

/-! ## Writing the result -/

section Write

variable {path before content : Text} {applied : Nat} {w : Workspace}

theorem outcome_write_same (h : applied = 0 ∨ content = before) :
    outcome (write path before content applied) w = (.ok ⟨path, applied, content, none⟩, w) := by
  unfold write
  rw [if_pos h]
  rfl

variable (h : ¬ (applied = 0 ∨ content = before))
include h

theorem outcome_write_refused (hr : w.store.refusesWrites = true) :
    outcome (write path before content applied) w = (.ok ⟨path, 0, before, none⟩, w) := by
  unfold write
  rw [if_neg h, outcome_bind_ok (outcome_get w), Store.write_eq, if_pos hr]
  rfl

theorem outcome_write_done (hr : w.store.refusesWrites = false) {bytes : List UInt8}
    (hb : Utf8.encode content = .ok bytes) :
    outcome (write path before content applied) w =
      (.ok ⟨path, applied, content, none⟩, { w with store := w.store.setBytes path bytes }) := by
  unfold write
  rw [if_neg h, outcome_bind_ok (outcome_get w), Store.write_eq, hr, if_neg Bool.false_ne_true, hb]
  rfl

theorem outcome_write_fault (hr : w.store.refusesWrites = false) {e : SurrogateError}
    (he : Utf8.encode content = .error e) :
    outcome (write path before content applied) w =
      (.error (.ofSurrogates e), { w with store := w.store.setBytes path [] }) := by
  unfold write
  rw [if_neg h, outcome_bind_ok (outcome_get w), Store.write_eq, hr, if_neg Bool.false_ne_true, he]
  rfl

end Write

/-! ## The ways to end -/

/-- The ways in which fixing the file at a path for some findings can end: what there is to say of
the file and the fixes, what comes of it, and the workspace that is left. -/
inductive Ending (w : Workspace) (path : Text) (findings : List Finding) :
    Except Fault FixResult × Workspace → Prop
  /-- No finding has a fix. -/
  | idle : candidates findings = [] → Ending w path findings (.ok ⟨path, 0, [], none⟩, w)
  /-- The path cannot be one of a file. -/
  | noPath {f : Fault} : candidates findings ≠ [] → w.store.read path = .error (.fault f) →
      Ending w path findings (.error f, w)
  /-- The file cannot be read. -/
  | unreadable {e : Store.ReadError} : candidates findings ≠ [] → (∀ f, e ≠ .fault f) →
      w.store.read path = .error e → Ending w path findings (.ok ⟨path, 0, [], none⟩, w)
  /-- The fixes leave the text as it was, whether or not they changed it on the way. -/
  | unchanged {t : Text} : candidates findings ≠ [] → w.store.read path = .ok t →
      mended t findings = t → Ending w path findings (.ok ⟨path, changes t findings, t, none⟩, w)
  /-- The text is another one, and writing it is refused. -/
  | refused {t : Text} : candidates findings ≠ [] → w.store.read path = .ok t →
      mended t findings ≠ t → w.store.refusesWrites = true →
      Ending w path findings (.ok ⟨path, 0, t, none⟩, w)
  /-- The text is another one, and it is written. -/
  | written {t : Text} {bytes : List UInt8} : candidates findings ≠ [] →
      w.store.read path = .ok t → mended t findings ≠ t → w.store.refusesWrites = false →
      Utf8.encode (mended t findings) = .ok bytes →
      Ending w path findings (.ok ⟨path, changes t findings, mended t findings, none⟩,
        { w with store := w.store.setBytes path bytes })
  /-- The text is another one, and it cannot be stored: the file is left empty. -/
  | emptied {t : Text} {e : SurrogateError} : candidates findings ≠ [] →
      w.store.read path = .ok t → mended t findings ≠ t → w.store.refusesWrites = false →
      Utf8.encode (mended t findings) = .error e →
      Ending w path findings (.error (.ofSurrogates e),
        { w with store := w.store.setBytes path [] })

theorem outcome_apply (w : Workspace) (path : Text) (findings : List Finding) :
    outcome (apply path findings false) w =
      if (candidates findings).isEmpty then (.ok ⟨Path.clean path, 0, [], none⟩, w)
      else match w.store.read (Path.clean path) with
        | .error (.fault f) => (.error f, w)
        | .error _ => (.ok ⟨Path.clean path, 0, [], none⟩, w)
        | .ok t =>
          outcome (write (Path.clean path) t (mended t findings) (changes t findings)) w := by
  unfold apply
  rw [if_neg Bool.false_ne_true]
  split_ifs
  · rfl
  · rw [outcome_bind_ok (outcome_get w)]
    rcases h : w.store.read (Path.clean path) with e | t
    · cases e <;> rfl
    · simp only [fold_eq]

/-- Fixing a file ends in one of the ways of the list. -/
theorem apply_ending (w : Workspace) (path : Text) (findings : List Finding) :
    Ending w (Path.clean path) findings (outcome (apply path findings false) w) := by
  rw [outcome_apply]
  split_ifs with hc
  · exact .idle (List.isEmpty_iff.1 hc)
  have hc' : candidates findings ≠ [] := fun h => hc (List.isEmpty_iff.2 h)
  cases hread : w.store.read (Path.clean path) with
  | error e =>
    cases e with
    | fault f => exact .noPath hc' hread
    | absent p => exact .unreadable hc' (by simp) hread
    | tooLong p => exact .unreadable hc' (by simp) hread
    | folder p => exact .unreadable hc' (by simp) hread
    | undecodable e => exact .unreadable hc' (by simp) hread
  | ok t =>
    by_cases hm : mended t findings = t
    · simp only [outcome_write_same (.inr hm)]
      rw [hm]
      exact .unchanged hc' hread hm
    -- some fix changed the text, so that writing it is tried
    have hw : ¬ (changes t findings = 0 ∨ mended t findings = t) := by
      rw [not_or]
      exact ⟨changes_ne_zero hm, hm⟩
    cases hr : w.store.refusesWrites with
    | true =>
      simp only [outcome_write_refused hw hr]
      exact .refused hc' hread hm hr
    | false =>
      cases he : Utf8.encode (mended t findings) with
      | ok bytes =>
        simp only [outcome_write_done hw hr he]
        exact .written hc' hread hm hr he
      | error e =>
        simp only [outcome_write_fault hw hr he]
        exact .emptied hc' hread hm hr he

end WorkflowLint.Fixing
