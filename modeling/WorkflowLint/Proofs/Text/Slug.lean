import WorkflowLint.Text.Slug

/-!
# Slugs that are empty

The runs of a class of code points are never empty themselves, and there is none only where no code
point belongs to the class.  So the slug of a name is empty exactly if its lower-case form has
neither a letter nor a digit of a slug (`slug_eq_nil_iff`).
-/

namespace WorkflowLint.Text

variable {p : CodePoint → Bool} {run t : Text}

theorem runsAfter_eq_nil_iff : runsAfter p run t = [] ↔ run = [] ∧ ∀ c ∈ t, p c = false := by
  induction t generalizing run with
  | nil => cases run <;> simp [runsAfter]
  | cons c t ih =>
    rw [runsAfter, List.forall_mem_cons]
    cases hc : p c with
    | true => simp [ih]
    | false => cases run <;> simp [ih]

theorem ne_nil_of_mem_runsAfter {r : Text} (h : r ∈ runsAfter p run t) : r ≠ [] := by
  induction t generalizing run with
  | nil => cases run <;> simp_all [runsAfter]
  | cons c t ih =>
    rw [runsAfter] at h
    split at h
    · exact ih h
    split at h
    · exact ih h
    · next hrun =>
      rcases List.mem_cons.1 h with rfl | h
      · intro hempty
        exact hrun (List.isEmpty_iff.2 hempty)
      · exact ih h

theorem join_eq_nil_iff {sep : Text} {parts : List Text} (h : ∀ part ∈ parts, part ≠ []) :
    join sep parts = [] ↔ parts = [] := by
  cases parts with
  | nil => exact iff_of_true rfl rfl
  | cons part parts =>
    refine iff_of_false (fun hjoin => ?_) (List.cons_ne_nil _ _)
    have hpart := h part List.mem_cons_self
    cases parts with
    | nil => exact hpart hjoin
    | cons next parts =>
      have happend : part ++ (sep ++ join sep (next :: parts)) = [] := by
        rw [← List.append_assoc]
        exact hjoin
      exact hpart (List.append_eq_nil_iff.1 happend).1

/-- The slug of a name is empty exactly if no code point of its lower-case form is one of a slug. -/
theorem slug_eq_nil_iff {name : Text} :
    slug name = [] ↔ ∀ c ∈ name.lower, isSlugUnit c = false := by
  rw [slug, runs, join_eq_nil_iff fun _ => ne_nil_of_mem_runsAfter, runsAfter_eq_nil_iff]
  exact and_iff_right rfl

end WorkflowLint.Text
