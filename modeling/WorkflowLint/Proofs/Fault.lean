import Mathlib.Data.List.Forall2
import WorkflowLint.Fault

/-!
# Computations that can stop

A step comes to its result or to what it stops with.  A sequence of steps has a result where all of
them have (`exists_of_bind_eq_ok`, `forall₂_of_mapM`), and what a single computation comes to can
be read off what is decided of it (`eq_ok_of_toOption`, `eq_error_of_errorOf?`, `exists_ok_of_any`).
-/

namespace WorkflowLint

variable {ε α β : Type}

/-! ## Steps -/

/-- What a step gives comes from what the step before it gave. -/
theorem exists_of_bind_eq_ok {first : Except ε α} {next : α → Except ε β} {b : β}
    (h : first >>= next = .ok b) : ∃ a, first = .ok a ∧ next a = .ok b := by
  cases first with
  | error f => exact absurd h (by simp [bind, Except.bind])
  | ok a => exact ⟨a, rfl, h⟩

/-- The results of a sequence of steps are those of its steps. -/
theorem forall₂_of_mapM {find : α → Except ε β} {as : List α} {bs : List β}
    (h : as.mapM find = .ok bs) : List.Forall₂ (fun a b => find a = .ok b) as bs := by
  induction as generalizing bs with
  | nil =>
    obtain rfl : [] = bs := by simpa [pure, Except.pure] using h
    exact .nil
  | cons a as ih =>
    rw [List.mapM_cons] at h
    obtain ⟨b, ha, h⟩ := exists_of_bind_eq_ok h
    obtain ⟨bs', has, h⟩ := exists_of_bind_eq_ok h
    obtain rfl := Except.ok.inj h
    exact .cons ha (ih has)

theorem exists_of_mem_forall₂ {related : α → β → Prop} {as : List α} {bs : List β} {b : β}
    (h : List.Forall₂ related as bs) (hb : b ∈ bs) : ∃ a ∈ as, related a b := by
  induction h with
  | nil => exact nomatch hb
  | cons hab _ ih =>
    rcases List.mem_cons.1 hb with rfl | hb
    · exact ⟨_, List.mem_cons_self .., hab⟩
    · obtain ⟨a, ha, hrelated⟩ := ih hb
      exact ⟨a, List.mem_cons_of_mem _ ha, hrelated⟩

theorem forall_mem_of_mapM {find : α → Except ε β} {P : β → Prop}
    (h : ∀ a b, find a = .ok b → P b) {as : List α} {bs : List β} (hbs : as.mapM find = .ok bs) :
    ∀ b ∈ bs, P b := by
  intro b hb
  obtain ⟨a, -, hab⟩ := exists_of_mem_forall₂ (forall₂_of_mapM hbs) hb
  exact h a b hab

/-! ## Tests -/

/-- What a computation that stops stops with. -/
def errorOf? : Except ε α → Option ε
  | .ok _ => none
  | .error e => some e

theorem eq_error_of_errorOf? {x : Except ε α} {e : ε} (h : errorOf? x = some e) :
    x = .error e := by
  cases x with
  | ok a => exact absurd h.symm (Option.some_ne_none e)
  | error e' => exact congrArg Except.error (Option.some.inj h)

theorem eq_ok_of_toOption {x : Except ε α} {a : α} (h : x.toOption = some a) : x = .ok a := by
  cases x with
  | ok a' => exact congrArg Except.ok (Option.some.inj h)
  | error e => exact absurd h.symm (Option.some_ne_none a)

/-- A computation whose result passes a test has one. -/
theorem exists_ok_of_any {x : Except ε α} {test : α → Bool}
    (h : x.toOption.any test = true) : ∃ a, x = .ok a ∧ test a = true := by
  cases x with
  | ok a => exact ⟨a, rfl, h⟩
  | error e => exact absurd h Bool.false_ne_true

end WorkflowLint
