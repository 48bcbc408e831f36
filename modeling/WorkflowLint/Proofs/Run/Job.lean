import WorkflowLint.Proofs.Fault
import WorkflowLint.Run.Project

/-!
# What a job comes to

A job is run in a workspace and leaves another one behind, with a result or with the fault that it
stopped with.  This module says so for the ways in which jobs are put together, so that the runs of
the library can be followed without opening the monad.

A job that is run for every element of a list is followed by *turns*: `Turn job w as v a` says that
in the run which starts in `w` the element `a` has its turn in the workspace `v`.  The run stops
exactly where one of its turns stops (`outcome_mapM_error_iff`), and its results are those of its
turns (`Chain.mem_zip_iff`).
-/

namespace WorkflowLint.Job

variable {α β : Type}

/-- What a job comes to in a workspace: its result or the fault that stopped it, and the workspace
that it leaves. -/
def outcome (job : Job α) (w : Workspace) : Except Fault α × Workspace := (ExceptT.run job).run w

/-! ## Single steps -/

@[simp] theorem outcome_pure (a : α) (w : Workspace) : outcome (pure a) w = (.ok a, w) := rfl

@[simp] theorem outcome_throw (f : Fault) (w : Workspace) :
    outcome (throw f : Job α) w = (.error f, w) := rfl

@[simp] theorem outcome_get (w : Workspace) : outcome (get : Job Workspace) w = (.ok w, w) := rfl

@[simp] theorem outcome_set (v w : Workspace) :
    outcome (set v : Job PUnit) w = (.ok ⟨⟩, v) := rfl

/-- A job after another one runs in the workspace that the first leaves, if that has a result. -/
theorem outcome_bind (job : Job α) (next : α → Job β) (w : Workspace) :
    outcome (job >>= next) w =
      match outcome job w with
      | (.ok a, v) => outcome (next a) v
      | (.error f, v) => (.error f, v) := by
  show outcome (ExceptT.bind job next) w = _
  unfold outcome
  rcases h : (ExceptT.run job).run w with ⟨_ | a, v⟩ <;>
    simp only [ExceptT.run, ExceptT.bind, ExceptT.mk, StateT.run_bind] at h ⊢ <;> rw [h] <;> rfl

/-- The first of two jobs has a result. -/
theorem outcome_bind_ok {job : Job α} {next : α → Job β} {w v : Workspace} {a : α}
    (h : outcome job w = (.ok a, v)) : outcome (job >>= next) w = outcome (next a) v := by
  rw [outcome_bind, h]

/-- The first of two jobs stops, and the second does not run. -/
theorem outcome_bind_error {job : Job α} {next : α → Job β} {w v : Workspace} {f : Fault}
    (h : outcome job w = (.error f, v)) : outcome (job >>= next) w = (.error f, v) := by
  rw [outcome_bind, h]

/-- Two jobs one after the other have a result exactly when both have. -/
theorem outcome_bind_ok_iff {job : Job α} {next : α → Job β} {w v : Workspace} {b : β} :
    outcome (job >>= next) w = (.ok b, v) ↔
      ∃ a u, outcome job w = (.ok a, u) ∧ outcome (next a) u = (.ok b, v) := by
  rcases h : outcome job w with ⟨_ | a, u⟩
  · simp [outcome_bind_error h]
  · rw [outcome_bind_ok h]
    constructor
    · intro hb
      exact ⟨a, u, rfl, hb⟩
    · rintro ⟨_, _, ⟨⟩, hb⟩
      exact hb

/-- Two jobs one after the other stop where the first or, if that has a result, the second does. -/
theorem outcome_bind_error_iff {job : Job α} {next : α → Job β} {w v : Workspace} {f : Fault} :
    outcome (job >>= next) w = (.error f, v) ↔
      outcome job w = (.error f, v) ∨
        ∃ a u, outcome job w = (.ok a, u) ∧ outcome (next a) u = (.error f, v) := by
  rcases h : outcome job w with ⟨_ | a, u⟩
  · simp [outcome_bind_error h]
  · rw [outcome_bind_ok h]
    constructor
    · intro hf
      exact .inr ⟨a, u, rfl, hf⟩
    · rintro (hne | ⟨_, _, ⟨⟩, hf⟩)
      · simp at hne
      · exact hf

/-- What a job that does not stop comes to. -/
theorem exists_outcome_of_isOk {job : Job α} {w : Workspace} (h : (outcome job w).1.isOk = true) :
    ∃ a v, outcome job w = (.ok a, v) := by
  rcases hout : outcome job w with ⟨f | a, v⟩
  · rw [hout] at h
    exact absurd h Bool.false_ne_true
  · exact ⟨a, v, rfl⟩

/-! ## What single runs come to -/

/-- A job has a result that passes a test, together with the workspace that it leaves. -/
def passes (test : α → Workspace → Bool) (job : Job α) (w : Workspace) : Bool :=
  match outcome job w with
  | (.ok a, v) => test a v
  | (.error _, _) => false

theorem exists_outcome_of_passes {test : α → Workspace → Bool} {job : Job α} {w : Workspace}
    (h : passes test job w = true) : ∃ a v, outcome job w = (.ok a, v) ∧ test a v = true := by
  unfold passes at h
  rcases hout : outcome job w with ⟨f | a, v⟩
  · rw [hout] at h
    exact absurd h Bool.false_ne_true
  · rw [hout] at h
    exact ⟨a, v, rfl, h⟩

/-! ## A job for every element of a list -/

/-- A job runs for every element of a list, each time with a result, in workspaces of which each is
the one that the turn before left. -/
inductive Chain (job : α → Job β) : Workspace → List α → List β → Workspace → Prop
  | nil (w : Workspace) : Chain job w [] [] w
  | cons {w u v : Workspace} {a : α} {b : β} {as : List α} {bs : List β} :
      outcome (job a) w = (.ok b, u) → Chain job u as bs v → Chain job w (a :: as) (b :: bs) v

/-- In the run of a job over a list that starts in `w`, an element has its turn in `v`. -/
def Turn (job : α → Job β) (w : Workspace) (as : List α) (v : Workspace) (a : α) : Prop :=
  ∃ pre post bs, as = pre ++ a :: post ∧ Chain job w pre bs v

variable {job : α → Job β} {w v : Workspace} {a : α} {as : List α} {bs : List β}

theorem not_turn_nil : ¬ Turn job w [] v a := by
  rintro ⟨pre, post, bs, h, -⟩
  simp at h

/-- The first element has the first turn, and the others have theirs after it. -/
theorem turn_cons_iff {a' : α} :
    Turn job w (a' :: as) v a ↔
      (a = a' ∧ v = w) ∨ ∃ b u, outcome (job a') w = (.ok b, u) ∧ Turn job u as v a := by
  constructor
  · rintro ⟨pre, post, bs, h, hc⟩
    cases hc with
    | nil =>
      obtain ⟨rfl, rfl⟩ := List.cons.inj h
      exact .inl ⟨rfl, rfl⟩
    | @cons _ u _ _ b pre bs hb hc =>
      obtain ⟨rfl, rfl⟩ := List.cons.inj h
      exact .inr ⟨b, u, hb, pre, post, bs, rfl, hc⟩
  · rintro (⟨rfl, rfl⟩ | ⟨b, u, hb, pre, post, bs, rfl, hc⟩)
    · exact ⟨[], as, [], rfl, .nil _⟩
    · exact ⟨a' :: pre, post, b :: bs, rfl, .cons hb hc⟩

theorem outcome_mapM_cons {a' : α} :
    outcome ((a' :: as).mapM job) w =
      outcome (do let b ← job a'; let bs ← as.mapM job; pure (b :: bs)) w := by
  rw [List.mapM_cons]

/-- A job has a result for every element of a list exactly when it runs in a chain. -/
theorem outcome_mapM_ok_iff :
    outcome (as.mapM job) w = (.ok bs, v) ↔ Chain job w as bs v := by
  induction as generalizing w bs with
  | nil =>
    constructor
    · intro h
      obtain ⟨rfl, rfl⟩ : [] = bs ∧ w = v := by simpa using h
      exact .nil w
    · rintro (_ | _)
      rfl
  | cons a' as ih =>
    rw [outcome_mapM_cons, outcome_bind_ok_iff]
    simp only [outcome_bind_ok_iff, outcome_pure, Prod.mk.injEq, Except.ok.injEq]
    constructor
    · rintro ⟨b, u, hb, bs', u', hbs, rfl, rfl⟩
      exact .cons hb (ih.1 hbs)
    · intro h
      cases h with
      | @cons _ u _ _ b _ bs hb hc => exact ⟨b, u, hb, bs, v, ih.2 hc, rfl, rfl⟩

/-- A job that runs for every element of a list stops exactly where one of its turns stops. -/
theorem outcome_mapM_error_iff {f : Fault} :
    outcome (as.mapM job) w = (.error f, v) ↔
      ∃ u a, Turn job w as u a ∧ outcome (job a) u = (.error f, v) := by
  induction as generalizing w with
  | nil => simp [not_turn_nil]
  | cons a' as ih =>
    rw [outcome_mapM_cons, outcome_bind_error_iff]
    simp only [outcome_bind_error_iff, outcome_pure, ih, turn_cons_iff]
    constructor
    · rintro (h | ⟨b, u, hb, ⟨u', a, ht, h⟩ | ⟨_, _, _, h⟩⟩)
      · exact ⟨w, a', .inl ⟨rfl, rfl⟩, h⟩
      · exact ⟨u', a, .inr ⟨b, u, hb, ht⟩, h⟩
      · simp at h
    · rintro ⟨u, a, ⟨rfl, rfl⟩ | ⟨b, u', hb, ht⟩, h⟩
      · exact .inl h
      · exact .inr ⟨b, u', hb, .inl ⟨u, a, ht, h⟩⟩

/-- What a job keeps of the workspace for each element of a list is kept by the run over the list. -/
theorem outcome_mapM_preserves {P : Workspace → Prop}
    (h : ∀ a ∈ as, ∀ u, P u → P (outcome (job a) u).2) (hw : P w) :
    P (outcome (as.mapM job) w).2 := by
  induction as generalizing w with
  | nil => exact hw
  | cons a as ih =>
    have ha := h a List.mem_cons_self w hw
    rw [outcome_mapM_cons, outcome_bind]
    rcases hjob : outcome (job a) w with ⟨f | b, u⟩
    · rwa [hjob] at ha
    · rw [hjob] at ha
      have has := ih (fun a ha => h a (List.mem_cons_of_mem _ ha)) ha
      simp only [outcome_bind]
      rcases hjobs : outcome (as.mapM job) u with ⟨_ | bs, v⟩ <;> rwa [hjobs] at has

/-- Jobs that leave the workspace as it is do so for all elements of a list, too. -/
theorem outcome_mapM_snd (h : ∀ a ∈ as, (outcome (job a) w).2 = w) :
    (outcome (as.mapM job) w).2 = w :=
  outcome_mapM_preserves (P := fun u => u = w) (fun a ha u hu => by rw [hu, h a ha]) rfl

/-- Jobs that leave the workspace as it is have results for a list exactly when each has one. -/
theorem exists_outcome_mapM_iff (h : ∀ a ∈ as, (outcome (job a) w).2 = w) :
    (∃ bs, outcome (as.mapM job) w = (.ok bs, w)) ↔ ∀ a ∈ as, ∃ b, outcome (job a) w = (.ok b, w) := by
  induction as with
  | nil => simp
  | cons a' as ih =>
    have ih' := ih fun a ha => h a (List.mem_cons_of_mem a' ha)
    have hsnd := h a' List.mem_cons_self
    rw [List.forall_mem_cons, ← ih']
    simp only [outcome_mapM_cons, outcome_bind_ok_iff, outcome_pure, Prod.mk.injEq, Except.ok.injEq]
    constructor
    · -- the first job leaves the workspace as it is, and so the others start in it
      rintro ⟨_, b, u, hb, bs, v, hbs, rfl, rfl⟩
      obtain rfl : u = v := by simpa [hb] using hsnd
      exact ⟨⟨b, hb⟩, bs, hbs⟩
    · rintro ⟨⟨b, hb⟩, bs, hbs⟩
      exact ⟨b :: bs, b, w, hb, bs, w, hbs, rfl, rfl⟩

theorem exists_outcome_mapM (h : ∀ a ∈ as, ∃ b, outcome (job a) w = (.ok b, w)) :
    ∃ bs, outcome (as.mapM job) w = (.ok bs, w) := by
  refine (exists_outcome_mapM_iff fun a ha => ?_).2 h
  obtain ⟨b, hb⟩ := h a ha
  rw [hb]

/-- Jobs that have results and leave the workspace as it is have them one after the other, too. -/
theorem outcome_mapM_eq_map {result : α → β} (h : ∀ a ∈ as, outcome (job a) w = (.ok (result a), w)) :
    outcome (as.mapM job) w = (.ok (as.map result), w) := by
  induction as with
  | nil => simp
  | cons a as ih =>
    have has := ih fun a ha => h a (List.mem_cons_of_mem _ ha)
    rw [outcome_mapM_cons, outcome_bind_ok (h a List.mem_cons_self), outcome_bind_ok has,
      outcome_pure, List.map_cons]

/-- The results of a chain are those of its turns. -/
theorem Chain.mem_zip_iff (hc : Chain job w as bs v) {b : β} :
    (a, b) ∈ as.zip bs ↔ ∃ u u', Turn job w as u a ∧ outcome (job a) u = (.ok b, u') := by
  induction hc with
  | nil => simp [not_turn_nil]
  | @cons w u v a' b' as bs hb hc ih =>
    rw [List.zip_cons_cons, List.mem_cons, ih]
    simp only [turn_cons_iff, Prod.mk.injEq]
    constructor
    · rintro (⟨rfl, rfl⟩ | ⟨x, y, ht, h⟩)
      · exact ⟨w, u, .inl ⟨rfl, rfl⟩, hb⟩
      · exact ⟨x, y, .inr ⟨b', u, hb, ht⟩, h⟩
    · rintro ⟨x, y, ⟨rfl, rfl⟩ | ⟨b'', u'', hb'', ht⟩, h⟩
      · rw [hb] at h
        obtain ⟨rfl, -⟩ : b' = b ∧ u = y := by simpa using h
        exact .inl ⟨rfl, rfl⟩
      · rw [hb] at hb''
        obtain ⟨rfl, rfl⟩ : b' = b'' ∧ u = u'' := by simpa using hb''
        exact .inr ⟨x, y, ht, h⟩

end WorkflowLint.Job

namespace WorkflowLint

/-- A workspace with one file, in the current folder. -/
def Workspace.single (name t : Text) : Workspace where
  settings := {}
  store :=
    { files := [(["ROOT", name], (Utf8.encode t).toOption.getD [])]
      folders := [["ROOT"]]
      current := ["ROOT"] }

end WorkflowLint
