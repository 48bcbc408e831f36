import WorkflowLint.Proofs.Run.Storing

/-!
# Previews and what they promise

A preview tries every fix on the text that the file has now; fixing the file gives every fix the text
that the fixes before it have made.  Both agree on a single fix, and they agree on the first of several
fixes that changes anything, since up to there no fix has made another text (`preview_agrees`).
-/

namespace WorkflowLint.Fixing

open Job

variable {w : Workspace} {s : Store} {path t : Text} {f : Finding} {fs : List Finding}

/-! ## What a preview says -/

/-- What trying the fixes of some findings on the file at a path says of each of them. -/
def tried (w : Workspace) (path : Text) (fs : List Finding) : List FixPreview :=
  (outcome (tryOut path fs) w).1.toOption.elim [] Preview.fixes

/-- Whether a preview says of the fix of a finding that it would change the file. -/
def marks (w : Workspace) (path : Text) (f : Finding) : Bool := (tried w path [f]).any (·.changes)

/-- What a preview says of one finding. -/
def previewed? (s : Store) (path : Text) (f : Finding) : Option FixPreview :=
  match s.read (Path.clean path) with
  | .ok t => f.fix.bind (previewOf? (Path.clean path) t f.rule)
  | .error _ => f.fix.map fun fix => ⟨f.rule, fix.description, false, []⟩

theorem filterMap_candidates {α : Type} (g : Finding × Fix → Option α) (fs : List Finding) :
    (candidates fs).filterMap g = fs.filterMap fun f => f.fix.bind fun fix => g (f, fix) := by
  rw [candidates, List.filterMap_filterMap]
  congr 1
  funext f
  cases f.fix <;> rfl

/-- A preview says of each finding what it says of that finding alone. -/
theorem preview_eq (hpath : Store.pathFault? (Path.clean path) = none) (fs : List Finding) :
    preview s path fs = .ok (fs.filterMap (previewed? s path)) := by
  unfold preview
  cases hread : s.read (Path.clean path) with
  | ok t =>
    have hentry : previewed? s path = fun f => f.fix.bind (previewOf? (Path.clean path) t f.rule) := by
      funext f
      rw [previewed?, hread]
    simp only [hread, hentry, filterMap_candidates]
  | error e =>
    have hentry : previewed? s path =
        fun f => f.fix.map fun fix => (⟨f.rule, fix.description, false, []⟩ : FixPreview) := by
      funext f
      rw [previewed?, hread]
    have hfault := Store.read_ne_fault (s := s) hpath
    cases e with
    | fault f => exact absurd hread (hfault f)
    | _ => simp only [hread, hentry, candidates, List.map_filterMap, Option.map_map]; rfl

theorem outcome_tryOut (hpath : Store.pathFault? (Path.clean path) = none) (fs : List Finding) :
    outcome (tryOut path fs) w = (.ok ⟨Path.clean path, fs.filterMap (previewed? w.store path)⟩, w) := by
  unfold tryOut
  rw [outcome_bind_ok (outcome_get w), preview_eq hpath]
  rfl

theorem snd_outcome_tryOut (w : Workspace) (path : Text) (fs : List Finding) :
    (outcome (tryOut path fs) w).2 = w := by
  unfold tryOut
  rw [outcome_bind_ok (outcome_get w)]
  cases preview w.store path fs <;> rfl

theorem tried_eq (hpath : Store.pathFault? (Path.clean path) = none) (fs : List Finding) :
    tried w path fs = fs.filterMap (previewed? w.store path) := by
  rw [tried, outcome_tryOut hpath]
  rfl

theorem any_changes_previewOf? (path t rule : Text) (fix : Fix) :
    (previewOf? path t rule fix).any (·.changes) = true ↔ fix.apply t ≠ t := by
  rw [previewOf?, Fix.apply]
  cases fix.run t with
  | fault f => simp [Fix.Outcome.text?]
  | noText => simp [Fix.Outcome.text?]
  | text after =>
    by_cases hafter : after = t <;> simp [Fix.Outcome.text?, hafter]

theorem marks_eq (hpath : Store.pathFault? (Path.clean path) = none) :
    marks w path f = (previewed? w.store path f).any (·.changes) := by
  rw [marks, tried_eq hpath]
  cases hentry : previewed? w.store path f with
  | none => rw [List.filterMap_cons_none hentry, List.filterMap_nil, List.any_nil, Option.any_none]
  | some entry =>
    rw [List.filterMap_cons_some hentry, List.filterMap_nil, List.any_cons, List.any_nil,
      Bool.or_false, Option.any_some]

/-- A preview marks the fixes that change the text the file has. -/
theorem marks_iff (hpath : Store.pathFault? (Path.clean path) = none)
    (hread : w.store.read (Path.clean path) = .ok t) :
    marks w path f = true ↔ ∃ fix, f.fix = some fix ∧ fix.apply t ≠ t := by
  rw [marks_eq hpath, previewed?, hread]
  cases hfix : f.fix with
  | none => simp
  | some fix => simp only [Option.bind_some, any_changes_previewOf?, Option.some.injEq, exists_eq_left']

theorem marks_eq_false {e : Store.ReadError} (hpath : Store.pathFault? (Path.clean path) = none)
    (hread : w.store.read (Path.clean path) = .error e) : marks w path f = false := by
  rw [marks_eq hpath, previewed?, hread]
  cases f.fix <;> rfl

/-! ## What fixing counts -/

/-- Of each finding, whether fixing from some text and count on counts its fix. -/
def countedFrom (state : Text × Nat) : List Finding → List Bool
  | [] => []
  | f :: fs =>
    let next := f.fix.elim state (step state)
    decide (state.2 < next.2) :: countedFrom next fs

/-- Of each finding, whether fixing the file at a path counts its fix. -/
def counted (w : Workspace) (path : Text) (fs : List Finding) : List Bool :=
  match w.store.read (Path.clean path) with
  | .ok t => countedFrom (t, 0) fs
  | .error _ => fs.map fun _ => false

theorem snd_lt_step_iff (state : Text × Nat) (fix : Fix) :
    state.2 < (step state fix).2 ↔ fix.apply state.1 ≠ state.1 := by
  rw [step_eq]
  split_ifs with h
  · simp [h]
  · simp [h]

theorem count_countedFrom (state : Text × Nat) (fs : List Finding) :
    (countedFrom state fs).count true + state.2
      = ((fs.filterMap (·.fix)).foldl step state).2 := by
  induction fs generalizing state with
  | nil => simp [countedFrom]
  | cons f fs ih =>
    rw [countedFrom]
    cases hfix : f.fix with
    | none =>
      rw [List.filterMap_cons_none hfix, ← ih state]
      simp
    | some fix =>
      rw [List.filterMap_cons_some hfix, List.foldl_cons, ← ih (step state fix)]
      by_cases hchange : fix.apply state.1 = state.1
      · simp [step_eq, hchange]
      · simp [step_eq, hchange]
        omega

/-- The counts of fixing are those of its findings. -/
theorem count_counted (hread : w.store.read (Path.clean path) = .ok t) (fs : List Finding) :
    (counted w path fs).count true = changes t fs := by
  have hcount := count_countedFrom (t, 0) fs
  rw [counted, hread, changes, fold, map_snd_candidates]
  exact hcount

theorem count_counted_of_error {e : Store.ReadError}
    (hread : w.store.read (Path.clean path) = .error e) (fs : List Finding) :
    (counted w path fs).count true = 0 := by
  rw [counted, hread]
  exact List.count_eq_zero.2 (by simp)

theorem findIdx_countedFrom (t : Text) (n : Nat) (fs : List Finding) :
    (countedFrom (t, n) fs).findIdx? id
      = fs.findIdx? fun f => f.fix.any fun fix => decide (fix.apply t ≠ t) := by
  induction fs with
  | nil => rfl
  | cons f fs ih =>
    rw [countedFrom, List.findIdx?_cons, List.findIdx?_cons]
    cases hfix : f.fix with
    | none => simp [ih]
    | some fix =>
      by_cases hchange : fix.apply t = t
      · -- the text stays, and so the next fix is given what the preview gives it
        have hstep : step (t, n) fix = (t, n) := if_pos hchange
        simp [hstep, hchange, ih]
      · have hlt := (snd_lt_step_iff (t, n) fix).2 hchange
        simp [hlt, hchange]

/-- The first finding that fixing counts is the first one that a preview marks. -/
theorem findIdx_counted (hpath : Store.pathFault? (Path.clean path) = none) (fs : List Finding) :
    (counted w path fs).findIdx? id = fs.findIdx? (marks w path) := by
  unfold counted
  cases hread : w.store.read (Path.clean path) with
  | error e =>
    have hmarks : marks w path = fun _ => false := funext fun f => marks_eq_false hpath hread
    rw [hmarks, eq_comm, List.findIdx?_eq_none_iff.2 fun _ _ => rfl, eq_comm,
      List.findIdx?_eq_none_iff]
    simp
  | ok t =>
    have hmarks : marks w path = fun f => f.fix.any fun fix => decide (fix.apply t ≠ t) := by
      funext f
      rw [Bool.eq_iff_iff, marks_iff hpath hread, Option.any_eq_true]
      simp only [decide_eq_true_eq]
    rw [hmarks]
    exact findIdx_countedFrom t 0 fs

theorem counted_singleton (hpath : Store.pathFault? (Path.clean path) = none) (f : Finding) :
    counted w path [f] = [marks w path f] := by
  obtain ⟨b, hb⟩ : ∃ b, counted w path [f] = [b] := by
    unfold counted
    split <;> exact ⟨_, rfl⟩
  have hfirst := findIdx_counted (w := w) hpath [f]
  rw [hb, List.findIdx?_singleton, List.findIdx?_singleton] at hfirst
  cases b <;> cases hmarks : marks w path f <;> simp_all

/-! ## Agreement -/

/-- Whatever the fixes of some findings make of the file at a path can be written. -/
def Stores (s : Store) (path : Text) (fs : List Finding) : Prop :=
  ∀ t, SetsOutToWrite s path fs t → s.refusesWrites = false ∧ t.Storable

/-- Where its text can be written, fixing a file has a result that counts all fixes that change
something. -/
theorem exists_outcome_apply_counted (hpath : Store.pathFault? (Path.clean path) = none)
    (hstores : Stores w.store (Path.clean path) fs) :
    ∃ r v, outcome (apply path fs false) w = (.ok r, v) ∧
      r.applied = (counted w path fs).count true := by
  have hend := apply_ending w path fs
  generalize outcome (apply path fs false) w = out at hend ⊢
  cases hend with
  | idle hc =>
    refine ⟨_, w, rfl, ?_⟩
    cases hread : w.store.read (Path.clean path) with
    | ok t =>
      rw [count_counted hread, changes, hc]
      rfl
    | error e => exact (count_counted_of_error hread fs).symm
  | noPath hc hread => exact absurd hread (Store.read_ne_fault hpath _)
  | unreadable hc hf hread => exact ⟨_, w, rfl, (count_counted_of_error hread fs).symm⟩
  | unchanged hc hread hm => exact ⟨_, w, rfl, (count_counted hread fs).symm⟩
  | refused hc hread hm hr =>
    have hwrites := (hstores _ ⟨_, hread, rfl, hm⟩).1
    exact absurd (hr.symm.trans hwrites) (by decide)
  | written hc hread hm hr he => exact ⟨_, _, rfl, (count_counted hread fs).symm⟩
  | emptied hc hread hm hr he =>
    have hstorable := (hstores _ ⟨_, hread, rfl, hm⟩).2
    exact absurd hstorable ((Utf8.exists_encode_error_iff _).1 ⟨_, he⟩)

/-- A preview changes nothing, and says of some findings what it says of each of them.  Of a finding
with a fix it says that the file would change exactly if fixing the file for it counts one fix, and the
first of several findings that fixing counts is the first one that the preview marks. -/
theorem preview_agrees (w : Workspace) (path : Text) :
    (∀ fs, (outcome (tryOut path fs) w).2 = w) ∧
    (Store.pathFault? (Path.clean path) = none →
      (∀ fs, outcome (tryOut path fs) w =
        (.ok ⟨Path.clean path, fs.flatMap fun f => tried w path [f]⟩, w)) ∧
      (∀ f, f.fix.isSome = true → Stores w.store (Path.clean path) [f] →
        ∃ r v, outcome (apply path [f] false) w = (.ok r, v) ∧
          ((∃ entry ∈ tried w path [f], entry.changes = true) ↔ r.applied = 1)) ∧
      ∀ fs, (counted w path fs).findIdx? id = fs.findIdx? (marks w path) ∧
        (Stores w.store (Path.clean path) fs →
          ∃ r v, outcome (apply path fs false) w = (.ok r, v) ∧
            r.applied = (counted w path fs).count true)) := by
  refine ⟨snd_outcome_tryOut w path, fun hpath => ⟨fun fs => ?_, fun f hf hstores => ?_, fun fs =>
    ⟨findIdx_counted hpath fs, exists_outcome_apply_counted hpath⟩⟩⟩
  · have hone : ∀ f, tried w path [f] = (previewed? w.store path f).toList := by
      intro f
      rw [tried_eq hpath, List.filterMap_eq_flatMap_toList, List.flatMap_singleton]
    rw [outcome_tryOut hpath, List.filterMap_eq_flatMap_toList]
    simp only [hone]
  · obtain ⟨r, v, hout, hcount⟩ := exists_outcome_apply_counted hpath hstores
    refine ⟨r, v, hout, ?_⟩
    rw [hcount, counted_singleton hpath, ← List.any_eq_true]
    show marks w path f = true ↔ _
    cases marks w path f <;> decide

/-- A preview marks a line end that is missing, and fixing the file counts it. -/
theorem preview_agrees_appending :
    let w := Workspace.single "w.json" "[]"
    let f : Finding :=
      { rule := "END", severity := .nit, path := "w.json", message := "No line end"
        fix := some (.appending "Append a line end" "\n") }
    ∃ r v, outcome (apply "w.json" [f] false) w = (.ok r, v) ∧
      ((∃ entry ∈ tried w "w.json" [f], entry.changes = true) ↔ r.applied = 1) := by
  intro w f
  refine ((preview_agrees w "w.json").2 (by decide)).2.1 f rfl ?_
  rintro t ⟨before, hread, rfl, -⟩
  have hfile : w.store.file? (Path.clean "w.json") = some [91, 93] := by decide +kernel
  have hdecode : Utf8.decode [91, 93] = .ok "[]" := by rfl
  rw [Store.read_of_file? hfile, hdecode] at hread
  obtain rfl := Except.ok.inj hread
  refine ⟨rfl, ?_⟩
  show ∀ c ∈ _, _
  decide +kernel

end WorkflowLint.Fixing
