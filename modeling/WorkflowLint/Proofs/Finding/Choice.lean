import WorkflowLint.Proofs.Run.Workflow

/-!
# Choices of findings

The options of a run choose findings by their rules and may take them strictly.  A finding that was
chosen is chosen again as it is (`choose_eq_self`), so that choosing twice is choosing once, and a
choice of findings taken together is that of their parts (`choose_append`).
-/

namespace WorkflowLint

namespace Finding

@[simp] theorem rule_hardened (f : Finding) : f.hardened.rule = f.rule := by
  unfold hardened
  split <;> rfl

@[simp] theorem path_hardened (f : Finding) : f.hardened.path = f.path := by
  unfold hardened
  split <;> rfl

@[simp] theorem fix_hardened (f : Finding) : f.hardened.fix = f.fix := by
  unfold hardened
  split <;> rfl

@[simp] theorem fixable_hardened (f : Finding) : f.hardened.fixable = f.fixable := by
  rw [fixable, fixable, fix_hardened]

theorem hardened_of_ne_should {f : Finding} (h : f.severity ≠ .should) : f.hardened = f := by
  unfold hardened
  split <;> simp_all

theorem severity_hardened_ne_should (f : Finding) : f.hardened.severity ≠ .should := by
  unfold hardened
  split
  · simp [withSeverity]
  · assumption

end Finding

namespace Options

variable (o : Options)

/-- A finding as some options choose it: its rule is selected, and it has the severity that it is
taken with. -/
def Chosen (f : Finding) : Prop :=
  Finding.selected o.rules o.excludeRules f.rule = true ∧ (o.strict = true → f.severity ≠ .should)

variable {o} {f : Finding} {findings : List Finding}

theorem mem_choose_iff :
    f ∈ o.choose findings ↔
      ∃ f' ∈ findings, Finding.selected o.rules o.excludeRules f'.rule = true ∧
        f = if o.strict then f'.hardened else f' := by
  unfold choose Finding.escalate Finding.select
  cases o.strict with
  | false =>
    rw [if_neg Bool.false_ne_true]
    constructor
    · intro h
      exact ⟨f, (List.mem_filter.1 h).1, (List.mem_filter.1 h).2, rfl⟩
    · rintro ⟨f', hf, hsel, rfl⟩
      exact List.mem_filter.2 ⟨hf, hsel⟩
  | true =>
    rw [if_pos rfl, List.mem_map]
    constructor
    · rintro ⟨f', h, rfl⟩
      exact ⟨f', (List.mem_filter.1 h).1, (List.mem_filter.1 h).2, rfl⟩
    · rintro ⟨f', hf, hsel, rfl⟩
      exact ⟨f', List.mem_filter.2 ⟨hf, hsel⟩, rfl⟩

/-- A finding that was chosen has the rule, the file and the fix of one that it was chosen from. -/
theorem exists_of_mem_choose (h : f ∈ o.choose findings) :
    ∃ f' ∈ findings, Finding.selected o.rules o.excludeRules f'.rule = true ∧ f.rule = f'.rule ∧
      f.path = f'.path ∧ f.fix = f'.fix := by
  obtain ⟨f', hf', hsel, rfl⟩ := mem_choose_iff.1 h
  refine ⟨f', hf', hsel, ?_⟩
  split
  · exact ⟨f'.rule_hardened, f'.path_hardened, f'.fix_hardened⟩
  · exact ⟨rfl, rfl, rfl⟩

/-- A finding on a selected rule is chosen, and keeps its fix. -/
theorem exists_mem_choose (h : f ∈ findings)
    (hsel : Finding.selected o.rules o.excludeRules f.rule = true) :
    ∃ f' ∈ o.choose findings, f'.fix = f.fix := by
  refine ⟨_, mem_choose_iff.2 ⟨f, h, hsel, rfl⟩, ?_⟩
  split
  · exact f.fix_hardened
  · rfl

theorem chosen_of_mem_choose (h : f ∈ o.choose findings) : o.Chosen f := by
  obtain ⟨f', -, hsel, rfl⟩ := mem_choose_iff.1 h
  cases hs : o.strict with
  | false => exact ⟨by simpa using hsel, by simp [hs]⟩
  | true => exact ⟨by simpa using hsel, fun _ => by simpa using f'.severity_hardened_ne_should⟩

/-- Findings that were chosen are chosen as they are. -/
theorem choose_eq_self (h : ∀ f ∈ findings, o.Chosen f) : o.choose findings = findings := by
  have hsel : Finding.select o.rules o.excludeRules findings = findings :=
    List.filter_eq_self.2 fun f hf => (h f hf).1
  rw [choose, hsel, Finding.escalate]
  split
  · next hs =>
    exact (List.map_congr_left fun f hf => Finding.hardened_of_ne_should ((h f hf).2 hs)).trans
      (List.map_id findings)
  · rfl

theorem choose_append (findings findings' : List Finding) :
    o.choose (findings ++ findings') = o.choose findings ++ o.choose findings' := by
  unfold choose Finding.escalate Finding.select
  rw [List.filter_append]
  split
  · exact List.map_append
  · rfl

theorem choose_flatMap {α : Type} (l : List α) (findings : α → List Finding) :
    o.choose (l.flatMap findings) = l.flatMap fun a => o.choose (findings a) := by
  induction l with
  | nil => cases hs : o.strict <;> simp [choose, Finding.escalate, Finding.select, hs]
  | cons a l ih => rw [List.flatMap_cons, List.flatMap_cons, choose_append, ih]

/-- A change of findings that concerns neither their rules nor their severities can be made before
or after a choice. -/
theorem choose_map (change : Finding → Finding) (hrule : ∀ f, (change f).rule = f.rule)
    (hhardened : ∀ f, (change f).hardened = change f.hardened) :
    o.choose (findings.map change) = (o.choose findings).map change := by
  have hselect : Finding.select o.rules o.excludeRules (findings.map change) =
      (Finding.select o.rules o.excludeRules findings).map change := by
    rw [Finding.select, Finding.select, List.filter_map]
    congr 2
    exact funext fun f => congrArg (Finding.selected o.rules o.excludeRules) (hrule f)
  unfold choose Finding.escalate
  rw [hselect]
  split
  · rw [List.map_map, List.map_map]
    congr 1
    exact funext hhardened
  · rfl

/-- Without options every finding is chosen as it is. -/
theorem choose_default (findings : List Finding) : ({} : Options).choose findings = findings :=
  choose_eq_self fun f _ => ⟨by simp [Finding.selected], by simp⟩

/-- Choosing twice is choosing once. -/
theorem choose_choose : o.choose (o.choose findings) = o.choose findings :=
  choose_eq_self fun _ hf => chosen_of_mem_choose hf

variable (o)

/-- Chosen findings have no fixes if those that they were chosen from had none. -/
theorem fix_of_mem_choose (h : ∀ f ∈ findings, f.fix = none) (hf : f ∈ o.choose findings) :
    f.fix = none := by
  obtain ⟨f', hf', -, -, -, hfix⟩ := exists_of_mem_choose hf
  rw [hfix, h f' hf']

/-- What is chosen can be mended just as what it is chosen from. -/
theorem fixable_of_mem_choose {b : Bool} (h : ∀ f ∈ findings, f.fixable = b)
    (hf : f ∈ o.choose findings) : f.fixable = b := by
  obtain ⟨f', hf', -, -, -, hfix⟩ := exists_of_mem_choose hf
  rw [Finding.fixable, hfix]
  exact h f' hf'

end Options
end WorkflowLint
