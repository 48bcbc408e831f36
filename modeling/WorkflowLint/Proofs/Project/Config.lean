import WorkflowLint.Check.ConfigSchema
import WorkflowLint.Check.ConfigWorkflows
import WorkflowLint.Proofs.Project.Schema

/-!
# What comes of reading a configuration

A project has a configuration, or there is a reason why it has none, or reading it stopped with a
fault.  The last happens where the path is too long, where the reader of YAML stops with a fault, and
where the check against the schema does (`exists_read_fault_iff`).

The check CONFIG-SCHEMA has a finding that cannot be passed over for every reason, but none for a
fault (`ConfigSchema.run_of_read_error`).
-/

namespace WorkflowLint

open Check

namespace ProjectConfig

variable {w : Workspace} {folder t : Text}

/-- Reading the configuration of a project stops with a fault. -/
inductive Faulty (w : Workspace) (folder : Text) : Prop
  /-- The path of the file is too long. -/
  | path (p : Text) : w.store.read (w.configPath folder) = .error (.tooLong p) → Faulty w folder
  /-- The reader of YAML stops with a fault. -/
  | yaml (t : Text) (f : Fault) : w.store.read (w.configPath folder) = .ok t →
      Yaml.load .given t = .error (.fault f) → Faulty w folder
  /-- A trigger names no type, by a text that cannot be stored. -/
  | type (t : Text) (g : Yaml.Graph) : w.store.read (w.configPath folder) = .ok t →
      Yaml.load .given t = .ok g → NamesUnstorable g → Faulty w folder

theorem isMapping_of_namesUnstorable {g : Yaml.Graph} (h : NamesUnstorable g) :
    g.object.isMapping = true := by
  obtain ⟨workflow, hworkflow, -⟩ := h
  obtain ⟨es, hes, -⟩ := mem_itemsUnder_iff.1 hworkflow
  unfold Yaml.Graph.entries? at hes
  split at hes
  · next heq => rw [heq]; rfl
  · simp at hes

/-! ### Texts -/

section Text

variable {path : Text} {g : Yaml.Graph}

theorem ofText_of_load_fault {f : Fault} (h : Yaml.load .given t = .error (.fault f)) :
    ofText path t = .error (.fault f) := by
  unfold ofText parse
  rw [h]

variable (path) in
theorem exists_ofText_of_load_error {e : Yaml.LoadError} (h : Yaml.load .given t = .error e)
    (he : ∀ f, e ≠ .fault f) : ∃ error line, ofText path t = .error (.invalid path [error] line) := by
  unfold ofText parse
  rw [h]
  cases e with
  | fault f => exact absurd rfl (he f)
  | _ => exact ⟨_, _, rfl⟩

variable (path) in
theorem ofText_of_not_mapping (h : Yaml.load .given t = .ok g) (hg : g.object.isMapping = false) :
    ofText path t = .error (.invalid path ["Configuration must be a mapping"] none) := by
  unfold ofText parse
  rw [h]
  simp only [hg, Bool.false_eq_true, if_false]

theorem ofText_of_mapping (h : Yaml.load .given t = .ok g) (hg : g.object.isMapping = true) :
    ofText path t =
      match ofGraph g with
      | .error (.errors es) => .error (.invalid path (es.map Schema.SchemaError.message) none)
      | .error (.fault f) => .error (.fault f)
      | .ok c => .ok c := by
  have hparse : parse path t = .ok g := by
    unfold parse
    rw [h]
    exact if_pos hg
  unfold ofText
  exact hparse ▸ rfl

theorem exists_ofText_fault_iff :
    (∃ f, ofText path t = .error (.fault f)) ↔
      (∃ f, Yaml.load .given t = .error (.fault f)) ∨
        ∃ g, Yaml.load .given t = .ok g ∧ NamesUnstorable g := by
  cases hload : Yaml.load .given t with
  | error e =>
    by_cases he : ∃ f, e = .fault f
    · obtain ⟨f, rfl⟩ := he
      simp [ofText_of_load_fault hload]
    · rw [not_exists] at he
      obtain ⟨error, line, h⟩ := exists_ofText_of_load_error path hload he
      simp [h, he]
  | ok g =>
    simp only [reduceCtorEq, exists_false, Except.ok.injEq, exists_eq_left', false_or,
      ← stops_ofGraph]
    cases hmapping : g.object.isMapping with
    | true =>
      rw [ofText_of_mapping hload hmapping]
      rcases ofGraph g with (es | f) | c <;> simp
    | false =>
      -- what is no mapping has no triggers
      rw [ofText_of_not_mapping path hload hmapping, stops_ofGraph]
      have hnot : ¬ NamesUnstorable g := fun h => by simp [isMapping_of_namesUnstorable h] at hmapping
      simp [hnot]

/-- What is wrong with the text of a configuration is said by at least one error. -/
theorem errors_ne_nil_of_ofText {p : Text} {errors : List Text} {line : Option Nat}
    (h : ofText path t = .error (.invalid p errors line)) : errors ≠ [] := by
  cases hload : Yaml.load .given t with
  | error e =>
    by_cases he : ∃ f, e = .fault f
    · obtain ⟨f, rfl⟩ := he
      simp [ofText_of_load_fault hload] at h
    · obtain ⟨error, line', herror⟩ :=
        exists_ofText_of_load_error path hload (not_exists.1 he)
      obtain ⟨-, rfl, -⟩ := ConfigError.invalid.inj (Except.error.inj (herror.symm.trans h))
      exact List.cons_ne_nil _ _
  | ok g =>
    cases hmapping : g.object.isMapping with
    | false =>
      have herror := ofText_of_not_mapping path hload hmapping
      obtain ⟨-, rfl, -⟩ := ConfigError.invalid.inj (Except.error.inj (herror.symm.trans h))
      exact List.cons_ne_nil _ _
    | true =>
      rw [ofText_of_mapping hload hmapping] at h
      have hexplained := explained_ofGraph g
      rcases hg : ofGraph g with (es | f) | c
      · rw [hg] at h hexplained
        obtain ⟨-, rfl, -⟩ := ConfigError.invalid.inj (Except.error.inj h)
        rw [ne_eq, List.map_eq_nil_iff]
        rintro rfl
        exact hexplained rfl
      · simp [hg] at h
      · simp [hg] at h

end Text

/-! ### Files -/

theorem read_of_store (h : w.store.read (w.configPath folder) = .ok t) :
    read w folder = ofText (w.configPath folder) t := by
  unfold read readText
  simp only [h]
  rfl

theorem read_of_tooLong {p : Text} (h : w.store.read (w.configPath folder) = .error (.tooLong p)) :
    ∃ f, read w folder = .error (.fault f) := by
  unfold read readText
  simp only [h]
  exact ⟨_, rfl⟩

/-- Of a file that cannot be read nothing is said about its content. -/
theorem read_of_store_error {e : Store.ReadError}
    (h : w.store.read (w.configPath folder) = .error e) (he : ∀ p, e ≠ .tooLong p) :
    read w folder = .error (.absent (w.configPath folder)) ∨
      ∃ reason, read w folder = .error (.unreadable (w.configPath folder) reason) := by
  unfold read readText
  simp only [h]
  cases e with
  | tooLong p => exact absurd rfl (he p)
  | undecodable e => exact .inr ⟨_, rfl⟩
  | _ => exact .inl rfl

/-- Reading a configuration stops with a fault in three cases. -/
theorem exists_read_fault_iff : (∃ f, read w folder = .error (.fault f)) ↔ Faulty w folder := by
  constructor
  · rintro ⟨f, h⟩
    cases htext : w.store.read (w.configPath folder) with
    | ok t =>
      rw [read_of_store htext] at h
      obtain ⟨f, hload⟩ | ⟨g, hload, hnames⟩ := exists_ofText_fault_iff.1 ⟨f, h⟩
      · exact .yaml t f htext hload
      · exact .type t g htext hload hnames
    | error e =>
      by_cases he : ∃ p, e = .tooLong p
      · obtain ⟨p, rfl⟩ := he
        exact .path p htext
      · obtain habsent | ⟨reason, hreason⟩ := read_of_store_error htext (not_exists.1 he)
        · simp [habsent] at h
        · simp [hreason] at h
  · rintro (⟨p, hp⟩ | ⟨t, f, ht, hload⟩ | ⟨t, g, ht, hload, hnames⟩)
    · exact read_of_tooLong hp
    · exact ⟨f, (read_of_store ht).trans (ofText_of_load_fault hload)⟩
    · rw [read_of_store ht]
      exact exists_ofText_fault_iff.2 (.inr ⟨g, hload, hnames⟩)

theorem read?_of_ok {c : ProjectConfig} (h : read w folder = .ok c) :
    read? w folder = .ok (some c) := by
  rw [read?, h]

theorem read?_of_fault {f : Fault} (h : read w folder = .error (.fault f)) :
    read? w folder = .error f := by
  rw [read?, h]

theorem read?_of_error {e : ConfigError} (h : read w folder = .error e) (he : ∀ f, e ≠ .fault f) :
    read? w folder = .ok none := by
  rw [read?, h]
  cases e with
  | fault f => exact absurd rfl (he f)
  | _ => rfl

/-- Only a fault stops the checks that look at the configuration. -/
theorem read_of_read?_error {f : Fault} (h : read? w folder = .error f) :
    read w folder = .error (.fault f) := by
  cases hread : read w folder with
  | ok c =>
    rw [read?_of_ok hread] at h
    cases h
  | error e =>
    by_cases he : ∃ f', e = .fault f'
    · obtain ⟨f', rfl⟩ := he
      rw [read?_of_fault hread] at h
      rw [Except.error.inj h]
    · rw [read?_of_error hread (not_exists.1 he)] at h
      cases h

theorem read_of_read?_some {c : ProjectConfig} (h : read? w folder = .ok (some c)) :
    read w folder = .ok c := by
  unfold read? at h
  split at h
  · next hread =>
    obtain rfl := Option.some.inj (Except.ok.inj h)
    exact hread
  · cases h
  · cases h

/-- What is wrong with a configuration is said by at least one error. -/
theorem errors_ne_nil_of_read {path : Text} {errors : List Text} {line : Option Nat}
    (h : read w folder = .error (.invalid path errors line)) : errors ≠ [] := by
  cases htext : w.store.read (w.configPath folder) with
  | ok t => exact errors_ne_nil_of_ofText ((read_of_store htext).symm.trans h)
  | error e =>
    by_cases he : ∃ p, e = .tooLong p
    · obtain ⟨p, rfl⟩ := he
      obtain ⟨f, hf⟩ := read_of_tooLong htext
      simp [hf] at h
    · obtain habsent | ⟨reason, hreason⟩ := read_of_store_error htext (not_exists.1 he)
      · simp [habsent] at h
      · simp [hreason] at h

end ProjectConfig

/-! ## What the check of the configuration says -/

namespace Check.ConfigSchema

variable {w : Workspace} {folder : Text}

/-- A finding of the check that nothing can mend. -/
def IsReport (f : Finding) : Prop := f.rule = info.id ∧ f.severity = .must ∧ f.fix = none

/-- For every reason why a project has no configuration there is a finding. -/
theorem run_of_read_error {e : ConfigError} (h : ProjectConfig.read w folder = .error e)
    (he : ∀ f, e ≠ .fault f) :
    ∃ findings, run w folder = .ok findings ∧ findings ≠ [] ∧ ∀ f ∈ findings, IsReport f := by
  unfold run
  rw [h]
  cases e with
  | absent path => exact ⟨_, rfl, List.cons_ne_nil _ _, by simp [IsReport, finding]⟩
  | unreadable path reason => exact ⟨_, rfl, List.cons_ne_nil _ _, by simp [IsReport, finding]⟩
  | invalid path errors line =>
    refine ⟨_, rfl, ?_, ?_⟩
    · rw [ne_eq, List.map_eq_nil_iff]
      exact ProjectConfig.errors_ne_nil_of_read h
    · rw [List.forall_mem_map]
      exact fun _ _ => ⟨rfl, rfl, rfl⟩
  | fault f => exact absurd rfl (he f)

theorem run_of_read_fault {f : Fault} (h : ProjectConfig.read w folder = .error (.fault f)) :
    run w folder = .error f := by
  unfold run
  rw [h]
  rfl

end Check.ConfigSchema

end WorkflowLint
