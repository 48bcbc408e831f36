import WorkflowLint.Proofs.Text.Utf8
import WorkflowLint.Project.Definition

/-!
# How checking against a schema ends

A check can end with a fault (`Stops`), or with errors, of which there is then at least one
(`Explained`).  Both are followed through the ways of building checks, so that those of triggers,
workflows and configurations come down to their parts.

The only part that can stop is the type of a trigger: a text that names no type is quoted in the
error, which takes that it can be stored (`ProjectConfig.stops_ofGraph`).
-/

namespace WorkflowLint.Schema

open Yaml (Graph)

/-- A check ends with a fault. -/
def Stops {α : Type} (c : Checked α) : Prop := ∃ f, c = .error (.fault f)

/-- A check that ends with errors has one. -/
def Explained {α : Type} (c : Checked α) : Prop := c ≠ .error (.errors [])

variable {α β : Type}

/-! ## Single checks -/

@[simp] theorem not_stops_ok (a : α) : ¬ Stops (.ok a : Checked α) := by simp [Stops]

@[simp] theorem not_stops_errors (es : List SchemaError) :
    ¬ Stops (.error (.errors es) : Checked α) := by simp [Stops]

@[simp] theorem stops_fault (f : Fault) : Stops (.error (.fault f) : Checked α) := ⟨f, rfl⟩

@[simp] theorem not_stops_fail (problem : Text) : ¬ Stops (fail problem : Checked α) :=
  not_stops_errors _

@[simp] theorem not_stops_failUnicode : ¬ Stops (failUnicode : Checked α) := not_stops_fail _

@[simp] theorem explained_ok (a : α) : Explained (.ok a : Checked α) := by simp [Explained]

@[simp] theorem explained_fault (f : Fault) : Explained (.error (.fault f) : Checked α) := by
  simp [Explained]

@[simp] theorem explained_fail (problem : Text) : Explained (fail problem : Checked α) := by
  simp [Explained, fail]

@[simp] theorem explained_failUnicode : Explained (failUnicode : Checked α) := explained_fail _

theorem stops_within (name : Text) (c : Checked α) : Stops (within name c) ↔ Stops c := by
  rcases c with (es | f) | a <;> simp [within, Except.mapError, Misfit.within]

theorem Explained.within {c : Checked α} (h : Explained c) (name : Text) :
    Explained (within name c) := by
  rcases c with (es | f) | a
  · simpa [Explained, Schema.within, Except.mapError, Misfit.within] using h
  · exact explained_fault f
  · exact explained_ok a

theorem stops_bind (c : Checked α) (next : α → Checked β) :
    Stops (c >>= next) ↔ Stops c ∨ ∃ a, c = .ok a ∧ Stops (next a) := by
  rcases c with (es | f) | a <;> simp [bind, Except.bind]

theorem Explained.bind {c : Checked α} {next : α → Checked β} (h : Explained c)
    (hnext : ∀ a, Explained (next a)) : Explained (c >>= next) := by
  rcases c with (es | f) | a
  · simpa [Explained, Bind.bind, Except.bind] using h
  · exact explained_fault f
  · exact hnext a

theorem stops_map (change : α → β) (c : Checked α) : Stops (c.map change) ↔ Stops c := by
  rcases c with (es | f) | a <;> simp [Except.map]

theorem Explained.map {c : Checked α} (h : Explained c) (change : α → β) :
    Explained (c.map change) := by
  rcases c with (es | f) | a
  · simpa [Explained, Except.map] using h
  · exact explained_fault f
  · exact explained_ok _

/-! ## Several parts -/

/-- What is built from parts stops where one of them does, whatever errors the others have. -/
theorem stops_withPart (part : Checked α) (whole : Checked (α → β)) :
    Stops (withPart part whole) ↔ Stops whole ∨ Stops part := by
  rcases whole with (es | f) | a <;> rcases part with (es' | f') | a' <;> simp [withPart]

theorem Explained.withPart {part : Checked α} {whole : Checked (α → β)} (hwhole : Explained whole)
    (hpart : Explained part) : Explained (withPart part whole) := by
  rcases whole with (es | f) | a <;> rcases part with (es' | f') | a' <;>
    simp_all [Explained, Schema.withPart]

theorem stops_all (parts : List (Checked α)) : Stops (all parts) ↔ ∃ part ∈ parts, Stops part := by
  induction parts with
  | nil => simp [all]
  | cons part parts ih =>
    have hcons : all (part :: parts) = withPart (all parts) (part.map List.cons) := rfl
    rw [hcons, stops_withPart, stops_map, ih]
    simp

theorem explained_all {parts : List (Checked α)} (h : ∀ part ∈ parts, Explained part) :
    Explained (all parts) := by
  induction parts with
  | nil => exact explained_ok []
  | cons part parts ih =>
    rw [List.forall_mem_cons] at h
    exact (h.1.map List.cons).withPart (ih h.2)

/-! ## Values -/

theorem not_stops_text (g : Graph) : ¬ Stops (text g) := by
  unfold text
  split
  · simp
  · split <;> simp
  · simp

theorem explained_text (g : Graph) : Explained (text g) := by
  unfold text
  split
  · simp
  · split <;> simp
  · simp

theorem not_stops_fullText (g : Graph) : ¬ Stops (fullText g) := by
  unfold fullText
  rw [stops_bind]
  rintro (h | ⟨t, -, h⟩)
  · exact not_stops_text g h
  · split_ifs at h <;> simp at h

theorem explained_fullText (g : Graph) : Explained (fullText g) := by
  refine (explained_text g).bind fun t => ?_
  split_ifs <;> simp

theorem not_stops_items (g : Graph) : ¬ Stops (items g) := by
  unfold items
  split <;> simp

theorem explained_items (g : Graph) : Explained (items g) := by
  unfold items
  split <;> simp

theorem not_stops_entries (what : Text) (g : Graph) : ¬ Stops (entries what g) := by
  unfold entries
  split <;> simp

theorem explained_entries (what : Text) (g : Graph) : Explained (entries what g) := by
  unfold entries
  split <;> simp

theorem entries_eq_ok_iff {what : Text} {g : Graph} {es : Yaml.Entries} :
    entries what g = .ok es ↔ g.entries? = some es := by
  unfold entries
  cases g.entries? <;> simp [fail]

/-- A check of a mapping stops where that of its entries does. -/
theorem stops_entries_bind (what : Text) (g : Graph) (next : Yaml.Entries → Checked α) :
    Stops (entries what g >>= next) ↔ ∃ es, g.entries? = some es ∧ Stops (next es) := by
  simp only [stops_bind, not_stops_entries, entries_eq_ok_iff, false_or]

section

variable (check : Graph → Checked α) (g : Graph)

/-- The items of a value, none if it is no list. -/
def listed (g : Graph) : List Graph := (items g).toOption.getD []

theorem stops_listOf : Stops (listOf check g) ↔ ∃ item ∈ listed g, Stops (check item) := by
  unfold listOf listed
  rw [stops_bind]
  simp only [not_stops_items, false_or]
  cases items g with
  | error m => simp [Except.toOption]
  | ok items =>
    simp only [Except.ok.injEq, exists_eq_left', stops_all, Except.toOption, Option.getD_some]
    constructor
    · rintro ⟨part, hpart, hstops⟩
      obtain ⟨p, hp, rfl⟩ := List.mem_map.1 hpart
      exact ⟨p.1, List.fst_mem_of_mem_zipIdx hp, (stops_within _ _).1 hstops⟩
    · rintro ⟨item, hitem, hstops⟩
      rw [← List.zipIdx_map_fst 0 items] at hitem
      obtain ⟨p, hp, rfl⟩ := List.mem_map.1 hitem
      exact ⟨_, List.mem_map_of_mem hp, (stops_within _ _).2 hstops⟩

theorem explained_listOf (h : ∀ item, Explained (check item)) : Explained (listOf check g) := by
  refine (explained_items g).bind fun items => explained_all ?_
  rw [List.forall_mem_map]
  exact fun p _ => (h p.1).within _

theorem stops_nullable :
    Stops (nullable check g) ↔ g.atom? ≠ some .null ∧ Stops (check g) := by
  unfold nullable
  split
  · next h => simp [h]
  · next h =>
    rw [stops_map]
    exact ⟨fun hs => ⟨h, hs⟩, And.right⟩

theorem explained_nullable (h : ∀ g, Explained (check g)) : Explained (nullable check g) := by
  unfold nullable
  split
  · exact explained_ok none
  · exact (h g).map some

end

/-! ## Entries -/

section

variable (es : Yaml.Entries) (name : Text) (otherwise : α) (check : Graph → Checked α)

theorem stops_required :
    Stops (required es name check) ↔ ∃ g, es.get? name = some g ∧ Stops (check g) := by
  unfold required
  rw [stops_within]
  cases es.get? name <;> simp

theorem explained_required (h : ∀ g, Explained (check g)) : Explained (required es name check) := by
  unfold required
  refine Explained.within ?_ name
  split
  · exact explained_fail _
  · exact h _

theorem stops_optional :
    Stops (optional es name otherwise check) ↔ ∃ g, es.get? name = some g ∧ Stops (check g) := by
  unfold optional
  cases es.get? name <;> simp [stops_within]

theorem explained_optional (h : ∀ g, Explained (check g)) :
    Explained (optional es name otherwise check) := by
  unfold optional
  split
  · exact explained_ok _
  · exact (h _).within name

end

section

variable (known : List Text) (es : Yaml.Entries) {whole : Checked (List (Text × Graph) → β)}

/-- The checks of the entries that a schema does not know end with a value or with an error. -/
theorem of_mem_extra {part : Checked (Text × Graph)}
    (h : part ∈ es.filterMap fun e =>
      match e.1 with
      | .string name => if known.contains name then none else some (.ok (name, e.2))
      | key => some (within (keyLocation key) (fail "Keys should be strings"))) :
    ¬ Stops part ∧ Explained part := by
  obtain ⟨⟨key, g⟩, -, hpart⟩ := List.mem_filterMap.1 h
  cases key with
  | string name =>
    simp only at hpart
    split at hpart
    · simp at hpart
    · obtain rfl := Option.some.inj hpart
      simp
  | _ =>
    obtain rfl := Option.some.inj hpart
    simp [stops_within, (explained_fail _).within]

theorem not_stops_extra : ¬ Stops (extra known es) := by
  unfold extra
  rw [stops_all]
  rintro ⟨part, hpart, hstops⟩
  exact (of_mem_extra known es hpart).1 hstops

theorem explained_extra : Explained (extra known es) :=
  explained_all fun _ hpart => (of_mem_extra known es hpart).2

theorem stops_withExtra : Stops (withExtra known es whole) ↔ Stops whole := by
  unfold withExtra
  split
  · simp
  · next h =>
    have hwhole : ¬ Stops whole := by
      rintro ⟨f, rfl⟩
      exact h f rfl
    split_ifs
    · simp [stops_withPart, not_stops_extra]
    · simp [hwhole]

theorem Explained.withExtra (h : Explained whole) : Explained (withExtra known es whole) := by
  unfold Schema.withExtra
  split
  · exact explained_fault _
  · split_ifs
    · exact h.withPart (explained_extra known es)
    · exact explained_failUnicode

end

end WorkflowLint.Schema

namespace WorkflowLint

open Schema
open Yaml (Graph)

/-! ## Triggers -/

namespace TriggerConfig

/-- A part of a document names no type of trigger, by a text that cannot be stored. -/
def NamesUnstorable (g : Graph) : Prop :=
  ∃ t, Schema.text g = .ok t ∧ TriggerType.ofName? t = none ∧ ¬ t.Storable

/-- What is around a text in the error about it can be stored. -/
theorem storable_typeProblem_iff (t : Text) :
    Text.Storable ("type must be one of ("
      ++ Text.join ", " (TriggerType.all.map fun t => t.name.quoted) ++ "), got '" ++ t ++ "'") ↔
      t.Storable := by
  have hfixed : ∀ c ∈ ("type must be one of ("
      ++ Text.join ", " (TriggerType.all.map fun t => t.name.quoted) ++ "), got '" : Text),
      c.isSurrogate = false := by decide +kernel
  have hend : ∀ c ∈ Text.ofString "'", c.isSurrogate = false := by decide
  rw [Text.Storable, List.forall_mem_append, List.forall_mem_append]
  exact ⟨fun h => h.1.2, fun h => ⟨⟨hfixed, h⟩, hend⟩⟩

theorem stops_typeOf (g : Graph) : Stops (typeOf g) ↔ NamesUnstorable g := by
  unfold typeOf NamesUnstorable
  simp only [stops_bind, not_stops_text, false_or]
  refine exists_congr fun t => and_congr_right fun _ => ?_
  cases TriggerType.ofName? t with
  | some type => simp
  | none =>
    rw [← storable_typeProblem_iff t, ← Utf8.exists_encode_error_iff]
    simp only [true_and]
    generalize Utf8.encode _ = encoded
    cases encoded <;> simp

theorem explained_typeOf (g : Graph) : Explained (typeOf g) := by
  refine (explained_text g).bind fun t => ?_
  split
  · exact explained_ok _
  · simp only
    split
    · exact explained_fail _
    · exact explained_fault _

/-- The check of a trigger stops at its type. -/
theorem stops_ofGraph (g : Graph) :
    Stops (ofGraph g) ↔ ∃ v, g.get? "type" = some v ∧ NamesUnstorable v := by
  unfold ofGraph Graph.get?
  rw [stops_entries_bind]
  simp only [stops_withExtra, stops_withPart, stops_required, stops_optional, stops_nullable,
    stops_listOf, not_stops_text, not_stops_items, stops_typeOf, not_stops_ok, and_false,
    exists_false, or_false, false_or, Option.bind_eq_some_iff]
  constructor
  · rintro ⟨es, hes, v, hv, hstops⟩
    exact ⟨v, ⟨es, hes, hv⟩, hstops⟩
  · rintro ⟨v, ⟨es, hes, hv⟩, hstops⟩
    exact ⟨es, hes, v, hv, hstops⟩

theorem explained_ofGraph (g : Graph) : Explained (ofGraph g) := by
  refine (explained_entries _ g).bind fun es => ?_
  refine Explained.withExtra _ es ?_
  have htext : ∀ name, Explained (optional es name none (nullable text)) := fun name =>
    explained_optional es name _ _ fun g => explained_nullable _ g explained_text
  have hcallers : Explained (optional es "called_by" none (nullable (listOf text))) :=
    explained_optional es _ _ _ fun g => explained_nullable _ g fun g =>
      explained_listOf _ g explained_text
  have hschema : Explained (optional es "input_schema" none (nullable items)) :=
    explained_optional es _ _ _ fun g => explained_nullable _ g explained_items
  exact ((((((explained_ok mk).withPart (explained_required es _ _ explained_typeOf)).withPart
    (htext _)).withPart (htext _)).withPart (htext _)).withPart hcallers).withPart hschema

end TriggerConfig

/-! ## Workflows and projects -/

/-- The items of the list that a key of a mapping has; there are none if it has no list. -/
def Yaml.Graph.itemsUnder (g : Graph) (key : Text) : List Graph :=
  ((g.get? key).map listed).getD []

theorem mem_itemsUnder_iff {g item : Graph} {key : Text} :
    item ∈ g.itemsUnder key ↔
      ∃ es, g.entries? = some es ∧ ∃ v, es.get? key = some v ∧ item ∈ listed v := by
  unfold Graph.itemsUnder Graph.get?
  cases g.entries? with
  | none => simp
  | some es => cases hv : es.get? key <;> simp [hv]

/-- What is null has no items. -/
theorem listed_of_null {g : Graph} (h : g.atom? = some .null) : listed g = [] := by
  unfold Graph.atom? at h
  unfold listed items
  split
  · next heq => simp [heq, Yaml.Object.atom?] at h
  · next heq => simp [heq, Yaml.Object.atom?] at h
  · rfl

namespace WorkflowConfig

/-- A trigger of a workflow names no type, by a text that cannot be stored. -/
def NamesUnstorable (g : Graph) : Prop :=
  ∃ trigger ∈ g.itemsUnder "triggers",
    ∃ v, trigger.get? "type" = some v ∧ TriggerConfig.NamesUnstorable v

/-- The check of a workflow stops at one of its triggers. -/
theorem stops_ofGraph (g : Graph) : Stops (ofGraph g) ↔ NamesUnstorable g := by
  unfold ofGraph NamesUnstorable
  rw [stops_entries_bind]
  simp only [stops_withExtra, stops_withPart, stops_required, stops_optional, stops_nullable,
    stops_listOf, not_stops_text, not_stops_ok, and_false, exists_false, false_or,
    TriggerConfig.stops_ofGraph, mem_itemsUnder_iff]
  constructor
  · rintro ⟨es, hes, v, hv, -, trigger, htrigger, hnames⟩
    exact ⟨trigger, ⟨es, hes, v, hv, htrigger⟩, hnames⟩
  · rintro ⟨trigger, ⟨es, hes, v, hv, htrigger⟩, hnames⟩
    refine ⟨es, hes, v, hv, fun hnull => ?_, trigger, htrigger, hnames⟩
    rw [listed_of_null hnull] at htrigger
    exact List.not_mem_nil htrigger

theorem explained_ofGraph (g : Graph) : Explained (ofGraph g) := by
  refine (explained_entries _ g).bind fun es => ?_
  refine Explained.withExtra _ es ?_
  refine Explained.withPart (Explained.withPart (Explained.withPart (explained_ok mk) ?_) ?_) ?_
  · exact explained_required es _ _ explained_text
  · exact explained_optional es _ _ _ fun g => explained_nullable _ g explained_text
  · exact explained_optional es _ _ _ fun g =>
      explained_nullable _ g fun g => explained_listOf _ g TriggerConfig.explained_ofGraph

end WorkflowConfig

namespace ProjectConfig

/-- A trigger of a workflow of a project names no type, by a text that cannot be stored. -/
def NamesUnstorable (g : Graph) : Prop :=
  ∃ workflow ∈ g.itemsUnder "workflows", WorkflowConfig.NamesUnstorable workflow

/-- The check of a configuration stops at a trigger of one of its workflows. -/
theorem stops_ofGraph (g : Graph) : Stops (ofGraph g) ↔ NamesUnstorable g := by
  unfold ofGraph NamesUnstorable
  rw [stops_entries_bind]
  simp only [stops_withExtra, stops_withPart, stops_required, stops_optional, stops_listOf,
    not_stops_fullText, not_stops_text, not_stops_ok, and_false, exists_false, false_or,
    WorkflowConfig.stops_ofGraph, mem_itemsUnder_iff]
  constructor
  · rintro ⟨es, hes, v, hv, workflow, hworkflow, hnames⟩
    exact ⟨workflow, ⟨es, hes, v, hv, hworkflow⟩, hnames⟩
  · rintro ⟨workflow, ⟨es, hes, v, hv, hworkflow⟩, hnames⟩
    exact ⟨es, hes, v, hv, workflow, hworkflow, hnames⟩

/-- A configuration that does not match the schema has an error. -/
theorem explained_ofGraph (g : Graph) : Explained (ofGraph g) := by
  refine (explained_entries _ g).bind fun es => ?_
  refine Explained.withExtra _ es ?_
  refine Explained.withPart (Explained.withPart (Explained.withPart (explained_ok mk) ?_) ?_) ?_
  · exact explained_required es _ _ explained_fullText
  · exact explained_required es _ _ fun g => explained_listOf _ g explained_text
  · exact explained_optional es _ _ _ fun g => explained_listOf _ g WorkflowConfig.explained_ofGraph

end ProjectConfig

end WorkflowLint
