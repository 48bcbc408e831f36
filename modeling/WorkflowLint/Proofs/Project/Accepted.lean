import WorkflowLint.Project.Definition
import WorkflowLint.Proofs.Yaml.Tree

/-!
# What configurations are accepted

Checking a document against the schema of configurations looks at the document as a tree only: the
configuration is accepted exactly if its tree is one (`ProjectConfig.accepts_ofGraph`).  What is kept of
the document comes from the values of the named entries (`TriggerConfig.ofGraph_eq_ok_iff` and the like).
-/

namespace WorkflowLint

open Yaml (Atom Graph Tree)

/-! ## Checks that give a value -/

namespace Schema

variable {α β : Type} {name : Text} {es : Yaml.Entries} {known : List Text} {g : Graph}
  {check : Graph → Checked α}

theorem within_eq_ok_iff {c : Checked α} {a : α} : within name c = .ok a ↔ c = .ok a := by
  rcases c with (errors | f) | b <;> simp [within, Except.mapError]

theorem withPart_eq_ok_iff {part : Checked α} {whole : Checked (α → β)} {b : β} :
    withPart part whole = .ok b ↔ ∃ f, whole = .ok f ∧ ∃ a, part = .ok a ∧ f a = b := by
  rcases whole with (errors | f) | f <;> rcases part with (errors' | f') | a <;> simp [withPart]

theorem all_eq_ok_iff {parts : List (Checked α)} {as : List α} :
    all parts = .ok as ↔ parts = as.map .ok := by
  induction parts generalizing as with
  | nil => cases as <;> simp [all]
  | cons part parts ih =>
    have hcons : all (part :: parts) = withPart (all parts) (part.map List.cons) := rfl
    rw [hcons, withPart_eq_ok_iff]
    constructor
    · rintro ⟨f, hf, as', has', rfl⟩
      cases part with
      | error m => cases hf
      | ok a =>
        obtain rfl := Except.ok.inj hf
        rw [ih.1 has', List.map_cons]
    · intro heq
      cases as with
      | nil => cases heq
      | cons a as =>
        obtain ⟨rfl, hparts⟩ := List.cons.inj heq
        exact ⟨List.cons a, rfl, as, ih.2 hparts, rfl⟩

theorem listOf_eq_ok_iff {as : List α} :
    listOf check g = .ok as ↔ ∃ gs, items g = .ok gs ∧ gs.map check = as.map .ok := by
  have hwithin : ∀ (gs : List Graph) (n : Nat),
      ((gs.zipIdx n).map fun p => within (Text.ofNat p.2) (check p.1)) = as.map Except.ok ↔
        gs.map check = as.map Except.ok := by
    intro gs
    induction gs generalizing as with
    | nil => simp
    | cons x gs ih =>
      intro n
      cases as with
      | nil => simp
      | cons a as => simp [within_eq_ok_iff, ih]
  unfold listOf
  cases hitems : items g with
  | error m => simp [bind, Except.bind]
  | ok gs =>
    show all ((gs.zipIdx 0).map fun p => within (Text.ofNat p.2) (check p.1)) = _ ↔ _
    rw [all_eq_ok_iff, hwithin]
    simp

theorem nullable_eq_ok_iff {o : Option α} :
    nullable check g = .ok o ↔ (g.atom? = some .null ∧ o = none) ∨
      (g.atom? ≠ some .null ∧ ∃ a, check g = .ok a ∧ o = some a) := by
  unfold nullable
  split
  · next h => simp [h, eq_comm]
  · next h =>
    have hne : g.atom? ≠ some .null := h
    cases check g with
    | error m => simp [Except.map, hne]
    | ok a => simp [Except.map, hne, eq_comm (a := o)]

theorem required_eq_ok_iff {a : α} :
    required es name check = .ok a ↔ ∃ g, es.get? name = some g ∧ check g = .ok a := by
  unfold required
  rw [within_eq_ok_iff]
  cases es.get? name <;> simp [fail]

theorem optional_eq_ok_iff {otherwise a : α} :
    optional es name otherwise check = .ok a ↔
      (es.get? name = none ∧ a = otherwise) ∨ ∃ g, es.get? name = some g ∧ check g = .ok a := by
  unfold optional
  cases es.get? name with
  | none => simp [eq_comm]
  | some g => simp [within_eq_ok_iff]

/-- Whether the keys of some entries are texts that can be encoded. -/
def KeysNamed (es : Yaml.Entries) : Prop :=
  ∀ e ∈ es, ∃ name, e.1 = .string name ∧ isEncodable name = true

/-- The other entries are kept if all keys are texts. -/
theorem exists_extra_eq_ok_iff :
    (∃ named, extra known es = .ok named) ↔ ∀ e ∈ es, ∃ name, e.1 = .string name := by
  unfold extra
  simp only [all_eq_ok_iff]
  induction es with
  | nil => exact iff_of_true ⟨[], rfl⟩ (by simp)
  | cons e es ih =>
    obtain ⟨key, v⟩ := e
    rw [List.forall_mem_cons, ← ih]
    cases key with
    | string name =>
      by_cases hknown : known.contains name = true
      · simp only [List.filterMap_cons, hknown, if_true]
        simp
      · simp only [List.filterMap_cons, hknown]
        constructor
        · rintro ⟨named, hnamed⟩
          cases named with
          | nil => cases hnamed
          | cons p named => exact ⟨⟨name, rfl⟩, named, (List.cons.inj hnamed).2⟩
        · rintro ⟨-, named, hnamed⟩
          exact ⟨(name, v) :: named, by rw [hnamed]; rfl⟩
    | _ =>
      refine iff_of_false ?_ (by simp)
      rintro ⟨named, hnamed⟩
      cases named <;> simp [within, fail, Except.mapError] at hnamed

theorem withExtra_eq_ok_iff {whole : Checked (List (Text × Graph) → β)} {b : β} :
    withExtra known es whole = .ok b ↔ KeysNamed es ∧
      ∃ f, whole = .ok f ∧ ∃ named, extra known es = .ok named ∧ f named = b := by
  have hkeys : KeysNamed es ↔ (es.all fun e => e.1.text?.all isEncodable) = true ∧
      ∀ e ∈ es, ∃ name, e.1 = .string name := by
    rw [List.all_eq_true, ← forall₂_and]
    refine forall₂_congr fun e _ => ?_
    cases e.1 <;> simp [Atom.text?]
  unfold withExtra
  split
  · simp
  · split
    · next hall =>
      have hextra : (∃ named, extra known es = .ok named) ↔ _ := exists_extra_eq_ok_iff
      rw [withPart_eq_ok_iff, hkeys, ← hextra]
      constructor
      · rintro ⟨f, hf, named, hnamed, heq⟩
        exact ⟨⟨hall, named, hnamed⟩, f, hf, named, hnamed, heq⟩
      · rintro ⟨-, h⟩
        exact h
    · next hall =>
      refine iff_of_false (by simp [failUnicode, fail]) ?_
      rintro ⟨h, -⟩
      exact hall (hkeys.1 h).1

theorem entries_bind_eq_ok_iff {what : Text} {next : Yaml.Entries → Checked β} {b : β} :
    entries what g >>= next = .ok b ↔ ∃ es, g.entries? = some es ∧ next es = .ok b := by
  unfold entries
  cases g.entries? <;> simp [bind, Except.bind, fail]

end Schema

/-! ## Named entries of what is accepted -/

open Schema

variable {g : Graph}

theorem TriggerConfig.ofGraph_eq_ok_iff {t : TriggerConfig} :
    ofGraph g = .ok t ↔ ∃ es, g.entries? = some es ∧ KeysNamed es ∧
      required es "type" typeOf = .ok t.type ∧
      optional es "trigger_id" none (nullable text) = .ok t.triggerId ∧
      optional es "url" none (nullable text) = .ok t.url ∧
      optional es "manual_trigger_url" none (nullable text) = .ok t.manualTriggerUrl ∧
      optional es "called_by" none (nullable (listOf text)) = .ok t.calledBy ∧
      optional es "input_schema" none (nullable items) = .ok t.inputSchema ∧
      Schema.extra entryNames es = .ok t.extra := by
  unfold ofGraph
  rw [entries_bind_eq_ok_iff]
  refine exists_congr fun es => and_congr_right fun _ => ?_
  simp only [withExtra_eq_ok_iff, withPart_eq_ok_iff, Except.ok.injEq, exists_eq_left']
  constructor
  · rintro ⟨hkeys, -, ⟨-, ⟨-, ⟨-, ⟨-, ⟨-, ⟨type, htype, rfl⟩, id, hid, rfl⟩, url, hurl, rfl⟩, manual,
      hmanual, rfl⟩, callers, hcallers, rfl⟩, inputs, hinputs, rfl⟩, named, hnamed, rfl⟩
    exact ⟨hkeys, htype, hid, hurl, hmanual, hcallers, hinputs, hnamed⟩
  · rintro ⟨hkeys, htype, hid, hurl, hmanual, hcallers, hinputs, hnamed⟩
    exact ⟨hkeys, _, ⟨_, ⟨_, ⟨_, ⟨_, ⟨_, ⟨_, htype, rfl⟩, _, hid, rfl⟩, _, hurl, rfl⟩, _, hmanual, rfl⟩,
      _, hcallers, rfl⟩, _, hinputs, rfl⟩, _, hnamed, rfl⟩

theorem WorkflowConfig.ofGraph_eq_ok_iff {w : WorkflowConfig} :
    ofGraph g = .ok w ↔ ∃ es, g.entries? = some es ∧ KeysNamed es ∧
      required es "workflow_template_id" text = .ok w.templateId ∧
      optional es "workflow_name" none (nullable text) = .ok w.name ∧
      optional es "triggers" none (nullable (listOf TriggerConfig.ofGraph)) = .ok w.triggers ∧
      Schema.extra entryNames es = .ok w.extra := by
  unfold ofGraph
  rw [entries_bind_eq_ok_iff]
  refine exists_congr fun es => and_congr_right fun _ => ?_
  simp only [withExtra_eq_ok_iff, withPart_eq_ok_iff, Except.ok.injEq, exists_eq_left']
  constructor
  · rintro ⟨hkeys, -, ⟨-, ⟨-, ⟨id, hid, rfl⟩, name, hname, rfl⟩, triggers, htriggers, rfl⟩, named, hnamed,
      rfl⟩
    exact ⟨hkeys, hid, hname, htriggers, hnamed⟩
  · rintro ⟨hkeys, hid, hname, htriggers, hnamed⟩
    exact ⟨hkeys, _, ⟨_, ⟨_, ⟨_, hid, rfl⟩, _, hname, rfl⟩, _, htriggers, rfl⟩, _, hnamed, rfl⟩

theorem ProjectConfig.ofGraph_eq_ok_iff {c : ProjectConfig} :
    ofGraph g = .ok c ↔ ∃ es, g.entries? = some es ∧ KeysNamed es ∧
      required es "project_id" fullText = .ok c.projectId ∧
      required es "workflow_files" (listOf text) = .ok c.workflowFiles ∧
      optional es "workflows" [] (listOf WorkflowConfig.ofGraph) = .ok c.workflows ∧
      Schema.extra entryNames es = .ok c.extra := by
  unfold ofGraph
  rw [entries_bind_eq_ok_iff]
  refine exists_congr fun es => and_congr_right fun _ => ?_
  simp only [withExtra_eq_ok_iff, withPart_eq_ok_iff, Except.ok.injEq, exists_eq_left']
  constructor
  · rintro ⟨hkeys, -, ⟨-, ⟨-, ⟨id, hid, rfl⟩, files, hfiles, rfl⟩, workflows, hworkflows, rfl⟩, named,
      hnamed, rfl⟩
    exact ⟨hkeys, hid, hfiles, hworkflows, hnamed⟩
  · rintro ⟨hkeys, hid, hfiles, hworkflows, hnamed⟩
    exact ⟨hkeys, _, ⟨_, ⟨_, ⟨_, hid, rfl⟩, _, hfiles, rfl⟩, _, hworkflows, rfl⟩, _, hnamed, rfl⟩

/-! ## Trees of configurations -/

/-- A text of a configuration: given as a text, or as bytes that encode it. -/
structure Given where
  text : Text
  asText : Bool
deriving DecidableEq

namespace Yaml.Tree

/-- The text that a tree gives. -/
def given? (T : Tree) : Option Given :=
  T.atom?.bind fun
    | .string t => some ⟨t, true⟩
    | .bytes b => (Utf8.decode b).toOption.map (⟨·, false⟩)
    | _ => none

/-- A tree gives some text. -/
def GivesText (T : Tree) : Prop := ∃ t, T.given? = some t

/-- A tree is a list or a set of what fulfils a condition. -/
def IsListOf (P : Tree → Prop) (T : Tree) : Prop := ∃ Ts, T.members? = some Ts ∧ ∀ U ∈ Ts, P U

/-- A tree is null or fulfils a condition. -/
def IsNullOr (P : Tree → Prop) (T : Tree) : Prop := T.atom? = some .null ∨ P T

/-- A key has a value that fulfils a condition. -/
def Has (T : Tree) (key : Text) (P : Tree → Prop) : Prop := ∃ U, T.value? key = some U ∧ P U

/-- If a key has a value, then that fulfils a condition. -/
def MayHave (T : Tree) (key : Text) (P : Tree → Prop) : Prop := ∀ U, T.value? key = some U → P U

/-- A tree is a mapping, and its keys are texts that can be encoded. -/
def IsNamed (T : Tree) : Prop :=
  T.isMapping = true ∧
    ∀ e ∈ T.entries, ∃ name, e.1.atom? = some (.string name) ∧ isEncodable name = true

/-- A tree is a trigger. -/
structure IsTrigger (T : Tree) : Prop where
  named : T.IsNamed
  type : T.Has "type" fun U => ∃ type : TriggerType, U.given?.map (·.text) = some type.name
  texts : ∀ key ∈ ([ "trigger_id", "url", "manual_trigger_url" ] : List Text),
    T.MayHave key (IsNullOr GivesText)
  callers : T.MayHave "called_by" (IsNullOr (IsListOf GivesText))
  inputs : T.MayHave "input_schema" (IsNullOr (IsListOf fun _ => True))

/-- A tree is a workflow. -/
structure IsWorkflow (T : Tree) : Prop where
  named : T.IsNamed
  id : T.Has "workflow_template_id" GivesText
  name : T.MayHave "workflow_name" (IsNullOr GivesText)
  triggers : T.MayHave "triggers" (IsNullOr (IsListOf IsTrigger))

/-- A tree is a configuration. -/
structure IsConfig (T : Tree) : Prop where
  named : T.IsNamed
  id : T.Has "project_id" fun U =>
    ∃ t, U.given?.map (·.text) = some t ∧ isEncodable t = true ∧ t ≠ []
  files : T.Has "workflow_files" (IsListOf GivesText)
  workflows : T.MayHave "workflows" (IsListOf IsWorkflow)

end Yaml.Tree

/-! ## Checks as conditions on trees -/

namespace Schema

variable {α : Type} {check : Graph → Checked α} {P : Tree → Prop} {es : Yaml.Entries} {name : Text}
  {otherwise : α}

/-- A check gives a value for what fulfils a condition as a tree. -/
def Accepts (check : Graph → Checked α) (P : Tree → Prop) : Prop :=
  ∀ g, (∃ a, check g = .ok a) ↔ P g.tree

theorem text_eq_ok_iff {t : Text} : text g = .ok t ↔ g.tree.given?.map (·.text) = some t := by
  unfold text Tree.given?
  rw [Graph.atom?_tree]
  cases g.atom? with
  | none => simp [fail]
  | some a =>
    cases a with
    | string s => simp
    | bytes b => cases hb : Utf8.decode b <;> simp [hb, failUnicode, fail, Except.toOption]
    | _ => simp [fail]

theorem accepts_text : Accepts text Tree.GivesText := by
  intro g
  simp only [text_eq_ok_iff, Option.map_eq_some_iff]
  exact ⟨fun ⟨_, t, ht, _⟩ => ⟨t, ht⟩, fun ⟨t, ht⟩ => ⟨_, t, ht, rfl⟩⟩

theorem accepts_fullText : Accepts fullText fun T =>
    ∃ t, T.given?.map (·.text) = some t ∧ isEncodable t = true ∧ t ≠ [] := by
  intro g
  unfold fullText
  simp only [← text_eq_ok_iff]
  cases text g with
  | error m => simp [bind, Except.bind]
  | ok t =>
    by_cases henc : isEncodable t = true
    · cases t <;> simp [bind, Except.bind, henc, fail]
    · simp [bind, Except.bind, henc, failUnicode, fail]

theorem typeOf_eq_ok_iff {type : TriggerType} :
    TriggerConfig.typeOf g = .ok type ↔ g.tree.given?.map (·.text) = some type.name := by
  rw [← text_eq_ok_iff]
  unfold TriggerConfig.typeOf
  cases htext : text g with
  | error m => simp [bind, Except.bind]
  | ok t =>
    have hname : ∀ type : TriggerType, TriggerType.ofName? type.name = some type := by
      intro type
      cases type <;> decide
    simp only [bind, Except.bind, Except.ok.injEq]
    split
    · next found hfound =>
      have hfoundName : found.name = t := by simpa using List.find?_some hfound
      constructor
      · intro heq
        rw [← Except.ok.inj heq, hfoundName]
      · rintro rfl
        rw [Option.some.inj (hfound.symm.trans (hname type))]
    · next hnone =>
      refine iff_of_false (by split <;> simp [fail]) ?_
      rintro rfl
      rw [hname] at hnone
      cases hnone

theorem accepts_typeOf : Accepts TriggerConfig.typeOf fun T =>
    ∃ type : TriggerType, T.given?.map (·.text) = some type.name :=
  fun _ => exists_congr fun _ => typeOf_eq_ok_iff

/-- The items of a value, as trees. -/
theorem members?_tree : g.tree.members? = (items g).toOption.map (List.map Graph.tree) := by
  have hparts : (List.range (g.objectAt g.root).parts.length).map (g.treeAt g.root).part =
      (g.objectAt g.root).parts.map g.treeAt := Graph.map_part_treeAt
  have hmembers : ∀ ids : List Yaml.ObjectId, ids.map g.treeAt = (ids.map g.rootedAt).map Graph.tree := by
    intro ids
    rw [List.map_map]
    exact List.map_congr_left fun i _ => (Graph.tree_rootedAt i).symm
  have hshape : g.tree [] = some (g.objectAt g.root).shape := rfl
  unfold Tree.members? items
  rw [hshape]
  have hobject : g.object = g.objectAt g.root := rfl
  rw [hobject]
  cases h : g.objectAt g.root with
  | list ids =>
    rw [h] at hparts
    exact congrArg some (hparts.trans (hmembers ids))
  | set ids =>
    rw [h] at hparts
    exact congrArg some (hparts.trans (hmembers ids))
  | _ => rfl

theorem accepts_items : Accepts items (Tree.IsListOf fun _ => True) := by
  intro g
  unfold Tree.IsListOf
  rw [members?_tree]
  cases items g <;> simp [Except.toOption]

theorem Accepts.listOf (h : Accepts check P) : Accepts (listOf check) (Tree.IsListOf P) := by
  intro g
  have hP : ∀ x : Graph, P x.tree ↔ ∃ a, check x = .ok a := fun x => (h x).symm
  unfold Tree.IsListOf
  simp only [listOf_eq_ok_iff, members?_tree]
  cases items g with
  | error m => simp [Except.toOption]
  | ok gs =>
    simp only [Except.ok.injEq, exists_eq_left', Except.toOption, Option.map_some, Option.some.injEq,
      List.forall_mem_map, hP]
    induction gs with
    | nil => exact iff_of_true ⟨[], rfl⟩ (by simp)
    | cons x gs ih =>
      rw [List.forall_mem_cons]
      constructor
      · rintro ⟨as, has⟩
        cases as with
        | nil => cases has
        | cons a as =>
          obtain ⟨ha, has⟩ := List.cons.inj has
          exact ⟨⟨a, ha⟩, ih.1 ⟨as, has⟩⟩
      · rintro ⟨⟨a, ha⟩, hrest⟩
        obtain ⟨as, has⟩ := ih.2 hrest
        exact ⟨a :: as, by rw [List.map_cons, List.map_cons, ha, has]⟩

theorem Accepts.nullable (h : Accepts check P) : Accepts (nullable check) (Tree.IsNullOr P) := by
  intro g
  unfold Tree.IsNullOr
  rw [← h g, Graph.atom?_tree]
  simp only [nullable_eq_ok_iff]
  by_cases hnull : g.atom? = some .null
  · simp [hnull]
  · simp only [hnull, false_and, false_or, ne_eq, not_false_eq_true, true_and]
    exact ⟨fun ⟨_, a, ha, _⟩ => ⟨a, ha⟩, fun ⟨a, ha⟩ => ⟨_, a, ha, rfl⟩⟩

theorem value?_tree_of_entries? (hes : g.entries? = some es) :
    g.tree.value? name = (es.get? name).map Graph.tree := by
  rw [Graph.value?_tree, Graph.get?, hes]
  rfl

theorem Accepts.required (h : Accepts check P) (hes : g.entries? = some es) :
    (∃ a, required es name check = .ok a) ↔ g.tree.Has name P := by
  unfold Tree.Has
  simp only [required_eq_ok_iff, value?_tree_of_entries? hes]
  cases es.get? name with
  | none => simp
  | some v => simp [h v]

theorem Accepts.optional (h : Accepts check P) (hes : g.entries? = some es) :
    (∃ a, optional es name otherwise check = .ok a) ↔ g.tree.MayHave name P := by
  unfold Tree.MayHave
  simp only [optional_eq_ok_iff, value?_tree_of_entries? hes]
  cases es.get? name with
  | none => simp
  | some v => simp [h v]

theorem isNamed_tree_iff : g.tree.IsNamed ↔ ∃ es, g.entries? = some es ∧ KeysNamed es := by
  have hatom : ∀ i name, g.atomAt i = .string name ↔ (g.treeAt i).atom? = some (.string name) := by
    intro i name
    rw [Graph.atom?_treeAt, Graph.atomAt]
    cases (g.objectAt i).atom? <;> simp
  unfold Tree.IsNamed Graph.entries? KeysNamed
  rw [Graph.isMapping_tree]
  have hobject : g.object = g.objectAt g.root := rfl
  rw [hobject]
  cases h : g.objectAt g.root with
  | mapping entries =>
    have hentries : g.tree.entries = g.treesOf entries := by
      rw [Graph.tree, Graph.treeAt_mapping h, Tree.entries_ofEntries]
    simp only [hentries, Graph.treesOf, List.forall_mem_map, Option.some.injEq, exists_eq_left',
      hatom, Yaml.Object.isMapping, true_and]
  | _ => simp [Yaml.Object.isMapping]

end Schema

/-! ## What is accepted -/

/-- A trigger is accepted as such. -/
theorem TriggerConfig.accepts_ofGraph : Accepts ofGraph Tree.IsTrigger := by
  intro g
  have htext : ∀ es, g.entries? = some es → ∀ name,
      (∃ a, optional es name none (nullable text) = .ok a) ↔ _ :=
    fun _ hes _ => (accepts_text.nullable).optional hes
  constructor
  · rintro ⟨t, ht⟩
    obtain ⟨es, hes, hkeys, htype, hid, hurl, hmanual, hcallers, hinputs, -⟩ := ofGraph_eq_ok_iff.1 ht
    exact {
      named := isNamed_tree_iff.2 ⟨es, hes, hkeys⟩
      type := (accepts_typeOf.required hes).1 ⟨_, htype⟩
      texts := by
        simp only [List.forall_mem_cons, List.not_mem_nil, false_imp_iff, implies_true, and_true]
        exact ⟨(htext es hes _).1 ⟨_, hid⟩, (htext es hes _).1 ⟨_, hurl⟩,
          (htext es hes _).1 ⟨_, hmanual⟩⟩
      callers := ((accepts_text.listOf.nullable).optional hes).1 ⟨_, hcallers⟩
      inputs := ((accepts_items.nullable).optional hes).1 ⟨_, hinputs⟩ }
  · intro h
    obtain ⟨es, hes, hkeys⟩ := isNamed_tree_iff.1 h.named
    obtain ⟨type, htype⟩ := (accepts_typeOf.required hes).2 h.type
    obtain ⟨id, hid⟩ := (htext es hes _).2 (h.texts "trigger_id" (by simp))
    obtain ⟨url, hurl⟩ := (htext es hes _).2 (h.texts "url" (by simp))
    obtain ⟨manual, hmanual⟩ := (htext es hes _).2 (h.texts "manual_trigger_url" (by simp))
    obtain ⟨callers, hcallers⟩ := ((accepts_text.listOf.nullable).optional hes).2 h.callers
    obtain ⟨inputs, hinputs⟩ := ((accepts_items.nullable).optional hes).2 h.inputs
    obtain ⟨named, hnamed⟩ : ∃ named, Schema.extra entryNames es = .ok named :=
      exists_extra_eq_ok_iff.2 fun e he => (hkeys e he).imp fun _ hname => hname.1
    exact ⟨⟨type, id, url, manual, callers, inputs, named⟩, ofGraph_eq_ok_iff.2
      ⟨es, hes, hkeys, htype, hid, hurl, hmanual, hcallers, hinputs, hnamed⟩⟩

/-- A workflow is accepted as such. -/
theorem WorkflowConfig.accepts_ofGraph : Accepts ofGraph Tree.IsWorkflow := by
  intro g
  constructor
  · rintro ⟨w, hw⟩
    obtain ⟨es, hes, hkeys, hid, hname, htriggers, -⟩ := ofGraph_eq_ok_iff.1 hw
    exact {
      named := isNamed_tree_iff.2 ⟨es, hes, hkeys⟩
      id := (accepts_text.required hes).1 ⟨_, hid⟩
      name := ((accepts_text.nullable).optional hes).1 ⟨_, hname⟩
      triggers := ((TriggerConfig.accepts_ofGraph.listOf.nullable).optional hes).1 ⟨_, htriggers⟩ }
  · intro h
    obtain ⟨es, hes, hkeys⟩ := isNamed_tree_iff.1 h.named
    obtain ⟨id, hid⟩ := (accepts_text.required hes).2 h.id
    obtain ⟨name, hname⟩ := ((accepts_text.nullable).optional hes).2 h.name
    obtain ⟨triggers, htriggers⟩ :=
      ((TriggerConfig.accepts_ofGraph.listOf.nullable).optional hes).2 h.triggers
    obtain ⟨named, hnamed⟩ : ∃ named, Schema.extra entryNames es = .ok named :=
      exists_extra_eq_ok_iff.2 fun e he => (hkeys e he).imp fun _ hname => hname.1
    exact ⟨⟨id, name, triggers, named⟩, ofGraph_eq_ok_iff.2
      ⟨es, hes, hkeys, hid, hname, htriggers, hnamed⟩⟩

/-- The configurations that are accepted are those whose trees are. -/
theorem ProjectConfig.accepts_ofGraph : Accepts ofGraph Tree.IsConfig := by
  intro g
  constructor
  · rintro ⟨c, hc⟩
    obtain ⟨es, hes, hkeys, hid, hfiles, hworkflows, -⟩ := ofGraph_eq_ok_iff.1 hc
    exact {
      named := isNamed_tree_iff.2 ⟨es, hes, hkeys⟩
      id := (accepts_fullText.required hes).1 ⟨_, hid⟩
      files := (accepts_text.listOf.required hes).1 ⟨_, hfiles⟩
      workflows := (WorkflowConfig.accepts_ofGraph.listOf.optional hes).1 ⟨_, hworkflows⟩ }
  · intro h
    obtain ⟨es, hes, hkeys⟩ := isNamed_tree_iff.1 h.named
    obtain ⟨id, hid⟩ := (accepts_fullText.required hes).2 h.id
    obtain ⟨files, hfiles⟩ := (accepts_text.listOf.required hes).2 h.files
    obtain ⟨workflows, hworkflows⟩ :=
      (WorkflowConfig.accepts_ofGraph.listOf.optional hes).2 h.workflows
    obtain ⟨named, hnamed⟩ : ∃ named, Schema.extra entryNames es = .ok named :=
      exists_extra_eq_ok_iff.2 fun e he => (hkeys e he).imp fun _ hname => hname.1
    exact ⟨⟨id, files, workflows, named⟩, ofGraph_eq_ok_iff.2
      ⟨es, hes, hkeys, hid, hfiles, hworkflows, hnamed⟩⟩

end WorkflowLint
