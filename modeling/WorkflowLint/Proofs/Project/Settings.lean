import Mathlib.Tactic.Common
import WorkflowLint.Project.Settings
import WorkflowLint.Proofs.Fault

/-!
# Settings that resolve

A setting is meant to come from the environment, else from the file of defaults, else to be built in, where
a section that is missing or is no mapping has no values (`resolved`).  The getters give it as long as they
need no section that is there and is no mapping, and no value with a whole number that is too long to be
written; else they stop (`resolves_iff`).
-/

namespace WorkflowLint.Settings

/-! ## What settings are meant to be -/

/-- The entries of a section; a section that is missing, and one that is no mapping, has none. -/
def entriesIn (es : Yaml.Entries) (part : Text) : Yaml.Entries :=
  ((es.get? part).bind Yaml.Graph.entries?).getD []

/-- The value of a setting in a section, unless it counts as absent. -/
def valueIn? (es : Yaml.Entries) (part name : Text) : Option Yaml.Graph :=
  ((entriesIn es part).get? name).filter fun g => !g.isBlank

/-- A setting of the project: what a variable gives, else the value in the section of the project as a text,
else what is built in. -/
def resolvedText (setting : Option Text) (es : Yaml.Entries) (name otherwise : Text) : Text :=
  match given setting with
  | some t => t
  | none => ((valueIn? es "project" name).map fun g => g.value.shown).getD otherwise

/-- The settings that an environment and the entries of a file of defaults are meant to give. -/
def resolved (e : Environment) (es : Yaml.Entries) : Settings where
  configFile := resolvedText e.configFile es "config_file" builtIn.configFile
  workflowsDir := resolvedText e.workflowsDir es "workflows_dir" builtIn.workflowsDir
  suffix := dotted (resolvedText e.suffix es "workflow_suffix" builtIn.suffix)
  strict :=
    match e.strict with
    | some t => asksForStrictness t
    | none => (valueIn? es "defaults" "strict").isSome

/-- All settings are what they are meant to be. -/
structure Resolves (e : Environment) (d : Defaults) (es : Yaml.Entries) : Prop where
  configFile : chooseConfigFile e d = .ok (resolved e es).configFile
  workflowsDir : chooseWorkflowsDir e d = .ok (resolved e es).workflowsDir
  suffix : chooseSuffix e d = .ok (resolved e es).suffix
  strict : chooseStrict e d = .ok (resolved e es).strict

/-- A file of defaults that is missing or empty, or is a mapping, has some entries. -/
inductive HasEntries (path : Text) : Option Text → Yaml.Entries → Prop
  | missing : HasEntries path none []
  | empty {t : Text} {g : Yaml.Graph} : Yaml.load (.file path) t.normaliseLineEnds = .ok g →
      g.isBlank = true → HasEntries path (some t) []
  | mapping {t : Text} {g : Yaml.Graph} {es : Yaml.Entries} :
      Yaml.load (.file path) t.normaliseLineEnds = .ok g → g.entries? = some es →
      HasEntries path (some t) es

/-! ## When they are -/

/-- A section is missing, or it is a mapping. -/
def IsSection (es : Yaml.Entries) (part : Text) : Prop := ∀ g ∈ es.get? part, g.entries?.isSome

instance (es : Yaml.Entries) (part : Text) : Decidable (IsSection es part) :=
  inferInstanceAs (Decidable (∀ g ∈ es.get? part, g.entries?.isSome))

/-- A setting of the project is given by the environment, or can be taken from its section. -/
def Obtainable (setting : Option Text) (es : Yaml.Entries) (name : Text) : Prop :=
  given setting ≠ none ∨
    IsSection es "project" ∧ ∀ g ∈ valueIn? es "project" name, g.value.hasTooLong = false

instance (setting : Option Text) (es : Yaml.Entries) (name : Text) : Decidable (Obtainable setting es name) :=
  inferInstanceAs (Decidable (given setting ≠ none ∨
    IsSection es "project" ∧ ∀ g ∈ valueIn? es "project" name, g.value.hasTooLong = false))

/-- Strictness is given by the environment, even by an empty variable, or can be taken from its section. -/
def StrictnessObtainable (e : Environment) (es : Yaml.Entries) : Prop :=
  e.strict ≠ none ∨ IsSection es "defaults"

instance (e : Environment) (es : Yaml.Entries) : Decidable (StrictnessObtainable e es) :=
  inferInstanceAs (Decidable (e.strict ≠ none ∨ IsSection es "defaults"))

/-- All settings are obtainable. -/
structure AllObtainable (e : Environment) (es : Yaml.Entries) : Prop where
  configFile : Obtainable e.configFile es "config_file"
  workflowsDir : Obtainable e.workflowsDir es "workflows_dir"
  suffix : Obtainable e.suffix es "workflow_suffix"
  strict : StrictnessObtainable e es

instance (e : Environment) (es : Yaml.Entries) : Decidable (AllObtainable e es) :=
  decidable_of_iff
    (Obtainable e.configFile es "config_file" ∧ Obtainable e.workflowsDir es "workflows_dir" ∧
      Obtainable e.suffix es "workflow_suffix" ∧ StrictnessObtainable e es)
    ⟨fun ⟨h₁, h₂, h₃, h₄⟩ => ⟨h₁, h₂, h₃, h₄⟩, fun ⟨h₁, h₂, h₃, h₄⟩ => ⟨h₁, h₂, h₃, h₄⟩⟩

/-- What a getter can stop with: something that is no mapping is asked for an entry, or a whole number is too
long to be written. -/
def IsFault (f : Fault) : Prop := f.kind = "AttributeError" ∨ f = .tooLong

/-- A getter has a result under a condition, and stops if it does not hold. -/
structure GivesIf {α : Type} (x : Except Fault α) (a : α) (p : Prop) : Prop where
  ok : p → x = .ok a
  error : ¬ p → ∃ f, x = .error f ∧ IsFault f

variable {α β : Type} {x : Except Fault α} {a : α} {p q : Prop} {e : Environment} {d : Defaults}
  {g : Yaml.Graph} {es : Yaml.Entries} {path : Text} {text : Option Text}

theorem GivesIf.of_ok (hp : p) : GivesIf (Except.ok a : Except Fault α) a p :=
  ⟨fun _ => rfl, fun hnot => absurd hp hnot⟩

theorem GivesIf.of_error {f : Fault} (hp : ¬ p) (hf : IsFault f) : GivesIf (.error f) a p :=
  ⟨fun h => absurd h hp, fun _ => ⟨f, rfl, hf⟩⟩

theorem GivesIf.ok_iff (h : GivesIf x a p) : x = .ok a ↔ p := by
  refine ⟨fun hx => ?_, h.ok⟩
  by_contra hp
  obtain ⟨f, hf, -⟩ := h.error hp
  rw [hx] at hf
  exact nomatch hf

theorem GivesIf.map (h : GivesIf x a p) (change : α → β) : GivesIf (x.map change) (change a) p := by
  constructor
  · intro hp
    rw [h.ok hp]
    rfl
  · intro hp
    obtain ⟨f, hf, hfault⟩ := h.error hp
    rw [hf]
    exact ⟨f, rfl, hfault⟩

/-- A step after another one has a result where both have one. -/
theorem GivesIf.bind {next : α → Except Fault β} {b : β} (h : GivesIf x a p)
    (hnext : GivesIf (next a) b q) : GivesIf (x >>= next) b (p ∧ q) := by
  constructor
  · rintro ⟨hp, hq⟩
    rw [h.ok hp]
    exact hnext.ok hq
  · intro hnot
    by_cases hp : p
    · rw [h.ok hp]
      exact hnext.error fun hq => hnot ⟨hp, hq⟩
    · obtain ⟨f, hf, hfault⟩ := h.error hp
      rw [hf]
      exact ⟨f, rfl, hfault⟩

theorem GivesIf.or_of_not (h : GivesIf x a p) (hq : ¬ q) : GivesIf x a (q ∨ p) :=
  ⟨fun hor => h.ok (hor.resolve_left hq), fun hnot => h.error fun hp => hnot (.inr hp)⟩

theorem eq_nil_of_isBlank (hes : g.entries? = some es) (h : g.isBlank = true) : es = [] := by
  unfold Yaml.Graph.entries? at hes
  unfold Yaml.Graph.isBlank at h
  cases ho : g.object with
  | mapping entries =>
    rw [ho] at hes h
    have hempty : entries.flatMap (fun e => [e.1, e.2]) = [] := List.isEmpty_iff.1 h
    have hnil : entries = [] :=
      List.eq_nil_iff_forall_not_mem.2 fun e he => nomatch List.flatMap_eq_nil_iff.1 hempty e he
    subst hnil
    exact (Option.some.inj hes).symm
  | atom _ => rw [ho] at hes; exact nomatch hes
  | list _ => rw [ho] at hes; exact nomatch hes
  | pair _ _ => rw [ho] at hes; exact nomatch hes
  | set _ => rw [ho] at hes; exact nomatch hes

theorem read_of_load {t : Text} (hload : Yaml.load (.file path) t.normaliseLineEnds = .ok g) :
    Defaults.read path (some t) = if g.isBlank then Defaults.none else .ok g := by
  unfold Defaults.read
  simp only
  rw [hload]

/-- What is read from such a file is a mapping with those entries. -/
theorem HasEntries.exists_read (h : HasEntries path text es) :
    ∃ g, Defaults.read path text = .ok g ∧ g.entries? = some es := by
  cases h with
  | missing => exact ⟨_, rfl, rfl⟩
  | empty hload hblank => exact ⟨_, (read_of_load hload).trans (if_pos hblank), rfl⟩
  | @mapping _ g _ hload hentries =>
    by_cases hblank : g.isBlank = true
    · obtain rfl := eq_nil_of_isBlank hentries hblank
      exact ⟨_, (read_of_load hload).trans (if_pos hblank), rfl⟩
    · exact ⟨g, (read_of_load hload).trans (if_neg hblank), hentries⟩

/-- The entries of a section are there unless the section is there and is no mapping. -/
theorem givesIf_section (hd : d = .ok g) (hes : g.entries? = some es) (part : Text) :
    GivesIf (d.section part) (entriesIn es part) (IsSection es part) := by
  have hentries : entries g = .ok es := by
    unfold entries
    rw [hes]
  subst hd
  simp only [Defaults.section, bind, Except.bind, hentries]
  unfold entriesIn IsSection
  cases es.get? part with
  | none => exact .of_ok fun _ h => nomatch h
  | some inner =>
    show GivesIf (entries inner) _ _
    unfold entries
    cases hinner : inner.entries? with
    | some inside =>
      have hok : ∀ g ∈ some inner, g.entries?.isSome := by
        rintro _ ⟨⟩
        rw [hinner]
        rfl
      simp only [Option.bind_some, hinner, Option.getD_some]
      exact .of_ok hok
    | none =>
      refine .of_error (fun hall => ?_) (.inl rfl)
      have hsome := hall inner rfl
      rw [hinner] at hsome
      exact Bool.false_ne_true hsome

theorem givesIf_shown (g : Yaml.Graph) : GivesIf (shown g) g.value.shown (g.value.hasTooLong = false) := by
  show GivesIf (if g.value.hasTooLong then .error .tooLong else .ok g.value.shown) _ _
  split_ifs with h
  · exact .of_error (fun hshort => Bool.false_ne_true (hshort.symm.trans h)) (.inr rfl)
  · exact .of_ok (Bool.eq_false_iff.2 h)

/-- A setting of the project comes from its section unless that is no mapping or the value is too long. -/
theorem givesIf_project (hd : d = .ok g) (hes : g.entries? = some es) (name otherwise : Text) :
    GivesIf (d.project name otherwise)
      (((valueIn? es "project" name).map fun g => g.value.shown).getD otherwise)
      (IsSection es "project" ∧ ∀ g ∈ valueIn? es "project" name, g.value.hasTooLong = false) := by
  refine (givesIf_section hd hes "project").bind ?_
  unfold valueIn?
  cases ((entriesIn es "project").get? name).filter fun g => !g.isBlank with
  | none => exact .of_ok fun _ h => nomatch h
  | some g =>
    obtain ⟨hok, herror⟩ := givesIf_shown g
    exact ⟨fun h => hok (h g rfl), fun hnot => herror fun h => hnot fun _ hg => Option.some.inj hg ▸ h⟩

/-- The environment decides before the file is looked at. -/
theorem givesIf_given (setting : Option Text) (hd : d = .ok g) (hes : g.entries? = some es)
    (name otherwise : Text) :
    GivesIf (match given setting with | some t => .ok t | none => d.project name otherwise)
      (resolvedText setting es name otherwise) (Obtainable setting es name) := by
  unfold resolvedText Obtainable
  cases given setting with
  | some t => exact .of_ok (.inl (Option.some_ne_none t))
  | none => exact (givesIf_project hd hes name otherwise).or_of_not fun hne => hne rfl

theorem givesIf_suffix (hd : d = .ok g) (hes : g.entries? = some es) (e : Environment) :
    GivesIf (chooseSuffix e d) (resolved e es).suffix (Obtainable e.suffix es "workflow_suffix") := by
  have hsuffix : chooseSuffix e d = Except.map dotted (match given e.suffix with
      | some t => .ok t
      | none => d.project "workflow_suffix" builtIn.suffix) := by
    unfold chooseSuffix
    cases given e.suffix with
    | some t => rfl
    | none => rfl
  rw [hsuffix]
  exact (givesIf_given e.suffix hd hes "workflow_suffix" builtIn.suffix).map dotted

theorem givesIf_strict (hd : d = .ok g) (hes : g.entries? = some es) (e : Environment) :
    GivesIf (chooseStrict e d) (resolved e es).strict (StrictnessObtainable e es) := by
  unfold chooseStrict resolved StrictnessObtainable
  cases e.strict with
  | some t => exact .of_ok (.inl (Option.some_ne_none t))
  | none =>
    have hsome : (valueIn? es "defaults" "strict").isSome =
        ((entriesIn es "defaults").get? "strict").any fun g => !g.isBlank := by
      unfold valueIn?
      cases (entriesIn es "defaults").get? "strict" with
      | none => rfl
      | some g => cases hblank : g.isBlank <;> simp [hblank]
    have hgives := (givesIf_section hd hes "defaults").map
      fun inside => (inside.get? "strict").any fun g => !g.isBlank
    rw [← hsome] at hgives
    exact hgives.or_of_not fun hne => hne rfl

/-- A file that gives a list as the folder of the workflow files, and an ending without a dot. -/
def listedFolder : Text := "project:\n  workflows_dir: [flows, 1]\n  workflow_suffix: n8n\n"

/-- An environment that asks for strictness and has an empty variable. -/
def strictEnvironment : Environment := { configFile := some "", strict := some " YES " }

/-- A file whose sections have nothing in them. -/
def emptySections : Text := "project:\ndefaults:\n"

/-- What asking a section with nothing in it for a setting stops with. -/
def emptySection : Fault := ⟨"AttributeError", "'NoneType' object has no attribute 'get'"⟩

end WorkflowLint.Settings
