import Mathlib.Data.List.Forall2
import WorkflowLint.Check.CalledBy
import WorkflowLint.Proofs.Project.Listing

/-!
# Triggers of configurations and their entries

A configuration that is read off a document has the workflows and the triggers that the document lists
(`ProjectConfig.isListedAs_of_ofGraph`).  So the trigger of a sub-workflow is that of its entry, and it
lists the same callers (`map_calledBy_trigger?`).
-/

namespace WorkflowLint

open Schema
open Yaml (Graph Tree)

/-! ## Lists that correspond -/

section

variable {α β : Type} {R : α → β → Prop} {as : List α} {bs : List β}

/-- Of two lists that correspond the same tests find what corresponds. -/
theorem rel_find? {p : α → Bool} {q : β → Bool} (h : List.Forall₂ R as bs)
    (htest : ∀ a b, R a b → p a = q b) : Option.Rel R (as.find? p) (bs.find? q) := by
  induction h with
  | nil => exact .none
  | @cons a b as bs hab _ ih =>
    cases hq : q b with
    | true =>
      rw [List.find?_cons_of_pos ((htest a b hab).trans hq), List.find?_cons_of_pos hq]
      exact .some hab
    | false =>
      have hp : p a = false := (htest a b hab).trans hq
      rw [List.find?_cons_of_neg (by simp [hp]), List.find?_cons_of_neg (by simp [hq])]
      exact ih

theorem forall₂_of_map_eq {ε : Type} {check : β → Except ε α} (h : bs.map check = as.map .ok) :
    List.Forall₂ (fun a b => check b = .ok a) as bs := by
  induction bs generalizing as with
  | nil =>
    obtain rfl := List.map_eq_nil_iff.1 h.symm
    exact .nil
  | cons b bs ih =>
    cases as with
    | nil => cases h
    | cons a as =>
      obtain ⟨hb, hbs⟩ := List.cons.inj h
      exact .cons hb (ih hbs)

theorem filterMap_eq_of_forall₂ {f : β → Option α}
    (h : List.Forall₂ (fun a b => f b = some a) as bs) : bs.filterMap f = as := by
  induction h with
  | nil => rfl
  | cons hab _ ih => rw [List.filterMap_cons_some hab, ih]

end

/-! ## What a value gives -/

section

variable {α β : Type} {check : Graph → Checked α} {make : Tree → β} {R : α → β → Prop} {g : Graph}
  {es : Yaml.Entries} {name : Text}

/-- What is checked as a list is what its tree gives. -/
theorem exists_givenList?_of_listOf {as : List α} (hR : ∀ g a, check g = .ok a → R a (make g.tree))
    (h : listOf check g = .ok as) :
    ∃ l, g.tree.givenList? make = some l ∧ List.Forall₂ R as l.items := by
  obtain ⟨gs, hgs, hmap⟩ := listOf_eq_ok_iff.1 h
  refine ⟨⟨(gs.map Graph.tree).map make, g.tree.isList⟩, ?_, ?_⟩
  · rw [Tree.givenList?, members?_tree, hgs]
    rfl
  · show List.Forall₂ R as ((gs.map Graph.tree).map make)
    rw [List.map_map, List.forall₂_map_right_iff]
    exact (forall₂_of_map_eq hmap).imp fun a x hx => hR x a hx

/-- What is null gives no list. -/
theorem givenList?_of_null (h : g.atom? = some .null) : g.tree.givenList? make = none := by
  have hatom : g.tree.atom? = some .null := Graph.atom?_tree.trans h
  have hmembers : g.tree.members? = none := by
    unfold Tree.atom? at hatom
    unfold Tree.members?
    split at hatom
    · next hshape => rw [hshape]
    · cases hatom
  rw [Tree.givenList?, hmembers]
  rfl

/-- What is checked as a list under a key, if there is one, is what the key gives. -/
theorem rel_of_optional {o : Option (List α)} (hR : ∀ g a, check g = .ok a → R a (make g.tree))
    (hes : g.entries? = some es) (h : optional es name none (nullable (listOf check)) = .ok o) :
    Option.Rel (fun as l => List.Forall₂ R as l.items) o
      ((g.tree.value? name).bind (Tree.givenList? make)) := by
  rw [value?_tree_of_entries? hes]
  obtain ⟨hnone, rfl⟩ | ⟨v, hv, hcheck⟩ := optional_eq_ok_iff.1 h
  · rw [hnone]
    exact .none
  · rw [hv, Option.map_some, Option.bind_some]
    obtain ⟨hnull, rfl⟩ | ⟨-, as, has, rfl⟩ := nullable_eq_ok_iff.1 hcheck
    · rw [givenList?_of_null hnull]
      exact .none
    · obtain ⟨l, hl, hall⟩ := exists_givenList?_of_listOf hR has
      rw [hl]
      exact .some hall

end

/-! ## Configurations -/

/-- A trigger is as it is listed. -/
structure TriggerConfig.IsListedAs (t : TriggerConfig) (l : TriggerListing) : Prop where
  type : l.type.map (·.text) = some t.type.name
  callers : l.callerTexts = t.calledBy

/-- A workflow is as it is listed. -/
structure WorkflowConfig.IsListedAs (w : WorkflowConfig) (l : WorkflowListing) : Prop where
  id : l.id.map (·.text) = some w.templateId
  triggers : List.Forall₂ TriggerConfig.IsListedAs w.triggerList (GivenList.all l.triggers)

variable {g : Graph}

theorem map_text_of_required {es : Yaml.Entries} {name t : Text} (hes : g.entries? = some es)
    (h : ∃ v, es.get? name = some v ∧ v.tree.given?.map (·.text) = some t) :
    ((g.tree.value? name).bind Tree.given?).map (·.text) = some t := by
  obtain ⟨v, hv, ht⟩ := h
  rw [value?_tree_of_entries? hes, hv, Option.map_some, Option.bind_some, ht]

theorem TriggerConfig.isListedAs_of_ofGraph {t : TriggerConfig} (h : ofGraph g = .ok t) :
    t.IsListedAs g.tree.triggerListing := by
  obtain ⟨es, hes, -, htype, -, -, -, hcallers, -⟩ := ofGraph_eq_ok_iff.1 h
  refine ⟨map_text_of_required hes ?_, ?_⟩
  · obtain ⟨v, hv, htype⟩ := required_eq_ok_iff.1 htype
    exact ⟨v, hv, typeOf_eq_ok_iff.1 htype⟩
  · have hrel : Option.Rel
        (fun as l => List.Forall₂ (fun t given => given.map (·.text) = some t) as l.items) t.calledBy
        ((g.tree.value? "called_by").bind (Tree.givenList? Tree.given?)) :=
      rel_of_optional (fun _ _ => text_eq_ok_iff.1) hes hcallers
    unfold TriggerListing.callerTexts Tree.triggerListing
    generalize t.calledBy = o at hrel
    generalize (g.tree.value? "called_by").bind (Tree.givenList? Tree.given?) = given at hrel
    cases hrel with
    | none => rfl
    | some hall => exact congrArg some (filterMap_eq_of_forall₂ hall)

theorem WorkflowConfig.isListedAs_of_ofGraph {w : WorkflowConfig} (h : ofGraph g = .ok w) :
    w.IsListedAs g.tree.workflowListing := by
  obtain ⟨es, hes, -, hid, -, htriggers, -⟩ := ofGraph_eq_ok_iff.1 h
  refine ⟨map_text_of_required hes ?_, ?_⟩
  · obtain ⟨v, hv, hid⟩ := required_eq_ok_iff.1 hid
    exact ⟨v, hv, text_eq_ok_iff.1 hid⟩
  · have hrel : Option.Rel (fun as l => List.Forall₂ TriggerConfig.IsListedAs as l.items) w.triggers
        ((g.tree.value? "triggers").bind (Tree.givenList? Tree.triggerListing)) :=
      rel_of_optional (fun _ _ => TriggerConfig.isListedAs_of_ofGraph) hes htriggers
    unfold WorkflowConfig.triggerList Tree.workflowListing
    generalize w.triggers = o at hrel
    generalize (g.tree.value? "triggers").bind (Tree.givenList? Tree.triggerListing) = given at hrel
    cases hrel with
    | none => exact .nil
    | some hall => exact hall

/-- The workflows of a configuration are as its document lists them. -/
theorem ProjectConfig.isListedAs_of_ofGraph {c : ProjectConfig} (h : ofGraph g = .ok c) :
    List.Forall₂ WorkflowConfig.IsListedAs c.workflows (GivenList.all g.tree.listing) := by
  obtain ⟨es, hes, -, -, -, hworkflows, -⟩ := ofGraph_eq_ok_iff.1 h
  unfold Tree.listing
  rw [value?_tree_of_entries? hes]
  obtain ⟨hnone, hnil⟩ | ⟨v, hv, hlist⟩ := optional_eq_ok_iff.1 hworkflows
  · rw [hnone, hnil]
    exact .nil
  · obtain ⟨l, hl, hall⟩ : ∃ l, v.tree.givenList? Tree.workflowListing = some l ∧
        List.Forall₂ WorkflowConfig.IsListedAs c.workflows l.items :=
      exists_givenList?_of_listOf (fun _ _ => WorkflowConfig.isListedAs_of_ofGraph) hlist
    rw [hv, Option.map_some, Option.bind_some, hl]
    exact hall

/-! ## Entries -/

/-- A test for the type of a sub-workflow does not depend on where it is made. -/
theorem TriggerConfig.IsListedAs.isSubworkflow {t : TriggerConfig} {l : TriggerListing}
    (h : t.IsListedAs l) : (t.type == .subworkflow) = l.isSubworkflow := by
  rw [TriggerListing.isSubworkflow, h.type]
  cases t.type <;> decide

/-- The trigger of a sub-workflow is that of its entry, with the same callers. -/
theorem map_calledBy_trigger? {c : ProjectConfig} (h : ProjectConfig.ofGraph g = .ok c)
    (subworkflow : Text) : (Check.CalledBy.trigger? c subworkflow).map (·.calledBy) =
      (g.tree.listing.entryOf? subworkflow).map (·.texts) := by
  have hworkflow := rel_find? (p := fun w => w.templateId == subworkflow)
    (q := (·.hasId subworkflow)) (ProjectConfig.isListedAs_of_ofGraph h) fun w l hwl => by
      rw [WorkflowListing.hasId, hwl.id]
      rfl
  unfold Check.CalledBy.trigger? ProjectConfig.workflow? Listing.entryOf?
  generalize c.workflows.find? _ = found at hworkflow
  generalize hfound' : (GivenList.all g.tree.listing).find? _ = found' at hworkflow
  cases hworkflow with
  | none => rfl
  | @some w l hwl =>
    have htrigger := rel_find? (p := fun t => t.type == .subworkflow)
      (q := (·.isSubworkflow)) hwl.triggers fun _ _ => TriggerConfig.IsListedAs.isSubworkflow
    rw [Option.bind_some, Option.bind_some]
    generalize w.triggerList.find? _ = trigger at htrigger
    generalize (GivenList.all l.triggers).find? _ = trigger' at htrigger
    cases htrigger with
    | none => rfl
    | some htl => exact congrArg some htl.callers.symm

end WorkflowLint
