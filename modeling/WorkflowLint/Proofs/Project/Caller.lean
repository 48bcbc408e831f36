import WorkflowLint.Project.Caller
import WorkflowLint.Proofs.Yaml.Graph

/-!
# Adding callers

Adding a caller to a configuration that has been read changes one list: the trigger that is found
for the sub-workflow lists one more caller, and everything else that is found in the configuration
stays what it was (`extendsCallers_of_add?`).  So there is nothing to add when the caller has been
added (`add?_of_add?`).
-/

namespace WorkflowLint.Caller

open Yaml (Graph ObjectId)

variable {g g' added : Graph} {id i trigger : ObjectId} {key t name subworkflow caller : Text}

/-! ## Finding triggers by number -/

/-- Whether the value of a key of the object with a number is the given text. -/
def hasTextAt (g : Graph) (key t : Text) (id : ObjectId) : Bool :=
  (g.valueAt? key id).any (g.isTextAt t)

/-- The numbers of the items of the list that a key of the object with a number has. -/
def itemsAt (g : Graph) (key : Text) (id : ObjectId) : List ObjectId :=
  ((g.valueAt? key id).map g.itemsAt).getD []

/-- The number of the trigger of a sub-workflow in the configuration with a number. -/
def triggerAt? (subworkflow : Text) (g : Graph) (id : ObjectId) : Option ObjectId :=
  ((itemsAt g "workflows" id).find? (hasTextAt g "workflow_template_id" subworkflow)).bind fun w =>
    (itemsAt g "triggers" w).find? (hasTextAt g "type" "subworkflow")

theorem hasText_rootedAt : hasText (g.rootedAt id) key t = hasTextAt g key t id := by
  unfold hasText hasTextAt
  rw [Graph.get?_rootedAt, Option.any_map]
  rfl

theorem itemsOf_rootedAt : itemsOf (g.rootedAt id) key = (itemsAt g key id).map g.rootedAt := by
  unfold itemsOf itemsAt
  rw [Graph.get?_rootedAt]
  cases g.valueAt? key id with
  | none => rfl
  | some v => exact Graph.getD_items?_rootedAt

theorem triggerOf?_rootedAt :
    triggerOf? subworkflow (g.rootedAt id) = (triggerAt? subworkflow g id).map g.rootedAt := by
  have hfind : ∀ key t (ids : List ObjectId), (ids.map g.rootedAt).find? (fun v => hasText v key t) =
      (ids.find? (hasTextAt g key t)).map g.rootedAt := by
    intro key t ids
    rw [List.find?_map]
    congr 2
    funext id
    exact hasText_rootedAt
  have htrigger : ∀ w, trigger? (g.rootedAt w) =
      ((itemsAt g "triggers" w).find? (hasTextAt g "type" "subworkflow")).map g.rootedAt := by
    intro w
    rw [trigger?, itemsOf_rootedAt, hfind]
  show ((itemsOf (g.rootedAt id) "workflows").find? _).bind trigger? = _
  rw [itemsOf_rootedAt, hfind, Option.bind_map, triggerAt?, Option.map_bind]
  congr 1
  funext w
  exact htrigger w

/-- A caller is added to a list of the trigger that is found if it is not in the list. -/
theorem add?_eq_some_iff :
    add? subworkflow caller g = some added ↔
      ∃ trigger, triggerAt? subworkflow g g.root = some trigger ∧
        (∀ id ∈ itemsAt g "called_by" trigger, g.isTextAt caller id = false) ∧
        setCallers trigger (itemsAt g "called_by" trigger) caller g = added := by
  have hroot : triggerOf? subworkflow (g.rootedAt g.root) =
    (triggerAt? subworkflow g g.root).map g.rootedAt := triggerOf?_rootedAt
  change triggerOf? subworkflow g = _ at hroot
  unfold add?
  rw [hroot]
  cases htrigger : triggerAt? subworkflow g g.root with
  | none => simp
  | some trigger =>
    have hlisted : (itemsOf (g.rootedAt trigger) "called_by").map (·.root) =
        itemsAt g "called_by" trigger := by
      rw [itemsOf_rootedAt, List.map_map]
      exact List.map_id' _
    have hany : ((itemsOf (g.rootedAt trigger) "called_by").any fun v => v.isText caller) =
        (itemsAt g "called_by" trigger).any (g.isTextAt caller) := by
      rw [itemsOf_rootedAt, List.any_map]
      rfl
    simp only [Option.map_some, bind, Option.bind_some, hlisted, hany]
    simp only [Option.some.injEq, exists_eq_left']
    split
    · next hlists =>
      obtain ⟨last, hmem, htext⟩ := List.any_eq_true.1 hlists
      simp only [reduceCtorEq, false_iff, not_and]
      intro hnone
      rw [hnone last hmem] at htext
      exact absurd htext Bool.false_ne_true
    · next hlacks =>
      refine Option.some_inj.trans (iff_and_self.2 fun _ id hid => ?_)
      exact Bool.eq_false_iff.2 fun htext => hlacks (List.any_eq_true.2 ⟨id, hid, htext⟩)

/-- There is nothing to add to what is no mapping. -/
theorem add?_of_not_mapping (h : g.object.isMapping = false) : add? subworkflow caller g = none := by
  have hvalue : g.valueAt? "workflows" g.root = none := by
    unfold Graph.valueAt?
    unfold Graph.object at h
    cases hobject : g.objectAt g.root with
    | mapping entries =>
      rw [hobject] at h
      cases h
    | _ => rfl
  rw [Option.eq_none_iff_forall_ne_some]
  intro added hadd
  obtain ⟨trigger, htrigger, -, -⟩ := add?_eq_some_iff.1 hadd
  simp [triggerAt?, itemsAt, hvalue] at htrigger

/-! ## What adding a caller changes -/

/-- Of what is found in a graph, another one has all but the value of one key of one mapping: under
that it has a list with one more text at the end. -/
structure ExtendsCallers (trigger : ObjectId) (caller : Text) (g g' : Graph) : Prop where
  root : g'.root = g.root
  isTextAt : ∀ t, ∀ i < g.objects.size, g'.isTextAt t i = g.isTextAt t i
  itemsAt : ∀ i < g.objects.size, g'.itemsAt i = g.itemsAt i
  valueAt? : ∀ name : Text, ∀ i < g.objects.size, (i ≠ trigger ∨ name ≠ "called_by") →
    g'.valueAt? name i = g.valueAt? name i
  callers : ∃ last, Caller.itemsAt g' "called_by" trigger =
    Caller.itemsAt g "called_by" trigger ++ [last] ∧ g'.isTextAt caller last = true

/-- To list one more caller, its text, a key and a list are added, and then the key is given the list
as its value. -/
theorem exists_setCallers_eq (g : Graph) (trigger : ObjectId) (listed : List ObjectId)
    (caller : Text) :
    ∃ full key last list, g.Extends full ∧ full.root = g.root ∧
      full.atomAt key = .string "called_by" ∧ full.objectAt last = .atom (.string caller) ∧
      full.objectAt list = .list (listed ++ [last]) ∧
      setCallers trigger listed caller g = full.setEntry trigger key list := by
  let keyed := g.addAtom (.string "called_by")
  let called := keyed.1.addAtom (.string caller)
  let full := called.1.add (.list (listed ++ [called.2]))
  have hkeyed : g.Extends keyed.1 := Graph.extends_add _ _
  have hcalled : keyed.1.Extends called.1 := Graph.extends_add _ _
  have hfull : called.1.Extends full.1 := Graph.extends_add _ _
  have hkey : full.1.objectAt keyed.2 = .atom (.string "called_by") :=
    ((hcalled.trans hfull).2 _ (Graph.lt_add_self _ _)).trans (Graph.objectAt_add_self _ _)
  have hlast : full.1.objectAt called.2 = .atom (.string caller) :=
    (hfull.2 _ (Graph.lt_add_self _ _)).trans (Graph.objectAt_add_self _ _)
  refine ⟨full.1, keyed.2, called.2, full.2, hkeyed.trans (hcalled.trans hfull), rfl, ?_,
    hlast, Graph.objectAt_add_self _ _, rfl⟩
  rw [Graph.atomAt, hkey]
  rfl

theorem extendsCallers_setCallers (hg : g.Closed) {entries : List (ObjectId × ObjectId)}
    (htrigger : g.objectAt trigger = .mapping entries) :
    ExtendsCallers trigger caller g
      (setCallers trigger (itemsAt g "called_by" trigger) caller g) := by
  obtain ⟨full, key, last, list, hext, hroot, hkey, hlast, hlist, heq⟩ :=
    exists_setCallers_eq g trigger (itemsAt g "called_by" trigger) caller
  have hfull : full.objectAt trigger = .mapping entries :=
    (hext.2 trigger (Graph.lt_of_objectAt_mapping htrigger)).trans htrigger
  rw [heq]
  exact {
    root := Graph.root_setEntry.trans hroot
    isTextAt := fun t i hi =>
      (Graph.isTextAt_setEntry hfull).trans (Graph.isTextAt_of_extends hext hi)
    itemsAt := fun i hi => (Graph.itemsAt_setEntry hfull).trans (Graph.itemsAt_of_extends hext hi)
    valueAt? := fun name i hi hother => by
      rw [Graph.valueAt?_setEntry hfull hkey,
        if_neg fun h => hother.elim (absurd h.1) (absurd h.2)]
      exact Graph.valueAt?_of_extends hg hext hi
    callers := by
      refine ⟨last, ?_, ?_⟩
      · rw [itemsAt, Graph.valueAt?_setEntry hfull hkey, if_pos ⟨rfl, rfl⟩, Option.map_some,
          Option.getD_some, Graph.itemsAt_setEntry hfull, Graph.itemsAt, hlist]
      · rw [Graph.isTextAt_setEntry hfull, Graph.isTextAt, hlast]
        simp [Yaml.Object.atom?, Yaml.Atom.isText, Yaml.Atom.text?] }

theorem lt_of_mem_itemsAt (hg : g.Closed) (hi : i ∈ itemsAt g key id) : i < g.objects.size := by
  unfold itemsAt at hi
  cases hvalue : g.valueAt? key id with
  | none => simp [hvalue] at hi
  | some v => exact hg.lt_of_mem_itemsAt (by simpa [hvalue] using hi)

theorem triggerAt?_of_extendsCallers (hg : g.Closed) (h : ExtendsCallers trigger caller g g') :
    triggerAt? subworkflow g' g'.root = triggerAt? subworkflow g g.root := by
  have hitems : ∀ key : Text, key ≠ "called_by" → ∀ i < g.objects.size,
      itemsAt g' key i = itemsAt g key i := by
    intro key hkey i hi
    unfold itemsAt
    rw [h.valueAt? key i hi (.inr hkey)]
    cases hvalue : g.valueAt? key i with
    | none => rfl
    | some v => exact h.itemsAt v (hg.lt_of_valueAt? hvalue)
  have htext : ∀ key t : Text, key ≠ "called_by" → ∀ i < g.objects.size,
      hasTextAt g' key t i = hasTextAt g key t i := by
    intro key t hkey i hi
    unfold hasTextAt
    rw [h.valueAt? key i hi (.inr hkey)]
    cases hvalue : g.valueAt? key i with
    | none => rfl
    | some v => exact h.isTextAt t v (hg.lt_of_valueAt? hvalue)
  have hfind : ∀ key key' t : Text, key ≠ "called_by" → key' ≠ "called_by" → ∀ i < g.objects.size,
      (itemsAt g' key i).find? (hasTextAt g' key' t) =
        (itemsAt g key i).find? (hasTextAt g key' t) := by
    intro key key' t hkey hkey' i hi
    rw [hitems key hkey i hi]
    exact List.find?_congr fun j hj => htext key' t hkey' j (lt_of_mem_itemsAt hg hj)
  unfold triggerAt?
  rw [h.root, hfind _ _ _ (by decide) (by decide) _ hg.root]
  cases hw : (itemsAt g "workflows" g.root).find?
      (hasTextAt g "workflow_template_id" subworkflow) with
  | none => rfl
  | some w =>
    have hlt := lt_of_mem_itemsAt hg (List.mem_of_find?_eq_some hw)
    exact hfind _ _ _ (by decide) (by decide) w hlt

/-- Adding a caller changes the list of the trigger that is found, and nothing else. -/
theorem extendsCallers_of_add? (hg : g.Closed) (h : add? subworkflow caller g = some added) :
    ∃ trigger, triggerAt? subworkflow g g.root = some trigger ∧
      ExtendsCallers trigger caller g added := by
  obtain ⟨trigger, htrigger, -, rfl⟩ := add?_eq_some_iff.1 h
  refine ⟨trigger, htrigger, ?_⟩
  -- a trigger has a type, so that it is a mapping
  obtain ⟨w, -, hfound⟩ := Option.bind_eq_some_iff.1 htrigger
  have htype := List.find?_some hfound
  unfold hasTextAt Graph.valueAt? at htype
  cases hobject : g.objectAt trigger with
  | mapping entries => exact extendsCallers_setCallers hg hobject
  | _ => simp [hobject] at htype

/-- There is nothing to add once a caller has been added. -/
theorem add?_of_add? (hg : g.Closed) (h : add? subworkflow caller g = some added) :
    add? subworkflow caller added = none := by
  obtain ⟨trigger, htrigger, hadded⟩ := extendsCallers_of_add? hg h
  obtain ⟨last, hcallers, hlast⟩ := hadded.callers
  by_contra hsome
  obtain ⟨again, hagain⟩ := Option.ne_none_iff_exists'.1 hsome
  obtain ⟨trigger', htrigger', hnone, -⟩ := add?_eq_some_iff.1 hagain
  rw [triggerAt?_of_extendsCallers hg hadded, htrigger] at htrigger'
  obtain rfl := Option.some.inj htrigger'
  have hmem : last ∈ itemsAt added "called_by" trigger := by
    rw [hcallers]
    exact List.mem_append_right _ (List.mem_singleton.2 rfl)
  rw [hnone last hmem] at hlast
  exact Bool.false_ne_true hlast

end WorkflowLint.Caller
