import WorkflowLint.Proofs.Project.Caller
import WorkflowLint.Proofs.Yaml.Tree

/-!
# Callers that are added in several places

Read as a tree, a configuration to which a caller is added should change in one place: the trigger that
is found for the sub-workflow lists one more caller (`Tree.addCaller`).  The trigger that is written is
one object, however, and an anchor can make it occur at several places.  So exactly the configurations in
which that trigger occurs once change in no other place (`tree_eq_addCaller_iff`).
-/

namespace WorkflowLint

open Yaml (Graph ObjectId Tree ReadsAs)

/-! ## One more caller in a tree -/

namespace Yaml.Tree

/-- A trigger that lists one more caller; what is no list counts as an empty one. -/
def listCaller (caller : Text) (trigger : Tree) : Tree :=
  let listed := ((trigger.value? "called_by").map items).getD []
  trigger.setValue "called_by" (ofItems (listed ++ [text caller]))

/-- Whether the value of a key is the given text. -/
def hasText (key t : Text) (T : Tree) : Bool := (T.value? key).any (isText t)

/-- A configuration in which the first trigger that makes a workflow a sub-workflow, of the first
workflow with an id, lists one more caller. -/
def addCaller (subworkflow caller : Text) (configuration : Tree) : Tree :=
  configuration.modifyValue "workflows" fun workflows =>
    workflows.modifyItem (hasText "workflow_template_id" subworkflow) fun workflow =>
      workflow.modifyValue "triggers" fun triggers =>
        triggers.modifyItem (hasText "type" "subworkflow") (listCaller caller)

end Yaml.Tree

namespace Caller

variable {g g' added : Graph} {id i trigger : ObjectId} {key t name subworkflow caller : Text}
  {place : List Nat}

/-! ## What is written for a trigger -/

/-- Where the list of callers stands in the mapping of a trigger, and the objects it is made of. -/
structure Slot where
  before : List (ObjectId × ObjectId)
  old : List (ObjectId × ObjectId)
  after : List (ObjectId × ObjectId)
  key : ObjectId
  list : ObjectId
  last : ObjectId

variable {slot : Slot}

/-- A graph is another one in which a trigger lists one more caller, wherever the trigger occurs. -/
structure Added (slot : Slot) (trigger : ObjectId) (caller : Text) (g g' : Graph) : Prop where
  root : g'.root = g.root
  objectAt : ∀ i < g.objects.size, i ≠ trigger → g'.objectAt i = g.objectAt i
  trigger_before : g.objectAt trigger = .mapping (slot.before ++ slot.old ++ slot.after)
  trigger_after : g'.objectAt trigger = .mapping (slot.before ++ (slot.key, slot.list) :: slot.after)
  before : ∀ e ∈ slot.before, (g.atomAt e.1).isText "called_by" = false
  old : (∃ v, slot.old = [(slot.key, v)] ∧ (g.atomAt slot.key).isText "called_by" = true) ∨
    slot.old = [] ∧ slot.after = [] ∧ g'.objectAt slot.key = .atom (.string "called_by")
  list : g'.objectAt slot.list = .list (itemsAt g "called_by" trigger ++ [slot.last])
  last : g'.objectAt slot.last = .atom (.string caller)

/-- A key is given a value in its place or at the end. -/
theorem setIn_cases {full : Graph} {k v : ObjectId} (hk : full.atomAt k = .string name)
    (entries : List (ObjectId × ObjectId)) :
    ∃ before old after key, entries = before ++ old ++ after ∧
      full.setIn k v entries = before ++ (key, v) :: after ∧
      (∀ e ∈ before, (full.atomAt e.1).isText name = false) ∧
      ((∃ w, old = [(key, w)] ∧ (full.atomAt key).isText name = true) ∨
        old = [] ∧ after = [] ∧ key = k) := by
  induction entries with
  | nil => exact ⟨[], [], [], k, rfl, rfl, by simp, .inr ⟨rfl, rfl, rfl⟩⟩
  | cons e entries ih =>
    unfold Graph.setIn
    rw [hk, Graph.sameKey_string]
    split
    · next hsame => exact ⟨[], [e], entries, e.1, rfl, rfl, by simp, .inl ⟨e.2, rfl, hsame⟩⟩
    · next hdiff =>
      obtain ⟨before, old, after, key, rfl, hset, hbefore, hcases⟩ := ih
      refine ⟨e :: before, old, after, key, rfl, by rw [hset]; rfl, ?_, hcases⟩
      exact List.forall_mem_cons.2 ⟨by simpa using hdiff, hbefore⟩

theorem objectAt_of_atomAt (h : (g.atomAt id).isText t = true) :
    g.objectAt id = .atom (.string t) := by
  unfold Graph.atomAt at h
  cases hobject : g.objectAt id with
  | atom a =>
    have htext : a.text? = some t := by simpa [hobject, Yaml.Object.atom?, Yaml.Atom.isText] using h
    cases a with
    | string s =>
      obtain rfl : s = t := Option.some.inj htext
      rfl
    | _ => cases htext
  | _ => simp [hobject, Yaml.Object.atom?, Yaml.Atom.isText, Yaml.Atom.text?] at h

theorem exists_mapping_of_triggerAt? (h : triggerAt? subworkflow g id = some trigger) :
    ∃ entries, g.objectAt trigger = .mapping entries := by
  -- a trigger has a type, so that it is a mapping
  obtain ⟨w, -, hfound⟩ := Option.bind_eq_some_iff.1 h
  have htype := List.find?_some hfound
  unfold hasTextAt Graph.valueAt? at htype
  cases hobject : g.objectAt trigger with
  | mapping entries => exact ⟨entries, rfl⟩
  | _ => simp [hobject] at htype

theorem added_of_add? (hg : g.Closed) (h : add? subworkflow caller g = some added) :
    ∃ trigger slot, triggerAt? subworkflow g g.root = some trigger ∧
      Added slot trigger caller g added := by
  obtain ⟨trigger, htrigger, -, rfl⟩ := add?_eq_some_iff.1 h
  obtain ⟨entries, hobject⟩ := exists_mapping_of_triggerAt? htrigger
  obtain ⟨full, k, last, list, hext, hroot, hk, hlast, hlist, heq⟩ :=
    exists_setCallers_eq g trigger (itemsAt g "called_by" trigger) caller
  have hfull : full.objectAt trigger = .mapping entries :=
    (hext.2 trigger (Graph.lt_of_objectAt_mapping hobject)).trans hobject
  have hset : ∀ i, (full.setEntry trigger k list).objectAt i =
      if i = trigger then .mapping (full.setIn k list entries) else full.objectAt i :=
    fun i => Graph.objectAt_setEntry hfull
  have hother : ∀ {i o}, full.objectAt i = o → (∀ es, o ≠ .mapping es) →
      (full.setEntry trigger k list).objectAt i = o := by
    rintro i o ho hne
    rw [hset, if_neg, ho]
    rintro rfl
    exact hne _ (ho.symm.trans hfull)
  have hatom : ∀ e ∈ entries, full.atomAt e.1 = g.atomAt e.1 := by
    intro e he
    rw [Graph.atomAt, hext.2 e.1 (hg.pairsBelow hobject e he).1, Graph.atomAt]
  obtain ⟨before, old, after, key, rfl, hin, hbefore, hcases⟩ := setIn_cases hk entries
  refine ⟨trigger, ⟨before, old, after, key, list, last⟩, htrigger, ?_⟩
  rw [heq]
  exact {
    root := Graph.root_setEntry.trans hroot
    objectAt := fun i hi hne => by
      rw [hset, if_neg hne]
      exact hext.2 i hi
    trigger_before := hobject
    trigger_after := by rw [hset, if_pos rfl, hin]
    before := fun e he => by
      rw [← hatom e (by simp [he])]
      exact hbefore e he
    old := by
      obtain ⟨w, rfl, hkey⟩ | ⟨rfl, rfl, rfl⟩ := hcases
      · refine .inl ⟨w, rfl, ?_⟩
        rw [← hatom (key, w) (by simp)]
        exact hkey
      · have hkey : (full.atomAt key).isText "called_by" = true := by
          rw [hk]
          rfl
        exact .inr ⟨rfl, rfl, hother (objectAt_of_atomAt hkey) (by simp)⟩
    list := hother hlist (by simp)
    last := hother hlast (by simp) }

/-- The value of a name is that of the first key with the name. -/
theorem valueAt?_of_mapping {before after : List (ObjectId × ObjectId)} {k value : ObjectId}
    (hbefore : ∀ e ∈ before, (g.atomAt e.1).isText name = false)
    (hkey : (g.atomAt k).isText name = true)
    (hobject : g.objectAt id = .mapping (before ++ [(k, value)] ++ after)) :
    g.valueAt? name id = some value := by
  have hnone : before.find? (fun e => (g.atomAt e.1).isText name) = none :=
    List.find?_eq_none.2 fun e he => by simp [hbefore e he]
  rw [Graph.valueAt?, hobject]
  simp [Graph.find?, hnone, hkey]

theorem getElem?_parts_mapping {entries : List (ObjectId × ObjectId)} {n : Nat}
    {e : ObjectId × ObjectId} (h : entries[n]? = some e) :
    (Yaml.Object.mapping entries).parts[2 * n + 1]? = some e.2 := by
  rw [Yaml.Object.parts, (Tree.getElem_pairs _ _).2, h]
  rfl

section

variable (h : Added slot trigger caller g g') (hg : g.Closed)
include h

theorem Added.getElem?_parts_before {v : ObjectId} (hold : slot.old = [(slot.key, v)]) :
    (g.objectAt trigger).parts[2 * slot.before.length + 1]? = some v := by
  rw [h.trigger_before, hold]
  exact getElem?_parts_mapping (e := (slot.key, v)) (by simp)

theorem Added.getElem?_parts_after :
    (g'.objectAt trigger).parts[2 * slot.before.length + 1]? = some slot.list := by
  rw [h.trigger_after]
  exact getElem?_parts_mapping (e := (slot.key, slot.list)) (by simp)

theorem Added.list_ne : slot.list ≠ trigger := by
  rintro heq
  have hlist := h.list
  rw [heq, h.trigger_after] at hlist
  cases hlist

/-- The tree of the trigger is another one, and where it differs the trigger does not occur before. -/
theorem Added.exists_ne : ∃ place, g'.treeAt trigger place ≠ g.treeAt trigger place ∧
    ∀ place', place' <+: place → place' ≠ [] → g'.follow? trigger place' ≠ some trigger := by
  obtain ⟨v, hold, htext⟩ | ⟨hold, hafter, -⟩ := h.old
  · -- the list of callers is longer
    have hv := h.getElem?_parts_before hold
    have hpart := h.getElem?_parts_after
    have hlisted : itemsAt g "called_by" trigger = g.itemsAt v := by
      unfold itemsAt
      rw [valueAt?_of_mapping h.before htext (hold ▸ h.trigger_before)]
      rfl
    refine ⟨[2 * slot.before.length + 1], fun heq => ?_, fun place' hprefix hne hfollow => ?_⟩
    · have hshape : (g'.objectAt slot.list).shape = (g.objectAt v).shape := by
        simpa [Graph.treeAt, Graph.follow?, hv, hpart] using heq
      rw [h.list, hlisted] at hshape
      unfold Graph.itemsAt at hshape
      cases hobject : g.objectAt v <;> simp [hobject, Yaml.Object.shape] at hshape
    · obtain ⟨n, rest, rfl⟩ := List.exists_cons_of_ne_nil hne
      obtain ⟨rfl, hrest⟩ := List.cons_prefix_cons.1 hprefix
      obtain rfl := List.prefix_nil.1 hrest
      obtain ⟨j, hj, hfollow⟩ := Graph.follow?_cons.1 hfollow
      obtain rfl := Option.some.inj (hpart.symm.trans hj)
      exact h.list_ne (Option.some.inj hfollow)
  · -- there is one key more
    refine ⟨[], ?_, fun place' hprefix hne => absurd (List.prefix_nil.1 hprefix) hne⟩
    simp [Graph.treeAt, Graph.follow?, h.trigger_before, h.trigger_after, hold, hafter,
      Yaml.Object.shape]

/-- The key of the list was there before, or it is new. -/
theorem Added.objectAt_key : g'.objectAt slot.key = .atom (.string "called_by") := by
  obtain ⟨v, hold, htext⟩ | ⟨-, -, hkey⟩ := h.old
  · have hobject := objectAt_of_atomAt htext
    have hne : slot.key ≠ trigger := by
      rintro heq
      rw [heq, h.trigger_before] at hobject
      cases hobject
    have hlt : slot.key < g.objects.size := by
      refine Nat.lt_of_not_le fun hle => ?_
      rw [Graph.objectAt_of_le hle] at hobject
      cases hobject
    rw [h.objectAt _ hlt hne, hobject]
  · exact hkey

theorem Added.lacks_of_atom {a : Yaml.Atom} (hi : g'.objectAt i = .atom a) : g'.Lacks i trigger := by
  refine Graph.lacks_iff.2 ⟨?_, by simp [hi, Yaml.Object.parts]⟩
  rintro rfl
  rw [h.trigger_after] at hi
  cases hi

/-- The trigger occurs in itself if it occurs in one of the entries that stay or in a caller that was
listed before. -/
theorem Added.forall_follow?_iff :
    (∀ place, g'.follow? trigger place = some trigger → place = []) ↔
      (∀ e ∈ slot.before ++ slot.after, g'.Lacks e.1 trigger ∧ g'.Lacks e.2 trigger) ∧
        ∀ i ∈ itemsAt g "called_by" trigger, g'.Lacks i trigger := by
  have hkey : g'.Lacks slot.key trigger := h.lacks_of_atom h.objectAt_key
  have hlast : g'.Lacks slot.last trigger := h.lacks_of_atom h.last
  have hlist : g'.Lacks slot.list trigger ↔
      ∀ i ∈ itemsAt g "called_by" trigger, g'.Lacks i trigger := by
    rw [Graph.lacks_iff, h.list]
    simp only [Yaml.Object.parts, List.forall_mem_append, List.forall_mem_singleton]
    exact ⟨fun hparts => hparts.2.1, fun hparts => ⟨h.list_ne, hparts, hlast⟩⟩
  rw [Graph.forall_follow?_self_iff, h.trigger_after, ← hlist]
  simp only [Yaml.Object.parts, List.forall_mem_flatMap, List.forall_mem_append,
    List.forall_mem_cons, List.not_mem_nil, false_imp_iff, implies_true, and_true, hkey, true_and]
  constructor
  · rintro ⟨hbefore, hlist, hafter⟩
    exact ⟨⟨hbefore, hafter⟩, hlist⟩
  · rintro ⟨⟨hbefore, hafter⟩, hlist⟩
    exact ⟨hbefore, hlist, hafter⟩

/-- The trigger as a tree, with one more caller. -/
theorem Added.treeAt_after : g'.treeAt trigger = .ofEntries (g'.treesOf slot.before ++
    (.text "called_by", .ofItems ((itemsAt g "called_by" trigger).map g'.treeAt ++ [.text caller])) ::
      g'.treesOf slot.after) := by
  have hkey : g'.treeAt slot.key = .text "called_by" := Graph.treeAt_atom h.objectAt_key
  have hlast : g'.treeAt slot.last = .text caller := Graph.treeAt_atom h.last
  rw [Graph.treeAt_mapping h.trigger_after, Graph.treesOf, List.map_append, List.map_cons, hkey,
    Graph.treeAt_list h.list, List.map_append, List.map_singleton, hlast]
  rfl

omit h in
/-- The items of the list that a key has, as trees. -/
theorem items_value?_treeAt : (((g.treeAt id).value? key).map Tree.items).getD [] =
    (itemsAt g key id).map g.treeAt := by
  unfold itemsAt
  rw [Graph.value?_treeAt]
  cases g.valueAt? key id with
  | none => rfl
  | some v => exact Graph.items_treeAt

/-- Listing one more caller in the tree of the trigger. -/
theorem Added.listCaller_treeAt : (g.treeAt trigger).listCaller caller =
    .ofEntries (g.treesOf slot.before ++
      (.text "called_by", .ofItems ((itemsAt g "called_by" trigger).map g.treeAt ++ [.text caller])) ::
        g.treesOf slot.after) := by
  have hbefore : ∀ e ∈ g.treesOf slot.before, e.1.isText "called_by" = false := by
    intro e he
    obtain ⟨e, hmem, rfl⟩ := List.mem_map.1 he
    rw [Graph.isText_treeAt_atomAt]
    exact h.before e hmem
  have hentries : (g.treeAt trigger).entries =
      g.treesOf slot.before ++ (g.treesOf slot.old ++ g.treesOf slot.after) := by
    rw [Graph.treeAt_mapping h.trigger_before, Tree.entries_ofEntries]
    simp [Graph.treesOf]
  have hdef : (g.treeAt trigger).listCaller caller = .ofEntries (Tree.setIn "called_by" (.ofItems
      ((((g.treeAt trigger).value? "called_by").map Tree.items).getD [] ++ [.text caller]))
        (g.treeAt trigger).entries) := rfl
  rw [hdef, items_value?_treeAt, hentries, Tree.setIn_append hbefore]
  obtain ⟨v, hold, htext⟩ | ⟨hold, hafter, -⟩ := h.old
  · have hkey : g.treeAt slot.key = .text "called_by" :=
      Graph.treeAt_atom (objectAt_of_atomAt htext)
    have hsame : (Tree.text "called_by").isText "called_by" = true := rfl
    simp [hold, Graph.treesOf, Tree.setIn, hkey, hsame]
  · simp [hold, hafter, Graph.treesOf, Tree.setIn]

include hg

/-- Where the trigger has not been passed a tree stays as it is. -/
theorem Added.treeAt_apply (hid : id < g.objects.size)
    (hnever : ∀ place', place' <+: place → g'.follow? id place' ≠ some trigger) :
    g'.treeAt id place = g.treeAt id place := by
  induction place generalizing id with
  | nil =>
    have hne : id ≠ trigger := fun heq => hnever [] List.nil_prefix (congrArg some heq)
    simp only [Graph.treeAt, Graph.follow?, Option.map_some, h.objectAt id hid hne]
  | cons i place ih =>
    have hne : id ≠ trigger := fun heq => hnever [] List.nil_prefix (congrArg some heq)
    have hobject := h.objectAt id hid hne
    cases hj : (g.objectAt id).parts[i]? with
    | none => simp [Graph.treeAt, Graph.follow?, hobject, hj]
    | some j =>
      have hj' : (g'.objectAt id).parts[i]? = some j := by rw [hobject, hj]
      have hrest : ∀ place', place' <+: place → g'.follow? j place' ≠ some trigger :=
        fun place' hprefix hfollow => hnever (i :: place') (List.cons_prefix_cons.2 ⟨rfl, hprefix⟩)
          (Graph.follow?_cons.2 ⟨j, hj', hfollow⟩)
      have hih := ih (hg.parts id j (List.mem_of_getElem? hj)) hrest
      have hleft := congrFun (Graph.part_treeAt hj') place
      have hright := congrFun (Graph.part_treeAt hj) place
      exact hleft.trans (hih.trans hright.symm)

/-- The tree of an object stays as it is exactly if the trigger does not occur in it. -/
theorem Added.treeAt_eq_iff (hid : id < g.objects.size) :
    g'.treeAt id = g.treeAt id ↔ g'.Lacks id trigger := by
  constructor
  · intro heq place
    induction place generalizing id with
    | nil =>
      intro hfollow
      obtain rfl : id = trigger := Option.some.inj hfollow
      obtain ⟨place, hne, -⟩ := h.exists_ne
      exact hne (congrFun heq place)
    | cons i place ih =>
      intro hfollow
      have hne : id ≠ trigger := by
        rintro rfl
        obtain ⟨place, hne, -⟩ := h.exists_ne
        exact hne (congrFun heq place)
      obtain ⟨j, hj, hfollow⟩ := Graph.follow?_cons.1 hfollow
      have hpart := Graph.part_treeAt hj
      rw [h.objectAt id hid hne] at hj
      rw [heq, Graph.part_treeAt hj] at hpart
      exact ih (hg.parts id j (List.mem_of_getElem? hj)) hpart.symm hfollow
  · intro hlacks
    funext place
    exact h.treeAt_apply hg hid fun place' _ => hlacks place'

theorem Added.treesOf_eq_iff {entries : List (ObjectId × ObjectId)}
    (hentries : ∀ e ∈ entries, e.1 < g.objects.size ∧ e.2 < g.objects.size) :
    g'.treesOf entries = g.treesOf entries ↔
      ∀ e ∈ entries, g'.Lacks e.1 trigger ∧ g'.Lacks e.2 trigger := by
  unfold Graph.treesOf
  rw [List.map_inj_left]
  refine forall₂_congr fun e he => ?_
  rw [Prod.mk.injEq, h.treeAt_eq_iff hg (hentries e he).1, h.treeAt_eq_iff hg (hentries e he).2]

/-- The trigger lists one more caller, and nothing else in it changes, exactly if it does not occur
inside itself. -/
theorem Added.treeAt_trigger_iff :
    g'.treeAt trigger = (g.treeAt trigger).listCaller caller ↔
      ∀ place, g'.follow? trigger place = some trigger → place = [] := by
  have hpairs := hg.pairsBelow h.trigger_before
  have hkept : ∀ entries, (∀ e ∈ entries, e ∈ slot.before ++ slot.old ++ slot.after) →
      (g'.treesOf entries = g.treesOf entries ↔
        ∀ e ∈ entries, g'.Lacks e.1 trigger ∧ g'.Lacks e.2 trigger) :=
    fun entries hentries => h.treesOf_eq_iff hg fun e he => hpairs e (hentries e he)
  have hbefore := hkept slot.before (by simp +contextual)
  have hafter := hkept slot.after (by simp +contextual)
  have hlisted : (itemsAt g "called_by" trigger).map g'.treeAt =
      (itemsAt g "called_by" trigger).map g.treeAt ↔
        ∀ i ∈ itemsAt g "called_by" trigger, g'.Lacks i trigger := by
    rw [List.map_inj_left]
    exact forall₂_congr fun i hi => h.treeAt_eq_iff hg (lt_of_mem_itemsAt hg hi)
  rw [h.forall_follow?_iff, h.treeAt_after, h.listCaller_treeAt, Tree.ofEntries_inj,
    List.forall_mem_append, ← hbefore, ← hafter, ← hlisted]
  constructor
  · intro heq
    obtain ⟨hleft, hright⟩ := List.append_inj heq (by simp [Graph.treesOf])
    obtain ⟨hlist, hrest⟩ := List.cons.inj hright
    have hitems := Tree.ofItems_inj.1 (Prod.mk.inj hlist).2
    exact ⟨⟨hleft, hrest⟩, List.append_cancel_right hitems⟩
  · rintro ⟨⟨hleft, hright⟩, hitems⟩
    rw [hleft, hright, hitems]

/-- Only one place changes exactly if the trigger occurs nowhere else. -/
theorem Added.treeAt_modifyAt_iff (hid : id < g.objects.size)
    (hplace : g'.follow? id place = some trigger) :
    g'.treeAt id = (g.treeAt id).modifyAt place (Tree.listCaller caller) ↔
      ∀ place', g'.follow? id place' = some trigger → place' = place := by
  induction place generalizing id with
  | nil =>
    obtain rfl : id = trigger := Option.some.inj hplace
    exact h.treeAt_trigger_iff hg
  | cons i place ih =>
    by_cases hne : id = trigger
    · -- the trigger occurs in itself
      subst hne
      refine iff_of_false (fun heq => ?_) fun hunique =>
        List.cons_ne_nil i place (hunique [] rfl).symm
      obtain ⟨place', hdiff, hbefore⟩ := h.exists_ne
      have hprefix : ¬ i :: place <+: place' := fun hprefix =>
        hbefore _ hprefix (List.cons_ne_nil i place) hplace
      exact hdiff ((congrFun heq place').trans (Tree.modifyAt_of_not_isPrefix hprefix))
    · have hobject := h.objectAt id hid hne
      obtain ⟨j, hj, hfollow⟩ := Graph.follow?_cons.1 hplace
      have hj' := hobject ▸ hj
      have hih := ih (hg.parts id j (List.mem_of_getElem? hj')) hfollow
      have hother : ∀ k, (g'.treeAt id).part k = (g.treeAt id).part k ↔
          ∀ place', g'.follow? id (k :: place') ≠ some trigger := by
        intro k
        cases hk : (g.objectAt id).parts[k]? with
        | none =>
          have hk' : (g'.objectAt id).parts[k]? = none := by rw [hobject, hk]
          rw [Graph.part_treeAt_eq_none hk, Graph.part_treeAt_eq_none hk']
          exact iff_of_true rfl fun place' => by simp [Graph.follow?, hk']
        | some l =>
          have hk' : (g'.objectAt id).parts[k]? = some l := by rw [hobject, hk]
          rw [Graph.part_treeAt hk, Graph.part_treeAt hk',
            h.treeAt_eq_iff hg (hg.parts id l (List.mem_of_getElem? hk))]
          simp [Graph.Lacks, Graph.follow?, hk']
      have hroot : g'.treeAt id [] = g.treeAt id [] := by
        simp only [Graph.treeAt, Graph.follow?, Option.map_some, hobject]
      rw [Tree.eq_modifyAt_cons_iff, Graph.part_treeAt hj, Graph.part_treeAt hj', hih]
      constructor
      · rintro ⟨-, hinside, houtside⟩ place' hplace'
        cases place' with
        | nil => exact absurd (Option.some.inj hplace') hne
        | cons k place' =>
          by_cases hk : k = i
          · subst hk
            obtain ⟨l, hl, hfollow'⟩ := Graph.follow?_cons.1 hplace'
            obtain rfl := Option.some.inj (hj.symm.trans hl)
            rw [hinside place' hfollow']
          · exact absurd hplace' ((hother k).1 (houtside k hk) place')
      · intro hunique
        refine ⟨hroot, fun place' hplace' => ?_, fun k hk => (hother k).2 fun place' hplace' => ?_⟩
        · exact (List.cons.inj (hunique _ (Graph.follow?_cons.2 ⟨j, hj, hplace'⟩))).2
        · exact hk (List.cons.inj (hunique _ hplace')).1

/-! ## Where the trigger is found -/

omit h hg in
theorem hasText_treeAt : Tree.hasText key t (g.treeAt i) = hasTextAt g key t i := by
  unfold Tree.hasText hasTextAt
  rw [Graph.value?_treeAt, Option.any_map]
  congr 1
  funext v
  exact Graph.isText_treeAt

omit hg in
/-- The value of another key stays where it is. -/
theorem Added.getElem?_parts_mapping {entries : List (ObjectId × ObjectId)} {n : Nat}
    {e : ObjectId × ObjectId} (hid : g.objectAt id = .mapping entries) (he : entries[n]? = some e)
    (hname : (g.atomAt e.1).isText name = true) (hother : name ≠ "called_by") :
    (g'.objectAt id).parts[2 * n + 1]? = some e.2 := by
  by_cases hne : id = trigger
  · subst hne
    rw [h.trigger_after]
    refine Caller.getElem?_parts_mapping ?_
    obtain rfl := Yaml.Object.mapping.inj (hid.symm.trans h.trigger_before)
    by_cases hlt : n < slot.before.length
    · rw [List.append_assoc, List.getElem?_append_left hlt] at he
      rw [List.getElem?_append_left hlt, he]
    · obtain ⟨m, rfl⟩ := Nat.exists_eq_add_of_le (Nat.le_of_not_lt hlt)
      obtain ⟨v, hold, htext⟩ | ⟨hold, hafter, -⟩ := h.old
      · rw [hold, List.append_assoc] at he
        cases m with
        | zero =>
          -- here stands the old list
          obtain rfl : (slot.key, v) = e := by simpa using he
          have hsame := (objectAt_of_atomAt htext).symm.trans (objectAt_of_atomAt hname)
          cases hsame
          exact absurd rfl hother
        | succ m => simpa [List.getElem?_append_right, Nat.add_sub_cancel_left] using he
      · simp [hold, hafter] at he
  · rw [h.objectAt id (Graph.lt_of_objectAt_mapping hid) hne, hid]
    exact Caller.getElem?_parts_mapping he

omit hg in
theorem Added.parts_list {items : List ObjectId} (hid : g.objectAt id = .list items)
    (hlt : id < g.objects.size) : (g'.objectAt id).parts = items := by
  have hne : id ≠ trigger := by
    rintro rfl
    cases hid.symm.trans h.trigger_before
  rw [h.objectAt id hlt hne, hid]
  rfl

/-- An item that is found in the list of a key has the same place in both graphs, and it is what is
changed in the tree. -/
theorem Added.exists_follow? {j : ObjectId} {test : ObjectId → Bool} {test' : Tree → Bool}
    (htest : ∀ i, test' (g.treeAt i) = test i) (hkey : key ≠ "called_by")
    (hfind : (itemsAt g key id).find? test = some j) :
    ∃ place, g.follow? id place = some j ∧ g'.follow? id place = some j ∧
      ∀ f, (g.treeAt id).modifyValue key (Tree.modifyItem test' f) =
        (g.treeAt id).modifyAt place f := by
  unfold itemsAt at hfind
  cases hvalue : g.valueAt? key id with
  | none => simp [hvalue] at hfind
  | some v =>
    rw [hvalue] at hfind
    obtain ⟨entries, n, e, hid, he, rfl, hname, hmodify⟩ := Graph.exists_modifyValue hvalue
    obtain ⟨m, hm, hmodify'⟩ := Graph.exists_modifyItem htest hfind
    have hitem' : (g'.objectAt e.2).parts[m]? = some j := by
      cases hobject : g.objectAt e.2 with
      | list items =>
        rw [h.parts_list hobject (hg.lt_of_valueAt? hvalue)]
        rwa [hobject] at hm
      | _ => simp [Graph.itemsAt, hobject] at hfind
    have hvalue' : (g.objectAt id).parts[2 * n + 1]? = some e.2 := by
      rw [hid]
      exact Caller.getElem?_parts_mapping he
    refine ⟨[2 * n + 1, m], ?_, ?_, fun f => ?_⟩
    · exact Graph.follow?_cons.2 ⟨e.2, hvalue', Graph.follow?_cons.2 ⟨j, hm, rfl⟩⟩
    · exact Graph.follow?_cons.2 ⟨e.2, h.getElem?_parts_mapping hid he hname hkey,
        Graph.follow?_cons.2 ⟨j, hitem', rfl⟩⟩
    · rw [hmodify]
      exact Graph.modifyAt_of_follow? (Graph.follow?_cons.2 ⟨e.2, hvalue', rfl⟩) (hmodify' f)

/-- The trigger that is found has the same place in both graphs, and it is what is changed in the
tree. -/
theorem Added.exists_addCaller_eq (htrigger : triggerAt? subworkflow g g.root = some trigger) :
    ∃ place, g'.follow? g'.root place = some trigger ∧
      g.tree.addCaller subworkflow caller = g.tree.modifyAt place (Tree.listCaller caller) := by
  obtain ⟨w, hworkflow, htrigger⟩ := Option.bind_eq_some_iff.1 htrigger
  obtain ⟨place, hfollow, hfollow', hmodify⟩ :=
    h.exists_follow? hg (fun i => hasText_treeAt) (by decide) hworkflow
  obtain ⟨place', -, hinner, hmodify'⟩ :=
    h.exists_follow? hg (fun i => hasText_treeAt) (by decide) htrigger
  refine ⟨place ++ place', ?_, ?_⟩
  · rw [h.root, Graph.follow?_append hfollow', hinner]
  · exact (hmodify _).trans (Graph.modifyAt_of_follow? hfollow (hmodify' _))

end

/-- Adding a caller changes nothing where the trigger that is found has not been passed, and in the
trigger its list, unless the trigger occurs in itself.  So one place of the configuration changes exactly
if the trigger occurs at one place. -/
theorem tree_of_add? (hg : g.Closed) (h : add? subworkflow caller g = some added) :
    ∃ trigger, triggerAt? subworkflow g g.root = some trigger ∧
      (∀ place, (∀ place', place' <+: place → added.follow? added.root place' ≠ some trigger) →
        added.tree place = g.tree place) ∧
      ((∀ place, added.follow? trigger place = some trigger → place = []) →
        added.treeAt trigger = (g.treeAt trigger).listCaller caller) ∧
      (added.tree = g.tree.addCaller subworkflow caller ↔
        ∃! place, added.follow? added.root place = some trigger) := by
  obtain ⟨trigger, slot, htrigger, hadded⟩ := added_of_add? hg h
  refine ⟨trigger, htrigger, fun place hnever => ?_, (hadded.treeAt_trigger_iff hg).2, ?_⟩
  · rw [Graph.tree, hadded.root]
    exact hadded.treeAt_apply hg hg.root (hadded.root ▸ hnever)
  · obtain ⟨place, hplace, haddCaller⟩ := hadded.exists_addCaller_eq hg htrigger
    have hiff := hadded.treeAt_modifyAt_iff hg hg.root (hadded.root ▸ hplace)
    rw [haddCaller, Graph.tree, Graph.tree, hadded.root, hiff]
    rw [hadded.root] at hplace
    constructor
    · intro hunique
      exact ⟨place, hplace, hunique⟩
    · rintro ⟨only, -, hunique⟩ place' hplace'
      rw [hunique place' hplace', hunique place hplace]

/-! ## Texts -/

/-- As a tree, one text is another one with one more caller of a sub-workflow. -/
def ListsOneMore (subworkflow caller before after : Text) : Prop :=
  ∃ T, ReadsAs before T ∧ ReadsAs after (T.addCaller subworkflow caller)

/-- A text that adding a caller changes is one of a configuration with a trigger for it, and the
configuration with the caller is what is written. -/
theorem exists_of_addToText {after : Text} (h : addToText subworkflow caller t = .text after)
    (hne : after ≠ t) : ∃ g added, Yaml.load .given t = .ok g ∧
      add? subworkflow caller g = some added ∧ Yaml.print? added = .ok after := by
  unfold addToText at h
  split at h
  · cases h
  · exact absurd (Fix.Outcome.text.inj h).symm hne
  · next g hload =>
    split at h
    · exact absurd (Fix.Outcome.text.inj h).symm hne
    · next added hadd =>
      split at h
      · cases h
      · next written hprint =>
        obtain rfl := Fix.Outcome.text.inj h
        exact ⟨g, added, hload, hadd, hprint⟩

/-- A text whose change passes a test is changed. -/
theorem exists_of_any_text? {test : Text → Bool}
    (h : (addToText subworkflow caller t).text?.any test = true) :
    ∃ after, addToText subworkflow caller t = .text after ∧ test after = true := by
  cases hrun : addToText subworkflow caller t with
  | text after =>
    rw [hrun] at h
    exact ⟨after, rfl, h⟩
  | _ => simp [hrun, Fix.Outcome.text?] at h

/-- Whether a text has become another one. -/
def isChanged (before after : Text) : Bool := before.length != after.length

theorem ne_of_isChanged {before after : Text} (h : isChanged before after = true) :
    after ≠ before := by
  rintro rfl
  simp [isChanged] at h

/-- A configuration of one sub-workflow. -/
def ownTrigger : Text :=
  "workflows:\n- workflow_template_id: s\n  triggers:\n  - type: subworkflow\n"

/-- A configuration of two sub-workflows with the same triggers. -/
def sharedTrigger : Text :=
  "workflows:\n- workflow_template_id: s\n  triggers: &t\n  - type: subworkflow\n" ++
    "- workflow_template_id: u\n  triggers: *t\n"

/-- Whether the trigger of the second workflow has so many keys. -/
def hasSecondTrigger (length : Nat) (T : Tree) : Bool :=
  match T [1, 1, 3, 0] with
  | some (.mapping n) => n == length
  | _ => false

/-- Only the first workflow should get the list. -/
theorem any_load_sharedTrigger : (Yaml.load .given sharedTrigger).toOption.any (fun g =>
    hasSecondTrigger 1 (g.tree.addCaller "s" "c")) = true := by decide +kernel

/-- The second workflow gets it too. -/
theorem any_addToText_sharedTrigger : (addToText "s" "c" sharedTrigger).text?.any (fun after =>
    isChanged sharedTrigger after &&
      (Yaml.load .given after).toOption.any fun g => hasSecondTrigger 2 g.tree) = true := by
  decide +kernel

end Caller

end WorkflowLint
