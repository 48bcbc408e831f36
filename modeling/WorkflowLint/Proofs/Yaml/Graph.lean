import Mathlib.Data.List.Find
import WorkflowLint.Proofs.Yaml.Objects

/-!
# Changing graphs

Looking up a key, an item or a text in a part of a graph is looking it up by the number of the part.
Adding an object changes nothing that is found in a closed graph, and giving a key of a mapping a
value changes what is found under that key of that mapping, and nothing else.
-/

namespace WorkflowLint.Yaml.Graph

variable {g : Graph} {id i key value : ObjectId} {t name other : Text} {o : Object}
  {entries : List (ObjectId × ObjectId)}

/-! ## Finding by number -/

/-- Whether the object with a number is the given text. -/
def isTextAt (g : Graph) (t : Text) (id : ObjectId) : Bool :=
  (g.objectAt id).atom?.any fun a => a.isText t

/-- The number of the value that a name has in some entries. -/
def find? (g : Graph) (name : Text) (entries : List (ObjectId × ObjectId)) : Option ObjectId :=
  (entries.find? fun e => (g.atomAt e.1).isText name).map (·.2)

/-- The number of the value that a name has in the mapping with a number. -/
def valueAt? (g : Graph) (name : Text) (id : ObjectId) : Option ObjectId :=
  match g.objectAt id with
  | .mapping entries => g.find? name entries
  | _ => none

/-- The numbers of the items of the list with a number; there are none if it is no list. -/
def itemsAt (g : Graph) (id : ObjectId) : List ObjectId :=
  match g.objectAt id with
  | .list items => items
  | _ => []

theorem get?_rootedAt : (g.rootedAt id).get? name = (g.valueAt? name id).map g.rootedAt := by
  unfold get? entries? valueAt? find? Entries.get?
  have hobject : (g.rootedAt id).object = g.objectAt id := rfl
  rw [hobject]
  cases g.objectAt id with
  | mapping entries =>
    simp only [Option.bind_some, List.find?_map, Option.map_map]
    rfl
  | _ => rfl

theorem getD_items?_rootedAt : (g.rootedAt id).items?.getD [] = (g.itemsAt id).map g.rootedAt := by
  unfold items? itemsAt
  have hobject : (g.rootedAt id).object = g.objectAt id := rfl
  rw [hobject]
  cases g.objectAt id with
  | list items => rfl
  | _ => rfl

/-! ## What is found in a closed graph -/

theorem objectAt_of_le (h : g.objects.size ≤ id) : g.objectAt id = .atom .null := by
  unfold objectAt
  rw [Array.getD_eq_getD_getElem?, Array.getElem?_eq_none h]
  rfl

theorem lt_of_objectAt_mapping (h : g.objectAt id = .mapping entries) : id < g.objects.size := by
  refine Nat.lt_of_not_le fun hle => ?_
  rw [objectAt_of_le hle] at h
  cases h

theorem Closed.lt_of_mem_itemsAt (h : g.Closed) (hi : i ∈ g.itemsAt id) : i < g.objects.size := by
  have hparts := h.parts id
  unfold itemsAt at hi
  split at hi
  · next items hobject =>
    rw [hobject] at hparts
    exact hparts i hi
  · exact absurd hi List.not_mem_nil

theorem Closed.pairsBelow (h : g.Closed) (hid : g.objectAt id = .mapping entries) :
    PairsBelow entries g.objects.size := by
  have hparts := h.parts id
  rw [hid] at hparts
  exact allBelow_flatMap_iff.1 hparts

theorem Closed.lt_of_valueAt? (h : g.Closed) (hi : g.valueAt? name id = some i) :
    i < g.objects.size := by
  unfold valueAt? at hi
  split at hi
  · next entries hobject =>
    obtain ⟨e, he, rfl⟩ := Option.map_eq_some_iff.1 hi
    exact (h.pairsBelow hobject e (List.mem_of_find?_eq_some he)).2
  · cases hi

/-! ## Adding an object -/

/-- One graph has the objects of another one, and possibly more. -/
def Extends (g g' : Graph) : Prop :=
  g.objects.size ≤ g'.objects.size ∧ ∀ id < g.objects.size, g'.objectAt id = g.objectAt id

theorem Extends.trans {g g' g'' : Graph} (h : g.Extends g') (h' : g'.Extends g'') :
    g.Extends g'' :=
  ⟨Nat.le_trans h.1 h'.1, fun id hid =>
    (h'.2 id (Nat.lt_of_lt_of_le hid h.1)).trans (h.2 id hid)⟩

theorem extends_add (g : Graph) (o : Object) : g.Extends (g.add o).1 := by
  refine ⟨by simp [add], fun id hid => ?_⟩
  unfold objectAt add
  rw [Array.getD_eq_getD_getElem?, Array.getD_eq_getD_getElem?, Array.getElem?_push_lt hid,
    Array.getElem?_eq_getElem hid]

theorem objectAt_add_self (g : Graph) (o : Object) : (g.add o).1.objectAt (g.add o).2 = o := by
  unfold objectAt add
  simp

theorem lt_add_self (g : Graph) (o : Object) : (g.add o).2 < (g.add o).1.objects.size := by
  simp [add]

theorem isTextAt_of_extends {g' : Graph} (h : g.Extends g') (hid : id < g.objects.size) :
    g'.isTextAt t id = g.isTextAt t id := by rw [isTextAt, h.2 id hid, isTextAt]

theorem itemsAt_of_extends {g' : Graph} (h : g.Extends g') (hid : id < g.objects.size) :
    g'.itemsAt id = g.itemsAt id := by rw [itemsAt, h.2 id hid, itemsAt]

/-- In a graph with more objects nothing else is found under the names of an object. -/
theorem valueAt?_of_extends {g' : Graph} (hg : g.Closed) (h : g.Extends g')
    (hid : id < g.objects.size) : g'.valueAt? name id = g.valueAt? name id := by
  unfold valueAt?
  rw [h.2 id hid]
  split
  · next entries hobject =>
    have hfind : ∀ e ∈ entries, (g'.atomAt e.1).isText name = (g.atomAt e.1).isText name := by
      intro e he
      rw [atomAt, h.2 e.1 (hg.pairsBelow hobject e he).1, atomAt]
    unfold find?
    rw [List.find?_congr hfind]
  · rfl

/-! ## Giving a key a value -/

theorem sameKey_string (a : Atom) (t : Text) : a.sameKey (.string t) = a.isText t := by
  cases a <;> simp [Atom.sameKey, Atom.isText, Atom.text?, Atom.sameNumber]

theorem objectAt_setEntry (hid : g.objectAt id = .mapping entries) :
    (g.setEntry id key value).objectAt i =
      if i = id then .mapping (g.setIn key value entries) else g.objectAt i := by
  have hlt : id < g.objects.size := lt_of_objectAt_mapping hid
  unfold setEntry
  rw [hid]
  simp only [objectAt, Array.getD_eq_getD_getElem?, Array.getElem?_setIfInBounds]
  by_cases heq : id = i
  · rw [if_pos heq, if_pos hlt, if_pos heq.symm]
    rfl
  · rw [if_neg heq, if_neg (Ne.symm heq)]

theorem root_setEntry : (g.setEntry id key value).root = g.root := by
  unfold setEntry
  split <;> rfl

/-- Only mappings change, so that the texts stay what they are. -/
theorem isTextAt_setEntry (hid : g.objectAt id = .mapping entries) :
    (g.setEntry id key value).isTextAt t i = g.isTextAt t i := by
  unfold isTextAt
  rw [objectAt_setEntry hid]
  split
  · next heq => rw [heq, hid]; rfl
  · rfl

theorem atomAt_setEntry (hid : g.objectAt id = .mapping entries) :
    (g.setEntry id key value).atomAt i = g.atomAt i := by
  unfold atomAt
  rw [objectAt_setEntry hid]
  split
  · next heq => rw [heq, hid]; rfl
  · rfl

theorem itemsAt_setEntry (hid : g.objectAt id = .mapping entries) :
    (g.setEntry id key value).itemsAt i = g.itemsAt i := by
  unfold itemsAt
  rw [objectAt_setEntry hid]
  by_cases heq : i = id
  · rw [if_pos heq, heq, hid]
  · rw [if_neg heq]

theorem find?_setIn (hkey : g.atomAt key = .string name) :
    g.find? other (g.setIn key value entries) =
      if other = name then some value else g.find? other entries := by
  have htext : ∀ a : Atom, a.isText name = true → (a.isText other = true ↔ other = name) := by
    intro a ha
    unfold Atom.isText at ha ⊢
    rw [beq_iff_eq.1 ha, beq_iff_eq, Option.some.injEq]
    exact eq_comm
  have hname : (Atom.string name).isText name = true := by simp [Atom.isText, Atom.text?]
  unfold find?
  induction entries with
  | nil =>
    simp only [setIn, List.find?_cons, List.find?_nil, hkey]
    by_cases hother : other = name
    · rw [(htext _ hname).2 hother, if_pos hother]
      rfl
    · rw [if_neg hother, Bool.eq_false_iff.2 fun h => hother ((htext _ hname).1 h)]
  | cons e entries ih =>
    unfold setIn
    rw [hkey, sameKey_string]
    split
    · next hsame =>
      rw [List.find?_cons, List.find?_cons]
      by_cases hother : other = name
      · rw [(htext _ hsame).2 hother, if_pos hother]
        rfl
      · rw [if_neg hother, Bool.eq_false_iff.2 fun h => hother ((htext _ hsame).1 h)]
    · next hdiff =>
      rw [List.find?_cons, List.find?_cons]
      split
      · next hfound => rw [if_neg fun (hother : other = name) => hdiff (hother ▸ hfound)]
      · exact ih

theorem valueAt?_setEntry (hid : g.objectAt id = .mapping entries)
    (hkey : g.atomAt key = .string name) :
    (g.setEntry id key value).valueAt? other i =
      if i = id ∧ other = name then some value else g.valueAt? other i := by
  -- the mapping is no atom, so that the keys of all mappings stay what they are
  have hfind : ∀ es, (g.setEntry id key value).find? other es = g.find? other es := by
    intro es
    unfold find?
    simp only [atomAt_setEntry hid]
  unfold valueAt?
  rw [objectAt_setEntry hid]
  by_cases hi : i = id
  · subst hi
    simp only [if_true, true_and, hid, hfind, find?_setIn hkey]
  · simp only [hi, false_and, if_false, hfind]

end WorkflowLint.Yaml.Graph
