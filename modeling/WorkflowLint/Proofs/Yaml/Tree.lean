import Mathlib.Algebra.GroupWithZero.Nat
import WorkflowLint.Proofs.Yaml.Graph

/-!
# What a graph looks like as a tree

A place in a document is the way to it from the root, as the numbers of the parts to go to.  The tree of
a graph says what stands at each of its places (`Graph.tree`).  An object that occurs at several places
is the same there, and a collection that occurs inside itself makes the tree endless.

Trees are changed at one place (`Tree.modifyAt`), whatever else in a graph the object at that place is
part of.
-/

namespace WorkflowLint.Yaml

/-- What an object is apart from its parts: an atom, or a kind of collection with so many of them. -/
inductive Shape where
  | atom (a : Atom)
  | list (length : Nat)
  | pair
  | set (length : Nat)
  | mapping (length : Nat)
deriving DecidableEq

/-- The shape of an object. -/
def Object.shape : Object → Shape
  | .atom a => .atom a
  | .list items => .list items.length
  | .pair _ _ => .pair
  | .set members => .set members.length
  | .mapping entries => .mapping entries.length

/-- A tree: what stands at each of its places. -/
def Tree := List Nat → Option Shape

namespace Tree

variable {T U : Tree} {t : Text} {i : Nat}

/-- A tree with a shape and some parts. -/
def ofParts (shape : Shape) (parts : List Tree) : Tree
  | [] => some shape
  | i :: place => (parts[i]?).bind fun part => part place

/-- A part of a tree. -/
def part (T : Tree) (i : Nat) : Tree := fun place => T (i :: place)

/-- The tree of a text. -/
def text (t : Text) : Tree := ofParts (.atom (.string t)) []

/-- A list of trees as a tree. -/
def ofItems (items : List Tree) : Tree := ofParts (.list items.length) items

/-- A mapping of trees as a tree. -/
def ofEntries (entries : List (Tree × Tree)) : Tree :=
  ofParts (.mapping entries.length) (entries.flatMap fun e => [e.1, e.2])

/-- The atom that a tree is. -/
def atom? (T : Tree) : Option Atom :=
  match T [] with
  | some (.atom a) => some a
  | _ => none

/-- Whether a tree is the given text. -/
def isText (t : Text) (T : Tree) : Bool := T.atom?.any fun a => a.isText t

/-- Whether a tree is a list. -/
def isList (T : Tree) : Bool :=
  match T [] with
  | some (.list _) => true
  | _ => false

/-- The items of a list; there are none if the tree is no list. -/
def items (T : Tree) : List Tree :=
  match T [] with
  | some (.list n) => (List.range n).map T.part
  | _ => []

/-- The items of a list, or the members of a set. -/
def members? (T : Tree) : Option (List Tree) :=
  match T [] with
  | some (.list n) => some ((List.range n).map T.part)
  | some (.set n) => some ((List.range n).map T.part)
  | _ => none

/-- Whether a tree is a mapping. -/
def isMapping (T : Tree) : Bool :=
  match T [] with
  | some (.mapping _) => true
  | _ => false

/-- The entries of a mapping; there are none if the tree is no mapping. -/
def entries (T : Tree) : List (Tree × Tree) :=
  match T [] with
  | some (.mapping n) => (List.range n).map fun i => (T.part (2 * i), T.part (2 * i + 1))
  | _ => []

/-- The value of a key. -/
def value? (key : Text) (T : Tree) : Option Tree :=
  (T.entries.find? fun e => e.1.isText key).map (·.2)

/-! ## Changing trees -/

/-- Changes the first of some things that passes a test. -/
def modifyFirst {α : Type} (test : α → Bool) (f : α → α) : List α → List α
  | [] => []
  | a :: as => if test a then f a :: as else a :: modifyFirst test f as

/-- Changes the first item of a list that passes a test. -/
def modifyItem (test : Tree → Bool) (f : Tree → Tree) (T : Tree) : Tree :=
  if T.isList then ofItems (modifyFirst test f T.items) else T

/-- Changes the value of a key of a mapping. -/
def modifyValue (key : Text) (f : Tree → Tree) (T : Tree) : Tree :=
  if T.isMapping then ofEntries (modifyFirst (fun e => e.1.isText key) (fun e => (e.1, f e.2)) T.entries)
  else T

/-- The entries of a mapping in which a key has been given a value: in its place, or at the end if there
is none. -/
def setIn (key : Text) (value : Tree) : List (Tree × Tree) → List (Tree × Tree)
  | [] => [(text key, value)]
  | e :: entries => if e.1.isText key then (e.1, value) :: entries else e :: setIn key value entries

/-- Gives a key of a mapping a value. -/
def setValue (T : Tree) (key : Text) (value : Tree) : Tree := ofEntries (setIn key value T.entries)

/-- Changes a tree at one of its places. -/
def modifyAt : (place : List Nat) → (Tree → Tree) → Tree → Tree
  | [], f, T => f T
  | i :: place, f, T => fun
    | [] => T []
    | j :: rest => if j = i then modifyAt place f (T.part i) rest else T (j :: rest)

/-! ### Parts of trees -/

variable {shape : Shape} {parts : List Tree} {place : List Nat} {f : Tree → Tree}

theorem part_ofParts (h : parts[i]? = some T) : (ofParts shape parts).part i = T := by
  funext place
  rw [part, ofParts, h]
  rfl

theorem getElem_pairs {α : Type} (pairs : List (α × α)) (i : Nat) :
    (pairs.flatMap fun e => [e.1, e.2])[2 * i]? = (pairs[i]?).map (·.1) ∧
      (pairs.flatMap fun e => [e.1, e.2])[2 * i + 1]? = (pairs[i]?).map (·.2) := by
  induction pairs generalizing i with
  | nil => simp
  | cons e pairs ih =>
    cases i with
    | zero => simp
    | succ i => simpa [Nat.mul_succ] using ih i

theorem length_pairs {α : Type} (pairs : List (α × α)) :
    (pairs.flatMap fun e => [e.1, e.2]).length = 2 * pairs.length := by
  induction pairs with
  | nil => rfl
  | cons e pairs ih =>
    rw [List.flatMap_cons, List.length_append, ih, List.length_cons]
    simp only [List.length_cons, List.length_nil]
    omega

@[simp] theorem isList_ofItems (items : List Tree) : (ofItems items).isList = true := rfl

@[simp] theorem isMapping_ofEntries (entries : List (Tree × Tree)) :
    (ofEntries entries).isMapping = true := rfl

@[simp] theorem items_ofItems (items : List Tree) : (ofItems items).items = items := by
  show (List.range items.length).map (ofItems items).part = items
  refine List.ext_getElem (by simp) fun i hi hi' => ?_
  rw [List.getElem_map, List.getElem_range]
  exact part_ofParts (List.getElem?_eq_getElem hi')

@[simp] theorem entries_ofEntries (entries : List (Tree × Tree)) :
    (ofEntries entries).entries = entries := by
  show (List.range entries.length).map (fun i => ((ofEntries entries).part (2 * i),
    (ofEntries entries).part (2 * i + 1))) = entries
  refine List.ext_getElem (by simp) fun i hi hi' => ?_
  rw [List.getElem_map, List.getElem_range]
  obtain ⟨hkey, hvalue⟩ := getElem_pairs entries i
  rw [List.getElem?_eq_getElem hi'] at hkey hvalue
  have hfst : (ofEntries entries).part (2 * i) = entries[i].1 := part_ofParts hkey
  have hsnd : (ofEntries entries).part (2 * i + 1) = entries[i].2 := part_ofParts hvalue
  rw [hfst, hsnd]

theorem ofItems_inj {items items' : List Tree} : ofItems items = ofItems items' ↔ items = items' := by
  constructor
  · intro h
    rw [← items_ofItems items, h, items_ofItems]
  · rintro rfl
    rfl

theorem ofEntries_inj {entries entries' : List (Tree × Tree)} :
    ofEntries entries = ofEntries entries' ↔ entries = entries' := by
  constructor
  · intro h
    rw [← entries_ofEntries entries, h, entries_ofEntries]
  · rintro rfl
    rfl

/-! ### What is found after a change -/

section

variable {α : Type} {test p : α → Bool} {f : α → α}

/-- Of what passes a test the first thing may be the one that is changed, if it passes a test that is at
least as strict. -/
theorem find?_modifyFirst (hstrict : ∀ a, test a = true → p a = true ∧ p (f a) = true) (as : List α) :
    (modifyFirst test f as).find? p = (as.find? p).map fun a => if test a then f a else a := by
  induction as with
  | nil => rfl
  | cons a as ih =>
    by_cases ha : test a = true
    · rw [modifyFirst, if_pos ha, List.find?_cons_of_pos (hstrict a ha).2,
        List.find?_cons_of_pos (hstrict a ha).1, Option.map_some, if_pos ha]
    · rw [modifyFirst, if_neg ha]
      by_cases hp : p a = true
      · rw [List.find?_cons_of_pos hp, List.find?_cons_of_pos hp, Option.map_some, if_neg ha]
      · rw [List.find?_cons_of_neg hp, List.find?_cons_of_neg hp, ih]

/-- What passes another test stays what is found by that. -/
theorem find?_modifyFirst_of_disjoint
    (hdisjoint : ∀ a, test a = true → p a = false ∧ p (f a) = false) (as : List α) :
    (modifyFirst test f as).find? p = as.find? p := by
  induction as with
  | nil => rfl
  | cons a as ih =>
    by_cases ha : test a = true
    · obtain ⟨hp, hp'⟩ := hdisjoint a ha
      rw [modifyFirst, if_pos ha, List.find?_cons_of_neg (by simp [hp']),
        List.find?_cons_of_neg (by simp [hp])]
    · rw [modifyFirst, if_neg ha, List.find?_cons, List.find?_cons, ih]

/-- Everything that is there after a change was there before, or is what the first thing to pass the
test was changed to. -/
theorem mem_modifyFirst {as : List α} {b : α} (h : b ∈ modifyFirst test f as) :
    b ∈ as ∨ ∃ a ∈ as, test a = true ∧ b = f a := by
  induction as with
  | nil => cases h
  | cons a as ih =>
    rw [modifyFirst] at h
    split at h
    · next ha =>
      obtain rfl | h := List.mem_cons.1 h
      · exact .inr ⟨a, List.mem_cons_self, ha, rfl⟩
      · exact .inl (List.mem_cons_of_mem a h)
    · obtain rfl | h := List.mem_cons.1 h
      · exact .inl List.mem_cons_self
      · obtain h | ⟨a', ha', htest, rfl⟩ := ih h
        · exact .inl (List.mem_cons_of_mem a h)
        · exact .inr ⟨a', List.mem_cons_of_mem a ha', htest, rfl⟩

/-- Changing the first of some things that are made of others is making them after the change. -/
theorem map_modifyFirst {β : Type} {make : α → β} {test' : β → Bool} {f' : β → β}
    (htest : ∀ a, test' (make a) = test a) (hf : ∀ a, test a = true → make (f a) = f' (make a))
    (as : List α) : (modifyFirst test f as).map make = modifyFirst test' f' (as.map make) := by
  induction as with
  | nil => rfl
  | cons a as ih =>
    rw [List.map_cons, modifyFirst, modifyFirst, htest]
    split
    · next ha => rw [List.map_cons, hf a ha]
    · rw [List.map_cons, ih]

end

theorem isText_iff : T.isText t = true ↔ T.atom? = some (.string t) := by
  unfold isText
  cases T.atom? with
  | none => simp
  | some a => cases a <;> simp [Atom.isText, Atom.text?]

theorem atom?_text (t : Text) : (text t).atom? = some (.string t) := rfl

/-- No tree is two texts. -/
theorem isText_eq_false {other : Text} (h : T.isText t = true) (hne : other ≠ t) :
    T.isText other = false := by
  rw [Bool.eq_false_iff]
  intro hother
  have hatom := (isText_iff.1 h).symm.trans (isText_iff.1 hother)
  cases hatom
  exact hne rfl

theorem entries_eq_nil (h : T.isMapping = false) : T.entries = [] := by
  unfold isMapping at h
  unfold entries
  split
  · next hshape => simp [hshape] at h
  · rfl

theorem value?_modifyValue (key other : Text) (f : Tree → Tree) (T : Tree) :
    (T.modifyValue key f).value? other =
      if other = key then (T.value? other).map f else T.value? other := by
  unfold modifyValue
  split
  · by_cases hother : other = key
    · subst hother
      have hstrict : ∀ e : Tree × Tree, e.1.isText other = true →
          e.1.isText other = true ∧ (e.1, f e.2).1.isText other = true := fun e he => ⟨he, he⟩
      rw [if_pos rfl, value?, entries_ofEntries, find?_modifyFirst hstrict, value?]
      cases hfound : T.entries.find? fun e => e.1.isText other with
      | none => rfl
      | some e => simp [List.find?_some hfound]
    · have hdisjoint : ∀ e : Tree × Tree, e.1.isText key = true →
          e.1.isText other = false ∧ (e.1, f e.2).1.isText other = false :=
        fun e he => ⟨isText_eq_false he hother, isText_eq_false he hother⟩
      rw [if_neg hother, value?, entries_ofEntries, find?_modifyFirst_of_disjoint hdisjoint, value?]
  · next hmapping =>
    have hnone : T.value? other = none := by
      rw [value?, entries_eq_nil (by simpa using hmapping)]
      rfl
    simp [hnone]

theorem value?_setValue (T : Tree) (key other : Text) (value : Tree) :
    (T.setValue key value).value? other = if other = key then some value else T.value? other := by
  have hkey : (text key).isText key = true := isText_iff.2 (atom?_text key)
  have hfound : ∀ (e : Tree × Tree) (entries : List (Tree × Tree)), e.1.isText other = true →
      (e :: entries).find? (fun e => e.1.isText other) = some e := fun _ _ he =>
    List.find?_cons_of_pos he
  have hskipped : ∀ (e : Tree × Tree) (entries : List (Tree × Tree)), e.1.isText other = false →
      (e :: entries).find? (fun e => e.1.isText other) = entries.find? fun e => e.1.isText other :=
    fun _ _ he => List.find?_cons_of_neg (by simp [he])
  unfold setValue value?
  rw [entries_ofEntries]
  by_cases hother : other = key
  · rw [if_pos hother]
    subst hother
    induction T.entries with
    | nil =>
      rw [setIn, hfound (text other, value) [] hkey]
      rfl
    | cons e entries ih =>
      rw [setIn]
      split
      · next he =>
        rw [hfound (e.1, value) entries he]
        rfl
      · next he => rw [hskipped e _ (by simpa using he), ih]
  · rw [if_neg hother]
    induction T.entries with
    | nil =>
      rw [setIn, hskipped (text key, value) [] (isText_eq_false hkey hother)]
    | cons e entries ih =>
      rw [setIn]
      split
      · next he =>
        have hne := isText_eq_false he hother
        rw [hskipped (e.1, value) entries hne, hskipped e entries hne]
      · cases he : e.1.isText other with
        | true => rw [hfound e _ he, hfound e _ he]
        | false => rw [hskipped e _ he, hskipped e _ he, ih]

theorem members?_of_isList (h : T.isList = true) : T.members? = some T.items := by
  unfold isList at h
  unfold members? items
  split at h
  · next hshape => rw [hshape]
  · cases h

theorem members?_ofItems (items : List Tree) : (ofItems items).members? = some items := by
  rw [members?_of_isList (isList_ofItems items), items_ofItems]

/-- Keys before the one that is given a value stay as they are. -/
theorem setIn_append {entries rest : List (Tree × Tree)} (h : ∀ e ∈ entries, e.1.isText t = false) :
    setIn t U (entries ++ rest) = entries ++ setIn t U rest := by
  induction entries with
  | nil => rfl
  | cons e entries ih =>
    obtain ⟨he, hentries⟩ := List.forall_mem_cons.1 h
    rw [List.cons_append, setIn, if_neg (by simp [he]), ih hentries]
    rfl

/-! ### Changing one place -/

/-- Of what is made of some things, the one made of the first that passes a test is changed. -/
theorem exists_modifyFirst {α β : Type} {test : α → Bool} {test' : β → Bool} {make : α → β}
    (htest : ∀ a, test' (make a) = test a) {as : List α} {a : α} (h : as.find? test = some a) :
    ∃ before after, as = before ++ a :: after ∧ test a = true ∧
      ∀ f, modifyFirst test' f (as.map make) = before.map make ++ f (make a) :: after.map make := by
  induction as with
  | nil => cases h
  | cons b as ih =>
    rw [List.find?_cons] at h
    split at h
    · next hb =>
      obtain rfl := Option.some.inj h
      refine ⟨[], as, rfl, hb, fun f => ?_⟩
      rw [List.map_cons, modifyFirst, if_pos (by rw [htest, hb])]
      rfl
    · next hb =>
      obtain ⟨before, after, rfl, ha, hf⟩ := ih h
      refine ⟨b :: before, after, rfl, ha, fun f => ?_⟩
      rw [List.map_cons, modifyFirst, if_neg (by simp [htest, hb]), hf]
      rfl

theorem modifyAt_cons_cons (i j : Nat) (place rest : List Nat) (f : Tree → Tree) (T : Tree) :
    modifyAt (i :: place) f T (j :: rest) =
      if j = i then modifyAt place f (T.part i) rest else T (j :: rest) := rfl

theorem modifyAt_singleton (shape : Shape) (before after : List Tree) (T : Tree) (f : Tree → Tree) :
    modifyAt [before.length] f (ofParts shape (before ++ T :: after)) =
      ofParts shape (before ++ f T :: after) := by
  funext place
  cases place with
  | nil => rfl
  | cons i place =>
    have hpart : (ofParts shape (before ++ T :: after)).part before.length = T :=
      part_ofParts (by simp)
    rw [modifyAt_cons_cons]
    by_cases hi : i = before.length
    · subst hi
      rw [if_pos rfl, hpart]
      simp [modifyAt, ofParts]
    · rw [if_neg hi, ofParts, ofParts]
      have hother : (before ++ T :: after)[i]? = (before ++ f T :: after)[i]? := by
        by_cases hlt : i < before.length
        · rw [List.getElem?_append_left hlt, List.getElem?_append_left hlt]
        · obtain ⟨k, rfl⟩ : ∃ k, i = before.length + (k + 1) := ⟨i - before.length - 1, by omega⟩
          rw [List.getElem?_append_right (by omega), List.getElem?_append_right (by omega),
            Nat.add_sub_cancel_left]
          rfl
      rw [hother]

theorem modifyAt_ofItems (before after : List Tree) (T : Tree) (f : Tree → Tree) :
    modifyAt [before.length] f (ofItems (before ++ T :: after)) =
      ofItems (before ++ f T :: after) := by
  rw [ofItems, modifyAt_singleton, ofItems]
  simp

theorem modifyAt_ofEntries (before after : List (Tree × Tree)) (key value : Tree)
    (f : Tree → Tree) :
    modifyAt [2 * before.length + 1] f (ofEntries (before ++ (key, value) :: after)) =
      ofEntries (before ++ (key, f value) :: after) := by
  have hflat : ∀ v : Tree, ((before ++ (key, v) :: after).flatMap fun e => [e.1, e.2]) =
      (before.flatMap fun e => [e.1, e.2]) ++ [key] ++ v :: (after.flatMap fun e => [e.1, e.2]) := by
    intro v
    simp
  have hlen : 2 * before.length + 1 = ((before.flatMap fun e => [e.1, e.2]) ++ [key]).length := by
    rw [List.length_append, length_pairs, List.length_singleton]
  rw [ofEntries, hflat, hlen, modifyAt_singleton, ofEntries, hflat]
  simp

/-- Only what lies at a place changes. -/
theorem modifyAt_of_not_isPrefix {place' : List Nat} (h : ¬ place <+: place') :
    modifyAt place f T place' = T place' := by
  induction place generalizing place' T with
  | nil => exact absurd List.nil_prefix h
  | cons i place ih =>
    cases place' with
    | nil => rfl
    | cons j place' =>
      rw [modifyAt_cons_cons]
      split
      · next hj =>
        subst hj
        exact ih fun hprefix => h (List.cons_prefix_cons.2 ⟨rfl, hprefix⟩)
      · rfl

theorem eq_modifyAt_cons_iff : U = modifyAt (i :: place) f T ↔
    U [] = T [] ∧ U.part i = modifyAt place f (T.part i) ∧ ∀ k, k ≠ i → U.part k = T.part k := by
  constructor
  · rintro rfl
    refine ⟨rfl, ?_, fun k hk => ?_⟩
    · funext rest
      exact if_pos rfl
    · funext rest
      exact if_neg hk
  · rintro ⟨hroot, hpart, hother⟩
    funext rest
    cases rest with
    | nil => exact hroot
    | cons j rest =>
      rw [modifyAt_cons_cons]
      split
      · next hj =>
        rw [hj]
        exact congrFun hpart rest
      · next hj => exact congrFun (hother j hj) rest

end Tree

namespace Graph

variable {g : Graph} {id i j k : ObjectId} {place place' : List Nat} {key t : Text}
  {f : Tree → Tree}

/-- The object at a place, on the way from the object with a number. -/
def follow? (g : Graph) : ObjectId → (place : List Nat) → Option ObjectId
  | id, [] => some id
  | id, i :: place => ((g.objectAt id).parts[i]?).bind fun part => g.follow? part place

/-- The tree of the object with a number. -/
def treeAt (g : Graph) (id : ObjectId) : Tree :=
  fun place => (g.follow? id place).map fun i => (g.objectAt i).shape

/-- The tree of a graph. -/
def tree (g : Graph) : Tree := g.treeAt g.root

/-! ## Following the parts -/

theorem follow?_cons {n : Nat} : g.follow? id (n :: place) = some k ↔
    ∃ j, (g.objectAt id).parts[n]? = some j ∧ g.follow? j place = some k := by
  rw [follow?, Option.bind_eq_some_iff]

theorem follow?_append (h : g.follow? id place = some j) :
    g.follow? id (place ++ place') = g.follow? j place' := by
  induction place generalizing id with
  | nil =>
    obtain rfl := Option.some.inj h
    rfl
  | cons n place ih =>
    obtain ⟨part, hpart, hfollow⟩ := follow?_cons.1 h
    rw [List.cons_append, follow?, hpart]
    exact ih hfollow

/-- An object does not occur in another one. -/
def Lacks (g : Graph) (id k : ObjectId) : Prop := ∀ place, g.follow? id place ≠ some k

theorem lacks_iff : g.Lacks id k ↔ id ≠ k ∧ ∀ j ∈ (g.objectAt id).parts, g.Lacks j k := by
  constructor
  · intro h
    refine ⟨fun heq => h [] (congrArg some heq), fun j hj place hfollow => ?_⟩
    obtain ⟨n, hn⟩ := List.mem_iff_getElem?.1 hj
    exact h (n :: place) (follow?_cons.2 ⟨j, hn, hfollow⟩)
  · rintro ⟨hne, hparts⟩ place hfollow
    cases place with
    | nil => exact hne (Option.some.inj hfollow)
    | cons n place =>
      obtain ⟨j, hj, hfollow⟩ := follow?_cons.1 hfollow
      exact hparts j (List.mem_of_getElem? hj) place hfollow

/-- An object occurs in itself only as the whole of it if it does not occur in its parts. -/
theorem forall_follow?_self_iff : (∀ place, g.follow? id place = some id → place = []) ↔
    ∀ j ∈ (g.objectAt id).parts, g.Lacks j id := by
  constructor
  · intro h j hj place hfollow
    obtain ⟨n, hn⟩ := List.mem_iff_getElem?.1 hj
    exact List.cons_ne_nil n place (h _ (follow?_cons.2 ⟨j, hn, hfollow⟩))
  · intro h place hfollow
    cases place with
    | nil => rfl
    | cons n place =>
      obtain ⟨j, hj, hfollow⟩ := follow?_cons.1 hfollow
      exact absurd hfollow (h j (List.mem_of_getElem? hj) place)

/-! ## Trees of graphs -/

theorem treeAt_eq (g : Graph) (id : ObjectId) :
    g.treeAt id = .ofParts (g.objectAt id).shape ((g.objectAt id).parts.map g.treeAt) := by
  funext place
  cases place with
  | nil => rfl
  | cons i place =>
    rw [treeAt, follow?, Tree.ofParts, List.getElem?_map, Option.map_bind, Option.bind_map]
    rfl

theorem part_treeAt (h : (g.objectAt id).parts[i]? = some j) : (g.treeAt id).part i = g.treeAt j := by
  rw [treeAt_eq]
  exact Tree.part_ofParts (by rw [List.getElem?_map, h]; rfl)

theorem part_treeAt_eq_none {n : Nat} (h : (g.objectAt id).parts[n]? = none) :
    (g.treeAt id).part n = fun _ => none := by
  funext place
  rw [Tree.part, treeAt, follow?, h]
  rfl

theorem treeAt_atom {a : Atom} (h : g.objectAt id = .atom a) :
    g.treeAt id = .ofParts (.atom a) [] := by
  rw [treeAt_eq, h]
  rfl

theorem treeAt_list {items : List ObjectId} (h : g.objectAt id = .list items) :
    g.treeAt id = .ofItems (items.map g.treeAt) := by
  rw [treeAt_eq, h, Tree.ofItems, List.length_map]
  rfl

/-- The trees of the entries of a mapping. -/
def treesOf (g : Graph) (entries : List (ObjectId × ObjectId)) : List (Tree × Tree) :=
  entries.map fun e => (g.treeAt e.1, g.treeAt e.2)

theorem treeAt_mapping {entries : List (ObjectId × ObjectId)} (h : g.objectAt id = .mapping entries) :
    g.treeAt id = .ofEntries (g.treesOf entries) := by
  rw [treeAt_eq, h, Tree.ofEntries, treesOf, List.length_map]
  congr 1
  simp only [Object.parts, List.map_flatMap, List.flatMap_map]
  rfl

theorem atom?_treeAt : (g.treeAt id).atom? = (g.objectAt id).atom? := by
  unfold Tree.atom? treeAt follow?
  cases h : g.objectAt id <;> simp [h, Object.shape, Object.atom?]

theorem isText_treeAt : (g.treeAt id).isText t = g.isTextAt t id := by
  rw [Tree.isText, atom?_treeAt, isTextAt]

theorem isMapping_treeAt : (g.treeAt id).isMapping = (g.objectAt id).isMapping := by
  unfold Tree.isMapping treeAt follow?
  cases h : g.objectAt id <;> simp [h, Object.shape, Object.isMapping]

/-- The parts of an object as trees. -/
theorem map_part_treeAt : (List.range (g.objectAt id).parts.length).map (g.treeAt id).part =
    (g.objectAt id).parts.map g.treeAt := by
  refine List.ext_getElem (by simp) fun n hn hn' => ?_
  rw [List.getElem_map, List.getElem_range, List.getElem_map]
  exact part_treeAt (List.getElem?_eq_getElem _)

theorem items_treeAt : (g.treeAt id).items = (g.itemsAt id).map g.treeAt := by
  unfold itemsAt
  cases h : g.objectAt id with
  | list items => rw [treeAt_list h, Tree.items_ofItems]
  | _ => simp [Tree.items, treeAt, follow?, h, Object.shape]

theorem isText_treeAt_atomAt (i : ObjectId) : (g.treeAt i).isText key = (g.atomAt i).isText key := by
  rw [isText_treeAt, isTextAt, atomAt]
  cases (g.objectAt i).atom? <;> rfl

theorem value?_treeAt : (g.treeAt id).value? key = (g.valueAt? key id).map g.treeAt := by
  unfold Tree.value? valueAt? find?
  cases h : g.objectAt id with
  | mapping entries =>
    simp only [treeAt_mapping h, Tree.entries_ofEntries, treesOf, List.find?_map, Option.map_map,
      Function.comp_def, isText_treeAt_atomAt]
  | _ => simp [Tree.entries, treeAt, follow?, h, Object.shape]

/-! ### Parts of documents -/

theorem follow?_rootedAt (i : ObjectId) (place : List Nat) :
    (g.rootedAt i).follow? id place = g.follow? id place := by
  induction place generalizing id with
  | nil => rfl
  | cons n place ih =>
    unfold follow?
    congr 1
    funext part
    exact ih

theorem treeAt_rootedAt (i : ObjectId) : (g.rootedAt i).treeAt id = g.treeAt id := by
  funext place
  rw [treeAt, follow?_rootedAt]
  rfl

theorem tree_rootedAt (i : ObjectId) : (g.rootedAt i).tree = g.treeAt i := treeAt_rootedAt i

theorem atom?_tree : g.tree.atom? = g.atom? := atom?_treeAt

theorem isMapping_tree : g.tree.isMapping = g.object.isMapping := isMapping_treeAt

theorem value?_tree : g.tree.value? key = (g.get? key).map tree := by
  have hget : (g.rootedAt g.root).get? key = (g.valueAt? key g.root).map g.rootedAt := get?_rootedAt
  have hself : g.rootedAt g.root = g := rfl
  rw [tree, value?_treeAt, ← hself, hget, Option.map_map]
  congr 1
  funext i
  exact (tree_rootedAt i).symm

/-- Changing what is at a place by a change at a place inside it changes the place there. -/
theorem modifyAt_of_follow? {F : Tree → Tree} (hfollow : g.follow? id place = some j)
    (h : F (g.treeAt j) = (g.treeAt j).modifyAt place' f) :
    (g.treeAt id).modifyAt place F = (g.treeAt id).modifyAt (place ++ place') f := by
  induction place generalizing id with
  | nil =>
    obtain rfl := Option.some.inj hfollow
    exact h
  | cons n place ih =>
    obtain ⟨part, hpart, hfollow⟩ := follow?_cons.1 hfollow
    refine Tree.eq_modifyAt_cons_iff.2 ⟨rfl, ?_, fun k hk => ?_⟩
    · rw [(Tree.eq_modifyAt_cons_iff.1 rfl).2.1, part_treeAt hpart]
      exact ih hfollow
    · exact (Tree.eq_modifyAt_cons_iff.1 rfl).2.2 k hk

/-- The first item that passes a test has a place, and it is what is changed there. -/
theorem exists_modifyItem {test : ObjectId → Bool} {test' : Tree → Bool}
    (htest : ∀ i, test' (g.treeAt i) = test i) (h : (g.itemsAt id).find? test = some j) :
    ∃ i, (g.objectAt id).parts[i]? = some j ∧
      ∀ f, (g.treeAt id).modifyItem test' f = (g.treeAt id).modifyAt [i] f := by
  unfold itemsAt at h
  cases hobject : g.objectAt id with
  | list items =>
    rw [hobject] at h
    obtain ⟨before, after, rfl, -, hmodify⟩ := Tree.exists_modifyFirst htest h
    refine ⟨before.length, by simp [Object.parts], fun f => ?_⟩
    have hlen : before.length = (before.map g.treeAt).length := (List.length_map _).symm
    rw [treeAt_list hobject, Tree.modifyItem, if_pos (Tree.isList_ofItems _), Tree.items_ofItems, hmodify,
      List.map_append, List.map_cons, hlen, Tree.modifyAt_ofItems]
  | _ => simp [hobject] at h

/-- The value of a key has a place, and it is what is changed there. -/
theorem exists_modifyValue (h : g.valueAt? key id = some j) :
    ∃ entries k e, g.objectAt id = .mapping entries ∧ entries[k]? = some e ∧ e.2 = j ∧
      (g.atomAt e.1).isText key = true ∧
      ∀ f, (g.treeAt id).modifyValue key f = (g.treeAt id).modifyAt [2 * k + 1] f := by
  unfold valueAt? at h
  cases hobject : g.objectAt id with
  | mapping entries =>
    rw [hobject] at h
    obtain ⟨e, he, rfl⟩ := Option.map_eq_some_iff.1 h
    have htest : ∀ e : ObjectId × ObjectId,
        (g.treeAt e.1, g.treeAt e.2).1.isText key = (g.atomAt e.1).isText key :=
      fun e => isText_treeAt_atomAt e.1
    obtain ⟨before, after, rfl, hkey, hmodify⟩ :=
      @Tree.exists_modifyFirst _ _ _ (fun e : Tree × Tree => e.1.isText key) _ htest _ _ he
    refine ⟨_, before.length, e, rfl, by simp, rfl, hkey, fun f => ?_⟩
    have hlen : before.length = (g.treesOf before).length := (List.length_map _).symm
    rw [treeAt_mapping hobject, Tree.modifyValue, if_pos (Tree.isMapping_ofEntries _),
      Tree.entries_ofEntries, treesOf, hmodify, List.map_append, List.map_cons, ← treesOf, hlen,
      Tree.modifyAt_ofEntries]
  | _ => simp [hobject] at h

/-! ## Tests of trees -/

/-- Whether two objects have the same tree; none that goes deeper than the given depth is. -/
def sameWithin (g g' : Graph) : (depth : Nat) → ObjectId → ObjectId → Bool
  | 0, _, _ => false
  | depth + 1, id, id' =>
    (g.objectAt id).shape == (g'.objectAt id').shape &&
      (g.objectAt id).parts.length == (g'.objectAt id').parts.length &&
        ((g.objectAt id).parts.zip (g'.objectAt id').parts).all fun p =>
          sameWithin g g' depth p.1 p.2

theorem treeAt_eq_of_sameWithin {g' : Graph} {depth : Nat} {id' : ObjectId}
    (h : sameWithin g g' depth id id' = true) : g.treeAt id = g'.treeAt id' := by
  induction depth generalizing id id' with
  | zero => cases h
  | succ depth ih =>
    rw [sameWithin, Bool.and_eq_true, Bool.and_eq_true, beq_iff_eq, beq_iff_eq, List.all_eq_true] at h
    obtain ⟨⟨hshape, hlength⟩, hparts⟩ := h
    rw [treeAt_eq, treeAt_eq, hshape]
    congr 1
    refine List.ext_getElem (by simpa using hlength) fun n hn hn' => ?_
    rw [List.length_map] at hn hn'
    rw [List.getElem_map, List.getElem_map]
    refine ih (hparts ((g.objectAt id).parts[n], (g'.objectAt id').parts[n]) ?_)
    rw [← List.getElem_zip (h := by rw [List.length_zip]; omega)]
    exact List.getElem_mem _

/-- The number of places of an object; more than one if a tree goes deeper than the given depth. -/
def occurrences (g : Graph) (k : ObjectId) : (depth : Nat) → ObjectId → Nat
  | 0, _ => 2
  | depth + 1, id =>
    (if id = k then 1 else 0) + ((g.objectAt id).parts.map (occurrences g k depth)).sum

theorem lacks_of_occurrences {depth : Nat} (h : g.occurrences k depth id = 0) : g.Lacks id k := by
  induction depth generalizing id with
  | zero => cases h
  | succ depth ih =>
    rw [occurrences, Nat.add_eq_zero_iff, List.sum_eq_zero_iff_forall_eq_nat] at h
    obtain ⟨hself, hparts⟩ := h
    refine lacks_iff.2 ⟨fun heq => by simp [heq] at hself, fun j hj => ih ?_⟩
    exact hparts _ (List.mem_map_of_mem hj)

/-- Numbers that add up to one are all zero but for one of them. -/
theorem exists_of_sum_eq_one {α : Type} {f : α → Nat} {as : List α} (h : (as.map f).sum = 1) :
    ∃ before a after, as = before ++ a :: after ∧ f a = 1 ∧ (∀ b ∈ before, f b = 0) ∧
      ∀ b ∈ after, f b = 0 := by
  induction as with
  | nil => cases h
  | cons first as ih =>
    rw [List.map_cons, List.sum_cons] at h
    by_cases hfirst : f first = 0
    · obtain ⟨before, a, after, rfl, ha, hbefore, hafter⟩ := ih (by omega)
      exact ⟨first :: before, a, after, rfl, ha, List.forall_mem_cons.2 ⟨hfirst, hbefore⟩, hafter⟩
    · have hsum : (as.map f).sum = 0 := by omega
      rw [List.sum_eq_zero_iff_forall_eq_nat, List.forall_mem_map] at hsum
      exact ⟨[], first, as, rfl, by omega, by simp, hsum⟩

/-- An object that is found once has one place. -/
theorem existsUnique_of_occurrences {depth : Nat} (h : g.occurrences k depth id = 1) :
    ∃! place, g.follow? id place = some k := by
  induction depth generalizing id with
  | zero => cases h
  | succ depth ih =>
    rw [occurrences] at h
    by_cases heq : id = k
    · subst heq
      rw [if_pos rfl] at h
      have hsum : ((g.objectAt id).parts.map (g.occurrences id depth)).sum = 0 := by omega
      rw [List.sum_eq_zero_iff_forall_eq_nat] at hsum
      refine ⟨[], rfl, forall_follow?_self_iff.2 fun j hj => ?_⟩
      exact lacks_of_occurrences (hsum _ (List.mem_map_of_mem hj))
    · rw [if_neg heq, Nat.zero_add] at h
      obtain ⟨before, j, after, hparts, hj, hbefore, hafter⟩ := exists_of_sum_eq_one h
      obtain ⟨place, hplace, hunique⟩ := ih hj
      have hpart : (g.objectAt id).parts[before.length]? = some j := by simp [hparts]
      refine ⟨before.length :: place, follow?_cons.2 ⟨j, hpart, hplace⟩, fun other hother => ?_⟩
      cases other with
      | nil => exact absurd (Option.some.inj hother) heq
      | cons n rest =>
        obtain ⟨i, hi, hrest⟩ := follow?_cons.1 hother
        by_cases hn : n = before.length
        · subst hn
          obtain rfl := Option.some.inj (hi.symm.trans hpart)
          rw [hunique rest hrest]
        · -- the other parts lack the object
          have hmem : i ∈ before ∨ i ∈ after := by
            rw [hparts] at hi
            obtain hlt | hgt := Nat.lt_or_gt_of_ne hn
            · rw [List.getElem?_append_left hlt] at hi
              exact .inl (List.mem_of_getElem? hi)
            · rw [List.getElem?_append_right (Nat.le_of_lt hgt),
                List.getElem?_cons, if_neg (by omega)] at hi
              exact .inr (List.mem_of_getElem? hi)
          have hlacks : g.Lacks i k := lacks_of_occurrences (hmem.elim (hbefore i) (hafter i))
          exact absurd hrest (hlacks rest)

end Graph

/-! ## Trees of texts -/

/-- A text is read as a tree. -/
def ReadsAs (t : Text) (T : Tree) : Prop := ∃ g, load .given t = .ok g ∧ g.tree = T

theorem ReadsAs.unique {t : Text} {T U : Tree} (h : ReadsAs t T) (h' : ReadsAs t U) : T = U := by
  obtain ⟨g, hload, rfl⟩ := h
  obtain ⟨g', hload', rfl⟩ := h'
  rw [Except.ok.inj (hload.symm.trans hload')]

end WorkflowLint.Yaml
