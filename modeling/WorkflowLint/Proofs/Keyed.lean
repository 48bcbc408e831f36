import Mathlib.Data.List.Induction
import Mathlib.Data.List.Nodup
import Mathlib.Order.Bounds.Basic
import WorkflowLint.Keyed

/-!
# Keys that differ

A list of pairs that was made by setting keys has no key twice (`nodup_ofPairs`), and a list that
has no key twice is the one that setting its pairs makes (`ofPairs_of_nodup`).  The order in which
pairs with different keys are set shows in nothing but the order of the keys (`perm_foldl_set`).
Keys that are there can be set in any order (`foldl_set_perm`).  Grouping elements by their keys gives
each key the elements that have it (`groupBy_eq`).
-/

namespace WorkflowLint.Keyed

variable {κ α : Type} [DecidableEq κ] {key : κ} {value : α} {l pairs : List (κ × α)} {p : κ × α}

/-! ## Looking up -/

theorem mem_of_get? (h : get? key l = some value) : (key, value) ∈ l := by
  induction l with
  | nil => simp at h
  | cons q l ih =>
    obtain ⟨k, v⟩ := q
    rw [get?] at h
    split at h
    · next hk =>
      obtain rfl : v = value := by simpa using h
      rw [hk]
      exact List.mem_cons_self
    · exact List.mem_cons_of_mem _ (ih h)

theorem get?_of_mem (hnodup : (l.map (·.1)).Nodup) (h : (key, value) ∈ l) :
    get? key l = some value := by
  induction l with
  | nil => exact absurd h List.not_mem_nil
  | cons q l ih =>
    rw [List.map_cons, List.nodup_cons] at hnodup
    obtain rfl | h := List.mem_cons.1 h
    · exact if_pos rfl
    · have hne : q.1 ≠ key := fun hq => hnodup.1 (hq ▸ List.mem_map_of_mem h)
      rw [get?, if_neg hne]
      exact ih hnodup.2 h

theorem mem_iff_get? (h : (l.map (·.1)).Nodup) :
    (key, value) ∈ l ↔ get? key l = some value := ⟨get?_of_mem h, mem_of_get?⟩

theorem get?_append (key : κ) (l l' : List (κ × α)) :
    get? key (l ++ l') = (get? key l).or (get? key l') := by
  induction l with
  | nil => rfl
  | cons p l ih =>
    obtain ⟨k, v⟩ := p
    by_cases hk : k = key
    · simp [get?, hk]
    · simp [get?, hk, ih]

/-- What is looked up stands behind pairs with other keys. -/
theorem get?_eq_some_iff_append : get? key l = some value ↔
    ∃ before after, l = before ++ (key, value) :: after ∧ key ∉ before.map (·.1) := by
  induction l with
  | nil => simp
  | cons q l ih =>
    obtain ⟨k, v⟩ := q
    by_cases hk : k = key
    · subst hk
      rw [get?, if_pos rfl]
      constructor
      · intro h
        obtain rfl := Option.some.inj h
        exact ⟨[], l, rfl, List.not_mem_nil⟩
      · rintro ⟨_ | ⟨q, before⟩, after, heq, hbefore⟩
        · obtain ⟨heq, -⟩ := List.cons.inj heq
          rw [(Prod.mk.inj heq).2]
        · obtain ⟨rfl, -⟩ := List.cons.inj heq
          exact absurd List.mem_cons_self hbefore
    · rw [get?, if_neg hk, ih]
      constructor
      · rintro ⟨before, after, rfl, hbefore⟩
        exact ⟨(k, v) :: before, after, rfl,
          List.not_mem_cons_of_ne_of_not_mem (Ne.symm hk) hbefore⟩
      · rintro ⟨_ | ⟨q, before⟩, after, heq, hbefore⟩
        · exact absurd (Prod.mk.inj (List.cons.inj heq).1).1 hk
        · obtain ⟨rfl, rfl⟩ := List.cons.inj heq
          exact ⟨before, after, rfl, fun hmem => hbefore (List.mem_cons_of_mem k hmem)⟩

/-- A list that has no key twice is told by its keys and what they have. -/
theorem eq_map_getD_get? {start : α} {view : κ → α} (h : (l.map (·.1)).Nodup)
    (hview : ∀ key, (get? key l).getD start = view key) :
    l = (l.map (·.1)).map fun key => (key, view key) := by
  have hpair : ∀ p ∈ l, (p.1, view p.1) = p := by
    intro p hp
    rw [← hview, get?_of_mem h hp, Option.getD_some]
  rw [List.map_map]
  exact ((List.map_congr_left hpair).trans (List.map_id _)).symm

theorem isSome_get?_iff : (get? key l).isSome = true ↔ key ∈ l.map (·.1) := by
  induction l with
  | nil => simp
  | cons q l ih =>
    by_cases hk : q.1 = key
    · simp [get?, hk]
    · simp [get?, hk, Ne.symm hk, ih]

/-- Leaving out a key does not concern the others. -/
theorem get?_filter {keep : κ × α → Bool} (hkeep : ∀ q, keep q = true ↔ q.1 ≠ key) (other : κ) :
    get? other (l.filter keep) = if other = key then none else get? other l := by
  induction l with
  | nil => simp
  | cons q l ih =>
    obtain ⟨k, v⟩ := q
    by_cases hk : k = key
    · subst hk
      rw [List.filter_cons_of_neg fun hq => (hkeep _).1 hq rfl, ih, get?]
      by_cases ho : other = k
      · rw [if_pos ho, if_pos ho]
      · rw [if_neg ho, if_neg ho, if_neg (Ne.symm ho)]
    · rw [List.filter_cons_of_pos ((hkeep _).2 hk), get?, get?, ih]
      by_cases ho : k = other
      · rw [if_pos ho, if_pos ho, if_neg (ho ▸ hk)]
      · rw [if_neg ho, if_neg ho]

/-! ## Other orders -/

section

variable {l' : List (κ × α)}

theorem get?_perm (hperm : l.Perm l') (h : (l.map (·.1)).Nodup) (key : κ) :
    get? key l = get? key l' := by
  have h' : (l'.map (·.1)).Nodup := (hperm.map _).nodup_iff.1 h
  refine Option.ext fun value => ?_
  rw [← mem_iff_get? h, ← mem_iff_get? h', hperm.mem_iff]

/-- Two lists without a key twice that give all keys the same values differ in order only. -/
theorem perm_of_get? (h : (l.map (·.1)).Nodup) (h' : (l'.map (·.1)).Nodup)
    (hget : ∀ key, get? key l = get? key l') : l.Perm l' := by
  refine (List.perm_ext_iff_of_nodup h.of_map h'.of_map).2 ?_
  rintro ⟨key, value⟩
  rw [mem_iff_get? h, mem_iff_get? h', hget]

end

/-! ## Setting -/

theorem mem_of_mem_set (h : p ∈ set key value l) : p ∈ l ∨ p = (key, value) := by
  induction l with
  | nil => exact .inr (List.mem_singleton.1 h)
  | cons q l ih =>
    rw [set] at h
    split at h
    · next hk =>
      rcases List.mem_cons.1 h with rfl | h
      · exact .inr (by rw [hk])
      · exact .inl (List.mem_cons_of_mem _ h)
    · rcases List.mem_cons.1 h with rfl | h
      · exact .inl List.mem_cons_self
      · exact (ih h).imp_left (List.mem_cons_of_mem _)

theorem mem_set_self : (key, value) ∈ set key value l := by
  induction l with
  | nil => exact List.mem_cons_self
  | cons q l ih =>
    rw [set]
    split
    · next hk =>
      rw [hk]
      exact List.mem_cons_self
    · exact List.mem_cons_of_mem _ ih

/-- A key that is not there is set at the end. -/
theorem set_of_not_mem (h : key ∉ l.map (·.1)) : set key value l = l ++ [(key, value)] := by
  induction l with
  | nil => rfl
  | cons q l ih =>
    obtain ⟨hne, hnot⟩ := not_or.1 (mt List.mem_cons.2 h)
    rw [set, if_neg (Ne.symm hne), ih hnot, List.cons_append]

/-- Setting a key to the value that it has changes nothing. -/
theorem set_of_get? (h : get? key l = some value) : set key value l = l := by
  induction l with
  | nil => simp at h
  | cons q l ih =>
    obtain ⟨k, v⟩ := q
    rw [get?] at h
    rw [set]
    split at h
    · next hk =>
      obtain rfl : v = value := by simpa using h
      rw [if_pos hk]
    · next hk => rw [if_neg hk, ih h]

/-- Of two values that are given to a key one after the other the second one counts. -/
theorem set_set (value' : α) : set key value' (set key value l) = set key value' l := by
  induction l with
  | nil => exact if_pos rfl
  | cons q l ih =>
    by_cases hk : q.1 = key
    · simp [set, hk]
    · simp [set, hk, ih]

/-- Two keys of which the first is there can be set in either order. -/
theorem set_comm {key' : κ} {value' : α} (hmem : key ∈ l.map (·.1)) (hne : key ≠ key') :
    set key value (set key' value' l) = set key' value' (set key value l) := by
  induction l with
  | nil => exact absurd hmem List.not_mem_nil
  | cons q l ih =>
    by_cases hk : q.1 = key
    · simp [set, hk, hne]
    · have hmem' : key ∈ l.map (·.1) := (List.mem_cons.1 hmem).resolve_left (Ne.symm hk)
      by_cases hk' : q.1 = key'
      · simp [set, hk', Ne.symm hne]
      · simp [set, hk, hk', ih hmem']

/-- Keys can be left out before or after one is set that is kept. -/
theorem filter_set (keep : κ → Bool) (hkey : keep key = true) :
    (set key value l).filter (fun q => keep q.1) = set key value (l.filter fun q => keep q.1) := by
  induction l with
  | nil => simp [set, hkey]
  | cons q l ih =>
    by_cases hk : q.1 = key
    · simp [set, hk, hkey]
    · cases hq : keep q.1 <;> simp [set, hk, hq, ih]

theorem nodup_set (h : (l.map (·.1)).Nodup) : ((set key value l).map (·.1)).Nodup := by
  rw [map_fst_set]
  split
  · exact h
  · next hnot =>
    refine List.nodup_append.2 ⟨h, by simp, fun k hk k' hk' heq => ?_⟩
    rw [heq, List.mem_singleton.1 hk'] at hk
    exact hnot hk

/-! ## Setting all pairs of a list -/

theorem nodup_foldl_set (h : (l.map (·.1)).Nodup) :
    ((pairs.foldl (fun l p => set p.1 p.2 l) l).map (·.1)).Nodup := by
  induction pairs generalizing l with
  | nil => exact h
  | cons q pairs ih => exact ih (nodup_set h)

theorem nodup_ofPairs (pairs : List (κ × α)) : ((ofPairs pairs).map (·.1)).Nodup :=
  nodup_foldl_set List.nodup_nil

theorem mem_of_mem_foldl_set (h : p ∈ pairs.foldl (fun l p => set p.1 p.2 l) l) :
    p ∈ l ∨ p ∈ pairs := by
  induction pairs generalizing l with
  | nil => exact .inl h
  | cons q pairs ih =>
    rcases ih h with h | h
    · rcases mem_of_mem_set h with h | rfl
      · exact .inl h
      · exact .inr List.mem_cons_self
    · exact .inr (List.mem_cons_of_mem _ h)

theorem mem_of_mem_ofPairs (h : p ∈ ofPairs pairs) : p ∈ pairs :=
  (mem_of_mem_foldl_set h).resolve_left List.not_mem_nil

theorem foldl_set_of_nodup (h : ((l ++ pairs).map (·.1)).Nodup) :
    pairs.foldl (fun l p => set p.1 p.2 l) l = l ++ pairs := by
  induction pairs generalizing l with
  | nil => exact (List.append_nil _).symm
  | cons q pairs ih =>
    have hsplit : (l.map (·.1) ++ q.1 :: pairs.map (·.1)).Nodup := by simpa using h
    have hnot : q.1 ∉ l.map (·.1) := fun hq =>
      (List.nodup_append.1 hsplit).2.2 _ hq _ List.mem_cons_self rfl
    rw [List.foldl_cons, set_of_not_mem hnot, ih (by simpa using h), List.append_assoc]
    rfl

/-- Of the pairs that are set and those that were there before, the former count. -/
theorem get?_foldl_set (h : (pairs.map (·.1)).Nodup) (key : κ) :
    get? key (pairs.foldl (fun l p => set p.1 p.2 l) l) = (get? key pairs).or (get? key l) := by
  induction pairs generalizing l with
  | nil => rfl
  | cons q pairs ih =>
    rw [List.map_cons, List.nodup_cons] at h
    rw [List.foldl_cons, ih h.2, get?_set, get?]
    by_cases hq : q.1 = key
    · -- no other of the pairs has this key
      have hnone : get? key pairs = none := by
        rw [← Option.not_isSome_iff_eq_none, isSome_get?_iff, ← hq]
        exact h.1
      rw [if_pos hq, if_pos hq, hnone]
      rfl
    · rw [if_neg hq, if_neg hq]

/-- Pairs with different keys can be set in any order but for that of the keys. -/
theorem perm_foldl_set {pairs' : List (κ × α)} (hperm : pairs.Perm pairs')
    (hpairs : (pairs.map (·.1)).Nodup) (hl : (l.map (·.1)).Nodup) :
    (pairs.foldl (fun l p => set p.1 p.2 l) l).Perm
      (pairs'.foldl (fun l p => set p.1 p.2 l) l) := by
  have hpairs' : (pairs'.map (·.1)).Nodup := (hperm.map _).nodup_iff.1 hpairs
  refine perm_of_get? (nodup_foldl_set hl) (nodup_foldl_set hl) fun key => ?_
  rw [get?_foldl_set hpairs, get?_foldl_set hpairs', get?_perm hperm hpairs]

/-- A list without a key twice is made by setting its pairs. -/
theorem ofPairs_of_nodup (h : (pairs.map (·.1)).Nodup) : ofPairs pairs = pairs :=
  foldl_set_of_nodup (l := []) h

theorem get?_foldl_set_of_not_mem {key : κ} (h : key ∉ pairs.map (·.1)) :
    get? key (pairs.foldl (fun l p => set p.1 p.2 l) l) = get? key l := by
  induction pairs generalizing l with
  | nil => rfl
  | cons p pairs ih =>
    rw [List.map_cons, List.mem_cons, not_or] at h
    rw [List.foldl_cons, ih h.2, get?_set, if_neg (Ne.symm h.1)]

/-- Setting keys that are there keeps all keys in their places. -/
theorem map_fst_foldl_set (h : ∀ p ∈ pairs, p.1 ∈ l.map (·.1)) :
    (pairs.foldl (fun l p => set p.1 p.2 l) l).map (·.1) = l.map (·.1) := by
  induction pairs generalizing l with
  | nil => rfl
  | cons p pairs ih =>
    obtain ⟨hp, hpairs⟩ := List.forall_mem_cons.1 h
    have hset : (set p.1 p.2 l).map (·.1) = l.map (·.1) := by rw [map_fst_set, if_pos hp]
    rw [List.foldl_cons, ih fun q hq => hset ▸ hpairs q hq, hset]

/-- Different keys that are there can be set in any order. -/
theorem foldl_set_perm {pairs' : List (κ × α)} (hperm : pairs.Perm pairs')
    (hpairs : (pairs.map (·.1)).Nodup) (hmem : ∀ p ∈ pairs, p.1 ∈ l.map (·.1)) :
    pairs.foldl (fun l p => set p.1 p.2 l) l = pairs'.foldl (fun l p => set p.1 p.2 l) l := by
  induction hperm generalizing l with
  | nil => rfl
  | cons p hperm ih =>
    obtain ⟨hp, hmem⟩ := List.forall_mem_cons.1 hmem
    have hset : (set p.1 p.2 l).map (·.1) = l.map (·.1) := by rw [map_fst_set, if_pos hp]
    exact ih (List.nodup_cons.1 hpairs).2 fun q hq => hset ▸ hmem q hq
  | swap p q pairs =>
    have hne : p.1 ≠ q.1 := by
      rw [List.map_cons, List.map_cons, List.nodup_cons, List.mem_cons, not_or] at hpairs
      exact Ne.symm hpairs.1.1
    have hp := hmem p (List.mem_cons_of_mem q List.mem_cons_self)
    simp only [List.foldl_cons, set_comm hp hne]
  | trans hfirst _ ih ih' =>
    rw [ih hpairs hmem, ih' ((hfirst.map _).nodup_iff.1 hpairs) fun p hp => hmem p (hfirst.mem_iff.2 hp)]

/-- Of the values that are set for a key the last one counts. -/
theorem get?_ofPairs_eq_getLast? (pairs : List (κ × α)) (key : κ) :
    get? key (ofPairs pairs) = ((pairs.filter fun q => q.1 = key).map (·.2)).getLast? := by
  induction pairs using List.reverseRecOn with
  | nil => rfl
  | append_singleton pairs p ih =>
    have hset : ofPairs (pairs ++ [p]) = set p.1 p.2 (ofPairs pairs) := List.foldl_append
    rw [hset, get?_set, ih, List.filter_append]
    by_cases hp : p.1 = key
    · simp [hp]
    · simp [hp]

/-! ## Updating -/

section Update

variable {start : α} {change : α → α}

theorem map_fst_update :
    (update key start change l).map (·.1) = (set key (change start) l).map (·.1) := by
  induction l with
  | nil => rfl
  | cons q l ih =>
    rw [update, set]
    split
    · rfl
    · rw [List.map_cons, List.map_cons, ih]

theorem get?_update (other : κ) : get? other (update key start change l) =
    if key = other then some (change ((get? key l).getD start)) else get? other l := by
  induction l with
  | nil => rfl
  | cons q l ih =>
    obtain ⟨k, v⟩ := q
    by_cases hk : k = key
    · subst hk
      by_cases ho : k = other <;> simp [update, get?, ho]
    · by_cases ho : k = other
      · subst ho
        simp [update, get?, hk, Ne.symm hk]
      · simp [update, get?, hk, ho, ih]

theorem nodup_update (h : (l.map (·.1)).Nodup) : ((update key start change l).map (·.1)).Nodup := by
  rw [map_fst_update]
  exact nodup_set h

/-- All values can be converted before or after one of them is updated. -/
theorem map_update {convert change' : α → α} (h : ∀ a, convert (change a) = change' (convert a)) :
    (update key start change l).map (Prod.map id convert) =
      update key (convert start) change' (l.map (Prod.map id convert)) := by
  induction l with
  | nil => simp [update, h]
  | cons q l ih =>
    obtain ⟨k, v⟩ := q
    by_cases hk : k = key <;> simp [update, hk, h, ih]

end Update

/-! ## Groups -/

section Groups

variable {group : κ × List α} {elements : List α} {grouping : α → κ}

theorem nodup_groupBy (grouping : α → κ) (elements : List α) :
    ((groupBy grouping elements).map (·.1)).Nodup := by
  induction elements using List.reverseRecOn with
  | nil => exact List.nodup_nil
  | append_singleton elements a ih =>
    rw [groupBy, List.foldl_append]
    exact nodup_update ih

/-- The group of a key has the elements with that key. -/
theorem getD_get?_groupBy (grouping : α → κ) (elements : List α) (key : κ) :
    (get? key (groupBy grouping elements)).getD [] = elements.filter fun a => grouping a = key := by
  induction elements using List.reverseRecOn with
  | nil => rfl
  | append_singleton elements a ih =>
    have hstep : groupBy grouping (elements ++ [a]) =
        update (grouping a) [] (· ++ [a]) (groupBy grouping elements) := by
      rw [groupBy, List.foldl_append]
      rfl
    rw [hstep, get?_update, List.filter_append]
    by_cases h : grouping a = key
    · rw [if_pos h, Option.getD_some, h, ih, List.filter_cons_of_pos (by simpa using h)]
      rfl
    · rw [if_neg h, ih, List.filter_cons_of_neg (by simpa using h), List.filter_nil,
        List.append_nil]

/-- A change of elements that keeps their keys can be made before or after they are grouped. -/
theorem groupBy_map (change : α → α) (h : ∀ a, grouping (change a) = grouping a) (elements : List α) :
    groupBy grouping (elements.map change) =
      (groupBy grouping elements).map (Prod.map id (List.map change)) := by
  induction elements using List.reverseRecOn with
  | nil => rfl
  | append_singleton elements a ih =>
    have hstep : ∀ groups : List (κ × List α),
        (update (grouping a) [] (· ++ [a]) groups).map (Prod.map id (List.map change)) =
          update (grouping a) [] (· ++ [change a]) (groups.map (Prod.map id (List.map change))) :=
      fun _ => map_update fun _ => List.map_append
    rw [List.map_append, groupBy, groupBy, List.foldl_append, List.foldl_append, ← groupBy, ← groupBy, ih]
    simp only [List.map_cons, List.map_nil, List.foldl_cons, List.foldl_nil, h, hstep]

/-- The elements of a group are those with its key. -/
theorem mem_of_mem_groupBy {b : α} (h : group ∈ groupBy grouping elements) (hb : b ∈ group.2) :
    b ∈ elements ∧ grouping b = group.1 := by
  have hget := getD_get?_groupBy grouping elements group.1
  rw [get?_of_mem (nodup_groupBy grouping elements) h, Option.getD_some] at hget
  rwa [hget, List.mem_filter, decide_eq_true_eq] at hb

end Groups

/-! ## Elements without repetition -/

section Distinct

variable {elements elements' : List α} {grouping : α → κ}

theorem mem_foldl_distinct {seen elements : List κ} {a : κ} :
    a ∈ elements.foldl (fun seen a => if a ∈ seen then seen else seen ++ [a]) seen ↔
      a ∈ seen ∨ a ∈ elements := by
  induction elements generalizing seen with
  | nil => simp
  | cons b elements ih =>
    rw [List.foldl_cons, ih, List.mem_cons]
    by_cases hb : b ∈ seen
    · rw [if_pos hb]
      refine ⟨fun h => h.imp_right .inr, ?_⟩
      rintro (h | rfl | h)
      · exact .inl h
      · exact .inl hb
      · exact .inr h
    · rw [if_neg hb, List.mem_append, List.mem_singleton, or_assoc]

theorem mem_distinct {elements : List κ} {a : κ} : a ∈ distinct elements ↔ a ∈ elements := by
  rw [distinct, mem_foldl_distinct]
  simp

/-- The keys of groups are the keys of their elements, in the order in which they occur first. -/
theorem map_fst_groupBy (grouping : α → κ) (elements : List α) :
    (groupBy grouping elements).map (·.1) = distinct (elements.map grouping) := by
  induction elements using List.reverseRecOn with
  | nil => rfl
  | append_singleton elements a ih =>
    rw [groupBy, List.foldl_append, ← groupBy, List.map_append, distinct, List.foldl_append, ← distinct]
    simp only [List.foldl_cons, List.foldl_nil, List.map_cons, List.map_nil]
    rw [map_fst_update, map_fst_set, ih]

theorem nodup_distinct (elements : List κ) : (distinct elements).Nodup := by
  have hkeys := nodup_groupBy id elements
  rwa [map_fst_groupBy, List.map_id] at hkeys

theorem distinct_concat (elements : List κ) (a : κ) : distinct (elements ++ [a]) =
    if a ∈ distinct elements then distinct elements else distinct elements ++ [a] := by
  rw [distinct, List.foldl_append]
  rfl

/-- An element that occurred before makes no difference. -/
theorem distinct_append_cons {before : List κ} {a : κ} (h : a ∈ before) (after : List κ) :
    distinct (before ++ a :: after) = distinct (before ++ after) := by
  have hbefore : distinct (before ++ [a]) = distinct before := by
    rw [distinct_concat, if_pos (mem_distinct.2 h)]
  rw [← List.singleton_append, ← List.append_assoc, distinct, List.foldl_append, ← distinct, hbefore,
    distinct, distinct, List.foldl_append]

/-- Of the places of an element in a list that goes from place to place, there is a first one. -/
theorem exists_isLeast_place {P : Type} [Preorder P] {placed : List (P × κ)}
    (h : placed.Pairwise fun x y => x.1 < y.1) {a : κ} (ha : a ∈ placed.map (·.2)) :
    ∃ p, IsLeast {p | (p, a) ∈ placed} p := by
  induction placed with
  | nil => exact absurd ha List.not_mem_nil
  | cons first placed ih =>
    obtain ⟨hfirst, hplaced⟩ := List.pairwise_cons.1 h
    by_cases heq : first.2 = a
    · refine ⟨first.1, heq ▸ List.mem_cons_self, fun q hq => ?_⟩
      obtain rfl | hq := List.mem_cons.1 hq
      · exact le_rfl
      · exact (hfirst _ hq).le
    · have hne : ∀ {q}, (q, a) ∈ first :: placed ↔ (q, a) ∈ placed := fun {q} =>
        List.mem_cons.trans (or_iff_right fun hq => heq (congrArg Prod.snd hq).symm)
      obtain ⟨p, hp⟩ := ih hplaced ((List.mem_cons.1 ha).resolve_left (Ne.symm heq))
      exact ⟨p, hne.2 hp.1, fun q hq => hp.2 (hne.1 hq)⟩

/-- The elements of a list that goes from place to place are left in the order of their first places. -/
theorem pairwise_distinct {P : Type} [Preorder P] {placed : List (P × κ)}
    (h : placed.Pairwise fun x y => x.1 < y.1) : (distinct (placed.map (·.2))).Pairwise fun a b =>
      ∃ p q, IsLeast {p | (p, a) ∈ placed} p ∧ IsLeast {q | (q, b) ∈ placed} q ∧ p < q := by
  induction placed using List.reverseRecOn with
  | nil => exact List.Pairwise.nil
  | append_singleton placed last ih =>
    obtain ⟨hplaced, -, hlast⟩ := List.pairwise_append.1 h
    have hlast : ∀ x ∈ placed, x.1 < last.1 := fun x hx => hlast x hx last (List.mem_singleton_self _)
    -- the last place is not the first one of an element that was there before
    have hfirst : ∀ a p, IsLeast {p | (p, a) ∈ placed} p →
        IsLeast {p | (p, a) ∈ placed ++ [last]} p := by
      rintro a p ⟨hmem, hleast⟩
      refine ⟨List.mem_append_left _ hmem, fun q hq => ?_⟩
      obtain hq | hq := List.mem_append.1 hq
      · exact hleast hq
      · rw [← List.mem_singleton.1 hq] at hlast
        exact (hlast _ hmem).le
    have hkept : (distinct (placed.map (·.2))).Pairwise fun a b => ∃ p q,
        IsLeast {p | (p, a) ∈ placed ++ [last]} p ∧ IsLeast {q | (q, b) ∈ placed ++ [last]} q ∧
          p < q :=
      (ih hplaced).imp fun ⟨p, q, hp, hq, hlt⟩ => ⟨p, q, hfirst _ p hp, hfirst _ q hq, hlt⟩
    rw [List.map_append, List.map_singleton, distinct_concat]
    split
    · exact hkept
    · next hnew =>
      rw [mem_distinct] at hnew
      have hleast : IsLeast {q | (q, last.2) ∈ placed ++ [last]} last.1 := by
        refine ⟨List.mem_append_right _ (List.mem_singleton_self _), fun q hq => ?_⟩
        obtain hq | hq := List.mem_append.1 hq
        · exact absurd (List.mem_map_of_mem hq) hnew
        · rw [← List.mem_singleton.1 hq]
      refine List.pairwise_append.2 ⟨hkept, List.pairwise_singleton _ _, fun a ha b hb => ?_⟩
      obtain rfl := List.mem_singleton.1 hb
      obtain ⟨p, hp⟩ := exists_isLeast_place hplaced (mem_distinct.1 ha)
      exact ⟨p, last.1, hfirst a p hp, hleast, hlast _ hp.1⟩

/-- Elements can be replaced by others, different ones by different ones, before or after those are
left out that occurred before. -/
theorem distinct_map {κ' : Type} [DecidableEq κ'] {f : κ → κ'} {elements : List κ}
    (hf : ∀ a ∈ elements, ∀ b ∈ elements, f a = f b → a = b) :
    distinct (elements.map f) = (distinct elements).map f := by
  induction elements using List.reverseRecOn with
  | nil => rfl
  | append_singleton elements a ih =>
    have hmem : f a ∈ (distinct elements).map f ↔ a ∈ distinct elements := by
      refine ⟨fun h => ?_, List.mem_map_of_mem⟩
      obtain ⟨b, hb, heq⟩ := List.mem_map.1 h
      have hb' := List.mem_append_left [a] (mem_distinct.1 hb)
      rwa [hf b hb' a (List.mem_append_right _ List.mem_cons_self) heq] at hb
    rw [List.map_append, List.map_singleton, distinct_concat, distinct_concat,
      ih fun b hb c hc => hf b (List.mem_append_left _ hb) c (List.mem_append_left _ hc)]
    simp only [hmem]
    split
    · rfl
    · rw [List.map_append, List.map_singleton]

/-- Every key has one group, of the elements with that key in their order. -/
theorem groupBy_eq (grouping : α → κ) (elements : List α) :
    groupBy grouping elements =
      (distinct (elements.map grouping)).map fun key =>
        (key, elements.filter fun a => grouping a = key) := by
  rw [← map_fst_groupBy]
  exact eq_map_getD_get? (nodup_groupBy grouping elements) (getD_get?_groupBy grouping elements)

/-- Grouping loses no element and doubles none. -/
theorem flatMap_groupBy_perm (grouping : α → κ) (elements : List α) :
    ((groupBy grouping elements).flatMap (·.2)).Perm elements := by
  have hupdate : ∀ (key : κ) (a : α) (groups : List (κ × List α)),
      ((update key [] (· ++ [a]) groups).flatMap (·.2)).Perm (groups.flatMap (·.2) ++ [a]) := by
    intro key a groups
    induction groups with
    | nil => exact .refl _
    | cons group groups ih =>
      rw [update]
      split
      · rw [List.flatMap_cons, List.flatMap_cons, List.append_assoc, List.append_assoc]
        exact .append_left _ List.perm_append_comm
      · rw [List.flatMap_cons, List.flatMap_cons, List.append_assoc]
        exact .append_left _ ih
  induction elements using List.reverseRecOn with
  | nil => exact .refl _
  | append_singleton elements a ih =>
    rw [groupBy, List.foldl_append, ← groupBy]
    exact (hupdate (grouping a) a _).trans (ih.append_right [a])

/-- Elements that are reordered, but not those with the same key, have the same groups. -/
theorem groupBy_perm (h : ∀ key, (elements'.filter fun a => grouping a = key)
      = elements.filter fun a => grouping a = key) :
    (groupBy grouping elements').Perm (groupBy grouping elements) := by
  have hmem : ∀ key, key ∈ elements'.map grouping ↔ key ∈ elements.map grouping := by
    have hfilter : ∀ (elements : List α) (key : κ), key ∈ elements.map grouping ↔
        (elements.filter fun a => grouping a = key) ≠ [] := by
      intro elements key
      simp [List.filter_eq_nil_iff]
    intro key
    rw [hfilter, hfilter, h key]
  rw [groupBy_eq, groupBy_eq]
  simp only [h]
  refine List.Perm.map _ ((List.perm_ext_iff_of_nodup (nodup_distinct _) (nodup_distinct _)).2 ?_)
  intro key
  rw [mem_distinct, mem_distinct, hmem]

end Distinct

end WorkflowLint.Keyed
