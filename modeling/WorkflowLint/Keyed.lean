/-!
# Keyed lists

Collections that are looked up by a key and shown in the order in which their keys first occurred:
a list of pairs with at most one pair for each key.
-/

namespace WorkflowLint.Keyed

variable {κ α : Type} [DecidableEq κ]

/-- The value of a key. -/
def get? (key : κ) : List (κ × α) → Option α
  | [] => none
  | (k, v) :: rest => if k = key then some v else get? key rest

/-- Gives a key a value: in its place, or at the end if there is none. -/
def set (key : κ) (value : α) : List (κ × α) → List (κ × α)
  | [] => [(key, value)]
  | (k, v) :: rest => if k = key then (k, value) :: rest else (k, v) :: set key value rest

/-- Changes the value of a key, which is `start` if it has none yet. -/
def update (key : κ) (start : α) (change : α → α) : List (κ × α) → List (κ × α)
  | [] => [(key, change start)]
  | (k, v) :: rest =>
    if k = key then (k, change v) :: rest else (k, v) :: update key start change rest

/-- The list made by setting the pairs from left to right. -/
def ofPairs (pairs : List (κ × α)) : List (κ × α) := pairs.foldl (fun l p => set p.1 p.2 l) []

/-- Elements grouped by a key, the groups in the order in which their keys occur first. -/
def groupBy (key : α → κ) (elements : List α) : List (κ × List α) :=
  elements.foldl (fun groups a => update (key a) [] (· ++ [a]) groups) []

/-- The elements without those that occurred before. -/
def distinct (elements : List κ) : List κ :=
  elements.foldl (fun seen a => if a ∈ seen then seen else seen ++ [a]) []

@[simp] theorem get?_nil (key : κ) : get? key ([] : List (κ × α)) = none := rfl

theorem get?_set (key other : κ) (value : α) (l : List (κ × α)) :
    get? other (set key value l) = if key = other then some value else get? other l := by
  induction l with
  | nil => simp [set, get?]
  | cons p l ih =>
    obtain ⟨k, v⟩ := p
    by_cases hk : k = key
    · subst hk
      by_cases ho : k = other <;> simp [set, get?, ho]
    · by_cases ho : k = other
      · subst ho
        simp [set, get?, hk, Ne.symm hk]
      · simp [set, get?, hk, ho, ih]

theorem map_fst_set (key : κ) (value : α) (l : List (κ × α)) :
    (set key value l).map (·.1) =
      if key ∈ l.map (·.1) then l.map (·.1) else l.map (·.1) ++ [key] := by
  induction l with
  | nil => simp [set]
  | cons p l ih =>
    obtain ⟨k, v⟩ := p
    by_cases hk : k = key
    · subst hk; simp [set]
    · simp only [set, hk, if_false, List.map_cons, ih, List.mem_cons, Ne.symm hk, false_or]
      split <;> simp

end WorkflowLint.Keyed
