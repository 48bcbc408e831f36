import WorkflowLint.Json.Value

/-!
# Values of the same shape

Two values are alike if they differ in nothing but what is in their strings and names, and these are
related (`Alike`).  Values are compared as they are written, so that members of the same name count one
by one.  What relates strings to themselves, or to what they lead to in two steps, does so with values
(`alike_refl`, `Alike.trans`).
-/

namespace WorkflowLint.Json

/-- Two values are of the same shape, and their strings and names are related: the arrays have the same
lengths, the objects the same members in the same order, and all other values are equal. -/
inductive Alike (R : Text → Text → Prop) : Json → Json → Prop
  | null : Alike R .null .null
  | bool (b : Bool) : Alike R (.bool b) (.bool b)
  | integer (n : Int) : Alike R (.integer n) (.integer n)
  | real (x : Binary64) : Alike R (.real x) (.real x)
  | string {s s' : Text} : R s s' → Alike R (.string s) (.string s')
  | array {items items' : List Json} : items.length = items'.length →
      (∀ pair ∈ items.zip items', Alike R pair.1 pair.2) → Alike R (.array items) (.array items')
  | object {members members' : List (Text × Json)} : members.length = members'.length →
      (∀ pair ∈ members.zip members', R pair.1.1 pair.2.1) →
      (∀ pair ∈ members.zip members', Alike R pair.1.2 pair.2.2) →
      Alike R (.object members) (.object members')

variable {R S : Text → Text → Prop} {u v w : Json}

theorem exists_mem_zip {α β γ : Type} {as : List α} {bs : List β} {cs : List γ}
    (hab : as.length = bs.length) (hbc : bs.length = cs.length) {pair : α × γ}
    (h : pair ∈ as.zip cs) : ∃ b, (pair.1, b) ∈ as.zip bs ∧ (b, pair.2) ∈ bs.zip cs := by
  obtain ⟨i, hi, rfl⟩ := List.mem_iff_getElem.1 h
  rw [List.length_zip] at hi
  refine ⟨bs[i], List.mem_iff_getElem.2 ⟨i, ?_, ?_⟩, List.mem_iff_getElem.2 ⟨i, ?_, ?_⟩⟩
  · rw [List.length_zip]
    omega
  · simp
  · rw [List.length_zip]
    omega
  · simp

theorem Alike.mono (h : Alike R v w) (hRS : ∀ s t, R s t → S s t) : Alike S v w := by
  induction h with
  | null => exact .null
  | bool b => exact .bool b
  | integer n => exact .integer n
  | real x => exact .real x
  | string hs => exact .string (hRS _ _ hs)
  | array hlen _ ih => exact .array hlen ih
  | object hlen hnames _ ih => exact .object hlen (fun pair hp => hRS _ _ (hnames pair hp)) ih

theorem Alike.trans (hR : ∀ s t x, R s t → R t x → R s x) (h : Alike R u v) (h' : Alike R v w) :
    Alike R u w := by
  induction h generalizing w with
  | null | bool | integer | real => exact h'
  | string hs =>
    cases h' with
    | string hs' => exact .string (hR _ _ _ hs hs')
  | array hlen _ ih =>
    cases h' with
    | array hlen' hall' =>
      refine .array (hlen.trans hlen') fun pair hp => ?_
      obtain ⟨b, hb, hb'⟩ := exists_mem_zip hlen hlen' hp
      exact ih _ hb (hall' _ hb')
  | object hlen hnames _ ih =>
    cases h' with
    | object hlen' hnames' hall' =>
      refine .object (hlen.trans hlen') (fun pair hp => ?_) fun pair hp => ?_
      · obtain ⟨b, hb, hb'⟩ := exists_mem_zip hlen hlen' hp
        exact hR _ _ _ (hnames (pair.1, b) hb) (hnames' (b, pair.2) hb')
      · obtain ⟨b, hb, hb'⟩ := exists_mem_zip hlen hlen' hp
        exact ih _ hb (hall' _ hb')

mutual

theorem alike_refl (hR : ∀ s, R s s) : (v : Json) → Alike R v v
  | .null => .null
  | .bool b => .bool b
  | .integer n => .integer n
  | .real x => .real x
  | .string s => .string (hR s)
  | .array items => .array rfl (alike_refl_items hR items)
  | .object members =>
    .object rfl (fun pair hp => (alike_refl_members hR members pair hp).1) fun pair hp =>
      (alike_refl_members hR members pair hp).2

theorem alike_refl_items (hR : ∀ s, R s s) :
    (items : List Json) → ∀ pair ∈ items.zip items, Alike R pair.1 pair.2
  | [], _, hp => absurd hp List.not_mem_nil
  | item :: items, pair, hp => by
    rcases List.mem_cons.1 hp with rfl | hp
    · exact alike_refl hR item
    · exact alike_refl_items hR items pair hp

theorem alike_refl_members (hR : ∀ s, R s s) : (members : List (Text × Json)) →
    ∀ pair ∈ members.zip members, R pair.1.1 pair.2.1 ∧ Alike R pair.1.2 pair.2.2
  | [], _, hp => absurd hp List.not_mem_nil
  | (name, value) :: members, pair, hp => by
    rcases List.mem_cons.1 hp with rfl | hp
    · exact ⟨hR name, alike_refl hR value⟩
    · exact alike_refl_members hR members pair hp

end

end WorkflowLint.Json
