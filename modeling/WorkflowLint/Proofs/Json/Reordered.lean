import WorkflowLint.Proofs.Json.Alike
import WorkflowLint.Proofs.Json.Fits
import WorkflowLint.Json.Equality

/-!
# Values up to the order of members

Two values are reordered if they differ in nothing but the order of the members of their objects, at
whatever depth these are (`Reordered`); a real that is not a number is then the same as itself.
Documents that are reordered count as equal (`same_of_reordered`), so that every document equals
itself.
-/

namespace WorkflowLint.Json

/-- Two values differ at most in the order in which the members of their objects stand: the members
of one object, in an order `middle`, have the names of the other one's and reordered values. -/
inductive Reordered : Json → Json → Prop
  | null : Reordered .null .null
  | bool (b : Bool) : Reordered (.bool b) (.bool b)
  | integer (n : Int) : Reordered (.integer n) (.integer n)
  | real (x : Binary64) : Reordered (.real x) (.real x)
  | string (s : Text) : Reordered (.string s) (.string s)
  | array {items items' : List Json} : items.length = items'.length →
      (∀ pair ∈ items.zip items', Reordered pair.1 pair.2) →
      Reordered (.array items) (.array items')
  | object {members middle members' : List (Text × Json)} : members.Perm middle →
      middle.length = members'.length → (∀ pair ∈ middle.zip members', pair.1.1 = pair.2.1) →
      (∀ pair ∈ middle.zip members', Reordered pair.1.2 pair.2.2) →
      Reordered (.object members) (.object members')

variable {v w : Json} {members members' : Members} {name : Text} {depth : Nat}

/-! ## Values that are reordered -/

theorem reordered_of_alike (h : Alike (· = ·) v w) : Reordered v w := by
  induction h with
  | null => exact .null
  | bool b => exact .bool b
  | integer n => exact .integer n
  | real x => exact .real x
  | string hs =>
    obtain rfl := hs
    exact .string _
  | array hlen _ ih => exact .array hlen ih
  | object hlen hnames _ ih => exact .object (.refl _) hlen hnames ih

theorem reordered_refl (v : Json) : Reordered v v :=
  reordered_of_alike (alike_refl (fun _ => rfl) v)

theorem reordered_refl_members (members : Members) :
    ∀ pair ∈ members.zip members, pair.1.1 = pair.2.1 ∧ Reordered pair.1.2 pair.2.2 := by
  intro pair hp
  obtain ⟨hname, hvalue⟩ := alike_refl_members (fun _ => rfl) members pair hp
  exact ⟨hname, reordered_of_alike hvalue⟩

/-- The members of an object can be put in another order. -/
theorem reordered_of_perm (h : members.Perm members') :
    Reordered (.object members) (.object members') :=
  .object h rfl (fun pair hp => (reordered_refl_members members' pair hp).1) fun pair hp =>
    (reordered_refl_members members' pair hp).2

/-- A member can be given one of two reordered values. -/
theorem reordered_set (h : Reordered v w) :
    Reordered (.object (members.set name v)) (.object (members.set name w)) := by
  have hlen : (Keyed.set name v members).length = (Keyed.set name w members).length := by
    have hnames := (Keyed.map_fst_set name v members).trans (Keyed.map_fst_set name w members).symm
    simpa using congrArg List.length hnames
  have hpairs : ∀ pair ∈ (Keyed.set name v members).zip (Keyed.set name w members),
      pair.1.1 = pair.2.1 ∧ Reordered pair.1.2 pair.2.2 := by
    clear hlen
    induction members with
    | nil => exact List.forall_mem_singleton.2 ⟨rfl, h⟩
    | cons m members ih =>
      rw [Keyed.set, Keyed.set]
      split
      · exact List.forall_mem_cons.2 ⟨⟨rfl, h⟩, reordered_refl_members members⟩
      · exact List.forall_mem_cons.2 ⟨⟨rfl, reordered_refl _⟩, ih⟩
  exact .object (.refl _) hlen (fun pair hp => (hpairs pair hp).1) fun pair hp => (hpairs pair hp).2

/-! ## Reordered documents count as equal -/

theorem sameItems_of_forall {items items' : List Json} (hlen : items.length = items'.length)
    (h : ∀ pair ∈ items.zip items', same pair.1 pair.2 = true) : sameItems items items' = true := by
  induction items generalizing items' with
  | nil =>
    obtain rfl := List.eq_nil_of_length_eq_zero hlen.symm
    rfl
  | cons v items ih =>
    cases items' with
    | nil => exact absurd hlen (Nat.succ_ne_zero _)
    | cons w items' =>
      obtain ⟨hv, hitems⟩ := List.forall_mem_cons.1 h
      rw [sameItems, hv, ih (Nat.succ.inj hlen) hitems]
      rfl

theorem sameMembers_of_forall {members others : Members}
    (h : ∀ m ∈ members, ∃ w, others.get? m.1 = some w ∧ same m.2 w = true) :
    sameMembers members others = true := by
  induction members with
  | nil => rfl
  | cons m members ih =>
    obtain ⟨⟨w, hget, hsame⟩, hmembers⟩ := List.forall_mem_cons.1 h
    rw [sameMembers, hget, ih hmembers]
    simpa using hsame

/-- Reordered documents are equal. -/
theorem same_of_reordered (h : Reordered v w) (hfits : Fits depth w) : same v w = true := by
  induction h generalizing depth with
  | null => rfl
  | bool b => simp [same, sameScalar]
  | integer n => simp [same, sameScalar]
  | real x => simp [same, sameScalar, Binary64.same]
  | string s => simp [same, sameScalar]
  | @array items items' hlen _ ih =>
    cases hfits with
    | array hitems =>
      rw [same]
      exact sameItems_of_forall hlen fun pair hp => ih pair hp (hitems _ (List.of_mem_zip hp).2)
  | @object members middle members' hperm hlen hnames _ ih =>
    cases hfits with
    | object hnodup hvalues =>
      have hmembers : sameMembers members members' = true := by
        refine sameMembers_of_forall fun m hm => ?_
        -- the partner of a member in the other object
        obtain ⟨i, hi, rfl⟩ := List.mem_iff_getElem.1 (hperm.mem_iff.1 hm)
        have hi' : i < members'.length := hlen ▸ hi
        have hpair : (middle[i], members'[i]) ∈ middle.zip members' := by
          refine List.mem_iff_getElem.2 ⟨i, ?_, List.getElem_zip⟩
          rw [List.length_zip]
          omega
        have hmem := (List.of_mem_zip hpair).2
        refine ⟨_, ?_, ih _ hpair (hvalues _ hmem)⟩
        rw [hnames _ hpair]
        exact Keyed.get?_of_mem hnodup hmem
      rw [same, hmembers, hperm.length_eq, hlen]
      simp

/-- Every document equals itself. -/
theorem same_self (hfits : Fits depth v) : same v v = true :=
  same_of_reordered (reordered_refl v) hfits

end WorkflowLint.Json
