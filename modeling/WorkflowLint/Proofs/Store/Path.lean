import Mathlib.Tactic.SplitIfs
import WorkflowLint.Proofs.Text.Parts
import WorkflowLint.Store.Folder

/-!
# Absolute paths are clean

The absolute form of a path has nothing left in it that `Path.clean` would drop (`clean_absolute`), and
it is its own absolute form (`absolute_absolute`).  A path of names between slashes falls apart into
those names again (`names_append_join`), and the names of a path never hold a slash
(`isName_of_mem_names`).
-/

namespace WorkflowLint

namespace Path

/-! ## Names -/

/-- A name that a clean path can have between two slashes. -/
def IsName (n : Text) : Prop := n ≠ [] ∧ n ≠ here ∧ slash ∉ n

theorem isName_of_mem_names {p n : Text} (h : n ∈ names p) : IsName n := by
  rw [names, List.mem_filter] at h
  obtain ⟨hp, hn⟩ := h
  simp only [Bool.and_eq_true, Bool.not_eq_true', List.isEmpty_eq_false_iff, bne_iff_ne] at hn
  exact ⟨hn.1, hn.2, Text.sep_not_mem_of_mem_parts hp⟩

theorem isName_up : IsName up := by
  refine ⟨?_, ?_, ?_⟩ <;> decide

/-- A step of normalising adds a name, or a step up, or takes a name away. -/
theorem mem_pushName {absolute : Bool} {reversed : List Text} {name n : Text}
    (h : n ∈ pushName absolute reversed name) : n = name ∨ n = up ∨ n ∈ reversed := by
  unfold pushName at h
  split at h
  · exact (List.mem_cons.1 h).imp_right .inr
  · split at h
    · split at h <;> simp_all
    · split at h
      · exact (List.mem_cons.1 h).elim (.inr ∘ .inl) (.inr ∘ .inr)
      · exact .inr (.inr (List.mem_cons_of_mem _ h))

theorem isName_of_mem_foldl {absolute : Bool} {ns reversed : List Text} {n : Text}
    (hns : ∀ m ∈ ns, IsName m) (hrev : ∀ m ∈ reversed, IsName m)
    (h : n ∈ ns.foldl (pushName absolute) reversed) : IsName n := by
  induction ns generalizing reversed with
  | nil => exact hrev n h
  | cons m ns ih =>
    refine ih (fun m' hm => hns m' (List.mem_cons_of_mem _ hm)) ?_ h
    intro m' hm
    rcases mem_pushName hm with rfl | rfl | hm
    · exact hns m' (List.mem_cons_self ..)
    · exact isName_up
    · exact hrev m' hm

/-! ## Clean paths -/

/-- The slashes that an absolute path can start with, once it is clean. -/
def IsRoot (r : Text) : Prop := r = [slash] ∨ r = [slash, slash]

theorem isRoot_root {p : Text} (h : isAbsolute p = true) : IsRoot (root p) := by
  cases p with
  | nil => simp [isAbsolute] at h
  | cons c p =>
    obtain rfl : c = slash := by simpa [isAbsolute] using h
    unfold root IsRoot
    split <;> simp_all

theorem takeWhile_join_names {ns : List Text} (h : ∀ n ∈ ns, IsName n) :
    (Text.join [slash] ns).takeWhile (· == slash) = [] := by
  have hhead : ∀ n : Text, IsName n → ∀ t, (n ++ t).takeWhile (· == slash) = [] := by
    intro n hn t
    obtain ⟨c, m, rfl⟩ := List.exists_cons_of_ne_nil hn.1
    have hc : c ≠ slash := by
      rintro rfl
      exact hn.2.2 (List.mem_cons_self ..)
    simp [hc]
  cases ns with
  | nil => rfl
  | cons n ns =>
    cases ns with
    | nil => simpa [Text.join] using hhead n (h n (by simp)) []
    | cons m ns =>
      rw [Text.join_cons_cons, List.append_assoc]
      exact hhead n (h n (by simp)) _

theorem root_append_join {r : Text} (hr : IsRoot r) {ns : List Text} (h : ∀ n ∈ ns, IsName n) :
    root (r ++ Text.join [slash] ns) = r := by
  have ht := takeWhile_join_names h
  rcases hr with rfl | rfl <;> simp [root, ht]

theorem names_join {ns : List Text} (h : ∀ n ∈ ns, IsName n) :
    names (Text.join [slash] ns) = ns := by
  cases ns with
  | nil => rfl
  | cons n ns =>
    rw [names, Text.parts_join fun m hm => (h m hm).2.2, List.filter_eq_self]
    intro m hm
    obtain ⟨hne, hhere, -⟩ := h m hm
    simp [hne, hhere]

theorem names_slash_cons (p : Text) : names (slash :: p) = names p := by
  rw [names, Text.parts_cons_self, List.filter_cons_of_neg (by simp), ← names]

theorem names_append_join {r : Text} (hr : IsRoot r) {ns : List Text} (h : ∀ n ∈ ns, IsName n) :
    names (r ++ Text.join [slash] ns) = ns := by
  rcases hr with rfl | rfl <;> simp [names_slash_cons, names_join h]

theorem ofNames_of_isRoot {r : Text} (hr : IsRoot r) (ns : List Text) :
    ofNames r ns = r ++ Text.join [slash] ns := by
  rcases hr with rfl | rfl <;> simp [ofNames]

/-- A path that is put together from a root and names is clean. -/
theorem clean_ofNames {r : Text} (hr : IsRoot r) {ns : List Text} (h : ∀ n ∈ ns, IsName n) :
    clean (ofNames r ns) = ofNames r ns := by
  rw [clean, ofNames_of_isRoot hr, root_append_join hr h, names_append_join hr h,
    ofNames_of_isRoot hr]

theorem clean_normalise {p : Text} (h : isAbsolute p = true) :
    clean (normalise p) = normalise p := by
  refine clean_ofNames (isRoot_root h) ?_
  intro n hn
  exact isName_of_mem_foldl (fun m hm => isName_of_mem_names hm) (by simp) (List.mem_reverse.1 hn)

theorem isAbsolute_join {p : Text} (h : isAbsolute p = true) (q : Text) :
    isAbsolute (join p q) = true := by
  obtain ⟨c, p, rfl⟩ : ∃ c p', p = c :: p' := by
    cases p with
    | nil => simp [isAbsolute] at h
    | cons c p => exact ⟨c, p, rfl⟩
  unfold join
  split_ifs with hq
  · exact hq
  · exact h
  · exact h

theorem clean_clean {p : Text} (h : isAbsolute p = true) : clean (clean p) = clean p :=
  clean_ofNames (isRoot_root h) fun _ hn => isName_of_mem_names hn

/-- A path inside an absolute one is clean. -/
theorem clean_child {p : Text} (h : isAbsolute p = true) (q : Text) :
    clean (child p q) = child p q := clean_clean (isAbsolute_join h q)

/-- The absolute form of a path is clean. -/
theorem clean_absolute {current : Text} (h : isAbsolute current = true) (p : Text) :
    clean (absolute current p) = absolute current p := by
  unfold absolute
  split_ifs with hp
  · exact clean_normalise hp
  · exact clean_normalise (isAbsolute_join h p)

/-! ## Normal forms -/

/-- From the root on, normalising leaves no step up. -/
theorem up_not_mem_pushName {reversed : List Text} (h : up ∉ reversed) (name : Text) :
    up ∉ pushName true reversed name := by
  unfold pushName
  split
  · next hname =>
    rw [List.mem_cons, not_or]
    exact ⟨Ne.symm hname, h⟩
  · cases reversed with
    | nil => simp
    | cons last rest =>
      rw [List.mem_cons, not_or] at h
      simpa only [if_neg (Ne.symm h.1)] using h.2

theorem up_not_mem_foldl {ns reversed : List Text} (h : up ∉ reversed) :
    up ∉ ns.foldl (pushName true) reversed := by
  induction ns generalizing reversed with
  | nil => exact h
  | cons n ns ih => exact ih (up_not_mem_pushName h n)

/-- Names without a step up are all kept. -/
theorem foldl_pushName_of_up_not_mem {absolute : Bool} {ns : List Text} (h : up ∉ ns)
    (reversed : List Text) : ns.foldl (pushName absolute) reversed = ns.reverse ++ reversed := by
  induction ns generalizing reversed with
  | nil => rfl
  | cons n ns ih =>
    rw [List.mem_cons, not_or] at h
    have hpush : pushName absolute reversed n = n :: reversed := if_pos (Ne.symm h.1)
    rw [List.foldl_cons, hpush, ih h.2, List.reverse_cons, List.append_assoc, List.singleton_append]

theorem isAbsolute_ofNames {r : Text} (hr : IsRoot r) (ns : List Text) :
    isAbsolute (ofNames r ns) = true := by
  rw [ofNames_of_isRoot hr]
  rcases hr with rfl | rfl <;> rfl

/-- The normal form of an absolute path is its own normal form. -/
theorem normalise_normalise {p : Text} (h : isAbsolute p = true) :
    normalise (normalise p) = normalise p := by
  have hr : IsRoot (root p) := isRoot_root h
  have hnames : ∀ n ∈ ((names p).foldl (pushName true) []).reverse, IsName n := fun n hn =>
    isName_of_mem_foldl (fun m hm => isName_of_mem_names hm) (by simp) (List.mem_reverse.1 hn)
  have hup : up ∉ ((names p).foldl (pushName true) []).reverse := by
    rw [List.mem_reverse]
    exact up_not_mem_foldl List.not_mem_nil
  have hform : normalise p = ofNames (root p) ((names p).foldl (pushName true) []).reverse := by
    rw [normalise, h]
  rw [hform]
  generalize ((names p).foldl (pushName true) []).reverse = ns at hnames hup
  rw [normalise, ofNames_of_isRoot hr, root_append_join hr hnames, names_append_join hr hnames,
    foldl_pushName_of_up_not_mem hup, List.append_nil, List.reverse_reverse, ofNames_of_isRoot hr]

theorem isAbsolute_normalise {p : Text} (h : isAbsolute p = true) :
    isAbsolute (normalise p) = true :=
  isAbsolute_ofNames (isRoot_root h) _

/-- The absolute form of an absolute form is that form. -/
theorem absolute_absolute {current : Text} (h : isAbsolute current = true) (p : Text) :
    absolute current (absolute current p) = absolute current p := by
  have habsolute : ∀ q, isAbsolute q = true → absolute current (normalise q) = normalise q := by
    intro q hq
    rw [absolute, if_pos (isAbsolute_normalise hq), normalise_normalise hq]
  by_cases hp : isAbsolute p = true
  · have hform : absolute current p = normalise p := by rw [absolute, if_pos hp]
    rw [hform, habsolute p hp]
  · have hform : absolute current p = normalise (join current p) := by rw [absolute, if_neg hp]
    rw [hform, habsolute _ (isAbsolute_join h p)]

end Path

namespace Store

theorem isAbsolute_pathOf (l : Location) : Path.isAbsolute (pathOf l) = true := by
  simp [pathOf, Path.isAbsolute]

/-- Files are fixed under the absolute forms of their paths, which stay as they are. -/
@[simp] theorem clean_absolute (s : Store) (p : Text) : Path.clean (s.absolute p) = s.absolute p :=
  Path.clean_absolute (isAbsolute_pathOf s.current) p

theorem isAbsolute_absolute (s : Store) (p : Text) : Path.isAbsolute (s.absolute p) = true := by
  unfold absolute Path.absolute
  split_ifs with hp
  · exact Path.isAbsolute_normalise hp
  · exact Path.isAbsolute_normalise (Path.isAbsolute_join (isAbsolute_pathOf s.current) p)

@[simp] theorem absolute_absolute (s : Store) (p : Text) :
    s.absolute (s.absolute p) = s.absolute p :=
  Path.absolute_absolute (isAbsolute_pathOf s.current) p

end Store
end WorkflowLint
