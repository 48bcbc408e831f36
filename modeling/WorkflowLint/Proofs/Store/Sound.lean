import WorkflowLint.Proofs.Store.Frame
import WorkflowLint.Proofs.Store.Path

/-!
# Sound stores

In a store as file systems are, whatever there is has a name that can be found, stands in a folder, and
is not a file and a folder at once (`Sound`).  A store without anything in it is sound, and it stays so
as folders and files are added (`Sound.addFolder`, `Sound.addFile`), as things are removed
(`Sound.remove`), and as files get other bytes (`Sound.sameBut`).
-/

namespace WorkflowLint.Store

variable {s s' : Store} {l m : Location} {n : Text}

/-! ## Names -/

/-- A name that a file or a folder can have. -/
structure IsEntry (n : Text) : Prop where
  isName : Path.IsName n
  ne_up : n ≠ Path.up
  pathFault? : pathFault? n = none
  short : Path.byteLength n ≤ Path.longestName

theorem isEntry_iff : IsEntry n ↔ ((n ≠ [] ∧ n ≠ Path.here ∧ Path.slash ∉ n) ∧ n ≠ Path.up) ∧
    Store.pathFault? n = none ∧ Path.byteLength n ≤ Path.longestName :=
  ⟨fun h => ⟨⟨h.isName, h.ne_up⟩, h.pathFault?, h.short⟩, fun h => ⟨h.1.1, h.1.2, h.2.1, h.2.2⟩⟩

instance : Decidable (IsEntry n) := decidable_of_iff _ isEntry_iff.symm

/-! ## Soundness -/

/-- What is in a store has names that can be found and stands in a folder, no file is a folder, and the
current folder is there. -/
structure Sound (s : Store) : Prop where
  entries : ∀ l ∈ s.files.map Prod.fst ++ s.folders, ∀ n ∈ l, IsEntry n
  around : ∀ l ∈ s.files.map Prod.fst ++ s.folders, s.hasFolder l.dropLast = true
  apart : ∀ l ∈ s.files.map Prod.fst, s.hasFolder l = false
  current : s.hasFolder s.current = true

theorem sound_iff : s.Sound ↔
    (∀ l ∈ s.files.map Prod.fst ++ s.folders,
      (∀ n ∈ l, IsEntry n) ∧ s.hasFolder l.dropLast = true) ∧
    (∀ l ∈ s.files.map Prod.fst, s.hasFolder l = false) ∧ s.hasFolder s.current = true :=
  ⟨fun h => ⟨fun l hl => ⟨h.entries l hl, h.around l hl⟩, h.apart, h.current⟩,
    fun h => ⟨fun l hl => (h.1 l hl).1, fun l hl => (h.1 l hl).2, h.2.1, h.2.2⟩⟩

instance : Decidable s.Sound := decidable_of_iff _ sound_iff.symm

theorem hasFolder_eq_true_iff : s.hasFolder l = true ↔ l = [] ∨ l ∈ s.folders := by
  rw [hasFolder, Bool.or_eq_true, List.isEmpty_iff, List.contains_eq_mem, decide_eq_true_eq]

namespace Sound

variable (h : s.Sound)
include h

theorem isEntry_of_hasFolder (hl : s.hasFolder l = true) (hn : n ∈ l) : IsEntry n := by
  rcases hasFolder_eq_true_iff.1 hl with rfl | hl
  · exact nomatch hn
  · exact h.entries l (List.mem_append_right _ hl) n hn

theorem hasFolder_dropLast (hl : s.hasFolder l = true) : s.hasFolder l.dropLast = true := by
  rcases hasFolder_eq_true_iff.1 hl with rfl | hl
  · rfl
  · exact h.around l (List.mem_append_right _ hl)

end Sound

/-! ## What keeps a store sound -/

/-- There is nothing wrong with a store that has nothing in it. -/
theorem sound_empty : Sound {} := by decide

theorem hasFolder_addFolder :
    (s.addFolder l).hasFolder m = true ↔ s.hasFolder m = true ∨ m <+: l := by
  have haround : m ∈ ((List.range l.length).map fun i => l.take (i + 1)) ↔ m ≠ [] ∧ m <+: l := by
    rw [List.mem_map]
    constructor
    · rintro ⟨i, hi, rfl⟩
      refine ⟨fun hnil => ?_, List.take_prefix _ _⟩
      have hlength := congrArg List.length hnil
      rw [List.mem_range] at hi
      rw [List.length_take, List.length_nil] at hlength
      omega
    · rintro ⟨hne, hstart⟩
      have hpos := List.length_pos_of_ne_nil hne
      have hle := hstart.length_le
      refine ⟨m.length - 1, List.mem_range.2 (by omega), ?_⟩
      rw [Nat.sub_add_cancel hpos, ← List.prefix_iff_eq_take.1 hstart]
  rw [hasFolder_eq_true_iff, hasFolder_eq_true_iff, addFolder, Keyed.mem_distinct, List.mem_append,
    haround]
  by_cases hm : m = []
  · simp [hm]
  · simp [hm]

/-- Adding a folder is sound where its names are and nothing on the way to it is a file. -/
theorem Sound.addFolder (h : s.Sound) (hl : ∀ n ∈ l, IsEntry n)
    (hfree : ∀ m, m <+: l → m ∉ s.files.map Prod.fst) : (s.addFolder l).Sound where
  entries := by
    intro m hm n hn
    rcases List.mem_append.1 hm with hm | hm
    · exact h.entries m (List.mem_append_left _ hm) n hn
    · rcases hasFolder_addFolder.1 (hasFolder_eq_true_iff.2 (.inr hm)) with hm | hm
      · exact h.isEntry_of_hasFolder hm hn
      · exact hl n (hm.subset hn)
  around := by
    intro m hm
    rw [hasFolder_addFolder]
    rcases List.mem_append.1 hm with hm | hm
    · exact .inl (h.around m (List.mem_append_left _ hm))
    · exact (hasFolder_addFolder.1 (hasFolder_eq_true_iff.2 (.inr hm))).imp h.hasFolder_dropLast
        (m.dropLast_prefix.trans ·)
  apart := by
    intro m hm
    rw [Bool.eq_false_iff, Ne, hasFolder_addFolder, not_or]
    exact ⟨Bool.eq_false_iff.1 (h.apart m hm), fun hstart => hfree m hstart hm⟩
  current := hasFolder_addFolder.2 (.inl h.current)

/-- Adding a file is sound where its names are, no folder stands in its place, and nothing on the way to
it is a file. -/
theorem Sound.addFile (h : s.Sound) (hl : ∀ n ∈ l, IsEntry n) (hfolder : s.hasFolder l = false)
    (hfree : ∀ m, m <+: l.dropLast → m ∉ s.files.map Prod.fst) (bytes : List UInt8) :
    (s.addFile l bytes).Sound := by
  have hne : l ≠ [] := by
    rintro rfl
    exact Bool.noConfusion hfolder
  have hadded : (s.addFolder l.dropLast).Sound :=
    h.addFolder (fun n hn => hl n (l.dropLast_subset hn)) hfree
  have hfiles : ∀ m ∈ (s.addFile l bytes).files.map Prod.fst, m ∈ s.files.map Prod.fst ∨ m = l := by
    intro m hm
    rw [Store.addFile, Keyed.map_fst_set] at hm
    split at hm
    · exact .inl hm
    · exact (List.mem_append.1 hm).imp_right List.mem_singleton.1
  have hnot : (s.addFolder l.dropLast).hasFolder l = false := by
    rw [Bool.eq_false_iff, Ne, hasFolder_addFolder, not_or]
    refine ⟨Bool.eq_false_iff.1 hfolder, fun hstart => ?_⟩
    have hle := hstart.length_le
    have hpos := List.length_pos_of_ne_nil hne
    rw [List.length_dropLast] at hle
    omega
  have hplaces : ∀ m ∈ (s.addFile l bytes).files.map Prod.fst ++ (s.addFile l bytes).folders,
      m ∈ (s.addFolder l.dropLast).files.map Prod.fst ++ (s.addFolder l.dropLast).folders ∨ m = l := by
    intro m hm
    rcases List.mem_append.1 hm with hm | hm
    · exact (hfiles m hm).imp_left (List.mem_append_left _)
    · exact .inl (List.mem_append_right _ hm)
  refine ⟨fun m hm => ?_, fun m hm => ?_, fun m hm => ?_, hadded.current⟩
  · exact (hplaces m hm).elim (hadded.entries m) fun heq => heq ▸ hl
  · refine (hplaces m hm).elim (hadded.around m) fun heq => ?_
    rw [heq]
    exact hasFolder_addFolder.2 (.inr (List.prefix_refl _))
  · exact (hfiles m hm).elim (hadded.apart m) fun heq => heq ▸ hnot

theorem mem_folders_remove : m ∈ (s.remove l).folders ↔ m ∈ s.folders ∧ ¬ l <+: m := by
  rw [remove, List.mem_filter, Bool.not_eq_true', Bool.eq_false_iff, Ne, List.isPrefixOf_iff_prefix]

theorem mem_files_remove : m ∈ (s.remove l).files.map Prod.fst ↔
    m ∈ s.files.map Prod.fst ∧ ¬ l <+: m := by
  have hfile : ∀ f, f ∈ (s.remove l).files ↔ f ∈ s.files ∧ ¬ l <+: f.1 := by
    intro f
    rw [remove, List.mem_filter, Bool.not_eq_true', Bool.eq_false_iff, Ne, List.isPrefixOf_iff_prefix]
  rw [List.mem_map, List.mem_map]
  constructor
  · rintro ⟨f, hf, rfl⟩
    exact ⟨⟨f, ((hfile f).1 hf).1, rfl⟩, ((hfile f).1 hf).2⟩
  · rintro ⟨⟨f, hf, rfl⟩, hnot⟩
    exact ⟨f, (hfile f).2 ⟨hf, hnot⟩, rfl⟩

/-- Removing what is at a location is sound where the current folder stays. -/
theorem Sound.remove (h : s.Sound) (hl : ¬ l <+: s.current) : (s.remove l).Sound := by
  have hplaces : ∀ m ∈ (s.remove l).files.map Prod.fst ++ (s.remove l).folders,
      m ∈ s.files.map Prod.fst ++ s.folders ∧ ¬ l <+: m := by
    intro m hm
    rw [List.mem_append, mem_files_remove, mem_folders_remove, ← or_and_right] at hm
    exact hm.imp_left List.mem_append.2
  have hkeep : ∀ m, s.hasFolder m = true → ¬ l <+: m → (s.remove l).hasFolder m = true := by
    intro m hm hnot
    rw [hasFolder_eq_true_iff, mem_folders_remove]
    exact (hasFolder_eq_true_iff.1 hm).imp_right fun hm => ⟨hm, hnot⟩
  refine ⟨fun m hm => h.entries m (hplaces m hm).1, fun m hm => ?_, fun m hm => ?_,
    hkeep _ h.current hl⟩
  · exact hkeep _ (h.around m (hplaces m hm).1) fun hstart =>
      (hplaces m hm).2 (hstart.trans m.dropLast_prefix)
  · have hnot := Bool.eq_false_iff.1 (h.apart m (mem_files_remove.1 hm).1)
    rw [Bool.eq_false_iff, Ne, hasFolder_eq_true_iff, mem_folders_remove]
    exact fun hfolder => hnot (hasFolder_eq_true_iff.2 (hfolder.imp_right And.left))

/-- Other bytes in files leave a store sound. -/
theorem Sound.sameBut {touched : Location → Prop} (hsame : SameBut touched s s') (h : s.Sound) :
    s'.Sound := by
  have hnames : s'.files.map Prod.fst = s.files.map Prod.fst := hsame.names
  refine ⟨?_, ?_, ?_, ?_⟩
  · rw [hnames, hsame.folders]
    exact h.entries
  · rw [hnames, hsame.folders, hsame.hasFolder]
    exact h.around
  · rw [hnames, hsame.hasFolder]
    exact h.apart
  · rw [hsame.hasFolder, hsame.current]
    exact h.current

end WorkflowLint.Store
