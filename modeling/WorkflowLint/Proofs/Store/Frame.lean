import WorkflowLint.Proofs.Store.Writing

/-!
# Stores that differ in the bytes of some files

Where no file was created or removed and only files at some locations have other bytes (`SameBut`),
every path leads where it led before, every folder has the files that it had, and a file at another
location is what it was.  Writing a file that is there differs in nothing but that file
(`sameBut_setBytes`).
-/

namespace WorkflowLint.Store

/-- Nothing in a store is different but the bytes of files at some locations. -/
structure SameBut (touched : Location → Prop) (s s' : Store) : Prop where
  names : s'.files.map (·.1) = s.files.map (·.1)
  bytes : ∀ l, ¬ touched l → Keyed.get? l s'.files = Keyed.get? l s.files
  folders : s'.folders = s.folders
  current : s'.current = s.current
  refusesWrites : s'.refusesWrites = s.refusesWrites
  refusesListing : s'.refusesListing = s.refusesListing

namespace SameBut

variable {touched touched' : Location → Prop} {s s' s'' : Store} {p q : Text} {bytes : List UInt8}

theorem refl (touched : Location → Prop) (s : Store) : SameBut touched s s :=
  ⟨rfl, fun _ _ => rfl, rfl, rfl, rfl, rfl⟩

theorem trans (h : SameBut touched s s') (h' : SameBut touched s' s'') : SameBut touched s s'' where
  names := h'.names.trans h.names
  bytes l hl := (h'.bytes l hl).trans (h.bytes l hl)
  folders := h'.folders.trans h.folders
  current := h'.current.trans h.current
  refusesWrites := h'.refusesWrites.trans h.refusesWrites
  refusesListing := h'.refusesListing.trans h.refusesListing

theorem mono (h : SameBut touched s s') (himp : ∀ l, touched l → touched' l) :
    SameBut touched' s s' :=
  { h with bytes := fun l hl => h.bytes l fun htouched => hl (himp l htouched) }

section

variable (h : SameBut touched s s')
include h

theorem eq_files : s' = { s with files := s'.files } := by
  obtain ⟨-, -, hfolders, hcurrent, hwrites, hlisting⟩ := h
  cases s
  cases s'
  simp_all

theorem locate : s'.locate q = s.locate q := by
  rw [h.eq_files]
  simp only [Store.locate, follow_files]

theorem hasFolder : s'.hasFolder = s.hasFolder := by
  rw [h.eq_files]
  rfl

theorem absolute : s'.absolute q = s.absolute q := by
  rw [Store.absolute, h.current, Store.absolute]

theorem isFolder : s'.isFolder q = s.isFolder q := by
  rw [Store.isFolder, locate?, h.locate, h.hasFolder, Store.isFolder, locate?]

theorem list : s'.list q = s.list q := by
  rw [Store.list, locate?, h.locate, h.hasFolder, h.refusesListing, Store.list, locate?]
  simp only [fileNames_congr h.names]

/-- A file at another location has the bytes that it had. -/
theorem file? (hq : ∀ l, s.locate q = .ok l → ¬ touched l) : s'.file? q = s.file? q := by
  unfold Store.file? locate?
  rw [h.locate]
  cases hl : s.locate q with
  | error e => rfl
  | ok l => exact h.bytes l (hq l hl)

theorem read (hq : ∀ l, s.locate q = .ok l → ¬ touched l) : s'.read q = s.read q := by
  unfold Store.read
  rw [h.locate, h.hasFolder]
  cases hl : s.locate q with
  | error e => rfl
  | ok l =>
    simp only [bind, Except.bind]
    rw [h.bytes l (hq l hl)]

end

end SameBut

/-- Giving a file other bytes changes nothing else. -/
theorem sameBut_setBytes {s : Store} {p : Text} (bytes : List UInt8) (h : (s.file? p).isSome) :
    SameBut (fun l => s.locate p = .ok l) s (s.setBytes p bytes) := by
  obtain ⟨old, hold⟩ := Option.isSome_iff_exists.1 h
  obtain ⟨l, hl, -⟩ := file?_eq_some_iff.1 hold
  have hset : s.setBytes p bytes = _ := setBytes_of_locate hl
  refine ⟨map_fst_files_setBytes h, fun m hm => ?_, ?_, ?_, ?_, ?_⟩
  · have hne : l ≠ m := fun heq => hm (heq ▸ hl)
    rw [hset, Keyed.get?_set, if_neg hne]
  all_goals rw [hset]

end WorkflowLint.Store
