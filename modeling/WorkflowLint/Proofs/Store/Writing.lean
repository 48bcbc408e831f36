import Mathlib.Tactic.SplitIfs
import WorkflowLint.Proofs.Keyed
import WorkflowLint.Proofs.Text.Utf8
import WorkflowLint.Store.Folder

/-!
# What writing does to a store

Giving a file other bytes moves nothing: every path leads where it led before (`locate_setBytes`),
and only the file at its own location has other bytes (`file?_setBytes_of_locate_ne`).  A text that
was written is read back with its line ends as line feeds (`read_setBytes`).
-/

namespace WorkflowLint.Store

variable {s : Store} {p q : Text} {t : Text} {bytes : List UInt8}

/-! ## Reading -/

/-- A path leads to a file exactly when it leads to the location of one. -/
theorem file?_eq_some_iff :
    s.file? p = some bytes ↔ ∃ l, s.locate p = .ok l ∧ Keyed.get? l s.files = some bytes := by
  unfold file? locate?
  cases s.locate p <;> simp [Except.toOption]

/-- What is read from a file is what its bytes stand for. -/
theorem read_of_file? (h : s.file? p = some bytes) :
    s.read p = match Utf8.decode bytes with
      | .error e => .error (.undecodable e)
      | .ok t => .ok t.normaliseLineEnds := by
  obtain ⟨l, hl, hb⟩ := file?_eq_some_iff.1 h
  cases hd : Utf8.decode bytes <;> simp [read, hl, bind, Except.bind, hb, hd]

/-- A text is read exactly from the bytes that stand for it but for its line ends. -/
theorem read_eq_ok_iff :
    s.read p = .ok t ↔
      ∃ bytes u, s.file? p = some bytes ∧ Utf8.decode bytes = .ok u ∧ u.normaliseLineEnds = t := by
  constructor
  · intro h
    cases hl : s.locate p with
    | error e => simp [read, hl, bind, Except.bind] at h
    | ok l =>
      cases hb : Keyed.get? l s.files with
      | none => simp [read, hl, bind, Except.bind, hb] at h
      | some bytes =>
        have hf : s.file? p = some bytes := file?_eq_some_iff.2 ⟨l, hl, hb⟩
        rw [read_of_file? hf] at h
        cases hu : Utf8.decode bytes with
        | error e => simp [hu] at h
        | ok u => exact ⟨bytes, u, hf, hu, by simpa [hu] using h⟩
  · rintro ⟨bytes, u, hf, hu, rfl⟩
    rw [read_of_file? hf, hu]

/-- A file that is read is there. -/
theorem isFile_of_read (h : s.read p = .ok t) : s.isFile p = true := by
  obtain ⟨bytes, u, hf, -⟩ := read_eq_ok_iff.1 h
  rw [isFile, hf, Option.isSome_some]

theorem follow_ne_fault (f : Fault) (l : Location) (names : List Text) :
    s.follow p l names ≠ .error (.fault f) := by
  induction names generalizing l with
  | nil => simp [follow]
  | cons name names ih =>
    rw [follow]
    split_ifs
    · simp
    · exact ih l
    · exact ih l.dropLast
    · simp
    · exact ih (l ++ [name])

/-- Reading the file at a path is a fault only if the path is none. -/
theorem read_ne_fault (h : pathFault? p = none) (f : Fault) : s.read p ≠ .error (.fault f) := by
  have hlocate : s.locate p ≠ .error (.fault f) := by
    rw [locate, h]
    simp only
    split_ifs
    · simp
    · simp
    · exact follow_ne_fault f _ _
    · exact follow_ne_fault f _ _
  unfold read
  cases hl : s.locate p with
  | error e => simpa [hl, bind, Except.bind] using hlocate
  | ok l =>
    simp only [bind, Except.bind]
    split
    · split <;> simp
    · split <;> simp

/-! ## Writing -/

theorem setBytes_of_locate {l : Location} (h : s.locate p = .ok l) :
    s.setBytes p bytes = { s with files := Keyed.set l bytes s.files } := by
  simp only [setBytes, locate?, h, Except.toOption]

/-- Where nothing can be located, nothing is written. -/
theorem setBytes_of_locate_error {e : ReadError} (h : s.locate p = .error e) :
    s.setBytes p bytes = s := by
  simp only [setBytes, locate?, h, Except.toOption]

theorem follow_files (files : List (Location × List UInt8)) (l : Location) (names : List Text) :
    { s with files := files }.follow p l names = s.follow p l names := by
  induction names generalizing l with
  | nil => rfl
  | cons name names ih =>
    simp only [follow, hasFolder, ih]
    rfl

/-- Where a path leads does not hang on the bytes of files. -/
theorem locate_setBytes : (s.setBytes p bytes).locate q = s.locate q := by
  cases hl : s.locate p with
  | error e => rw [setBytes_of_locate_error hl]
  | ok l => simp only [setBytes_of_locate hl, locate, follow_files]

/-- Where two paths lead to one location, what is written by the one is found by the other. -/
theorem file?_setBytes_of_locate {l : Location} (hp : s.locate p = .ok l)
    (hq : s.locate q = .ok l) : (s.setBytes p bytes).file? q = some bytes := by
  refine file?_eq_some_iff.2 ⟨l, locate_setBytes.trans hq, ?_⟩
  rw [setBytes_of_locate hp, Keyed.get?_set, if_pos rfl]

/-- The file that was written has the bytes that were written. -/
theorem file?_setBytes_self (h : (s.file? p).isSome) : (s.setBytes p bytes).file? p = some bytes := by
  obtain ⟨old, hold⟩ := Option.isSome_iff_exists.1 h
  obtain ⟨l, hl, -⟩ := file?_eq_some_iff.1 hold
  exact file?_setBytes_of_locate hl hl

/-- A text that was written is read back, each line end being a line feed. -/
theorem read_setBytes (h : (s.file? p).isSome) (henc : Utf8.encode t = .ok bytes) :
    (s.setBytes p bytes).read p = .ok t.normaliseLineEnds := by
  rw [read_of_file? (file?_setBytes_self h), Utf8.decode_encode henc]

/-- What is written to one location does not concern what is read at another one. -/
theorem read_setBytes_of_locate_ne (h : s.locate q ≠ s.locate p) :
    (s.setBytes p bytes).read q = s.read q := by
  cases hp : s.locate p with
  | error e => rw [setBytes_of_locate_error hp]
  | ok l =>
    cases hq : s.locate q with
    | error e => simp only [read, locate_setBytes, hq]; rfl
    | ok m =>
      have hne : l ≠ m := by
        rintro rfl
        exact h (hq.trans hp.symm)
      have hfile : Keyed.get? m (s.setBytes p bytes).files = Keyed.get? m s.files := by
        rw [setBytes_of_locate hp, Keyed.get?_set, if_neg hne]
      have hfolder : (s.setBytes p bytes).hasFolder m = s.hasFolder m := by
        rw [setBytes_of_locate hp]
        rfl
      simp only [read, locate_setBytes, hq, bind, Except.bind, hfile, hfolder]

/-- Giving a file other bytes does not change which files there are. -/
theorem map_fst_files_setBytes (h : (s.file? p).isSome) :
    (s.setBytes p bytes).files.map (·.1) = s.files.map (·.1) := by
  obtain ⟨old, hold⟩ := Option.isSome_iff_exists.1 h
  obtain ⟨l, hl, hget⟩ := file?_eq_some_iff.1 hold
  have hmem : l ∈ s.files.map (·.1) := List.mem_map_of_mem (Keyed.mem_of_get? hget)
  rw [setBytes_of_locate hl, Keyed.map_fst_set, if_pos hmem]

/-- Which names a folder has does not hang on the bytes of files. -/
theorem fileNames_congr {s' : Store} (h : s'.files.map (·.1) = s.files.map (·.1)) (l : Location) :
    s'.fileNames l = s.fileNames l := by
  have hnames : ∀ u : Store, u.fileNames l =
      ((u.files.map (·.1)).filterMap fun m => if m.dropLast = l then m.getLast? else none).mergeSort
        Text.le := by
    intro u
    rw [fileNames, List.filterMap_map]
    rfl
  rw [hnames, hnames, h]

/-- Giving a file other bytes does not change what is listed. -/
theorem list_setBytes (h : (s.file? p).isSome) : (s.setBytes p bytes).list q = s.list q := by
  have hfolder : (s.setBytes p bytes).hasFolder = s.hasFolder := by
    unfold setBytes
    split <;> rfl
  have hrefuses : (s.setBytes p bytes).refusesListing = s.refusesListing := by
    unfold setBytes
    split <;> rfl
  unfold list
  rw [locate?, locate_setBytes, hfolder, hrefuses]
  simp only [fileNames_congr (map_fst_files_setBytes h), locate?]

@[simp] theorem current_setBytes : (s.setBytes p bytes).current = s.current := by
  unfold setBytes
  split <;> rfl

@[simp] theorem absolute_setBytes : (s.setBytes p bytes).absolute q = s.absolute q := by
  rw [absolute, absolute, current_setBytes]

/-- What becomes of writing a text is decided by whether writes are refused and by the text. -/
theorem write_eq :
    s.write p t =
      if s.refusesWrites then .refused
      else match Utf8.encode t with
        | .ok bytes => .done (s.setBytes p bytes)
        | .error e => .fault (s.setBytes p []) (.ofSurrogates e) := rfl

end WorkflowLint.Store
