import WorkflowLint.Proofs.Placeholder.Reading
import WorkflowLint.Proofs.Store.Sound

/-!
# Where paths lead

A path leads from folder to folder, one step for each of its names (`follow_cons_eq_ok_iff`).  What is in
a folder is found there under the absolute form of the folder too (`locate_join_absolute`), unless the
path is too long once it is absolute.

The last name of a path is the name of what it leads to: the files that are listed keep their names
(`base_absolute_join`), and a file that is found under a name in a folder is one of those that are listed
there (`mem_fileNames_of_isFile`).
-/

namespace WorkflowLint

/-! ## Names of paths -/

namespace Path

variable {p q n : Text} {ns l reversed : List Text} {c : CodePoint}

/-- Where a name leads from a location. -/
def step (l : List Text) (n : Text) : List Text :=
  if n.isEmpty ∨ n = here then l else if n = up then l.dropLast else l ++ [n]

theorem step_of_isName (hn : IsName n) (hup : n ≠ up) (l : List Text) : step l n = l ++ [n] := by
  rw [step, if_neg (by simpa using ⟨hn.1, hn.2.1⟩), if_neg hup]

/-- Names that are no steps up are put at the end. -/
theorem foldl_step_of_isName (h : ∀ n ∈ ns, IsName n ∧ n ≠ up) (l : List Text) :
    ns.foldl step l = l ++ ns := by
  induction ns generalizing l with
  | nil => exact (List.append_nil l).symm
  | cons n ns ih =>
    obtain ⟨⟨hn, hup⟩, hns⟩ := List.forall_mem_cons.1 h
    rw [List.foldl_cons, step_of_isName hn hup, ih hns, List.append_assoc, List.singleton_append]

/-- What is not a name leads nowhere else. -/
theorem foldl_step_names (p : Text) (l : List Text) :
    (names p).foldl step l = (p.parts slash).foldl step l := by
  rw [names, List.foldl_filter]
  congr 1
  funext l n
  by_cases hn : n = []
  · simp [step, hn]
  · by_cases hhere : n = here <;> simp [step, hn, hhere]

theorem mem_foldl_step (h : n ∈ ns.foldl step l) : n ∈ l ∨ n ∈ ns := by
  induction ns generalizing l with
  | nil => exact .inl h
  | cons m ns ih =>
    rcases ih h with hstep | hns
    · unfold step at hstep
      split_ifs at hstep
      · exact .inl hstep
      · exact .inl (l.dropLast_subset hstep)
      · refine (List.mem_append.1 hstep).imp_right fun hm => ?_
        rw [List.mem_singleton.1 hm]
        exact List.mem_cons_self ..
    · exact .inr (List.mem_cons_of_mem _ hns)

theorem reverse_pushName (hn : IsName n) (h : up ∉ reversed) :
    (pushName true reversed n).reverse = step reversed.reverse n := by
  by_cases hup : n = up
  · have hstep : ∀ l, step l n = l.dropLast := by
      intro l
      rw [step, if_neg (by simpa using ⟨hn.1, hn.2.1⟩), if_pos hup]
    unfold pushName
    rw [if_neg (not_not.2 hup), hstep]
    cases reversed with
    | nil => rfl
    | cons last rest =>
      rw [List.mem_cons, not_or] at h
      simp [Ne.symm h.1]
  · unfold pushName
    rw [if_pos hup, step_of_isName hn hup, List.reverse_cons]

theorem reverse_foldl_pushName (hns : ∀ n ∈ ns, IsName n) (h : up ∉ reversed) :
    (ns.foldl (pushName true) reversed).reverse = ns.foldl step reversed.reverse := by
  induction ns generalizing reversed with
  | nil => rfl
  | cons n ns ih =>
    obtain ⟨hn, hns⟩ := List.forall_mem_cons.1 hns
    rw [List.foldl_cons, List.foldl_cons, ih hns (up_not_mem_pushName h n), reverse_pushName hn h]

/-- The names of a normal form are where the names of the path lead from the root. -/
theorem names_normalise (h : isAbsolute p = true) : names (normalise p) = (names p).foldl step [] := by
  have hnames : ∀ n ∈ names p, IsName n := fun n hn => isName_of_mem_names hn
  have hfold := reverse_foldl_pushName hnames (List.not_mem_nil (a := up))
  rw [normalise, ofNames_of_isRoot (isRoot_root h), h, names_append_join (isRoot_root h), hfold]
  · rfl
  · intro n hn
    exact isName_of_mem_foldl hnames (by simp) (List.mem_reverse.1 hn)

theorem names_append_slash (p q : Text) : names (p ++ slash :: q) = names p ++ names q := by
  rw [names, Text.parts_append_sep, List.filter_append, names, names]

theorem names_join_of_relative (p : Text) (hq : isAbsolute q = false) :
    names (join p q) = names p ++ names q := by
  rw [join, hq, if_neg Bool.false_ne_true]
  split_ifs with hp
  · rcases hp with hp | hp
    · rw [List.isEmpty_iff.1 hp]
      rfl
    · obtain ⟨p, rfl⟩ := List.getLast?_eq_some_iff.1 hp
      have hnil : names (p ++ [slash]) = names p := by
        rw [names_append_slash p []]
        exact List.append_nil _
      rw [List.append_assoc, List.singleton_append, names_append_slash, hnil]
  · exact names_append_slash p q

theorem isAbsolute_join_of_relative (p : Text) (hq : isAbsolute q = false) :
    isAbsolute (join p q) = isAbsolute p := by
  cases p with
  | nil =>
    rw [join, hq, if_neg Bool.false_ne_true, if_pos (.inl rfl), List.nil_append, hq]
    rfl
  | cons c p =>
    rw [join, hq, if_neg Bool.false_ne_true]
    split_ifs <;> rfl

theorem isAbsolute_eq_false_of_not_mem (h : slash ∉ n) : isAbsolute n = false := by
  cases n with
  | nil => rfl
  | cons c n =>
    rw [List.mem_cons, not_or] at h
    simpa [isAbsolute] using Ne.symm h.1

theorem names_of_isName (hn : IsName n) : names n = [n] := by
  rw [names, Text.parts_of_not_mem hn.2.2]
  simp [hn.1, hn.2.1]

/-- A clean absolute path ends with the last of its names. -/
theorem exists_eq_append_slash (h : isAbsolute p = true) (hclean : clean p = p)
    (hnames : names p = ns ++ [n]) : ∃ q, p = q ++ slash :: n := by
  obtain ⟨r, hr⟩ : ∃ r, root p = r ++ [slash] := by
    rcases isRoot_root h with hr | hr
    · exact ⟨[], hr⟩
    · exact ⟨[slash], hr⟩
  have hjoin : ∀ ns : List Text, ∃ q, slash :: Text.join [slash] (ns ++ [n]) = q ++ slash :: n := by
    intro ns
    induction ns with
    | nil => exact ⟨[], rfl⟩
    | cons m ns ih =>
      obtain ⟨q, hq⟩ := ih
      refine ⟨slash :: m ++ q, ?_⟩
      have hne : ns ++ [n] ≠ [] := List.append_ne_nil_of_right_ne_nil ns (List.cons_ne_nil n [])
      obtain ⟨m', ms, hms⟩ := List.exists_cons_of_ne_nil hne
      rw [List.cons_append, hms, Text.join_cons_cons, ← hms, List.append_assoc m, List.singleton_append,
        hq]
      simp
  obtain ⟨q, hq⟩ := hjoin ns
  refine ⟨r ++ q, ?_⟩
  rw [← hclean, clean, ofNames_of_isRoot (isRoot_root h), hnames, hr, List.append_assoc,
    List.singleton_append, hq, List.append_assoc]

theorem base_of_names (h : isAbsolute p = true) (hclean : clean p = p) (hnames : names p = ns ++ [n]) :
    base p = n := by
  have hn : IsName n :=
    isName_of_mem_names (hnames ▸ List.mem_append_right ns (List.mem_singleton_self n))
  obtain ⟨q, hq⟩ := exists_eq_append_slash h hclean hnames
  rw [base, hq, Text.afterLast_append hn.2.2]

/-! ## Paths as texts -/

/-- A code point that a path can have where files are looked up. -/
def IsUnit (c : CodePoint) : Prop := c ≠ .char '\x00' ∧ (c.isSurrogate = true → isByte c = true)

theorem isUnit_slash : IsUnit slash := by
  unfold IsUnit
  decide

theorem byteLength_append (p q : Text) : byteLength (p ++ q) = byteLength p + byteLength q := by
  have hsum : ∀ p : Text, byteLength p =
      (p.map fun c => if isByte c then 1 else (Utf8.encodeNat c.val).length).sum := by
    intro p
    rw [byteLength, List.sum_eq_foldl, List.foldl_map]
  rw [hsum, hsum, hsum, List.map_append, List.sum_append]

theorem misplacedFrom?_eq_none_iff {offset : Nat} :
    misplacedFrom? offset p = none ↔ ∀ c ∈ p, c.isSurrogate = true → isByte c = true := by
  induction p generalizing offset with
  | nil => simp [misplacedFrom?]
  | cons c p ih =>
    rw [misplacedFrom?, List.forall_mem_cons]
    split_ifs with h
    · simp_all
    · rw [ih]
      simp_all

end Path

namespace Store

theorem pathFault?_eq_none_iff {p : Text} : pathFault? p = none ↔ ∀ c ∈ p, Path.IsUnit c := by
  have hmisplaced : Path.misplaced? p = none ↔ ∀ c ∈ p, c.isSurrogate = true → Path.isByte c = true :=
    Path.misplacedFrom?_eq_none_iff
  unfold pathFault?
  split
  · next e he =>
    refine iff_of_false (by simp) fun h => ?_
    rw [hmisplaced.2 fun c hc => (h c hc).2] at he
    exact nomatch he
  · next hnone =>
    have hall := hmisplaced.1 hnone
    rw [ite_eq_right_iff]
    simp only [reduceCtorEq, imp_false, List.contains_eq_mem, decide_eq_true_eq]
    exact ⟨fun h c hc => ⟨fun heq => h (heq ▸ hc), hall c hc⟩, fun h hmem => (h _ hmem).1 rfl⟩

/-! ## Following names -/

variable {s : Store} {p q n : Text} {l m : Location} {ns ms : List Text}

theorem byteLength_le_of_not_isName (h : n.isEmpty ∨ n = Path.here ∨ n = Path.up) :
    Path.byteLength n ≤ Path.longestName := by
  rcases h with hn | rfl | rfl
  · rw [List.isEmpty_iff.1 hn]
    decide
  · decide
  · decide

/-- A name leads on from a folder if it is not too long. -/
theorem follow_cons_eq_ok_iff : s.follow p l (n :: ns) = .ok m ↔
    s.hasFolder l = true ∧ Path.byteLength n ≤ Path.longestName ∧
      s.follow p (Path.step l n) ns = .ok m := by
  have hshort := byteLength_le_of_not_isName (n := n)
  rw [follow, Path.step]
  by_cases hl : s.hasFolder l = true
  · rw [if_neg (by simp [hl])]
    by_cases hhere : n.isEmpty ∨ n = Path.here
    · rw [if_pos hhere, if_pos hhere]
      simp [hl, hshort (hhere.imp_right .inl)]
    · rw [if_neg hhere, if_neg hhere]
      by_cases hup : n = Path.up
      · rw [if_pos hup, if_pos hup]
        simp [hl, hshort (.inr (.inr hup))]
      · rw [if_neg hup, if_neg hup]
        by_cases hlong : Path.longestName < Path.byteLength n
        · simp [hlong, Nat.not_le.2 hlong]
        · simp [hl, hlong, Nat.not_lt.1 hlong]
  · simp [hl]

theorem follow_append_eq_ok_iff : s.follow p l (ns ++ ms) = .ok m ↔
    ∃ k, s.follow p l ns = .ok k ∧ s.follow p k ms = .ok m := by
  induction ns generalizing l with
  | nil => simp [follow]
  | cons n ns ih => simp only [List.cons_append, follow_cons_eq_ok_iff, ih, exists_and_left, and_assoc]

/-- The path is there for the wording of errors. -/
theorem follow_congr (q : Text) (h : s.follow p l ns = .ok m) : s.follow q l ns = .ok m := by
  induction ns generalizing l with
  | nil => exact h
  | cons n ns ih =>
    rw [follow_cons_eq_ok_iff] at h ⊢
    exact ⟨h.1, h.2.1, ih h.2.2⟩

theorem eq_foldl_of_follow (h : s.follow p l ns = .ok m) : m = ns.foldl Path.step l := by
  induction ns generalizing l with
  | nil => exact (Except.ok.inj h).symm
  | cons n ns ih => exact ih (follow_cons_eq_ok_iff.1 h).2.2

theorem hasFolder_of_follow (h : s.follow p l ns = .ok m) (hm : s.hasFolder m = true) :
    s.hasFolder l = true := by
  cases ns with
  | nil => rwa [Except.ok.inj h]
  | cons n ns => exact (follow_cons_eq_ok_iff.1 h).1

/-- What is not a name leads a folder to itself. -/
theorem follow_names_iff (hm : s.hasFolder m = true) :
    s.follow p l (Path.names q) = .ok m ↔ s.follow p l (q.parts Path.slash) = .ok m := by
  rw [Path.names]
  induction q.parts Path.slash generalizing l with
  | nil => rfl
  | cons n ns ih =>
    by_cases hn : n.isEmpty ∨ n = Path.here
    · have hshort := byteLength_le_of_not_isName (hn.imp_right .inl)
      rw [List.filter_cons_of_neg (by simpa [imp_iff_not_or] using hn), ih, follow_cons_eq_ok_iff,
        Path.step, if_pos hn]
      exact ⟨fun h => ⟨hasFolder_of_follow h hm, hshort, h⟩, fun h => h.2.2⟩
    · rw [List.filter_cons_of_pos (by simpa using hn), follow_cons_eq_ok_iff, follow_cons_eq_ok_iff, ih]

/-- The names of a folder lead to it. -/
theorem Sound.follow_self (h : s.Sound) (p : Text) (hl : s.hasFolder l = true) :
    s.follow p [] l = .ok l := by
  induction l using List.reverseRecOn with
  | nil => rfl
  | append_singleton l n ih =>
    have hl' : s.hasFolder l = true := by simpa using h.hasFolder_dropLast hl
    have hn := h.isEntry_of_hasFolder hl (List.mem_append_right l (List.mem_singleton_self n))
    refine follow_append_eq_ok_iff.2 ⟨l, ih hl', follow_cons_eq_ok_iff.2 ⟨hl', hn.short, ?_⟩⟩
    rw [Path.step_of_isName hn.isName hn.ne_up]
    rfl

/-! ## Locations of paths -/

/-- Where a path starts from. -/
def start (s : Store) (p : Text) : Location := if Path.isAbsolute p then [] else s.current

theorem locate_eq_ok_iff : s.locate p = .ok l ↔ pathFault? p = none ∧ p ≠ [] ∧
    Path.byteLength p ≤ Path.longestPath ∧ s.follow p (s.start p) (p.parts Path.slash) = .ok l := by
  rw [locate, ← start]
  cases hfault : pathFault? p with
  | some f => simp
  | none =>
    by_cases hp : p = []
    · simp [hp]
    · by_cases hshort : Path.byteLength p ≤ Path.longestPath
      · simp [hp, hshort, Nat.not_lt.2 hshort]
      · simp [hp, hshort, Nat.lt_of_not_le hshort]

theorem Sound.names_pathOf_current (h : s.Sound) : Path.names (pathOf s.current) = s.current := by
  have hroot : pathOf s.current = [Path.slash] ++ Text.join [Path.slash] s.current := rfl
  rw [hroot, Path.names_append_join (.inl rfl) fun n hn => (h.isEntry_of_hasFolder h.current hn).isName]

theorem Sound.names_absolute (h : s.Sound) (p : Text) :
    Path.names (s.absolute p) = (Path.names p).foldl Path.step (s.start p) := by
  unfold absolute Path.absolute start
  split_ifs with hp
  · exact Path.names_normalise hp
  · have hrelative := Bool.eq_false_iff.2 hp
    have hcurrent : s.current.foldl Path.step [] = s.current :=
      Path.foldl_step_of_isName (fun n hn =>
        have hentry := h.isEntry_of_hasFolder h.current hn
        ⟨hentry.isName, hentry.ne_up⟩) []
    rw [Path.names_normalise (Path.isAbsolute_join (isAbsolute_pathOf s.current) p),
      Path.names_join_of_relative _ hrelative, List.foldl_append, h.names_pathOf_current, hcurrent]

theorem start_join {q : Text} (hq : Path.isAbsolute q = false) (p : Text) :
    s.start (Path.join p q) = s.start p := by
  rw [start, Path.isAbsolute_join_of_relative p hq, start]

/-- A path that is joined to another one is followed from where the other one leads. -/
theorem follow_join {q : Text} (hq : Path.isAbsolute q = false) {r : Text} :
    s.follow r l ((Path.join p q).parts Path.slash) = .ok m ↔
      ∃ k, s.follow r l (p.parts Path.slash) = .ok k ∧ s.follow r k (q.parts Path.slash) = .ok m := by
  -- the part behind a slash at the end of a path is empty
  have hempty : ∀ k, s.follow r k ([[]] ++ q.parts Path.slash) = .ok m ↔
      s.follow r k (q.parts Path.slash) = .ok m := by
    intro k
    obtain ⟨n, ns, hparts⟩ := Text.exists_parts_eq_cons Path.slash q
    rw [List.singleton_append, follow_cons_eq_ok_iff, Path.step, if_pos (.inl rfl), hparts]
    exact ⟨fun h => h.2.2, fun h => ⟨(follow_cons_eq_ok_iff.1 h).1, by decide, h⟩⟩
  rw [← follow_append_eq_ok_iff, Path.join, hq, if_neg Bool.false_ne_true]
  split_ifs with hend
  · rcases hend with hend | hend
    · rw [List.isEmpty_iff.1 hend]
      exact (hempty l).symm
    · obtain ⟨p, rfl⟩ := List.getLast?_eq_some_iff.1 hend
      have hparts : Text.parts Path.slash (p ++ [Path.slash]) = Text.parts Path.slash p ++ [[]] :=
        Text.parts_append_sep Path.slash p []
      rw [List.append_assoc, List.singleton_append, Text.parts_append_sep, hparts, List.append_assoc,
        follow_append_eq_ok_iff, follow_append_eq_ok_iff]
      simp only [hempty]
  · rw [Text.parts_append_sep]

theorem start_absolute (p : Text) : s.start (s.absolute p) = [] := if_pos (isAbsolute_absolute s p)

/-- The code points of an absolute form come from names that there are. -/
theorem Sound.pathFault?_absolute (h : s.Sound) (hp : pathFault? p = none) :
    pathFault? (s.absolute p) = none := by
  have hclean := clean_absolute s p
  have hroot := Path.isRoot_root (isAbsolute_absolute s p)
  rw [Path.clean, Path.ofNames_of_isRoot hroot] at hclean
  rw [pathFault?_eq_none_iff] at hp ⊢
  intro c hc
  rw [← hclean, List.mem_append] at hc
  by_contra hnot
  have hne : c ∉ [Path.slash] := fun heq => hnot (List.mem_singleton.1 heq ▸ Path.isUnit_slash)
  rcases hc with hc | hc
  · rcases hroot with hr | hr <;> rw [hr] at hc <;> simp_all
  · refine absurd hc ((Text.not_mem_join_iff hne _).2 fun n hn hcn => hnot ?_)
    rw [h.names_absolute] at hn
    rcases Path.mem_foldl_step hn with hn | hn
    · unfold start at hn
      split_ifs at hn
      · exact absurd hn List.not_mem_nil
      · exact pathFault?_eq_none_iff.1 (h.isEntry_of_hasFolder h.current hn).pathFault? c hcn
    · exact hp c (Text.mem_of_mem_parts (List.mem_filter.1 hn).1 hcn)

theorem mem_join_iff {c : CodePoint} (hc : c ≠ Path.slash) (hq : Path.isAbsolute q = false) :
    c ∈ Path.join p q ↔ c ∈ p ∨ c ∈ q := by
  rw [Path.join, hq, if_neg Bool.false_ne_true]
  split_ifs <;> simp [hc]

theorem pathFault?_join_eq_none_iff (hq : Path.isAbsolute q = false) :
    pathFault? (Path.join p q) = none ↔ pathFault? p = none ∧ pathFault? q = none := by
  have hslash : ∀ c, (c ≠ Path.slash → Path.IsUnit c) → Path.IsUnit c := by
    intro c h
    by_cases hc : c = Path.slash
    · exact hc ▸ Path.isUnit_slash
    · exact h hc
  simp only [pathFault?_eq_none_iff]
  constructor
  · intro h
    exact ⟨fun c hc => hslash c fun hne => h c ((mem_join_iff hne hq).2 (.inl hc)),
      fun c hc => hslash c fun hne => h c ((mem_join_iff hne hq).2 (.inr hc))⟩
  · rintro ⟨hp, hq'⟩ c hc
    exact hslash c fun hne => ((mem_join_iff hne hq).1 hc).elim (hp c) (hq' c)

/-- What is in a folder is found there under the absolute form of the folder, if that is not too long. -/
theorem Sound.locate_join_absolute (h : s.Sound) (hq : Path.isAbsolute q = false)
    (hl : s.locate (Path.join p q) = .ok l) (hfolder : s.hasFolder l = true)
    (hshort : Path.byteLength (Path.join (s.absolute p) q) ≤ Path.longestPath) :
    s.locate (Path.join (s.absolute p) q) = .ok l := by
  obtain ⟨hfault, -, -, hfollow⟩ := locate_eq_ok_iff.1 hl
  rw [start_join hq, follow_join hq] at hfollow
  obtain ⟨m, hm, hrest⟩ := hfollow
  have hnames : Path.names (s.absolute p) = m := by
    rw [h.names_absolute, Path.foldl_step_names, eq_foldl_of_follow hm]
  refine locate_eq_ok_iff.2 ⟨?_, ?_, hshort, ?_⟩
  · rw [pathFault?_join_eq_none_iff hq] at hfault ⊢
    exact hfault.imp_left h.pathFault?_absolute
  · intro hnil
    have habsolute := Path.isAbsolute_join_of_relative (s.absolute p) hq
    rw [hnil, isAbsolute_absolute] at habsolute
    exact Bool.noConfusion habsolute
  · rw [start_join hq, start_absolute, follow_join hq]
    have hm := hasFolder_of_follow hrest hfolder
    refine ⟨m, (follow_names_iff hm).1 ?_, follow_congr _ hrest⟩
    rw [hnames]
    exact h.follow_self _ hm

/-! ## Files in folders -/

theorem mem_fileNames_iff : n ∈ s.fileNames l ↔ l ++ [n] ∈ s.files.map Prod.fst := by
  rw [fileNames, List.mem_mergeSort, List.mem_filterMap, List.mem_map]
  refine exists_congr fun f => and_congr_right fun _ => ?_
  constructor
  · intro hf
    split_ifs at hf with hdrop
    exact hdrop ▸ (List.dropLast_append_getLast? n hf).symm
  · intro hf
    rw [hf]
    simp

/-- The absolute form of a path to a file in a folder ends with the name of the file. -/
theorem Sound.names_absolute_join (h : s.Sound) (hn : Path.IsName n) (hup : n ≠ Path.up) (p : Text) :
    Path.names (s.absolute (Path.join p n)) = Path.names (s.absolute p) ++ [n] := by
  have hrelative := Path.isAbsolute_eq_false_of_not_mem hn.2.2
  rw [h.names_absolute, Path.names_join_of_relative p hrelative, Path.names_of_isName hn,
    start_join hrelative, List.foldl_append, ← h.names_absolute]
  exact Path.step_of_isName hn hup _

theorem Sound.base_absolute_join (h : s.Sound) (hn : Path.IsName n) (hup : n ≠ Path.up) (p : Text) :
    Path.base (s.absolute (Path.join p n)) = n :=
  Path.base_of_names (isAbsolute_absolute s _) (clean_absolute s _) (h.names_absolute_join hn hup p)

/-- A name in a folder leads to what has it there, if the path is not too long. -/
theorem locate_join (hl : s.locate p = .ok l) (hfolder : s.hasFolder l = true) (hn : IsEntry n)
    (hshort : Path.byteLength (Path.join p n) ≤ Path.longestPath) :
    s.locate (Path.join p n) = .ok (l ++ [n]) := by
  obtain ⟨hfault, hne, -, hfollow⟩ := locate_eq_ok_iff.1 hl
  have hrelative := Path.isAbsolute_eq_false_of_not_mem hn.isName.2.2
  have hlast : s.follow (Path.join p n) l [n] = .ok (l ++ [n]) := by
    rw [follow_cons_eq_ok_iff, Path.step_of_isName hn.isName hn.ne_up]
    exact ⟨hfolder, hn.short, rfl⟩
  refine locate_eq_ok_iff.2 ⟨?_, ?_, hshort, ?_⟩
  · exact (pathFault?_join_eq_none_iff hrelative).2 ⟨hfault, hn.pathFault?⟩
  · intro hnil
    have hnames := Path.names_join_of_relative p hrelative
    rw [hnil, Path.names_of_isName hn.isName] at hnames
    exact absurd hnames.symm (List.append_ne_nil_of_right_ne_nil _ (List.cons_ne_nil n []))
  · rw [start_join hrelative, follow_join hrelative, Text.parts_of_not_mem hn.isName.2.2]
    exact ⟨l, follow_congr _ hfollow, hlast⟩

/-- A file that is found under a name in a folder is one of the files there. -/
theorem Sound.mem_fileNames_of_isFile (h : s.Sound) (hl : s.locate p = .ok l)
    (hfolder : s.hasFolder l = true) (hn : Path.slash ∉ n) (hfile : s.isFile (Path.join p n) = true) :
    n ∈ s.fileNames l := by
  obtain ⟨bytes, hbytes⟩ := Option.isSome_iff_exists.1 hfile
  obtain ⟨m, hm, hget⟩ := file?_eq_some_iff.1 hbytes
  have hmem : m ∈ s.files.map Prod.fst := List.mem_map_of_mem (Keyed.mem_of_get? hget)
  have hrelative := Path.isAbsolute_eq_false_of_not_mem hn
  have hstep : m = Path.step l n := by
    have hfollow := (locate_eq_ok_iff.1 hm).2.2.2
    rw [start_join hrelative, follow_join hrelative, Text.parts_of_not_mem hn] at hfollow
    obtain ⟨k, hk, hlast⟩ := hfollow
    rw [eq_foldl_of_follow hlast, eq_foldl_of_follow hk,
      ← eq_foldl_of_follow (locate_eq_ok_iff.1 hl).2.2.2]
    rfl
  have hnot := h.apart m hmem
  unfold Path.step at hstep
  split_ifs at hstep
  · rw [hstep, hfolder] at hnot
    exact Bool.noConfusion hnot
  · rw [hstep, h.hasFolder_dropLast hfolder] at hnot
    exact Bool.noConfusion hnot
  · rw [mem_fileNames_iff, ← hstep]
    exact hmem

end Store
end WorkflowLint
