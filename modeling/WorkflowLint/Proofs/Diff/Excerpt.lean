import WorkflowLint.Proofs.Diff.Replaying
import WorkflowLint.Proofs.Text.Numeral

/-!
# The difference of two texts

The difference of two texts is put together from the rows of its hunks, each with the line end its line
has.  So it can be read again exactly if every line shown in it, except for the last one, ends in a
line feed (`faithful_unified_iff`).  A last line without one runs into the line shown behind it
(`not_faithful_unified_open`), and so does a line that ends in any other of the line ends.
-/

namespace WorkflowLint.Diff

open Text (feed rows bare endsRow isClosed isLineEnd IsLine)

variable {a b : List Text} {i j : Nat} {h : Hunk} {hs : List Hunk} {x : Item} {hunk : List Step}

/-! ## Rows with their line ends -/

/-- The rows of a hunk as they are written, the lines with their own line ends. -/
def Hunk.chunks (h : Hunk) : List Text := (h.header ++ [feed]) :: h.items.map Item.row

theorem rangeText_eq (start stop : Nat) : rangeText start stop = spanText start (stop - start) := by
  rw [rangeText, spanText]
  by_cases hone : stop - start = 1
  · simp [hone]
  · rw [if_neg hone, if_neg hone]

theorem stepText_eq (a b : List Text) (s : Step) :
    stepText a b s = ((s.shown a b).map Item.row).flatten := by
  have hmarked : ∀ (m : Mark) (lines : List Text) (start stop : Nat),
      marked [m.sign] lines start stop
        = (((segment lines start stop).map (Item.mk m)).map Item.row).flatten := by
    intro m lines start stop
    rw [marked, List.flatMap_def, segment, List.map_map]
    rfl
  rw [stepText, Step.shown]
  split
  · exact hmarked .both a s.start s.stop
  · rw [List.map_append, List.flatten_append, ← hmarked, ← hmarked]
    rfl

theorem hunkText_eq (a b : List Text) (hne : hunk ≠ []) :
    hunkText a b hunk = (hunkOf a b hunk).chunks.flatten := by
  have hfirst := List.head?_eq_some_head hne
  have hlast := List.getLast?_eq_some_getLast hne
  have hitems : hunk.flatMap (stepText a b)
      = ((hunk.flatMap (Step.shown a b)).map Item.row).flatten := by
    rw [List.map_flatMap, ← List.flatMap_id, List.flatMap_assoc]
    exact congrArg (hunk.flatMap ·) (funext fun s => (stepText_eq a b s).trans (by simp))
  rw [hunkText, hunkOf, hfirst, hlast, hitems]
  simp [Hunk.chunks, Hunk.header, rangeText_eq, Text.ofString, feed]

/-- The text of two lists' hunks is that of their rows. -/
theorem body_eq (a b : List Text) :
    (hunks (steps a b)).flatMap (hunkText a b) = ((hunksOf a b).flatMap Hunk.chunks).flatten := by
  rw [hunksOf, List.flatMap_map, ← List.flatMap_id, List.flatMap_assoc, List.flatMap_def,
    List.flatMap_def]
  refine congrArg List.flatten (List.map_congr_left fun hunk hmem => ?_)
  rw [List.flatMap_id]
  obtain ⟨s, hs, -⟩ := exists_change hmem
  exact hunkText_eq a b (List.ne_nil_of_mem hs)

/-! ## Line ends in rows -/

theorem isLineEnd_sign (m : Mark) : isLineEnd m.sign = false := by
  cases m <;> decide

theorem sign_ne_feed (m : Mark) : m.sign ≠ feed := by
  cases m <;> decide

theorem isLineEnd_of_isDigit {c : CodePoint} (hc : c.isDigit = true) : isLineEnd c = false := by
  have hval : 48 ≤ c.val ∧ c.val ≤ 57 := by
    cases c with
    | surrogate _ => exact absurd hc Bool.false_ne_true
    | char c =>
      have hdigit : c.isDigit = true := hc
      rwa [Char.isDigit, Bool.and_eq_true, decide_eq_true_eq, decide_eq_true_eq] at hdigit
  simp only [isLineEnd, Bool.or_eq_false_iff, Bool.and_eq_false_iff, decide_eq_false_iff_not,
    beq_eq_false_iff_ne]
  omega

theorem isLineEnd_spanText (start size : Nat) : ∀ c ∈ spanText start size, isLineEnd c = false := by
  have hdigits : ∀ n : Nat, ∀ c ∈ Text.ofNat n, isLineEnd c = false :=
    fun n c hc => isLineEnd_of_isDigit (Text.allDigits_ofNat n c hc)
  rw [spanText]
  split
  · exact hdigits _
  · exact List.forall_mem_append.2 ⟨List.forall_mem_append.2 ⟨hdigits _, by decide⟩, hdigits _⟩

/-- The header of a hunk is one row. -/
theorem isLineEnd_header (h : Hunk) : ∀ c ∈ h.header, isLineEnd c = false := by
  have hspan := isLineEnd_spanText
  simp only [Hunk.header, List.forall_mem_append]
  exact ⟨⟨⟨⟨by decide, hspan _ _⟩, by decide⟩, hspan _ _⟩, by decide⟩

theorem feed_not_mem_header (h : Hunk) : feed ∉ h.header :=
  fun hmem => absurd (isLineEnd_header h feed hmem) (by decide)

/-- What a row that is written can be: not empty, and without a line feed before its end. -/
structure IsChunk (c : Text) : Prop where
  ne_nil : c ≠ []
  feed_not_mem : feed ∉ c.dropLast
  head_ne_feed : c.head? ≠ some feed

theorem isChunk_header (h : Hunk) : IsChunk (h.header ++ [feed]) where
  ne_nil := List.cons_ne_nil _ _
  feed_not_mem := by
    rw [List.dropLast_concat]
    exact feed_not_mem_header h
  head_ne_feed := fun heq => absurd (Option.some.inj heq) (by decide)

theorem isChunk_row (hx : IsLine x.line) : IsChunk x.row where
  ne_nil := List.cons_ne_nil _ _
  feed_not_mem := by
    rw [Item.row]
    cases hline : x.line with
    | nil => exact List.not_mem_nil
    | cons c l =>
      rw [List.dropLast_cons_cons, ← hline, List.mem_cons, not_or]
      exact ⟨(sign_ne_feed x.mark).symm, hx.feed_not_mem⟩
  head_ne_feed := fun heq => sign_ne_feed x.mark (Option.some.inj heq)

theorem isChunk_of_mem (hlines : ∀ h ∈ hs, ∀ x ∈ h.items, IsLine x.line) :
    ∀ c ∈ hs.flatMap Hunk.chunks, IsChunk c := by
  intro c hc
  obtain ⟨h, hh, hc⟩ := List.mem_flatMap.1 hc
  obtain rfl | hc := List.mem_cons.1 hc
  · exact isChunk_header h
  · obtain ⟨x, hx, rfl⟩ := List.mem_map.1 hc
    exact isChunk_row (hlines h hh x hx)

/-! ## Reading complete rows -/

/-- A hunk with its lines changed. -/
def Hunk.map (f : Text → Text) (h : Hunk) : Hunk :=
  { h with items := h.items.map fun x => ⟨x.mark, f x.line⟩ }

theorem without_map_line (m : Mark) (f : Text → Text) (items : List Item) :
    without m (items.map fun x => ⟨x.mark, f x.line⟩) = (without m items).map f := by
  simp [without, List.filter_map, Function.comp_def]

theorem Hunk.Counted.map (f : Text → Text) (h' : h.Counted) : (h.map f).Counted := by
  rw [Hunk.Counted, Hunk.map, without_map_line, without_map_line, List.length_map, List.length_map]
  exact h'

theorem Replays.map (f : Text → Text) (hr : Replays i j a hs b) :
    Replays i j (a.map f) (hs.map (Hunk.map f)) (b.map f) := by
  induction hr with
  | nil rest => exact .nil _
  | @cons _ _ h _ _ _ gap hi hj _ ih =>
    simp only [List.map_append, List.map_cons, ← without_map_line]
    exact .cons (h := h.map f) (gap.map f) (by rwa [List.length_map]) (by rwa [List.length_map]) ih

theorem bare_chunks (h : Hunk) : h.chunks.map bare = (h.map bare).rows := by
  have hheader : bare (h.header ++ [feed]) = h.header := by
    rw [Text.bare_of_endsRow (Text.endsRow_iff.2 List.getLast?_concat), List.dropLast_concat]
  have hrow : ∀ x : Item, bare x.row = (Item.mk x.mark (bare x.line)).row :=
    fun x => Text.bare_cons (sign_ne_feed x.mark) x.line
  rw [Hunk.chunks, List.map_cons, hheader, List.map_map, Hunk.rows, Hunk.map, List.map_map]
  exact congrArg (h.header :: ·) (List.map_congr_left fun x _ => hrow x)

/-- Rows of which all but the last one end in line feeds are read as they were written. -/
theorem rows_chunks (hlines : ∀ h ∈ hs, ∀ x ∈ h.items, IsLine x.line)
    (hends : ∀ c ∈ (hs.flatMap Hunk.chunks).dropLast, endsRow c = true) :
    Text.rows (hs.flatMap Hunk.chunks).flatten = (hs.map (Hunk.map bare)).flatMap Hunk.rows := by
  have hchunks := isChunk_of_mem hlines
  rw [Text.rows_flatten (fun c hc => (hchunks c hc).ne_nil) (fun c hc => (hchunks c hc).feed_not_mem)
    hends, List.map_flatMap, List.flatMap_map]
  exact congrArg (hs.flatMap ·) (funext bare_chunks)

/-- The lines that hunks show. -/
def lines (hs : List Hunk) : List Text := hs.flatMap fun h => h.items.map Item.line

theorem lines_cons (h : Hunk) (hs : List Hunk) : lines (h :: hs) = h.items.map Item.line ++ lines hs :=
  List.flatMap_cons

/-- All rows but the last end in line feeds exactly if all lines shown but the last do. -/
theorem endsRow_dropLast_iff (hne : ∀ h ∈ hs, h.items ≠ []) :
    (∀ c ∈ (hs.flatMap Hunk.chunks).dropLast, endsRow c = true) ↔
      ∀ l ∈ (lines hs).dropLast, endsRow l = true := by
  have hheader : ∀ h : Hunk, endsRow (h.header ++ [feed]) = true :=
    fun h => Text.endsRow_iff.2 List.getLast?_concat
  have hrows : ∀ items : List Item, (∀ c ∈ items.map Item.row, endsRow c = true) ↔
      ∀ l ∈ items.map Item.line, endsRow l = true := by
    intro items
    simp only [List.forall_mem_map, Item.row, Text.endsRow_cons (sign_ne_feed _)]
  induction hs with
  | nil => rfl
  | cons h hs ih =>
    obtain ⟨hitems, hne⟩ := List.forall_mem_cons.1 hne
    rw [lines_cons, List.flatMap_cons]
    cases hs with
    | nil =>
      rw [lines, List.flatMap_nil, List.flatMap_nil, List.append_nil, List.append_nil, Hunk.chunks,
        List.dropLast_cons_of_ne_nil (by simpa using hitems), List.forall_mem_cons,
        ← List.map_dropLast, ← List.map_dropLast]
      exact (and_iff_right (hheader h)).trans (hrows _)
    | cons next hs =>
      have hnext : (next :: hs).flatMap Hunk.chunks ≠ [] := List.cons_ne_nil _ _
      have hlines : lines (next :: hs) ≠ [] := by
        rw [lines_cons]
        exact List.append_ne_nil_of_left_ne_nil (by simpa using hne next List.mem_cons_self) _
      rw [List.dropLast_append_of_ne_nil hnext, List.dropLast_append_of_ne_nil hlines,
        List.forall_mem_append, List.forall_mem_append, Hunk.chunks, List.forall_mem_cons]
      exact and_congr ((and_iff_right (hheader h)).trans (hrows _)) (ih hne)

/-! ## Rows that run together -/

variable {pre mid rest : List Text} {c c' : Text} {items : List Item}

/-- A line that is not closed is the last one. -/
theorem eq_nil_of_open (hclosed : ∀ l ∈ (pre ++ c :: rest).dropLast, isClosed l = true)
    (hc : isClosed c = false) : rest = [] := by
  cases rest with
  | nil => rfl
  | cons next rest =>
    rw [List.dropLast_append_of_ne_nil (List.cons_ne_nil _ _), List.dropLast_cons_cons] at hclosed
    have hmem := hclosed c (List.mem_append_right _ List.mem_cons_self)
    exact absurd (hc.symm.trans hmem) Bool.false_ne_true

theorem mark_eq_of_without_eq_nil {m : Mark} (hitems : without m items = []) :
    ∀ x ∈ items, x.mark = m := by
  intro x hx
  have hno := List.filter_eq_nil_iff.1 (List.map_eq_nil_iff.1 hitems) x hx
  simpa using hno

/-- Where one text is at its end, no hunk follows one before it. -/
theorem Replays.eq_nil (hr : Replays i j a hs b) (hend : a = [] ∨ b = [])
    (hstart : ∀ h ∈ hs.head?, i < h.start) : hs = [] := by
  cases hr with
  | nil => rfl
  | cons gap hi hj _ =>
    have hgap : gap = [] := by
      obtain hend | hend := hend
      · exact (List.append_eq_nil_iff.1 hend).1
      · exact (List.append_eq_nil_iff.1 hend).1
    have hlt := hstart _ rfl
    rw [hi, hgap] at hlt
    exact absurd hlt (Nat.lt_irrefl _)

/-- Marks of lines of which the one text is at its end when the other goes on. -/
def Opposed (m m' : Mark) : Prop := m = .removed ∧ m' = .added ∨ m = .added ∧ m' = .removed

theorem isClosed_row (x : Item) : isClosed x.row = isClosed x.line :=
  Text.isClosed_cons (isLineEnd_sign x.mark) x.line

/-- Nothing of a text stands behind its open line. -/
theorem without_eq_nil_of_open {m : Mark} {items items' : List Item} {gap behind : List Text}
    (hclosed : ∀ l ∈ (gap ++ (without m (items ++ x :: items') ++ behind)).dropLast, isClosed l = true)
    (hx : isClosed x.line = false) (hmark : x.mark ≠ m) : without m items' = [] ∧ behind = [] := by
  rw [without_append, without_cons, if_neg hmark, List.append_assoc, ← List.append_assoc,
    List.cons_append] at hclosed
  exact List.append_eq_nil_iff.1 (eq_nil_of_open hclosed hx)

/-- An element of two lists put together stands in the second or in the first. -/
theorem cons_of_append_eq {l l' : List Text} (heq : l ++ l' = pre ++ c :: rest) :
    (∃ pre', l' = pre' ++ c :: rest) ∨ ∃ tail, l = pre ++ c :: tail ∧ rest = tail ++ l' := by
  obtain ⟨pre', -, hsecond⟩ | ⟨tail, hfirst, htail⟩ := List.append_eq_append_iff.1 heq
  · exact .inl ⟨pre', hsecond⟩
  · cases tail with
    | nil => exact .inl ⟨[], htail.symm⟩
    | cons first tail =>
      obtain ⟨rfl, hrest⟩ := List.cons.inj htail
      exact .inr ⟨tail, hfirst, hrest⟩

theorem isClosed_header (h : Hunk) : isClosed (h.header ++ [feed]) = true :=
  Text.isClosed_of_endsRow (Text.endsRow_iff.2 List.getLast?_concat)

/-- A row that is not closed stands for an item. -/
theorem exists_item_of_open (hhunk : h.chunks = pre ++ c :: rest) (hc : isClosed c = false) :
    ∃ items x items', h.items = items ++ x :: items' ∧ c = x.row ∧ rest = items'.map Item.row := by
  cases pre with
  | nil =>
    obtain ⟨rfl, -⟩ := List.cons.inj hhunk
    exact absurd (hc.symm.trans (isClosed_header h)) Bool.false_ne_true
  | cons header pre =>
    obtain ⟨-, hrows⟩ := List.cons.inj hhunk
    obtain ⟨items, behind, hitems, -, hbehind⟩ := List.map_eq_append_iff.1 hrows
    obtain ⟨x, items', rfl, rfl, rfl⟩ := List.map_eq_cons_iff.1 hbehind
    exact ⟨items, x, items', hitems, rfl, rfl⟩

/-- Lines as a text has them: only the last one can be open. -/
structure Lined (lines : List Text) : Prop where
  isLine : ∀ l ∈ lines, IsLine l
  isClosed : ∀ l ∈ lines.dropLast, isClosed l = true

theorem lined_lines (t : Text) : Lined t.lines :=
  ⟨fun _ => Text.isLine_of_mem_lines, fun _ => Text.isClosed_of_mem_dropLast⟩

theorem Lined.of_append (h : Lined (pre ++ rest)) : Lined rest where
  isLine l hl := h.isLine l (List.mem_append_right _ hl)
  isClosed l hl := by
    refine h.isClosed l ?_
    rw [List.dropLast_append_of_ne_nil (List.ne_nil_of_mem (List.dropLast_subset _ hl))]
    exact List.mem_append_right _ hl

/-- A row that is not closed and not the last one ends one text; all rows behind it are lines that
only the other text has. -/
theorem opposed_after_open (ha : Lined a) (hb : Lined b) (hr : Replays i j a hs b)
    (hapart : Apart hs) (hchunks : hs.flatMap Hunk.chunks = pre ++ c :: rest)
    (hc : isClosed c = false) (hrest : rest ≠ []) :
    ∃ m m', Opposed m m' ∧ c.head? = some m.sign ∧ ∀ y ∈ rest, y.head? = some m'.sign := by
  induction hr generalizing pre with
  | nil => exact absurd hchunks (by simp)
  | @cons i j h hs behind behind' gap hi hj hbehind ih =>
    rw [Apart, List.isChain_cons] at hapart
    obtain ⟨pre', hchunks⟩ | ⟨tail, hhunk, hrest'⟩ := cons_of_append_eq hchunks
    · exact ih ha.of_append.of_append hb.of_append.of_append hapart.2 hchunks
    · obtain ⟨items, x, items', hitems, rfl, rfl⟩ := exists_item_of_open hhunk hc
      rw [hitems] at ha hb
      rw [isClosed_row] at hc
      have hnil : behind = [] ∨ behind' = [] → rest = items'.map Item.row := by
        intro hend
        obtain rfl := hbehind.eq_nil hend hapart.1
        rw [hrest', List.flatten_eq_nil_iff.2 (by simp), List.append_nil]
      have hmarks : ∀ m : Mark, rest = items'.map Item.row → (∀ y ∈ items', y.mark = m) →
          ∀ y ∈ rest, y.head? = some m.sign := by
        intro m hrows hm y hy
        rw [hrows] at hy
        obtain ⟨item, hitem, rfl⟩ := List.mem_map.1 hy
        rw [Item.row, List.head?_cons, hm item hitem]
      cases hmark : x.mark with
      | both =>
        obtain ⟨hold, hend⟩ := without_eq_nil_of_open ha.isClosed hc (by simp [hmark])
        obtain ⟨hnew, -⟩ := without_eq_nil_of_open hb.isClosed hc (by simp [hmark])
        -- both texts are at their ends, so that this row is the last one
        cases items' with
        | nil => exact absurd (hnil (.inl hend)) hrest
        | cons y _ =>
          have hadded := mark_eq_of_without_eq_nil hold y List.mem_cons_self
          have hremoved := mark_eq_of_without_eq_nil hnew y List.mem_cons_self
          exact Mark.noConfusion (hadded.symm.trans hremoved)
      | removed =>
        obtain ⟨hold, hend⟩ := without_eq_nil_of_open ha.isClosed hc (by simp [hmark])
        refine ⟨.removed, .added, .inl ⟨rfl, rfl⟩, by rw [Item.row, List.head?_cons, hmark], ?_⟩
        exact hmarks .added (hnil (.inl hend)) (mark_eq_of_without_eq_nil hold)
      | added =>
        obtain ⟨hnew, hend⟩ := without_eq_nil_of_open hb.isClosed hc (by simp [hmark])
        refine ⟨.added, .removed, .inr ⟨rfl, rfl⟩, by rw [Item.row, List.head?_cons, hmark], ?_⟩
        exact hmarks .removed (hnil (.inr hend)) (mark_eq_of_without_eq_nil hnew)

/-- So there is at most one such row. -/
theorem eq_nil_of_two_open (ha : Lined a) (hb : Lined b) (hr : Replays i j a hs b)
    (hapart : Apart hs) (hchunks : hs.flatMap Hunk.chunks = pre ++ c :: (mid ++ c' :: rest))
    (hc : isClosed c = false) (hc' : isClosed c' = false) : rest = [] := by
  by_contra hrest
  obtain ⟨m, m₁, -, -, hbehind⟩ := opposed_after_open ha hb hr hapart hchunks hc (by simp)
  rw [← List.cons_append, ← List.append_assoc] at hchunks
  obtain ⟨m₂, m₃, hopposed, hhead, hbehind'⟩ := opposed_after_open ha hb hr hapart hchunks hc' hrest
  obtain ⟨y, rest, rfl⟩ := List.exists_cons_of_ne_nil hrest
  -- the rows behind the first one all have the same sign, but the second one is of another
  have hfirst := (hbehind c' (by simp)).symm.trans hhead
  have hsecond := (hbehind y (by simp)).symm.trans (hbehind' y List.mem_cons_self)
  have hsame : some m₂.sign = some m₃.sign := hfirst.symm.trans hsecond
  obtain ⟨rfl, rfl⟩ | ⟨rfl, rfl⟩ := hopposed <;> exact absurd hsame (by decide)

/-! ## Counting rows -/

/-- How many rows start with the sign of a mark. -/
def signed (m : Mark) (rows : List Text) : Nat := rows.countP fun r => r.head? = some m.sign

theorem sign_inj {m m' : Mark} : m.sign = m'.sign ↔ m = m' := by
  cases m <;> cases m' <;> decide

theorem signed_cons (m : Mark) (r : Text) (rows : List Text) :
    signed m (r :: rows) = signed m rows + if r.head? = some m.sign then 1 else 0 := by
  simp [signed, List.countP_cons]

theorem signed_append (m : Mark) (rows rows' : List Text) :
    signed m (rows ++ rows') = signed m rows + signed m rows' := List.countP_append

theorem signed_map_row (m : Mark) (items : List Item) :
    signed m (items.map Item.row) = items.countP (·.mark = m) := by
  rw [signed, List.countP_map]
  exact List.countP_congr fun x _ => by simp [Item.row, sign_inj]

theorem head_header_ne (h : Hunk) (m : Mark) : h.header.head? ≠ some m.sign := by
  cases m <;> exact fun heq => absurd (Option.some.inj heq) (by decide)

theorem signed_rows (m : Mark) (hs : List Hunk) :
    signed m (hs.flatMap Hunk.rows) = (hs.flatMap Hunk.items).countP (·.mark = m) := by
  induction hs with
  | nil => rfl
  | cons h hs ih =>
    rw [List.flatMap_cons, signed_append, ih, Hunk.rows, signed_cons, if_neg (head_header_ne h m),
      signed_map_row, List.flatMap_cons, List.countP_append]
    rfl

theorem signed_chunks (m : Mark) (hs : List Hunk) :
    signed m (hs.flatMap Hunk.chunks) = (hs.flatMap Hunk.items).countP (·.mark = m) := by
  rw [← signed_rows]
  induction hs with
  | nil => rfl
  | cons h hs ih =>
    have hhead : (h.header ++ [feed]).head? = h.header.head? := rfl
    rw [List.flatMap_cons, List.flatMap_cons, signed_append, signed_append, ih, Hunk.chunks,
      Hunk.rows, signed_cons, signed_cons, hhead]

theorem signed_map_bare {rows : List Text} (hrows : ∀ r ∈ rows, IsChunk r) (m : Mark) :
    signed m (rows.map bare) = signed m rows := by
  rw [signed, List.countP_map]
  refine List.countP_congr fun r hr => ?_
  obtain ⟨hne, -, hhead⟩ := hrows r hr
  obtain ⟨c, l, rfl⟩ := List.exists_cons_of_ne_nil hne
  rw [Function.comp_apply, Text.bare_cons fun heq => hhead (congrArg some heq)]
  rfl

/-! ## What the rows say -/

/-- The rows of hunks that can be replayed on lines have line ends at their ends only. -/
theorem isLineEnd_rows (ha : ∀ l ∈ a, IsLine l) (hb : ∀ l ∈ b, IsLine l)
    (hr : Replays i j (a.map bare) hs (b.map bare)) :
    ∀ r ∈ hs.flatMap Hunk.rows, ∀ d ∈ r.dropLast, isLineEnd d = false := by
  intro r hrow d hd
  obtain ⟨h, hh, hrow⟩ := List.mem_flatMap.1 hrow
  obtain rfl | hrow := List.mem_cons.1 hrow
  · exact isLineEnd_header h d (List.dropLast_subset _ hd)
  · obtain ⟨x, hx, rfl⟩ := List.mem_map.1 hrow
    obtain ⟨l, hl, hline⟩ : ∃ l, IsLine l ∧ bare l = x.line := by
      obtain hmem | hmem := hr.mem_or_mem hh hx
      · obtain ⟨l, hl, hline⟩ := List.mem_map.1 hmem
        exact ⟨l, ha l hl, hline⟩
      · obtain ⟨l, hl, hline⟩ := List.mem_map.1 hmem
        exact ⟨l, hb l hl, hline⟩
    rw [Item.row, ← hline] at hd
    cases hbare : bare l with
    | nil => simp [hbare] at hd
    | cons e l' =>
      rw [hbare, List.dropLast_cons_cons, ← hbare] at hd
      obtain rfl | hd := List.mem_cons.1 hd
      · exact isLineEnd_sign x.mark
      · exact hl.isLineEnd_bare d hd

/-- Where rows have line ends at their ends only, what is written before another row either ends in a
line feed or is not closed at all. -/
theorem isClosed_eq_false (hchunks : ∀ r ∈ pre ++ c :: rest, IsChunk r)
    (hplain : ∀ r ∈ Text.rows (pre ++ c :: rest).flatten, ∀ d ∈ r.dropLast, isLineEnd d = false)
    (hrest : rest ≠ []) (hc : endsRow c = false) : isClosed c = false := by
  by_contra hclosed
  obtain ⟨e, hlast, he⟩ := (Option.any_eq_true _ _).1 (Bool.ne_false_iff.1 hclosed)
  obtain ⟨y, ys, rfl⟩ := List.exists_cons_of_ne_nil hrest
  have hy := hchunks y (by simp)
  obtain ⟨d, y, rfl⟩ := List.exists_cons_of_ne_nil hy.ne_nil
  have htext : (pre ++ c :: (d :: y) :: ys).flatten
      = (pre.flatten ++ c.dropLast) ++ e :: d :: (y ++ ys.flatten) := by
    conv_lhs => rw [← List.dropLast_append_getLast? e hlast]
    simp
  obtain rfl | rfl := Text.eq_feed_of_isLineEnd hplain htext he
  · rw [Text.endsRow_iff.2 hlast] at hc
    cases hc
  · exact hy.head_ne_feed rfl

/-- A row without a line feed is read together with the one behind it. -/
theorem rows_joined {y : Text} (hchunks : ∀ r ∈ pre ++ c :: y :: rest, IsChunk r)
    (hc : endsRow c = false) (hpre : ∀ r ∈ pre, endsRow r = true)
    (hrest : ∀ r ∈ (y :: rest).dropLast, endsRow r = true) :
    Text.rows (pre ++ c :: y :: rest).flatten = (pre ++ (c ++ y) :: rest).map bare ∧
      ∀ r ∈ pre ++ (c ++ y) :: rest, IsChunk r := by
  obtain ⟨hchunkpre, hchunkc, hchunky, hchunkrest⟩ : (∀ r ∈ pre, IsChunk r) ∧ IsChunk c ∧ IsChunk y ∧
      ∀ r ∈ rest, IsChunk r := by
    simpa only [List.forall_mem_append, List.forall_mem_cons] using hchunks
  have hjoined : IsChunk (c ++ y) := by
    refine ⟨List.append_ne_nil_of_left_ne_nil hchunkc.ne_nil y, ?_, ?_⟩
    · rw [List.dropLast_append_of_ne_nil hchunky.ne_nil, List.mem_append, not_or]
      exact ⟨Text.feed_not_mem hchunkc.feed_not_mem hc, hchunky.feed_not_mem⟩
    · rw [List.head?_append_of_ne_nil _ hchunkc.ne_nil]
      exact hchunkc.head_ne_feed
  have hall : ∀ r ∈ pre ++ (c ++ y) :: rest, IsChunk r :=
    List.forall_mem_append.2 ⟨hchunkpre, List.forall_mem_cons.2 ⟨hjoined, hchunkrest⟩⟩
  have hends : ∀ r ∈ (pre ++ (c ++ y) :: rest).dropLast, endsRow r = true := by
    rw [List.dropLast_append_of_ne_nil (List.cons_ne_nil _ _), List.forall_mem_append]
    refine ⟨hpre, ?_⟩
    cases rest with
    | nil => exact List.forall_mem_nil _
    | cons next rest =>
      rw [List.dropLast_cons_cons] at hrest ⊢
      obtain ⟨hy, hrest⟩ := List.forall_mem_cons.1 hrest
      refine List.forall_mem_cons.2 ⟨?_, hrest⟩
      rw [endsRow, List.getLast?_append_of_ne_nil _ hchunky.ne_nil]
      exact hy
  have hflatten : (pre ++ c :: y :: rest).flatten = (pre ++ (c ++ y) :: rest).flatten := by simp
  rw [hflatten]
  exact ⟨Text.rows_flatten (fun r hr => (hall r hr).ne_nil) (fun r hr => (hall r hr).feed_not_mem)
    hends, hall⟩

theorem exists_append_of_mem_dropLast (hc : c ∈ mid.dropLast) :
    ∃ pre rest, mid = pre ++ c :: rest ∧ rest ≠ [] := by
  obtain ⟨pre, tail, hsplit⟩ := List.append_of_mem hc
  have hne : mid ≠ [] := List.ne_nil_of_mem (List.dropLast_subset _ hc)
  refine ⟨pre, tail ++ [mid.getLast hne], ?_, by simp⟩
  rw [← List.cons_append, ← List.append_assoc, ← hsplit, List.dropLast_append_getLast]

/-- If every row that does not end in a line feed is open, there is one such row at most besides the
last one. -/
theorem exists_alone (ha : Lined a) (hb : Lined b) (hr : Replays i j a hs b) (hapart : Apart hs)
    (hopen : ∀ {pre : List Text} {c : Text} {rest : List Text},
      hs.flatMap Hunk.chunks = pre ++ c :: rest → rest ≠ [] → endsRow c = false → isClosed c = false)
    (hc : c ∈ (hs.flatMap Hunk.chunks).dropLast) (hends : endsRow c = false) :
    ∃ pre y rest, hs.flatMap Hunk.chunks = pre ++ c :: y :: rest ∧ isClosed c = false ∧
      (∀ r ∈ pre, endsRow r = true) ∧ ∀ r ∈ (y :: rest).dropLast, endsRow r = true := by
  obtain ⟨pre, behind, hsplit, hne⟩ := exists_append_of_mem_dropLast hc
  obtain ⟨y, rest, rfl⟩ := List.exists_cons_of_ne_nil hne
  have hc := hopen hsplit hne hends
  refine ⟨pre, y, rest, hsplit, hc, fun r hmem => ?_, fun r hmem => ?_⟩
  · by_contra hr'
    obtain ⟨p, q, rfl⟩ := List.append_of_mem hmem
    rw [List.append_assoc, List.cons_append] at hsplit
    have hr' := hopen hsplit (by simp) (Bool.eq_false_iff.2 hr')
    exact hne (eq_nil_of_two_open ha hb hr hapart hsplit hr' hc)
  · by_contra hr'
    obtain ⟨p, q, hpq, hq⟩ := exists_append_of_mem_dropLast hmem
    rw [hpq] at hsplit
    have hsplit' := hsplit
    rw [← List.cons_append, ← List.append_assoc] at hsplit'
    have hr' := hopen hsplit' hq (Bool.eq_false_iff.2 hr')
    exact hq (eq_nil_of_two_open ha hb hr hapart hsplit hc hr')

/-- Rows that can be read as hunks which do the same end in line feeds, except for the last one.
Where a row runs into the one behind it, too few lines of one kind are read to make up for the lengths
of the two lists. -/
theorem endsRow_of_rows_eq {rs : List Hunk} (ha : Lined a) (hb : Lined b) (hr : Replays i j a hs b)
    (hapart : Apart hs) (hrs : Replays i j (a.map bare) rs (b.map bare))
    (hrows : Text.rows (hs.flatMap Hunk.chunks).flatten = rs.flatMap Hunk.rows) :
    ∀ r ∈ (hs.flatMap Hunk.chunks).dropLast, endsRow r = true := by
  have hplain := isLineEnd_rows ha.isLine hb.isLine hrs
  have hchunks : ∀ r ∈ hs.flatMap Hunk.chunks, IsChunk r := by
    refine isChunk_of_mem fun h hh x hx => ?_
    exact (hr.mem_or_mem hh hx).elim (ha.isLine x.line) (hb.isLine x.line)
  rw [← hrows] at hplain
  intro c hc
  by_contra hends
  have hends := Bool.eq_false_iff.2 hends
  obtain ⟨pre, y, rest, hsplit, hopen, hpre, hrest⟩ := exists_alone ha hb hr hapart
    (fun heq => isClosed_eq_false (heq ▸ hchunks) (heq ▸ hplain)) hc hends
  obtain ⟨m, m', hopposed, -, hbehind⟩ :=
    opposed_after_open ha hb hr hapart hsplit hopen (List.cons_ne_nil _ _)
  -- the two rows read as one make the count of one mark smaller by one
  have hcount : ∀ k : Mark, signed k (hs.flatMap Hunk.chunks)
      = signed k (rs.flatMap Hunk.rows) + if m' = k then 1 else 0 := by
    intro k
    rw [hsplit] at hchunks hrows ⊢
    obtain ⟨hjoined, hall⟩ := rows_joined hchunks hends hpre hrest
    have hhead : (c ++ y).head? = c.head? :=
      List.head?_append_of_ne_nil _ (hchunks c (by simp)).ne_nil
    have hy : y.head? = some k.sign ↔ m' = k := by
      rw [hbehind y List.mem_cons_self, Option.some_inj, sign_inj]
    rw [← hrows, hjoined, signed_map_bare hall, signed_append, signed_append, signed_cons,
      signed_cons, signed_cons, hhead]
    simp only [hy]
    omega
  have hadded := hcount .added
  have hremoved := hcount .removed
  rw [signed_chunks, signed_rows] at hadded hremoved
  have hlength := hr.length_add
  have hlength' := hrs.length_add
  rw [List.length_map, List.length_map] at hlength'
  obtain ⟨-, rfl⟩ | ⟨-, rfl⟩ := hopposed
  · rw [if_pos rfl] at hadded
    rw [if_neg (by decide)] at hremoved
    omega
  · rw [if_neg (by decide)] at hadded
    rw [if_pos rfl] at hremoved
    omega

/-! ## The difference of two texts -/

variable {before after path : Text}

/-- The lines that the difference of two lists shows. -/
def shownLines (a b : List Text) : List Text :=
  (hunks (steps a b)).flatMap fun hunk => (hunk.flatMap (Step.shown a b)).map Item.line

theorem lines_hunksOf (a b : List Text) : lines (hunksOf a b) = shownLines a b :=
  List.flatMap_map ..

/-- Every hunk shows a line. -/
theorem items_ne_nil (hh : h ∈ hunksOf a b) : h.items ≠ [] := by
  obtain ⟨hunk, hhunk, rfl⟩ := List.mem_map.1 hh
  obtain ⟨s, hs, hequal, hproper⟩ := exists_change hhunk
  have hsound := (covers_hunks a b).sound hunk hhunk s hs
  have hshown : (s.shown a b).length = (s.stop - s.start) + (s.otherStop - s.otherStart) := by
    rw [Step.shown, if_neg (by simp [hequal]), List.length_append, List.length_map, List.length_map,
      length_segment hsound.stop_le, length_segment hsound.otherStop_le]
  intro hnone
  rw [List.flatMap_eq_nil_iff.1 hnone s hs] at hshown
  simp only [Step.isProper, Bool.or_eq_true, decide_eq_true_eq] at hproper
  rw [List.length_nil] at hshown
  omega

/-- The rows of a difference can be read as hunks that turn the one text into the other exactly if
all lines it shows but the last one end in line feeds. -/
theorem exists_rows_iff (ha : Lined a) (hb : Lined b) :
    (∃ rs : List Hunk,
      Text.rows ((hunksOf a b).flatMap Hunk.chunks).flatten = rs.flatMap Hunk.rows ∧
      (∀ h ∈ rs, h.Counted) ∧ Replays 0 0 (a.map bare) rs (b.map bare)) ↔
    ∀ l ∈ (shownLines a b).dropLast, endsRow l = true := by
  have hwritten := written_hunksOf a b
  have hreplays : Replays 0 0 a (hunksOf a b) b := hwritten.replays
  rw [← lines_hunksOf, ← endsRow_dropLast_iff fun h => items_ne_nil]
  constructor
  · rintro ⟨rs, hrows, -, hrs⟩
    exact endsRow_of_rows_eq ha hb hreplays hwritten.apart hrs hrows
  · intro hends
    refine ⟨(hunksOf a b).map (Hunk.map bare), rows_chunks (fun h hh x hx => ?_) hends, ?_,
      hreplays.map bare⟩
    · exact (hreplays.mem_or_mem hh hx).elim (ha.isLine x.line) (hb.isLine x.line)
    · exact List.forall_mem_map.2 fun h hh => (hwritten.counted h hh).map bare

theorem unified_eq (hne : before ≠ after) (path : Text) :
    unified before after path =
      ("--- " ++ path ++ " (before)") ++ feed :: (("+++ " ++ path ++ " (after)") ++ feed ::
        ((hunksOf before.lines after.lines).flatMap Hunk.chunks).flatten) := by
  have hlines : before.lines ≠ after.lines := by
    intro heq
    rw [← Text.flatten_lines before, heq, Text.flatten_lines] at hne
    exact hne rfl
  have hbody : ((hunksOf before.lines after.lines).flatMap Hunk.chunks).flatten ≠ [] := by
    obtain ⟨hunk, rest, hhunks⟩ := List.exists_cons_of_ne_nil (hunks_ne_nil hlines)
    rw [hunksOf, hhunks]
    exact List.cons_ne_nil _ _
  rw [unified, body_eq, if_neg (by simpa using hbody)]
  simp [Text.ofString, feed]

theorem faithful_unified_iff_rows (hne : before ≠ after) (hpath : feed ∉ path) :
    Faithful path before after (unified before after path) ↔
      ∃ rs : List Hunk,
        Text.rows ((hunksOf before.lines after.lines).flatMap Hunk.chunks).flatten
          = rs.flatMap Hunk.rows ∧
        (∀ h ∈ rs, h.Counted) ∧ Replays 0 0 (before.lines.map bare) rs (after.lines.map bare) := by
  have hfirst : feed ∉ ("--- " ++ path ++ " (before)" : Text) := by
    simp only [List.mem_append, hpath]
    decide
  have hsecond : feed ∉ ("+++ " ++ path ++ " (after)" : Text) := by
    simp only [List.mem_append, hpath]
    decide
  rw [Faithful, unified_eq hne, Text.rows_append_feed hfirst, Text.rows_append_feed hsecond]
  simp only [List.cons.injEq, true_and]

/-- The difference of two texts that differ can be read row by row and replayed exactly if all lines it
shows but the last one end in line feeds; so it always can if all lines of both texts do. -/
theorem faithful_unified_iff (hne : before ≠ after) (hpath : feed ∉ path) :
    Faithful path before after (unified before after path) ↔
      ∀ l ∈ (shownLines before.lines after.lines).dropLast, endsRow l = true :=
  (faithful_unified_iff_rows hne hpath).trans
    (exists_rows_iff (lined_lines before) (lined_lines after))

/-- Where the last line has its line feed, a line that replaces it stands in a row of its own. -/
theorem faithful_unified_closed :
    Faithful "/p/f.json" "a\n" "b" (unified "a\n" "b" "/p/f.json") := by
  refine (faithful_unified_iff (by decide) (by decide)).2 ?_
  rw [shownLines, hunks_of_disjoint (by decide) (by decide)]
  decide

/-- Where it has none, the line that replaces it is written into its row. -/
theorem not_faithful_unified_open :
    unified "a" "b" "/p/f.json"
        = "--- /p/f.json (before)\n+++ /p/f.json (after)\n@@ -1 +1 @@\n-a+b" ∧
      ¬ Faithful "/p/f.json" "a" "b" (unified "a" "b" "/p/f.json") := by
  have hhunks : hunks (steps (Text.lines "a") (Text.lines "b")) = [[⟨false, 0, 1, 0, 1⟩]] :=
    hunks_of_disjoint (by decide) (by decide)
  constructor
  · rw [unified, hhunks]
    decide
  · intro hfaithful
    have hrows := (faithful_unified_iff_rows (by decide) (by decide)).1 hfaithful
    have hshown := (exists_rows_iff (lined_lines "a") (lined_lines "b")).1 hrows
    rw [shownLines, hhunks] at hshown
    exact absurd (hshown "a" (by decide)) (by decide)

end WorkflowLint.Diff
