import WorkflowLint.Diff.Match

/-!
# Matched lines are equal

Whatever two lists of lines are, `Diff.blocks` gives blocks of lines that both lists have, one
behind the other in both (`matching_blocks`).  The search for a longest block keeps this: every block
it holds lies inside its window and has equal lines on both sides (`Within`).

Nothing here says that the blocks are the longest ones.
-/

namespace WorkflowLint.Diff

variable {a b : List Text} {w : Window} {i i' i'' j j' j'' k m : Nat}

/-! ## Common lines -/

/-- Whether the next `k` lines from position `i` on in one list are those from `j` on in the other. -/
def Common (a b : List Text) (i j k : Nat) : Prop := ∀ d < k, a[i + d]? = b[j + d]?

theorem common_zero (a b : List Text) (i j : Nat) : Common a b i j 0 :=
  fun d hd => absurd hd (Nat.not_lt_zero d)

theorem common_one : Common a b i j 1 ↔ a[i]? = b[j]? :=
  ⟨fun h => h 0 Nat.one_pos, fun h d hd => by rwa [Nat.lt_one_iff.1 hd]⟩

theorem Common.append (h : Common a b i j k) (h' : Common a b (i + k) (j + k) m) :
    Common a b i j (k + m) := by
  intro d hd
  by_cases hdk : d < k
  · exact h d hdk
  · obtain ⟨d, rfl⟩ := Nat.exists_eq_add_of_le (Nat.le_of_not_lt hdk)
    rw [← Nat.add_assoc, ← Nat.add_assoc]
    exact h' d (Nat.lt_of_add_lt_add_left hd)

theorem Common.take (h : Common a b i j k) (hm : m ≤ k) : Common a b i j m :=
  fun d hd => h d (Nat.lt_of_lt_of_le hd hm)

theorem Common.drop (h : Common a b i j (k + m)) : Common a b (i + k) (j + k) m := by
  intro d hd
  rw [Nat.add_assoc, Nat.add_assoc]
  exact h (k + d) (Nat.add_lt_add_left hd k)

/-! ## Blocks inside a window -/

/-- Whether a window ends where it starts or behind that, in both lists. -/
structure Window.Ordered (w : Window) : Prop where
  le : w.start ≤ w.stop
  otherLe : w.otherStart ≤ w.otherStop

/-- `k` lines from position `i` on in one list and from `j` on in the other that are equal and lie
inside a window. -/
structure Within (a b : List Text) (w : Window) (i j k : Nat) : Prop where
  start_le : w.start ≤ i
  otherStart_le : w.otherStart ≤ j
  stop_le : i + k ≤ w.stop
  otherStop_le : j + k ≤ w.otherStop
  common : Common a b i j k

theorem Within.snoc (h : Within a b w i j k) (hi : i + k < w.stop) (hj : j + k < w.otherStop)
    (hsame : a[i + k]? = b[j + k]?) : Within a b w i j (k + 1) where
  start_le := h.start_le
  otherStart_le := h.otherStart_le
  stop_le := hi
  otherStop_le := hj
  common := h.common.append (common_one.2 hsame)

theorem Within.cons (h : Within a b w (i + 1) (j + 1) k) (hi : w.start ≤ i)
    (hj : w.otherStart ≤ j) (hsame : a[i]? = b[j]?) : Within a b w i j (k + 1) where
  start_le := hi
  otherStart_le := hj
  stop_le := by have := h.stop_le; omega
  otherStop_le := by have := h.otherStop_le; omega
  common := by
    have hmore := (common_one.2 hsame).append h.common
    rwa [Nat.add_comm] at hmore

theorem same_of (a b : List Text) (i j : Nat) :
    (Sides.of a b).same i j = true ↔ a[i]? = b[j]? := by
  simp [Sides.of, Sides.same]

/-- Where a line of the first list is said to occur, the second list has that line. -/
theorem getElem?_eq_of_mem_places (h : j ∈ ((Sides.of a b).places[i]?).getD []) :
    a[i]? = b[j]? := by
  rw [Sides.of, List.getElem?_toArray, List.getElem?_map] at h
  rcases hline : a[i]? with _ | line
  · simp [hline] at h
  · rw [hline, Option.map_some, Option.getD_some, Sides.placesOf] at h
    split at h
    · exact absurd h List.not_mem_nil
    · exact (LineIndex.mem_places_of.1 h).symm

/-! ## The longest block -/

/-- Whether the blocks that a search takes to end before position `i` do so. -/
def EndAt (a b : List Text) (w : Window) (i : Nat) (ending : List (Nat × Nat)) : Prop :=
  ∀ e ∈ ending, ∃ start other,
    Within a b w start other e.2 ∧ start + e.2 = i ∧ other + e.2 = e.1 + 1

theorem sizeBefore_succ (ending : List (Nat × Nat)) (j : Nat) :
    Search.sizeBefore ending (j + 1) = 0 ∨
      ∃ e ∈ ending, e.1 = j ∧ Search.sizeBefore ending (j + 1) = e.2 := by
  rw [Search.sizeBefore]
  cases hfind : ending.find? (fun e => e.1 == j) with
  | none => exact .inl rfl
  | some e =>
    exact .inr ⟨e, List.mem_of_find?_eq_some hfind, by simpa using List.find?_some hfind, rfl⟩

/-- A block that ends before two positions has the size found for it. -/
theorem exists_within_sizeBefore {ending : List (Nat × Nat)} (h : EndAt a b w i ending)
    (hi : w.start ≤ i) (hi' : i ≤ w.stop) (hj : w.otherStart ≤ j) (hj' : j ≤ w.otherStop) :
    ∃ start other, Within a b w start other (Search.sizeBefore ending j) ∧
      start + Search.sizeBefore ending j = i ∧ other + Search.sizeBefore ending j = j := by
  have hnone : ∃ start other, Within a b w start other 0 ∧ start + 0 = i ∧ other + 0 = j :=
    ⟨i, j, ⟨hi, hj, hi', hj', common_zero a b i j⟩, rfl, rfl⟩
  cases j with
  | zero => exact hnone
  | succ j =>
    obtain hsize | ⟨e, he, hej, hsize⟩ := sizeBefore_succ ending j
    · rwa [hsize]
    · obtain ⟨start, other, hwithin, hstart, hother⟩ := h e he
      rw [hsize]
      exact ⟨start, other, hwithin, hstart, hej ▸ hother⟩

/-- What a search holds when it has looked at the lines before position `i`. -/
structure Search.Sound (a b : List Text) (w : Window) (i : Nat) (found : Search) : Prop where
  best : Within a b w found.best.start found.best.other found.best.size
  ending : EndAt a b w i found.ending

/-- The longer one of two blocks is one of them. -/
theorem within_foldl_best {ending : List (Nat × Nat)} (h : EndAt a b w (i + 1) ending)
    {best : Block} (hbest : Within a b w best.start best.other best.size) :
    let best' := ending.foldl
      (fun best e => if best.size < e.2 then ⟨i + 1 - e.2, e.1 + 1 - e.2, e.2⟩ else best) best
    Within a b w best'.start best'.other best'.size := by
  induction ending generalizing best with
  | nil => exact hbest
  | cons e ending ih =>
    obtain ⟨⟨start, other, hwithin, hstart, hother⟩, hrest⟩ := List.forall_mem_cons.1 h
    rw [List.foldl_cons]
    refine ih hrest ?_
    split
    · rwa [← hstart, ← hother, Nat.add_sub_cancel, Nat.add_sub_cancel]
    · exact hbest

theorem sound_step {found : Search} (h : found.Sound a b w i) (hi : w.start ≤ i)
    (hi' : i < w.stop) : (Search.step (Sides.of a b) w found i).Sound a b w (i + 1) := by
  have hending : EndAt a b w (i + 1) (Search.step (Sides.of a b) w found i).ending := by
    intro e he
    obtain ⟨j, hj, rfl⟩ := List.mem_map.1 he
    simp only [List.mem_filter, Bool.and_eq_true, decide_eq_true_eq] at hj
    obtain ⟨hplace, hj, hj'⟩ := hj
    obtain ⟨start, other, hwithin, hstart, hother⟩ :=
      exists_within_sizeBefore h.ending hi (Nat.le_of_lt hi') hj (Nat.le_of_lt hj')
    refine ⟨start, other, hwithin.snoc (by omega) (by omega) ?_, ?_, ?_⟩
    · rw [hstart, hother]
      exact getElem?_eq_of_mem_places hplace
    · rw [← Nat.add_assoc, hstart]
    · rw [← Nat.add_assoc, hother]
  exact ⟨within_foldl_best hending h.best, hending⟩

theorem sound_foldl_step (a b : List Text) (hw : w.Ordered) (hk : w.start + k ≤ w.stop) :
    let found := ((List.range k).map (w.start + ·)).foldl (Search.step (Sides.of a b) w)
      ⟨⟨w.start, w.otherStart, 0⟩, []⟩
    found.Sound a b w (w.start + k) := by
  induction k with
  | zero =>
    exact ⟨⟨Nat.le_refl _, Nat.le_refl _, hw.le, hw.otherLe, common_zero a b _ _⟩,
      List.forall_mem_nil _⟩
  | succ k ih =>
    rw [List.range_succ, List.map_append, List.foldl_append]
    exact sound_step (ih (Nat.le_of_succ_le hk)) (Nat.le_add_right _ _) hk

theorem within_equalBefore (i j : Nat) (h : Within a b w i j k) :
    Within a b w (i - equalBefore (Sides.of a b) w i j) (j - equalBefore (Sides.of a b) w i j)
      (equalBefore (Sides.of a b) w i j + k) := by
  fun_induction equalBefore (Sides.of a b) w i j generalizing k with
  | case1 i j hequal ih =>
    obtain ⟨hi, hj, hsame⟩ := hequal
    have hmore := ih (h.cons hi hj ((same_of a b i j).1 hsame))
    rwa [Nat.succ_sub_succ, Nat.succ_sub_succ, Nat.add_right_comm, Nat.add_assoc]
  | case2 i j hequal => rwa [Nat.sub_zero, Nat.sub_zero, Nat.zero_add]
  | case3 i j hzero => rwa [Nat.sub_zero, Nat.sub_zero, Nat.zero_add]

theorem within_equalFrom {count : Nat} (h : Within a b w i j k) (hcount : i + k + count ≤ w.stop) :
    Within a b w i j (k + equalFrom (Sides.of a b) w (i + k) (j + k) count) := by
  induction count generalizing k with
  | zero => exact h
  | succ count ih =>
    rw [equalFrom]
    split
    · rename_i hequal
      have hmore := ih (h.snoc (by omega) hequal.1 ((same_of a b _ _).1 hequal.2)) (by omega)
      rwa [Nat.add_right_comm k, Nat.add_assoc] at hmore
    · exact h

/-- The longest block of a window has equal lines on both sides. -/
theorem within_longestBlock (a b : List Text) (hw : w.Ordered) :
    let found := longestBlock (Sides.of a b) w
    Within a b w found.start found.other found.size := by
  have hsize : w.start + (w.stop - w.start) ≤ w.stop := Nat.le_of_eq (Nat.add_sub_cancel' hw.le)
  have hbest := (sound_foldl_step a b hw hsize).best
  have hstop := hbest.stop_le
  have hbehind := within_equalFrom hbest (Nat.le_of_eq (Nat.add_sub_cancel' hstop))
  rw [longestBlock, Block.extend]
  simpa only [Nat.add_assoc] using within_equalBefore _ _ hbehind

/-! ## All blocks -/

/-- Blocks of equal lines, one behind the other in both lists, between two pairs of positions. -/
inductive Matching (a b : List Text) : Nat → Nat → List Block → Nat → Nat → Prop
  | nil {i j stop otherStop : Nat} (hi : i ≤ stop) (hj : j ≤ otherStop) :
      Matching a b i j [] stop otherStop
  | cons {i j stop otherStop : Nat} {block : Block} {rest : List Block}
      (hi : i ≤ block.start) (hj : j ≤ block.other)
      (hsame : Common a b block.start block.other block.size)
      (hrest : Matching a b (block.start + block.size) (block.other + block.size) rest
        stop otherStop) :
      Matching a b i j (block :: rest) stop otherStop

namespace Matching

variable {block : Block} {blocks others : List Block}

theorem start_mono (h : Matching a b i j blocks i' j') (hi : i'' ≤ i) (hj : j'' ≤ j) :
    Matching a b i'' j'' blocks i' j' := by
  cases h with
  | nil hi' hj' => exact .nil (Nat.le_trans hi hi') (Nat.le_trans hj hj')
  | cons hi' hj' hsame hrest =>
    exact .cons (Nat.le_trans hi hi') (Nat.le_trans hj hj') hsame hrest

theorem le (h : Matching a b i j blocks i' j') : i ≤ i' ∧ j ≤ j' := by
  induction h with
  | nil hi hj => exact ⟨hi, hj⟩
  | cons hi hj _ _ ih => omega

theorem append (h : Matching a b i j blocks i' j') (hothers : Matching a b i' j' others i'' j'') :
    Matching a b i j (blocks ++ others) i'' j'' := by
  induction h with
  | nil hi hj => exact hothers.start_mono hi hj
  | cons hi hj hsame _ ih => exact .cons hi hj hsame (ih hothers)

theorem joinBlock (h : Matching a b i j (block :: blocks) i' j') :
    Matching a b i j (Diff.joinBlock block blocks) i' j' := by
  cases blocks with
  | nil => exact h
  | cons next rest =>
    rw [Diff.joinBlock]
    split
    · rename_i hadjacent
      obtain ⟨hi, hother⟩ := hadjacent
      obtain _ | ⟨hstart, hstart', hsame, _ | ⟨-, -, hnext, hrest⟩⟩ := h
      refine .cons hstart hstart' (hsame.append ?_) ?_
      · rwa [hi, hother]
      · rwa [← Nat.add_assoc, ← Nat.add_assoc, hi, hother]
    · exact h

theorem foldr_joinBlock (h : Matching a b i j blocks i' j') :
    Matching a b i j (blocks.foldr Diff.joinBlock []) i' j' := by
  induction h with
  | nil hi hj => exact .nil hi hj
  | cons hi hj hsame _ ih => exact joinBlock (.cons hi hj hsame ih)

end Matching

theorem matching_blocksIn (fuel : Nat) (hw : w.Ordered) :
    Matching a b w.start w.otherStart (blocksIn (Sides.of a b) fuel w) w.stop w.otherStop := by
  induction fuel generalizing w with
  | zero => exact .nil hw.le hw.otherLe
  | succ fuel ih =>
    have hfound := within_longestBlock a b hw
    rw [blocksIn]
    generalize longestBlock (Sides.of a b) w = found at hfound
    obtain ⟨hstart, hother, hstop, hotherStop, hsame⟩ := hfound
    split
    · exact .nil hw.le hw.otherLe
    · refine Matching.append ?left (.cons (Nat.le_refl _) (Nat.le_refl _) hsame ?right)
      case left =>
        split
        · exact ih (w := ⟨w.start, found.start, w.otherStart, found.other⟩) ⟨hstart, hother⟩
        · exact .nil hstart hother
      case right =>
        split
        · exact ih (w := ⟨found.start + found.size, w.stop, found.other + found.size, w.otherStop⟩)
            ⟨hstop, hotherStop⟩
        · exact .nil hstop hotherStop

/-- The blocks found in two lists have equal lines and stand one behind the other in both. -/
theorem matching_blocks (a b : List Text) :
    Matching a b 0 0 (blocks a b) a.length b.length :=
  (matching_blocksIn (w := ⟨0, a.length, 0, b.length⟩) (a.length + 1)
    ⟨Nat.zero_le _, Nat.zero_le _⟩).foldr_joinBlock

/-- Lists without a line in common have no blocks. -/
theorem blocks_eq_nil (h : ∀ l ∈ a, l ∉ b) : blocks a b = [] := by
  have hw : Window.Ordered ⟨0, a.length, 0, b.length⟩ := ⟨Nat.zero_le _, Nat.zero_le _⟩
  have hfound := within_longestBlock a b hw
  have hsize : (longestBlock (Sides.of a b) ⟨0, a.length, 0, b.length⟩).size = 0 := by
    generalize longestBlock (Sides.of a b) ⟨0, a.length, 0, b.length⟩ = found at hfound
    obtain ⟨-, -, hstop, -, hcommon⟩ := hfound
    refine Nat.eq_zero_of_not_pos fun hpos => ?_
    have hstart : found.start < a.length := Nat.lt_of_lt_of_le (Nat.lt_add_of_pos_right hpos) hstop
    have hsame := common_one.1 (hcommon.take hpos)
    rw [List.getElem?_eq_getElem hstart] at hsame
    exact h _ (List.getElem_mem hstart) (List.mem_of_getElem? hsame.symm)
  rw [blocks, blocksIn, if_pos hsize]
  rfl

end WorkflowLint.Diff
