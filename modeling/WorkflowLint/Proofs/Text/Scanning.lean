import WorkflowLint.Proofs.Text.Lexicon
import WorkflowLint.Proofs.Text.Parts

/-!
# What scanners find, and where

A scanner takes the first find it comes across and goes on behind it.  Words that are told apart wherever
they stand do not overlap, so that none of them is hidden behind another one: a scanner of such words has
each of them at each offset at which it stands (`Finds.mem_occurrences_iff`), and has them from left to
right (`pairwise_occurrences`).

The line of a find is told by the line feeds before it.  It is that line of the text which has the whole
of the find in it, if this has no line feed itself (`liesOn_lineAt`).
-/

namespace WorkflowLint.Text

/-- A part of a text starts at an offset. -/
def StandsAt (part t : Text) (offset : Nat) : Prop := part <+: t.drop offset

instance (part t : Text) (offset : Nat) : Decidable (StandsAt part t offset) :=
  inferInstanceAs (Decidable (part <+: t.drop offset))

/-- A part of a text that starts at an offset lies on the line with a number: it is a part of that line,
and before the offset are the lines that come before and what the line has before the part. -/
def LiesOn (part t : Text) (offset number : Nat) : Prop :=
  ∃ before after left right, t.parts (.char '\n') = before ++ (left ++ part ++ right) :: after ∧
    number = before.length + 1 ∧
    t.take offset = before.flatMap (fun line => line ++ [.char '\n']) ++ left

/-- A part occurs in a text exactly if it stands somewhere in it. -/
theorem isInfix_iff_exists_standsAt {part t : Text} : part <:+: t ↔ ∃ offset, StandsAt part t offset := by
  constructor
  · rintro ⟨before, after, rfl⟩
    refine ⟨before.length, ?_⟩
    rw [StandsAt, List.append_assoc, List.drop_left]
    exact List.prefix_append part after
  · rintro ⟨offset, h⟩
    exact h.isInfix.trans (List.drop_suffix offset t).isInfix

/-! ## Texts one behind the other -/

namespace Lexicon

variable {α : Type} {L : Lexicon α} {s s' t : Text} {ps qs : List (Piece α)}

/-- The words among some pieces. -/
def words : List (Piece α) → List α
  | [] => []
  | .word a :: ps => a :: words ps
  | .unit _ :: ps => words ps

theorem words_append (ps qs : List (Piece α)) : words (ps ++ qs) = words ps ++ words qs := by
  induction ps with
  | nil => rfl
  | cons p ps ih =>
    match p with
    | .word a => exact congrArg (a :: ·) ih
    | .unit c => exact ih

/-- No word starts in a text and ends in the one behind it. -/
def Apart (L : Lexicon α) (s t : Text) : Prop :=
  ∀ a u v, u <:+ s → u ≠ [] → v <+: t → v ≠ [] → L.spell a ≠ u ++ v

theorem Apart.of_suffix (h : L.Apart s t) (hs : s' <:+ s) : L.Apart s' t :=
  fun a u v hu => h a u v (hu.trans hs)

/-- No word ends inside another one that it starts before. -/
theorem apart_spell (a : α) (s t : Text) : L.Apart s (L.spell a ++ t) := by
  intro b u v _ hu hv hne hspell
  have hinside : v <:+ (L.spell b).tail := by
    obtain ⟨c, u, rfl⟩ := List.exists_cons_of_ne_nil hu
    rw [hspell, List.cons_append, List.tail_cons]
    exact List.suffix_append u v
  obtain ⟨rest, hrest⟩ | hrest := List.prefix_or_prefix_of_prefix hv (List.prefix_append (L.spell a) t)
  · exact L.not_isPrefix (a := a) (t := rest) hinside hne (by rw [hrest])
  · exact L.not_isPrefix (t := []) hinside hne (by rwa [List.append_nil])

/-- Texts that are apart are cut separately. -/
theorem IsCut.append (hps : L.IsCut ps) (hqs : L.IsCut qs) (h : L.Apart (L.text ps) (L.text qs)) :
    L.IsCut (ps ++ qs) := by
  induction ps with
  | nil => exact hqs
  | cons p ps ih =>
    match p with
    | .word a => exact ih hps (h.of_suffix (List.suffix_append _ _))
    | .unit c =>
      refine ⟨fun a ha => ?_, ih hps.2 (h.of_suffix (List.suffix_cons _ _))⟩
      have ha : L.spell a <+: L.text (.unit c :: ps) ++ L.text qs := by
        rw [← text_append]
        exact ha
      obtain hstart | ⟨v, hv⟩ := List.prefix_or_prefix_of_prefix ha (List.prefix_append _ _)
      · exact hps.1 a hstart
      · by_cases hne : v = []
        · rw [hne, List.append_nil] at hv
          exact hps.1 a (hv ▸ List.prefix_rfl)
        · rw [← hv, List.prefix_append_right_inj] at ha
          exact h a _ v List.suffix_rfl (List.cons_ne_nil _ _) ha hne hv.symm

/-- A word can be put between two texts. -/
theorem IsCut.append_word (hps : L.IsCut ps) (hqs : L.IsCut qs) (a : α) :
    L.IsCut (ps ++ .word a :: qs) := by
  refine hps.append (show L.IsCut (.word a :: qs) from hqs) ?_
  rw [text_word]
  exact apart_spell a _ _

end Lexicon

/-! ## Finds -/

section Finds

variable {α β : Type} {find? : Text → Option (β × Nat)} {view : α → β} {t : Text} {offset skip : Nat}

theorem le_of_mem_occurrencesFrom {x : Nat × β} (h : x ∈ occurrencesFrom find? offset skip t) :
    offset ≤ x.1 := by
  fun_induction occurrencesFrom find? offset skip t with
  | case1 => exact absurd h List.not_mem_nil
  | case2 offset skip c t ih => exact Nat.le_of_succ_le (ih h)
  | case3 offset c t b n hfind ih =>
    obtain rfl | h := List.mem_cons.1 h
    · exact Nat.le_refl _
    · exact Nat.le_of_succ_le (ih h)
  | case4 offset c t hfind ih => exact Nat.le_of_succ_le (ih h)

theorem pairwise_occurrencesFrom :
    (occurrencesFrom find? offset skip t).Pairwise fun x y => x.1 < y.1 := by
  fun_induction occurrencesFrom find? offset skip t with
  | case1 => exact List.Pairwise.nil
  | case2 offset skip c t ih => exact ih
  | case3 offset c t b n hfind ih =>
    exact List.pairwise_cons.2 ⟨fun _ hx => le_of_mem_occurrencesFrom hx, ih⟩
  | case4 offset c t hfind ih => exact ih

/-- What is found is found from left to right. -/
theorem pairwise_occurrences (find? : Text → Option (β × Nat)) (t : Text) :
    (t.occurrences find?).Pairwise fun x y => x.1 < y.1 := pairwise_occurrencesFrom

namespace Finds

variable {L : Lexicon α} {ps : List (Piece α)} {a : α} {b : β} {i : Nat}

/-- A word that starts in another one starts where it starts. -/
theorem eq_of_standsAt_spell {w : α} (h : StandsAt (L.spell a) (L.spell w ++ t) i)
    (hi : i < (L.spell w).length) : i = 0 ∧ a = w := by
  obtain _ | i := i
  · exact ⟨rfl, L.eq_of_isPrefix h⟩
  · refine absurd h ?_
    rw [StandsAt, List.drop_append_of_le_length (Nat.le_of_lt hi), ← List.drop_tail]
    refine L.not_isPrefix (List.drop_suffix i _) fun hnil => ?_
    have hlength := congrArg List.length hnil
    rw [List.length_drop, List.length_tail, List.length_nil] at hlength
    omega

theorem mem_occurrencesFrom_iff (h : Finds find? L view) (hps : L.IsCut ps) :
    (offset + i, b) ∈ occurrencesFrom find? offset 0 (L.text ps) ↔
      ∃ a, view a = b ∧ StandsAt (L.spell a) (L.text ps) i := by
  induction ps generalizing offset i with
  | nil =>
    refine iff_of_false List.not_mem_nil ?_
    rintro ⟨a, -, ha⟩
    rw [StandsAt, Lexicon.text_nil, List.drop_nil] at ha
    exact L.spell_ne_nil a (List.prefix_nil.1 ha)
  | cons p ps ih =>
    match p with
    | .word w =>
      rw [Lexicon.text_word, h.occurrencesFrom_spell, List.mem_cons]
      by_cases hi : i < (L.spell w).length
      · have hrest : (offset + i, b) ∉
            occurrencesFrom find? (offset + (L.spell w).length) 0 (L.text ps) := fun hmem =>
          absurd (le_of_mem_occurrencesFrom hmem) (by simpa using hi)
        rw [or_iff_left hrest]
        constructor
        · intro heq
          obtain ⟨hoffset, rfl⟩ := Prod.mk.inj heq
          obtain rfl : i = 0 := by omega
          exact ⟨w, rfl, List.prefix_append _ _⟩
        · rintro ⟨a, rfl, ha⟩
          obtain ⟨rfl, rfl⟩ := eq_of_standsAt_spell ha hi
          rfl
      · obtain ⟨j, rfl⟩ := Nat.exists_eq_add_of_le (Nat.le_of_not_lt hi)
        have hpos := List.length_pos_of_ne_nil (L.spell_ne_nil w)
        have hne : (offset + ((L.spell w).length + j), b) ≠ (offset, view w) := fun heq => by
          have := (Prod.mk.inj heq).1
          omega
        have hdrop : (L.spell w ++ L.text ps).drop ((L.spell w).length + j) = (L.text ps).drop j := by
          rw [← List.drop_drop, List.drop_left]
        rw [or_iff_right hne, ← Nat.add_assoc, ih hps]
        simp only [StandsAt, hdrop]
    | .unit c =>
      rw [Lexicon.text_unit, h.occurrencesFrom_cons hps.1]
      obtain _ | i := i
      · refine iff_of_false (fun hmem => ?_) ?_
        · exact absurd (le_of_mem_occurrencesFrom hmem) (by simp)
        · rintro ⟨a, -, ha⟩
          exact hps.1 a ha
      · rw [Nat.add_comm i, ← Nat.add_assoc, ih hps.2]
        simp only [StandsAt, Nat.add_comm 1, List.drop_succ_cons]

/-- What is found at an offset is a word that stands there. -/
theorem mem_occurrences_iff (h : Finds find? L view) :
    (i, b) ∈ t.occurrences find? ↔ ∃ a, view a = b ∧ StandsAt (L.spell a) t i := by
  obtain ⟨ps, hps, rfl⟩ := L.exists_isCut t
  have hmem : (0 + i, b) ∈ occurrencesFrom find? 0 0 (L.text ps) ↔ _ := h.mem_occurrencesFrom_iff hps
  rwa [Nat.zero_add] at hmem

/-- The words among the pieces of a text are found in their order. -/
theorem map_snd_occurrences (h : Finds find? L view) (hps : L.IsCut ps) :
    ((L.text ps).occurrences find?).map (·.2) = (Lexicon.words ps).map view := by
  suffices hfrom : ∀ offset, (occurrencesFrom find? offset 0 (L.text ps)).map (·.2) =
      (Lexicon.words ps).map view from hfrom 0
  induction ps with
  | nil => exact fun _ => rfl
  | cons p ps ih =>
    intro offset
    match p with
    | .word a =>
      rw [Lexicon.text_word, h.occurrencesFrom_spell, List.map_cons, ih hps]
      rfl
    | .unit c =>
      rw [Lexicon.text_unit, h.occurrencesFrom_cons hps.1, ih hps.2]
      rfl

end Finds

end Finds

/-! ## Lines -/

/-- A part without line feeds lies on the line that its offset is on. -/
theorem liesOn_lineAt {part t : Text} {offset : Nat} (h : StandsAt part t offset) (hne : part ≠ [])
    (hpart : .char '\n' ∉ part) : LiesOn part t offset (lineAt t offset) := by
  obtain ⟨rest, hrest⟩ := h
  have hlt : offset < t.length := by
    by_contra hle
    rw [List.drop_eq_nil_of_le (Nat.le_of_not_lt hle)] at hrest
    exact hne (List.append_eq_nil_iff.1 hrest).1
  have htake : (t.take offset).length = offset := List.length_take_of_le (Nat.le_of_lt hlt)
  have ht : t.take offset ++ (part ++ rest) = t := by rw [hrest, List.take_append_drop]
  obtain ⟨before, left, hcount, hbefore, happend⟩ := exists_parts_append (.char '\n') (t.take offset)
  obtain ⟨right, after, hright⟩ := exists_parts_eq_cons (.char '\n') rest
  have hparts := happend _ _ _ (parts_append_of_not_mem hpart hright)
  rw [ht] at hparts
  refine ⟨before, after, left, right, ?_, ?_, hbefore⟩
  · rw [hparts, List.append_assoc]
  · have hline := lineAt_append (t.take offset) (part ++ rest)
    rw [ht, htake] at hline
    rw [hline, hcount]

end WorkflowLint.Text
