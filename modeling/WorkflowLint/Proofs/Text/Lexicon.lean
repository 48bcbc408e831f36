import WorkflowLint.Proofs.Text.Replacing

/-!
# Texts cut into words

Some words can be told apart wherever they stand: no word starts another one, and no word starts inside
another one.  A text is then cut into such words, and the code points between them, in exactly one way
(`existsUnique_isCut`).

What is said of texts can so be said of their pieces.  Words occur in a text one after the other exactly
if they do among its pieces (`isPrefix_text_iff`, `isInfix_text_iff`), replacing goes from piece to piece
(`replaceFrom_word`, `replaceFrom_unit`, `replaceAll_spell`), and a scanner of words finds the pieces that
are words (`map_lineAt_occurrences`).
-/

namespace WorkflowLint.Text

/-- Words that are told apart wherever they stand. -/
structure Lexicon (α : Type) where
  /-- A word as it is written. -/
  spell : α → Text
  spell_ne_nil : ∀ a, spell a ≠ []
  /-- No word starts another one. -/
  eq_of_isPrefix : ∀ {a b : α} {t : Text}, spell a <+: spell b ++ t → a = b
  /-- No word starts inside another one. -/
  not_isPrefix : ∀ {a b : α} {u t : Text}, u <:+ (spell b).tail → u ≠ [] → ¬ spell a <+: u ++ t

/-- A piece of a text: a word, or a code point between words. -/
inductive Piece (α : Type) where
  | word (a : α)
  | unit (c : CodePoint)

/-- The piece with another word. -/
def Piece.map {α : Type} (f : α → α) : Piece α → Piece α
  | word a => word (f a)
  | unit c => unit c

namespace Piece

variable {α : Type} {f g : α → α} {ps : List (Piece α)}

theorem map_congr (h : ∀ a, .word a ∈ ps → f a = g a) : ps.map (map f) = ps.map (map g) := by
  refine List.map_congr_left fun p hp => ?_
  cases p with
  | word a => rw [map, map, h a hp]
  | unit c => rfl

theorem map_eq_self (h : ∀ a, .word a ∈ ps → f a = a) : ps.map (map f) = ps := by
  have hid : map (fun a : α => a) = id := by
    funext p
    cases p <;> rfl
  rw [map_congr (g := fun a => a) h, hid, List.map_id]

theorem map_map (f g : α → α) (ps : List (Piece α)) :
    (ps.map (map f)).map (map g) = ps.map (map fun a => g (f a)) := by
  rw [List.map_map]
  refine List.map_congr_left fun p _ => ?_
  cases p <;> rfl

end Piece

/-- Words that follow each other. -/
def phrase {α : Type} (ws : List α) : List (Piece α) := ws.map .word

@[simp] theorem phrase_append {α : Type} (ws vs : List α) :
    phrase (ws ++ vs) = phrase ws ++ phrase vs := List.map_append

@[simp] theorem phrase_cons {α : Type} (a : α) (ws : List α) :
    phrase (a :: ws) = .word a :: phrase ws := rfl

@[simp] theorem phrase_nil {α : Type} : phrase ([] : List α) = [] := rfl

namespace Lexicon

variable {α : Type} {L : Lexicon α} {a b : α} {c : CodePoint} {s t u : Text} {ws : List α}
  {ps qs : List (Piece α)}

/-- A piece as it is written. -/
def written (L : Lexicon α) : Piece α → Text
  | .word a => L.spell a
  | .unit c => [c]

/-- The text of some pieces. -/
def text (L : Lexicon α) (ps : List (Piece α)) : Text := ps.flatMap L.written

@[simp] theorem text_nil : L.text [] = [] := rfl

@[simp] theorem text_word (a : α) (ps : List (Piece α)) :
    L.text (.word a :: ps) = L.spell a ++ L.text ps := rfl

@[simp] theorem text_unit (c : CodePoint) (ps : List (Piece α)) :
    L.text (.unit c :: ps) = c :: L.text ps := rfl

@[simp] theorem text_append (ps qs : List (Piece α)) : L.text (ps ++ qs) = L.text ps ++ L.text qs :=
  List.flatMap_append

@[simp] theorem text_units (t : Text) : L.text (t.map .unit) = t := by
  induction t with
  | nil => rfl
  | cons c t ih => rw [List.map_cons, text_unit, ih]

theorem text_phrase_ne_nil (h : ws ≠ []) : L.text (phrase ws) ≠ [] := by
  obtain ⟨a, ws, rfl⟩ := List.exists_cons_of_ne_nil h
  exact List.append_ne_nil_of_left_ne_nil (L.spell_ne_nil a) _

theorem isPrefix_text (h : ps <+: qs) : L.text ps <+: L.text qs := by
  obtain ⟨rest, rfl⟩ := h
  exact ⟨L.text rest, (text_append ps rest).symm⟩

theorem isInfix_text (h : ps <:+: qs) : L.text ps <:+: L.text qs := by
  obtain ⟨before, after, rfl⟩ := h
  exact ⟨L.text before, L.text after, by simp only [text_append]⟩

/-! ## Cuts -/

/-- Pieces among which no word of the text is left uncut. -/
def IsCut (L : Lexicon α) : List (Piece α) → Prop
  | [] => True
  | .word _ :: ps => L.IsCut ps
  | .unit c :: ps => (∀ a, ¬ L.spell a <+: c :: L.text ps) ∧ L.IsCut ps

theorem exists_isCut (L : Lexicon α) (t : Text) : ∃ ps, L.IsCut ps ∧ L.text ps = t := by
  induction hn : t.length using Nat.strong_induction_on generalizing t with
  | _ n ih =>
    subst hn
    by_cases hword : ∃ a, L.spell a <+: t
    · obtain ⟨a, t, rfl⟩ := hword
      have hpos := List.length_pos_of_ne_nil (L.spell_ne_nil a)
      obtain ⟨ps, hps, rfl⟩ := ih t.length (by simp only [List.length_append]; omega) t rfl
      exact ⟨.word a :: ps, hps, rfl⟩
    · cases t with
      | nil => exact ⟨[], trivial, rfl⟩
      | cons c t =>
        obtain ⟨ps, hps, rfl⟩ := ih t.length (by simp) t rfl
        exact ⟨.unit c :: ps, ⟨not_exists.1 hword, hps⟩, rfl⟩

theorem IsCut.eq (hps : L.IsCut ps) (hqs : L.IsCut qs) (h : L.text ps = L.text qs) : ps = qs := by
  -- by the pieces: a word of one is neither cut by the other nor another word there
  induction ps generalizing qs with
  | nil =>
    match qs with
    | [] => rfl
    | .word b :: qs => exact absurd (List.append_eq_nil_iff.1 h.symm).1 (L.spell_ne_nil b)
    | .unit c :: qs => exact absurd h.symm (List.cons_ne_nil _ _)
  | cons p ps ih =>
    match p, qs with
    | .word a, [] => exact absurd (List.append_eq_nil_iff.1 h).1 (L.spell_ne_nil a)
    | .unit c, [] => exact absurd h (List.cons_ne_nil _ _)
    | .word a, .word b :: qs =>
      obtain rfl : a = b := L.eq_of_isPrefix ⟨L.text ps, h⟩
      have hrest : L.text ps = L.text qs := List.append_cancel_left h
      rw [ih hps (show L.IsCut qs from hqs) hrest]
    | .word a, .unit c :: qs => exact absurd ⟨L.text ps, h⟩ (hqs.1 a)
    | .unit c, .word b :: qs => exact absurd ⟨L.text qs, h.symm⟩ (hps.1 b)
    | .unit c, .unit d :: qs =>
      obtain ⟨rfl, hrest⟩ := List.cons.inj h
      rw [ih hps.2 hqs.2 hrest]

/-- A text is cut in exactly one way. -/
theorem existsUnique_isCut (L : Lexicon α) (t : Text) : ∃! ps, L.IsCut ps ∧ L.text ps = t := by
  obtain ⟨ps, hps, rfl⟩ := L.exists_isCut t
  exact ⟨ps, ⟨hps, rfl⟩, fun qs hqs => hqs.1.eq hps hqs.2⟩

/-- What remains of a word is not cut into words. -/
theorem isPrefix_units (hu : u <:+ (L.spell b).tail) (h : u <+: L.text ps) : u.map .unit <+: ps := by
  induction u generalizing ps with
  | nil => exact List.nil_prefix
  | cons d u ih =>
    match ps with
    | [] => exact absurd (List.prefix_nil.1 h) (List.cons_ne_nil _ _)
    | .word e :: ps =>
      obtain ⟨s, hs⟩ | hs := List.prefix_or_prefix_of_prefix h (List.prefix_append (L.spell e) _)
      · exact absurd ⟨[], by rw [hs, List.append_nil]⟩
          (L.not_isPrefix (a := e) (t := s) hu (List.cons_ne_nil d u))
      · exact absurd (hs.trans (List.prefix_append (d :: u) []))
          (L.not_isPrefix hu (List.cons_ne_nil d u))
    | .unit c :: ps =>
      obtain ⟨rfl, hrest⟩ := List.cons_prefix_cons.1 h
      exact List.cons_prefix_cons.2 ⟨rfl, ih ((List.suffix_cons d u).trans hu) hrest⟩

/-- A code point between words stays one if what follows starts with no more code points than
before. -/
theorem IsCut.unit_cons (h : L.IsCut (.unit c :: ps)) (hqs : L.IsCut qs)
    (hunits : ∀ u : Text, u.map .unit <+: qs → u.map .unit <+: ps) : L.IsCut (.unit c :: qs) := by
  refine ⟨fun a ha => ?_, hqs⟩
  obtain ⟨d, u, hspell⟩ := List.exists_cons_of_ne_nil (L.spell_ne_nil a)
  rw [hspell] at ha
  obtain ⟨rfl, hu⟩ := List.cons_prefix_cons.1 ha
  have hinside : u <:+ (L.spell a).tail := by rw [hspell, List.tail_cons]
  have hps := isPrefix_text (L := L) (hunits u (isPrefix_units hinside hu))
  rw [text_units] at hps
  refine h.1 a ?_
  rw [hspell]
  exact List.cons_prefix_cons.2 ⟨rfl, hps⟩

theorem isPrefix_units_of_map {f : α → α} (h : u.map .unit <+: ps.map (Piece.map f)) :
    u.map .unit <+: ps := by
  induction u generalizing ps with
  | nil => exact List.nil_prefix
  | cons d u ih =>
    match ps with
    | [] => exact absurd (List.prefix_nil.1 h) (List.cons_ne_nil _ _)
    | .word e :: ps => exact nomatch (List.cons_prefix_cons.1 h).1
    | .unit c :: ps =>
      obtain ⟨heq, hrest⟩ := List.cons_prefix_cons.1 h
      exact List.cons_prefix_cons.2 ⟨heq, ih hrest⟩

/-- Writing other words in place of words leaves a cut. -/
theorem IsCut.map (f : α → α) (h : L.IsCut ps) : L.IsCut (ps.map (Piece.map f)) := by
  induction ps with
  | nil => trivial
  | cons p ps ih =>
    match p with
    | .word a => exact ih h
    | .unit c => exact h.unit_cons (ih h.2) fun u => isPrefix_units_of_map

/-! ## Occurrences -/

/-- Words start a text exactly if they are its first pieces. -/
theorem isPrefix_text_iff (h : L.IsCut ps) : L.text (phrase ws) <+: L.text ps ↔ phrase ws <+: ps := by
  refine ⟨fun hws => ?_, isPrefix_text⟩
  induction ws generalizing ps with
  | nil => exact List.nil_prefix
  | cons a ws ih =>
    have hfirst : L.spell a <+: L.text ps := (List.prefix_append _ _).trans hws
    match ps with
    | [] => exact absurd (List.prefix_nil.1 hfirst) (L.spell_ne_nil a)
    | .word b :: ps =>
      obtain rfl : a = b := L.eq_of_isPrefix hfirst
      exact List.cons_prefix_cons.2 ⟨rfl, ih h ((List.prefix_append_right_inj _).1 hws)⟩
    | .unit c :: ps => exact absurd hfirst (h.1 a)

/-- Words that start at some place in a word start where it starts. -/
theorem eq_spell_of_isPrefix (hws : ws ≠ []) (hu : u <:+ L.spell a) (hne : u ≠ [])
    (h : L.text (phrase ws) <+: u ++ t) : u = L.spell a := by
  obtain ⟨b, ws, rfl⟩ := List.exists_cons_of_ne_nil hws
  have hfirst : L.spell b <+: u ++ t := (List.prefix_append _ _).trans h
  obtain ⟨c, s, hspell⟩ := List.exists_cons_of_ne_nil (L.spell_ne_nil a)
  have htail : (L.spell a).tail = s := by rw [hspell, List.tail_cons]
  rw [hspell] at hu ⊢
  obtain hu | hu := List.suffix_cons_iff.1 hu
  · exact hu
  · exact absurd hfirst (L.not_isPrefix (htail ▸ hu) hne)

/-- Words occur in a text exactly if they are pieces of it that follow each other. -/
theorem isInfix_text_iff (h : L.IsCut ps) (hws : ws ≠ []) :
    L.text (phrase ws) <:+: L.text ps ↔ phrase ws <:+: ps := by
  refine ⟨fun hinfix => ?_, isInfix_text⟩
  induction ps with
  | nil => exact absurd (List.infix_nil.1 hinfix) (text_phrase_ne_nil hws)
  | cons p ps ih =>
    by_cases hstart : L.text (phrase ws) <+: L.text (p :: ps)
    · exact ((isPrefix_text_iff h).1 hstart).isInfix
    · match p with
      | .word a =>
        refine List.infix_cons (ih h (not_not.1 fun hrest => ?_))
        refine not_isInfix_append (fun u hu hne hocc => hstart ?_) hrest hinfix
        rwa [eq_spell_of_isPrefix hws hu hne hocc] at hocc
      | .unit c => exact List.infix_cons (ih h.2 ((List.infix_cons_iff.1 hinfix).resolve_left hstart))

/-! ## Replacing -/

/-- A code point between words stays when words are replaced. -/
theorem replaceFrom_unit (h : L.IsCut (.unit c :: ps)) (hws : ws ≠ []) (new : Text) :
    replaceFrom (L.text (phrase ws)) new 0 (L.text (.unit c :: ps)) =
      c :: replaceFrom (L.text (phrase ws)) new 0 (L.text ps) := by
  obtain ⟨a, ws, rfl⟩ := List.exists_cons_of_ne_nil hws
  exact replaceFrom_cons fun hocc => h.1 a ((List.prefix_append _ _).trans hocc)

/-- A word stays unless the words that are replaced start with it. -/
theorem replaceFrom_word (h : L.IsCut (.word a :: ps)) (hws : ws ≠ [])
    (hnot : ¬ phrase ws <+: .word a :: ps) (new : Text) :
    replaceFrom (L.text (phrase ws)) new 0 (L.text (.word a :: ps)) =
      L.spell a ++ replaceFrom (L.text (phrase ws)) new 0 (L.text ps) := by
  refine replaceFrom_append_of_not fun u hu hne hocc => hnot ?_
  rw [eq_spell_of_isPrefix hws hu hne hocc] at hocc
  exact (isPrefix_text_iff h).1 hocc

/-- Replacing one word by another one. -/
theorem replaceAll_spell [DecidableEq α] (h : L.IsCut ps) (a b : α) :
    (L.text ps).replaceAll (L.spell a) (L.spell b) =
      L.text (ps.map (Piece.map fun w => if w = a then b else w)) := by
  have hone : L.spell a = L.text (phrase [a]) := (List.append_nil _).symm
  rw [replaceAll_eq (L.spell_ne_nil a)]
  induction ps with
  | nil => rw [text_nil, replaceFrom_nil, List.map_nil, text_nil]
  | cons p ps ih =>
    match p with
    | .unit c =>
      rw [hone, replaceFrom_unit h (List.cons_ne_nil a []), ← hone, ih h.2]
      rfl
    | .word w =>
      by_cases hw : w = a
      · subst hw
        rw [text_word, replaceFrom_append (L.spell_ne_nil w), ih h, List.map_cons, Piece.map,
          if_pos rfl, text_word]
      · have hnot : ¬ phrase [a] <+: .word w :: ps := fun hocc =>
          hw (Piece.word.inj (List.cons_prefix_cons.1 hocc).1).symm
        rw [hone, replaceFrom_word h (List.cons_ne_nil a []) hnot, ← hone, ih h, List.map_cons,
          Piece.map, if_neg hw, text_word]

/-! ## Finds -/

/-- The words among some pieces, each with the line on which it stands if the first piece stands on
line `n`. -/
def lines (L : Lexicon α) : (n : Nat) → List (Piece α) → List (Nat × α)
  | _, [] => []
  | n, .word a :: ps => (n, a) :: L.lines (n + (L.spell a).count (.char '\n')) ps
  | n, .unit c :: ps => L.lines (n + [c].count (.char '\n')) ps

theorem lines_map {f : α → α}
    (h : ∀ a, (L.spell (f a)).count (.char '\n') = (L.spell a).count (.char '\n')) (n : Nat)
    (ps : List (Piece α)) :
    L.lines n (ps.map (Piece.map f)) = (L.lines n ps).map fun found => (found.1, f found.2) := by
  induction ps generalizing n with
  | nil => rfl
  | cons p ps ih =>
    match p with
    | .word a => rw [List.map_cons, Piece.map, lines, lines, h, ih, List.map_cons]
    | .unit c => rw [List.map_cons, Piece.map, lines, lines, ih]

theorem exists_mem_lines (h : .word a ∈ ps) (n : Nat) : ∃ line, (line, a) ∈ L.lines n ps := by
  induction ps generalizing n with
  | nil => exact absurd h List.not_mem_nil
  | cons p ps ih =>
    match p with
    | .word b =>
      rcases List.mem_cons.1 h with heq | h
      · obtain rfl := Piece.word.inj heq
        exact ⟨n, List.mem_cons_self⟩
      · obtain ⟨line, hline⟩ := ih h (n + (L.spell b).count (.char '\n'))
        exact ⟨line, List.mem_cons_of_mem _ hline⟩
    | .unit c =>
      have hrest : .word a ∈ ps := (List.mem_cons.1 h).resolve_left (fun heq => nomatch heq)
      exact ih hrest (n + [c].count (.char '\n'))

end Lexicon

theorem lineAt_append (s t : Text) : lineAt (s ++ t) s.length = s.count (.char '\n') + 1 := by
  have hnonneg : ¬ ((s.length : Int) < 0) := by omega
  simp only [lineAt, if_neg hnonneg, Int.toNat_natCast, List.take_left]

section Finds

variable {α β : Type} {find? : Text → Option (β × Nat)} {view : α → β}

/-- A find hides the recogniser from the rest of it. -/
theorem occurrencesFrom_append (s t : Text) (offset : Nat) :
    occurrencesFrom find? offset s.length (s ++ t) =
      occurrencesFrom find? (offset + s.length) 0 t := by
  induction s generalizing offset with
  | nil => rfl
  | cons c s ih =>
    rw [List.length_cons, List.cons_append, occurrencesFrom, ih]
    congr 1
    omega

/-- What a recogniser would find at some place is found, or something else is found that starts before
that place and ends after it. -/
theorem exists_mem_occurrencesFrom {b : β} {n : Nat} {u : Text} (hfind : find? u = some (b, n))
    (hne : u ≠ []) (s : Text) (offset : Nat) :
    (∃ o, (o, b) ∈ occurrencesFrom find? offset 0 (s ++ u)) ∨
      ∃ s₁ s₂ b' n', s = s₁ ++ s₂ ∧ s₂ ≠ [] ∧ find? (s₂ ++ u) = some (b', n') ∧ s₂.length < n' ∧
        ∃ o, (o, b') ∈ occurrencesFrom find? offset 0 (s ++ u) := by
  induction hlength : s.length using Nat.strong_induction_on generalizing s offset with
  | _ k ih =>
    subst hlength
    match s with
    | [] =>
      obtain ⟨c, u, rfl⟩ := List.exists_cons_of_ne_nil hne
      rw [List.nil_append, occurrencesFrom, hfind]
      exact .inl ⟨offset, List.mem_cons_self⟩
    | c :: s =>
      rw [List.cons_append, occurrencesFrom]
      cases hfind' : find? (c :: (s ++ u)) with
      | none =>
        rcases ih s.length (by simp) s (offset + 1) rfl with hmem | ⟨s₁, s₂, b', n', rfl, hfound⟩
        · exact .inl hmem
        · exact .inr ⟨c :: s₁, s₂, b', n', rfl, hfound⟩
      | some found =>
        obtain ⟨b', n'⟩ := found
        by_cases hlong : (c :: s).length < n'
        · exact .inr ⟨[], c :: s, b', n', rfl, List.cons_ne_nil c s, hfind', hlong, offset,
            List.mem_cons_self⟩
        · -- what was found ends before the place, and the search goes on behind it
          obtain ⟨s₀, s, rfl, hlength⟩ : ∃ s₀ s', s = s₀ ++ s' ∧ s₀.length = n' - 1 := by
            refine ⟨s.take (n' - 1), s.drop (n' - 1), (List.take_append_drop _ s).symm, ?_⟩
            rw [List.length_take]
            simp only [List.length_cons] at hlong
            omega
          simp only [List.append_assoc, ← hlength, occurrencesFrom_append]
          rcases ih s.length (by simp only [List.length_cons, List.length_append]; omega) s
              (offset + 1 + s₀.length) rfl with
            ⟨o, hmem⟩ | ⟨s₁, s₂, b₂, n₂, rfl, hne₂, hfind₂, hlong₂, o, hmem⟩
          · exact .inl ⟨o, List.mem_cons_of_mem _ hmem⟩
          · exact .inr ⟨c :: (s₀ ++ s₁), s₂, b₂, n₂, by simp, hne₂, hfind₂, hlong₂, o,
              List.mem_cons_of_mem _ hmem⟩

/-- A recogniser finds the words of a lexicon, and says which by some view of them. -/
def Finds (find? : Text → Option (β × Nat)) (L : Lexicon α) (view : α → β) : Prop :=
  ∀ t b n, find? t = some (b, n) ↔ ∃ a, view a = b ∧ L.spell a <+: t ∧ n = (L.spell a).length

namespace Finds

variable {L : Lexicon α} {c : CodePoint} {t : Text} {ps : List (Piece α)}

theorem occurrencesFrom_spell (h : Finds find? L view) (a : α) (t : Text) (offset : Nat) :
    occurrencesFrom find? offset 0 (L.spell a ++ t) =
      (offset, view a) :: occurrencesFrom find? (offset + (L.spell a).length) 0 t := by
  have hfind := (h (L.spell a ++ t) (view a) _).2 ⟨a, rfl, List.prefix_append _ t, rfl⟩
  obtain ⟨c, s, hspell⟩ := List.exists_cons_of_ne_nil (L.spell_ne_nil a)
  rw [hspell, List.cons_append] at hfind ⊢
  rw [occurrencesFrom, hfind]
  simp only [List.length_cons, Nat.add_sub_cancel]
  rw [occurrencesFrom_append, Nat.add_assoc, Nat.add_comm 1]

theorem occurrencesFrom_cons (h : Finds find? L view) (hnot : ∀ a, ¬ L.spell a <+: c :: t)
    (offset : Nat) :
    occurrencesFrom find? offset 0 (c :: t) = occurrencesFrom find? (offset + 1) 0 t := by
  have hfind : find? (c :: t) = none := by
    cases hsome : find? (c :: t) with
    | none => rfl
    | some found =>
      obtain ⟨a, -, ha, -⟩ := (h _ found.1 found.2).1 hsome
      exact absurd ha (hnot a)
  rw [occurrencesFrom, hfind]

theorem map_lineAt_occurrencesFrom (h : Finds find? L view) (hps : L.IsCut ps) (s : Text) :
    (occurrencesFrom find? s.length 0 (L.text ps)).map
        (fun found => (lineAt (s ++ L.text ps) found.1, found.2)) =
      (L.lines (s.count (.char '\n') + 1) ps).map fun found => (found.1, view found.2) := by
  induction ps generalizing s with
  | nil => rfl
  | cons p ps ih =>
    match p with
    | .word a =>
      have hrest := ih hps (s ++ L.spell a)
      rw [List.append_assoc, List.length_append, List.count_append, Nat.add_right_comm] at hrest
      rw [Lexicon.text_word, h.occurrencesFrom_spell, List.map_cons, hrest, lineAt_append,
        Lexicon.lines, List.map_cons]
    | .unit c =>
      have hrest := ih hps.2 (s ++ [c])
      rw [List.append_assoc, List.length_append, List.count_append, Nat.add_right_comm] at hrest
      rw [Lexicon.text_unit, h.occurrencesFrom_cons hps.1, Lexicon.lines, ← hrest]
      rfl

/-- What is found in a text, with the lines on which it stands. -/
theorem map_lineAt_occurrences (h : Finds find? L view) (hps : L.IsCut ps) :
    ((L.text ps).occurrences find?).map (fun found => (lineAt (L.text ps) found.1, found.2)) =
      (L.lines 1 ps).map fun found => (found.1, view found.2) :=
  h.map_lineAt_occurrencesFrom hps []

end Finds

end Finds

end WorkflowLint.Text
