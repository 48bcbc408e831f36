import Mathlib.Data.Set.List
import WorkflowLint.Proofs.Check.Passes

/-!
# Dropping the quotes around placeholders

A placeholder can stand in several layers of quotes, and a quote can close one placeholder and open the
next.  Every finding is one pass over the text that drops the innermost quotes of one kind around one
placeholder.

So nothing is left to report if for every placeholder there are findings that peel its layers off one by
one, and only then if no quote is shared (`unquotes_iff_peels`).  The findings of a text need not do so:
quotes in quotes are found once only, and a shared quote is found for one of its placeholders only
(`not_unquotes_nestedText`).
-/

namespace WorkflowLint

open Text Placeholder Placeholder.Token

namespace Check.InstparmQuote

variable {q q' : Quote} {p p' : Parameter} {s t u : Text} {layers : List Quote}

/-! ## What the fixes leave -/

/-- What stands in quotes after a fix stood in them before. -/
theorem exists_wrapped_of_apply (h : wrapped layers p'.1 <:+: (fix ⟨q.text, p.1⟩).apply t) :
    ∃ layers', wrapped layers' p'.1 <:+: t ∧ peelFor q p p' layers' = layers := by
  obtain ⟨steps, hpass, hcut, rfl, hcut', hafter⟩ := exists_pass q p t
  rw [← hafter, wrapped_isInfix_iff hcut'] at h
  obtain ⟨layers', hbefore, hpeel⟩ := exists_around_of_after hpass h
  exact ⟨layers', (wrapped_isInfix_iff hcut).2 hbefore, hpeel⟩

/-- What stands in quotes before a fix stands in them after it if no quote is shared. -/
theorem wrapped_apply (hnot : ¬ SharesQuotes t) (h : wrapped layers p'.1 <:+: t) :
    wrapped (peelFor q p p' layers) p'.1 <:+: (fix ⟨q.text, p.1⟩).apply t := by
  obtain ⟨steps, hpass, hcut, rfl, hcut', hafter⟩ := exists_pass q p t
  rw [sharesQuotes_iff hcut] at hnot
  rw [← hafter, wrapped_isInfix_iff hcut']
  exact around_after hpass hnot ((wrapped_isInfix_iff hcut).1 h)

theorem sharesQuotes_of_apply (h : SharesQuotes ((fix ⟨q.text, p.1⟩).apply t)) : SharesQuotes t := by
  obtain ⟨steps, -, hcut, rfl, hcut', hafter⟩ := exists_pass q p t
  rw [← hafter, sharesQuotes_iff hcut'] at h
  exact (sharesQuotes_iff hcut).2 (shares_of_after h)

/-- A placeholder between two quotes, as it is found. -/
def quoted (found : Quote × Parameter) : Quoted := ⟨found.1.text, found.2.1⟩

/-- What the passes for some quoted placeholders leave of the layers around a placeholder. -/
def peelForAll (found : List (Quote × Parameter)) (p : Parameter) (layers : List Quote) : List Quote :=
  found.foldl (fun layers f => peelFor f.1 f.2 p layers) layers

variable {found : List (Quote × Parameter)}

theorem exists_wrapped_of_applyAll
    (h : wrapped layers p.1 <:+: Fix.applyAll (found.map fun f => fix (quoted f)) t) :
    ∃ layers', wrapped layers' p.1 <:+: t ∧ peelForAll found p layers' = layers := by
  induction found generalizing t with
  | nil => exact ⟨layers, h, rfl⟩
  | cons f found ih =>
    obtain ⟨layers₁, h₁, hpeel₁⟩ := ih h
    obtain ⟨layers', h', hpeel⟩ := exists_wrapped_of_apply h₁
    refine ⟨layers', h', ?_⟩
    rw [peelForAll, List.foldl_cons, hpeel]
    exact hpeel₁

theorem wrapped_applyAll (hnot : ¬ SharesQuotes t) (h : wrapped layers p.1 <:+: t) :
    wrapped (peelForAll found p layers) p.1 <:+:
      Fix.applyAll (found.map fun f => fix (quoted f)) t := by
  induction found generalizing t layers with
  | nil => exact h
  | cons f found ih =>
    have hstep : wrapped (peelFor f.1 f.2 p layers) p.1 <:+: (fix (quoted f)).apply t :=
      wrapped_apply hnot h
    exact ih (fun hshares => hnot (sharesQuotes_of_apply hshares)) hstep

/-! ## What the check finds -/

/-- What some passes leave of layers of quotes, one after the other. -/
def peel (passes : List Text) (layers : List Quote) : List Quote :=
  passes.foldl (fun layers quote => peelOnce quote layers) layers

/-- The quotes that the findings on a text drop around a placeholder, one pair after the other. -/
def passes (t : Text) (p : Token) : List Text :=
  ((scan t).filter fun found => found.2.token = p).map (·.2.quote)

theorem text_quoted (q : Quote) (p : Parameter) : (quoted (q, p)).text = wrapped [q] p.1 :=
  (wrapped_singleton q p.1).symm

theorem read?_quoted (q : Quote) (p : Parameter) (t : Text) :
    read? (wrapped [q] p.1 ++ t) = some (quoted (q, p), (wrapped [q] p.1).length) := by
  refine read?_eq_some_iff.2 ⟨?_, p.2, ?_, by rw [text_quoted]⟩
  · cases q with
    | double => exact .inl rfl
    | single => exact .inr rfl
  · rw [text_quoted]
    exact List.prefix_append _ t

/-- What is found is a placeholder between two quotes. -/
theorem exists_quoted_of_read? {found : Quoted} {n : Nat} (h : read? t = some (found, n)) :
    ∃ q p, found = quoted (q, p) ∧ wrapped [q] p.1 <+: t ∧ n = (wrapped [q] p.1).length := by
  obtain ⟨hquote, hparameter, ht, rfl⟩ := read?_eq_some_iff.1 h
  obtain ⟨q, hq⟩ : ∃ q : Quote, found.quote = q.text := by
    rcases hquote with hquote | hquote
    · exact ⟨.double, hquote⟩
    · exact ⟨.single, hquote⟩
  have hfound : found = quoted (q, ⟨found.token, hparameter⟩) := by rw [quoted, ← hq]
  have htext := text_quoted q ⟨found.token, hparameter⟩
  rw [← hfound] at htext
  exact ⟨q, ⟨found.token, hparameter⟩, hfound, htext ▸ ht, by rw [htext]⟩

theorem exists_quoted_of_mem_scan {f : Nat × Quoted} (h : f ∈ scan t) :
    ∃ q p, f.2 = quoted (q, p) ∧ wrapped [q] p.1 <:+: t := by
  obtain ⟨s, n, hs, hread⟩ := exists_suffix_of_mem_occurrences h
  obtain ⟨q, p, hquoted, hstarts, -⟩ := exists_quoted_of_read? hread
  exact ⟨q, p, hquoted, hstarts.isInfix.trans hs.isInfix⟩

theorem exists_map_quoted (t : Text) :
    ∃ found : List (Quote × Parameter), (scan t).map (·.2) = found.map quoted := by
  have hrange : (scan t).map (·.2) ∈ Set.range (List.map quoted) := by
    rw [Set.range_list_map]
    intro f hf
    obtain ⟨f, hmem, rfl⟩ := List.mem_map.1 hf
    obtain ⟨q, p, hquoted, -⟩ := exists_quoted_of_mem_scan hmem
    exact ⟨(q, p), hquoted.symm⟩
  obtain ⟨found, hfound⟩ := hrange
  exact ⟨found, hfound.symm⟩

theorem peel_passes (hscan : (scan t).map (·.2) = found.map quoted) (p : Parameter)
    (layers : List Quote) : peel (passes t p.1) layers = peelForAll found p layers := by
  have hpasses : passes t p.1 =
      ((found.map quoted).filter fun q => q.token = p.1).map Quoted.quote := by
    rw [← hscan, List.filter_map, List.map_map]
    rfl
  rw [hpasses]
  clear hscan hpasses
  induction found generalizing layers with
  | nil => rfl
  | cons f found ih =>
    by_cases hp : p = f.2
    · have hkeep : (quoted f).token = p.1 := congrArg Subtype.val hp.symm
      have hpeel : peelFor f.1 f.2 p layers = peelOnce f.1.text layers := if_pos hp
      rw [List.map_cons, List.filter_cons_of_pos (by simpa using hkeep), List.map_cons, peel, List.foldl_cons, ← peel,
        ih, peelForAll, peelForAll, List.foldl_cons, hpeel]
      rfl
    · have hdrop : ¬ (quoted f).token = p.1 := fun h => hp (Subtype.ext h.symm)
      have hpeel : peelFor f.1 f.2 p layers = layers := if_neg hp
      rw [List.map_cons, List.filter_cons_of_neg (by simpa using hdrop), ih, peelForAll, peelForAll, List.foldl_cons,
        hpeel]

theorem filterMap_fix_run (hscan : (scan t).map (·.2) = found.map quoted) (path : Text) :
    (run t path).filterMap Finding.fix = found.map fun f => fix (quoted f) := by
  have hfix : Finding.fix ∘ finding t path = some ∘ (fix ∘ (·.2)) := rfl
  rw [run, List.filterMap_map, hfix, List.filterMap_eq_map, ← List.map_map, hscan, List.map_map]
  rfl

/-- Nothing is reported exactly if no placeholder is in quotes. -/
theorem run_eq_nil_iff (t path : Text) :
    run t path = [] ↔ ∀ (q : Quote) (p : Parameter), ¬ wrapped [q] p.1 <:+: t := by
  rw [run, List.map_eq_nil_iff]
  constructor
  · rintro hnone q p ⟨left, right, rfl⟩
    have hfound := exists_mem_occurrencesFrom (read?_quoted q p right)
      (List.append_ne_nil_of_left_ne_nil (wrapped_ne_nil _ _) right) left 0
    rw [← List.append_assoc] at hfound
    obtain ⟨o, hmem⟩ | ⟨s₁, s₂, found, n, -, -, -, -, o, hmem⟩ := hfound
    · rw [← occurrences, ← scan, hnone] at hmem
      exact List.not_mem_nil hmem
    · rw [← occurrences, ← scan, hnone] at hmem
      exact List.not_mem_nil hmem
  · intro hnot
    refine List.eq_nil_iff_forall_not_mem.2 fun f hf => ?_
    obtain ⟨q, p, -, hinfix⟩ := exists_quoted_of_mem_scan hf
    exact hnot q p hinfix

/-- A quote that starts at some place in a quote starts where it starts. -/
theorem eq_quote_of_isPrefix (hu : u <:+ q'.text) (hne : u ≠ []) (h : q.text <+: u ++ t) :
    u = q'.text := by
  have htext : marks.text (phrase [.quote q]) = q.text := List.append_nil q.text
  exact Lexicon.eq_spell_of_isPrefix (L := marks) (a := .quote q') (t := t)
    (List.cons_ne_nil (Mark.quote q) []) hu hne (by rwa [htext])

/-- Of two quoted placeholders that overlap the quote between them is shared. -/
theorem sharesQuotes_of_overlap (hne : s ≠ []) (hu : wrapped [q] p.1 <+: u)
    (h : wrapped [q'] p'.1 <+: s ++ u) (hlong : s.length < (wrapped [q'] p'.1).length) :
    SharesQuotes (s ++ u) := by
  have htext : ∀ (q : Quote) (p : Token), wrapped [q] p = q.text ++ (p.text ++ q.text) :=
    fun q p => by rw [wrapped_singleton, List.append_assoc]
  obtain ⟨right, rfl⟩ := hu
  obtain ⟨v, hv⟩ := List.prefix_of_prefix_length_le (List.prefix_append s _) h (Nat.le_of_lt hlong)
  have hvne : v ≠ [] := by
    rintro rfl
    rw [← hv, List.append_nil] at hlong
    exact Nat.lt_irrefl _ hlong
  obtain ⟨rest, hrest⟩ := h
  rw [← hv, List.append_assoc] at hrest
  have hquote : q.text <+: v ++ rest := by
    rw [List.append_cancel_left hrest, htext, List.append_assoc]
    exact List.prefix_append _ _
  have hshared : s = q'.text ++ p'.1.text → v = q'.text →
      SharesQuotes (s ++ (wrapped [q] p.1 ++ right)) := by
    rintro rfl rfl
    obtain rfl := quote_eq_of_isPrefix hquote
    refine ⟨q, [], p'.1, [], p.1, p'.2, p.2, [], right, ?_⟩
    simp [wrapped]
  rw [htext] at hv
  rcases List.append_eq_append_iff.1 hv.symm with ⟨s', rfl, hs'⟩ | ⟨v', hs, rfl⟩
  · rcases List.append_eq_append_iff.1 hs' with ⟨s₂, rfl, hs₂⟩ | ⟨v', hp, rfl⟩
    · have hv' := eq_quote_of_isPrefix ⟨s₂, hs₂.symm⟩ hvne hquote
      rw [hv'] at hs₂
      obtain rfl := List.self_eq_append_left.1 hs₂
      exact hshared (by rw [List.append_nil]) hv'
    · by_cases hempty : v' = []
      · subst hempty
        rw [List.append_nil] at hp
        exact hshared (by rw [hp]) rfl
      · rw [List.append_assoc] at hquote
        exact absurd hquote (not_quote_isPrefix ⟨s', hp.symm⟩ hempty)
  · by_cases hempty : v' = []
    · subst hempty
      rw [List.nil_append, List.append_assoc] at hquote
      exact absurd hquote (not_quote_isPrefix List.suffix_rfl p'.1.text_ne_nil)
    · rw [List.append_assoc] at hquote
      have hv' := eq_quote_of_isPrefix ⟨s, hs.symm⟩ hempty hquote
      rw [hv'] at hs
      exact absurd (List.self_eq_append_left.1 hs) hne

/-- If no quote is shared, every placeholder in quotes is found. -/
theorem mem_passes (hnot : ¬ SharesQuotes t) (h : wrapped [q] p.1 <:+: t) : q.text ∈ passes t p.1 := by
  obtain ⟨left, right, rfl⟩ := h
  have hfound := exists_mem_occurrencesFrom (read?_quoted q p right)
    (List.append_ne_nil_of_left_ne_nil (wrapped_ne_nil _ _) right) left 0
  rw [← List.append_assoc] at hfound
  obtain ⟨o, hmem⟩ | ⟨s₁, s₂, f, n, rfl, hne, hread, hlong, -⟩ := hfound
  · refine List.mem_map.2 ⟨(o, quoted (q, p)), List.mem_filter.2 ⟨hmem, ?_⟩, rfl⟩
    exact decide_eq_true rfl
  · obtain ⟨q', p', -, hstarts, rfl⟩ := exists_quoted_of_read? hread
    refine absurd ?_ hnot
    obtain ⟨q, layers, p₁, layers', p₂, hp₁, hp₂, hshared⟩ :=
      sharesQuotes_of_overlap hne (List.prefix_append _ right) hstarts hlong
    refine ⟨q, layers, p₁, layers', p₂, hp₁, hp₂, hshared.trans ?_⟩
    exact ⟨s₁, [], by simp⟩

/-! ## Peeling -/

theorem wrapped_isInfix_append (layers outer : List Quote) (p : Token) :
    wrapped layers p <:+: wrapped (layers ++ outer) p := by
  refine ⟨outer.reverse.flatMap Quote.text, outer.flatMap Quote.text, ?_⟩
  simp only [wrapped, List.reverse_append, List.flatMap_append, List.append_assoc]

theorem peel_nil (passes : List Text) : peel passes [] = [] := by
  induction passes with
  | nil => rfl
  | cons quote passes ih => exact ih

theorem peel_singleton {passes : List Text} (h : q.text ∈ passes) : peel passes [q] = [] := by
  induction passes with
  | nil => exact absurd h List.not_mem_nil
  | cons quote passes ih =>
    rw [peel, List.foldl_cons, ← peel]
    by_cases hquote : quote = q.text
    · rw [hquote, peelOnce_cons, peel_nil]
    · have hkeep : peelOnce quote [q] = [q] := if_neg fun heq => hquote (Option.some.inj heq).symm
      rw [hkeep]
      exact ih ((List.mem_cons.1 h).resolve_left fun heq => hquote heq.symm)

/-- The findings on a text peel all layers of quotes off every placeholder. -/
def Peels (t : Text) : Prop :=
  ∀ (p : Token) (layers : List Quote), p.IsParameter → wrapped layers p <:+: t →
    peel (passes t p) layers = []

/-- The fixes of the findings on a text leave nothing to report. -/
def Unquotes (t : Text) : Prop :=
  ∀ path, run (Fix.applyAll ((run t path).filterMap Finding.fix) t) path = []

theorem unquotes_of_peels (h : Peels t) : Unquotes t := by
  intro path
  obtain ⟨found, hscan⟩ := exists_map_quoted t
  rw [filterMap_fix_run hscan, run_eq_nil_iff]
  intro q p hleft
  obtain ⟨layers, hlayers, hpeel⟩ := exists_wrapped_of_applyAll hleft
  rw [← peel_passes hscan, h p.1 layers p.2 hlayers] at hpeel
  exact List.cons_ne_nil q [] hpeel.symm

theorem peels_of_unquotes (hnot : ¬ SharesQuotes t) (h : Unquotes t) : Peels t := by
  intro p layers hp hlayers
  obtain ⟨found, hscan⟩ := exists_map_quoted t
  have hleft : wrapped (peelForAll found ⟨p, hp⟩ layers) p <:+: _ := wrapped_applyAll hnot hlayers
  rw [← peel_passes hscan] at hleft
  have hnone := h []
  rw [filterMap_fix_run hscan, run_eq_nil_iff] at hnone
  cases hpeel : peel (passes t p) layers with
  | nil => rfl
  | cons q outer =>
    rw [hpeel] at hleft
    exact absurd ((wrapped_isInfix_append [q] outer p).trans hleft) (hnone q ⟨p, hp⟩)

theorem peels_of_single (hnot : ¬ SharesQuotes t)
    (h : ∀ (p : Token) (q q' : Quote), p.IsParameter → ¬ wrapped [q, q'] p <:+: t) : Peels t := by
  intro p layers hp hlayers
  match layers with
  | [] => exact peel_nil _
  | [q] => exact peel_singleton (mem_passes (p := ⟨p, hp⟩) hnot hlayers)
  | q :: q' :: outer =>
    exact absurd ((wrapped_isInfix_append [q, q'] outer p).trans hlayers) (h p q q' hp)

/-! ## Texts without shared quotes -/

/-- Whether a piece is a placeholder. -/
def isParameter : Piece Mark → Bool
  | .word (.parameter _) => true
  | _ => false

theorem countP_quotes (layers : List Quote) : (quotes layers).countP isParameter = 0 := by
  rw [List.countP_eq_zero]
  intro x hx
  obtain ⟨a, ha, rfl⟩ := List.mem_map.1 hx
  obtain ⟨q, -, rfl⟩ := List.mem_map.1 ha
  exact Bool.false_ne_true

theorem countP_around (layers : List Quote) (p : Parameter) :
    (around layers p).countP isParameter = 1 := by
  rw [around, ← quotes_reverse, List.countP_append, List.countP_cons, countP_quotes, countP_quotes]
  rfl

/-- A quote is shared by two placeholders only where there are two of them. -/
theorem not_shares_of_countP {ps : List (Piece Mark)} (h : ps.countP isParameter ≤ 1) : ¬ Shares ps := by
  rintro ⟨q, layers, p, layers', p', hinfix⟩
  have hcount := hinfix.sublist.countP_le (p := isParameter)
  simp only [sharing, List.countP_append, countP_quotes, countP_around] at hcount
  omega

/-- A quote is shared only where no other code point comes between. -/
theorem not_shares_append_unit {ps qs : List (Piece Mark)} (c : CodePoint) (hps : ¬ Shares ps)
    (hqs : ¬ Shares qs) : ¬ Shares (ps ++ .unit c :: qs) := by
  rintro ⟨q, layers, p, layers', p', hinfix⟩
  have hunit : .unit c ∉ sharing q layers p layers' p' := by
    simp [sharing, around, quotes, phrase]
  have hempty : ∀ zs : List (Piece Mark), zs <+: .unit c :: qs → .unit c ∉ zs → zs = [] := by
    intro zs hzs hmem
    rcases List.prefix_cons_iff.1 hzs with rfl | ⟨zs, rfl, -⟩
    · rfl
    · exact absurd List.mem_cons_self hmem
  rcases List.infix_append_iff.1 hinfix with h | h | ⟨l, r, heq, hl, hr⟩
  · exact hps ⟨q, layers, p, layers', p', h⟩
  · rcases List.infix_cons_iff.1 h with h | h
    · have hlength := congrArg List.length (hempty _ h hunit)
      simp [sharing] at hlength
    · exact hqs ⟨q, layers, p, layers', p', h⟩
  · have hnil := hempty r hr fun hmem => hunit (heq ▸ List.mem_append_right l hmem)
    rw [hnil, List.append_nil] at heq
    exact hps ⟨q, layers, p, layers', p', heq ▸ hl.isInfix⟩

end Check.InstparmQuote

open Check.InstparmQuote

/-- The fixes of the findings on quoted placeholders always give a text.  They leave nothing to report
if the findings peel all layers of quotes off every placeholder; if no quote is shared, then only if
they do so, and they do so at least if no placeholder is in two layers. -/
theorem unquotes_iff_peels (t : Text) :
    (∀ path, ∀ fix ∈ (run t path).filterMap Finding.fix, ∀ x, fix.run x = .text (fix.apply x)) ∧
      (Peels t → Unquotes t) ∧
      (¬ SharesQuotes t → (Unquotes t ↔ Peels t) ∧
        ((∀ (p : Token) (q q' : Quote), p.IsParameter → ¬ wrapped [q, q'] p <:+: t) → Unquotes t)) := by
  refine ⟨fun path fix hfix x => ?_, unquotes_of_peels, fun hnot =>
    ⟨⟨peels_of_unquotes hnot, unquotes_of_peels⟩, fun hsingle =>
      unquotes_of_peels (peels_of_single hnot hsingle)⟩⟩
  obtain ⟨f, hf, hsome⟩ := List.mem_filterMap.1 hfix
  obtain ⟨found, -, rfl⟩ := List.mem_map.1 hf
  obtain rfl := Option.some.inj hsome
  rfl

/-- A placeholder of an installation parameter. -/
def parameterNamed (name : Text) : Token := ⟨"INSTPARM", name, "MRAPTSNI"⟩

/-- A placeholder in one layer of quotes. -/
def plainText : Text := wrapped [.single] (parameterNamed "A")

/-- A placeholder in two layers of quotes, and once more in one. -/
def peeledText : Text :=
  wrapped [.single, .single] (parameterNamed "A") ++ " " ++ wrapped [.single] (parameterNamed "A")

/-- The pieces of these texts. -/
theorem exists_isCut_peeledText : ∃ p : Parameter,
    marks.IsCut (around [.single] p) ∧ marks.text (around [.single] p) = plainText ∧
      marks.IsCut (around [.single, .single] p ++ .unit (.char ' ') :: around [.single] p) ∧
      marks.text (around [.single, .single] p ++ .unit (.char ' ') :: around [.single] p) =
        peeledText := by
  have hname : (parameterNamed "A").IsParameter := ⟨rfl, rfl, by decide, by decide⟩
  refine ⟨⟨parameterNamed "A", hname⟩, trivial, rfl, ⟨fun a h => ?_, trivial⟩, rfl⟩
  cases a with
  | quote q => cases q <;> exact absurd (List.cons_prefix_cons.1 h).1 (by decide)
  | parameter p =>
    have hspell : marks.spell (.parameter p) = _ := p.1.text_eq
    rw [hspell] at h
    exact absurd (List.cons_prefix_cons.1 h).1 (by decide)

theorem not_sharesQuotes_peeledText : ¬ SharesQuotes plainText ∧ ¬ SharesQuotes peeledText := by
  obtain ⟨p, hplain, htext, hpeeled, htext'⟩ := exists_isCut_peeledText
  rw [← htext, ← htext', sharesQuotes_iff hplain, sharesQuotes_iff hpeeled]
  refine ⟨not_shares_of_countP ?_, not_shares_append_unit _ (not_shares_of_countP ?_)
    (not_shares_of_countP ?_)⟩ <;> exact Nat.le_of_eq (countP_around _ p)

/-- A text with one layer is bared as no quote is shared, and one in which the findings are as many as
the layers of the first placeholder as they peel them off. -/
theorem unquotes_peeledText : Unquotes plainText ∧ Peels peeledText ∧ Unquotes peeledText := by
  obtain ⟨hplain, hpeeled⟩ := not_sharesQuotes_peeledText
  have hpeels : Peels peeledText := ((unquotes_iff_peels peeledText).2.2 hpeeled).1.1 fun path => rfl
  refine ⟨((unquotes_iff_peels plainText).2.2 hplain).2 fun p q q' hp hinfix => ?_, hpeels,
    (unquotes_iff_peels peeledText).2.1 hpeels⟩
  obtain ⟨p₁, hcut, htext, -⟩ := exists_isCut_peeledText
  rw [← htext, wrapped_isInfix_iff (p := ⟨p, hp⟩) hcut] at hinfix
  exact absurd hinfix.length_le (by simp [around])

/-- A placeholder in two layers of quotes. -/
def nestedText : Text := wrapped [.single, .single] (parameterNamed "A")

/-- Placeholders between which single quotes stand, each of them in the layers of both. -/
def sharedText : Text :=
  wrapped [.single] (parameterNamed "B") ++ " " ++ wrapped [.single] (parameterNamed "A") ++
    (parameterNamed "B").text ++ wrapped [.single] (parameterNamed "A") ++
    (parameterNamed "C").text ++ wrapped [.single] (parameterNamed "A") ++
    (parameterNamed "B").text ++ wrapped [.single] (parameterNamed "A")

/-- One of two layers is left.  And where quotes are shared something can be left though nothing is in
two layers, as dropping the quotes of one placeholder takes those of another one before they are
found. -/
theorem not_unquotes_nestedText :
    ¬ Unquotes nestedText ∧ (∀ (p : Token) (q q' : Quote), ¬ wrapped [q, q'] p <:+: sharedText) ∧
      ¬ Unquotes sharedText := by
  have hnested : (run (Fix.applyAll ((run nestedText []).filterMap Finding.fix) nestedText)
      []).isEmpty = false := by rfl
  have hshared : (run (Fix.applyAll ((run sharedText []).filterMap Finding.fix) sharedText)
      []).isEmpty = false := by rfl
  have hapart : ∀ q q' : Quote, ¬ q'.text ++ q.text <:+: sharedText := by
    intro q q'
    cases q <;> cases q' <;> decide +kernel
  refine ⟨fun h => ?_, fun p q q' h => hapart q q' (List.IsInfix.trans ?_ h), fun h => ?_⟩
  · rw [h []] at hnested
    exact Bool.noConfusion hnested
  · exact ⟨[], p.text ++ q.text ++ q'.text, by simp [wrapped]⟩
  · rw [h []] at hshared
    exact Bool.noConfusion hshared

end WorkflowLint
