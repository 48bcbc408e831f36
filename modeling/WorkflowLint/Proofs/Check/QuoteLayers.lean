import WorkflowLint.Proofs.Placeholder.Reading

/-!
# Quotes around placeholders

Quotes and the placeholders of installation parameters are told apart wherever they stand, so that a
text is cut into them and the code points between them in exactly one way (`marks`).

A placeholder can stand in several layers of quotes (`wrapped`), and a quote can belong to the layers of
two placeholders (`SharesQuotes`).  Both can be seen from the pieces of a text (`wrapped_isInfix_iff`,
`sharesQuotes_iff`).
-/

namespace WorkflowLint

open Text Placeholder Placeholder.Token

namespace Check.InstparmQuote

/-! ## Quotes and placeholders -/

/-- A quote: a double one as it is written in a string of a document, or a single one. -/
inductive Quote where
  | double
  | single
deriving DecidableEq

/-- A quote as it is written. -/
def Quote.text : Quote → Text
  | double => "\\\""
  | single => "'"

/-- A placeholder of an installation parameter. -/
abbrev Parameter : Type := {p : Token // p.IsParameter}

/-- What the check looks at in a text. -/
inductive Mark where
  | quote (q : Quote)
  | parameter (p : Parameter)

/-- A mark as it is written. -/
def Mark.text : Mark → Text
  | quote q => q.text
  | parameter p => p.1.text

variable {q q' : Quote} {p p' : Parameter} {t u : Text}

theorem Quote.text_ne_nil (q : Quote) : q.text ≠ [] := by
  cases q with
  | double => decide
  | single => decide

/-- The first code point of a quote is in no placeholder. -/
theorem exists_quote_eq_cons (q : Quote) : ∃ c s, q.text = c :: s ∧ ∀ p : Parameter, c ∉ p.1.text := by
  have hplain : ∀ {c : CodePoint}, isNameUnit c = false → c ∉ closing → c ≠ brace →
      ∀ p : Parameter, c ∉ p.1.text := by
    intro c hunit hclosing hbrace p
    exact not_mem_text hbrace (p.2.isPlaceholder.plain.not_mem_core hunit hclosing)
  cases q with
  | double => exact ⟨_, _, rfl, hplain (by decide) (by decide) (by decide)⟩
  | single => exact ⟨_, _, rfl, hplain (by decide) (by decide) (by decide)⟩

theorem quote_eq_of_isPrefix (h : q.text <+: q'.text ++ t) : q = q' := by
  obtain ⟨rest, hrest⟩ := h
  match q, q' with
  | .double, .double => rfl
  | .single, .single => rfl
  | .double, .single => exact absurd (List.cons.inj hrest).1 (by decide)
  | .single, .double => exact absurd (List.cons.inj hrest).1 (by decide)

/-- No quote starts in a placeholder. -/
theorem not_quote_isPrefix (hu : u <:+ p.1.text) (hne : u ≠ []) : ¬ q.text <+: u ++ t := by
  obtain ⟨c, s, hquote, hc⟩ := exists_quote_eq_cons q
  obtain ⟨d, u, rfl⟩ := List.exists_cons_of_ne_nil hne
  rw [hquote, List.cons_append]
  intro h
  obtain ⟨rfl, -⟩ := List.cons_prefix_cons.1 h
  exact hc p (hu.subset List.mem_cons_self)

/-- No placeholder starts in a quote. -/
theorem not_parameter_isPrefix (hu : u <:+ q.text) (hne : u ≠ []) : ¬ p.1.text <+: u ++ t := by
  have hbrace : brace ∉ q.text := by
    cases q with
    | double => decide
    | single => decide
  obtain ⟨d, u, rfl⟩ := List.exists_cons_of_ne_nil hne
  rw [text_eq, List.cons_append]
  intro h
  obtain ⟨rfl, -⟩ := List.cons_prefix_cons.1 h
  exact hbrace (hu.subset List.mem_cons_self)

/-- No quote starts inside a quote. -/
theorem not_quote_isPrefix_tail (hu : u <:+ q'.text.tail) (hne : u ≠ []) : ¬ q.text <+: u ++ t := by
  have hinside : ∀ q q' : Quote, ∀ c ∈ q.text.head?, c ∉ q'.text.tail := by
    intro q q'
    cases q with
    | double => cases q' <;> decide
    | single => cases q' <;> decide
  obtain ⟨c, s, hquote, -⟩ := exists_quote_eq_cons q
  obtain ⟨d, u, rfl⟩ := List.exists_cons_of_ne_nil hne
  have hc := hinside q q' c (by rw [hquote]; rfl)
  rw [hquote, List.cons_append]
  intro h
  obtain ⟨rfl, -⟩ := List.cons_prefix_cons.1 h
  exact hc (hu.subset List.mem_cons_self)

/-- Quotes and placeholders are told apart wherever they stand. -/
def marks : Lexicon Mark where
  spell := Mark.text
  spell_ne_nil a := by
    cases a with
    | quote q => exact q.text_ne_nil
    | parameter p => exact p.1.text_ne_nil
  eq_of_isPrefix {a b t} h := by
    match a, b with
    | .quote q, .quote q' => rw [quote_eq_of_isPrefix h]
    | .quote q, .parameter p =>
      exact absurd h (not_quote_isPrefix List.suffix_rfl p.1.text_ne_nil)
    | .parameter p, .quote q =>
      exact absurd h (not_parameter_isPrefix List.suffix_rfl q.text_ne_nil)
    | .parameter p, .parameter p' =>
      rw [Subtype.ext (p.2.isPlaceholder.eq_of_isPrefix p'.2.isPlaceholder h (List.prefix_append _ _))]
  not_isPrefix {a b u t} hu hne := by
    match a, b with
    | .quote q, .quote q' => exact not_quote_isPrefix_tail hu hne
    | .quote q, .parameter p => exact not_quote_isPrefix (hu.trans (List.tail_suffix _)) hne
    | .parameter p, .quote q => exact not_parameter_isPrefix (hu.trans (List.tail_suffix _)) hne
    | .parameter p, .parameter p' =>
      show ¬ p.1.text <+: u ++ t
      rw [text_eq p.1]
      exact Token.not_isPrefix p'.2.isPlaceholder.brace_not_mem_core hu hne

/-! ## Layers of quotes -/

/-- A placeholder in layers of quotes, of which the innermost comes first. -/
def wrapped (layers : List Quote) (p : Token) : Text :=
  layers.reverse.flatMap Quote.text ++ p.text ++ layers.flatMap Quote.text

theorem wrapped_singleton (q : Quote) (p : Token) : wrapped [q] p = q.text ++ p.text ++ q.text := by
  simp only [wrapped, List.reverse_singleton, List.flatMap_cons, List.flatMap_nil, List.append_nil]

theorem wrapped_ne_nil (layers : List Quote) (p : Token) : wrapped layers p ≠ [] :=
  List.append_ne_nil_of_left_ne_nil (List.append_ne_nil_of_right_ne_nil _ p.text_ne_nil) _

/-- The pieces of some quotes. -/
def quotes (layers : List Quote) : List (Piece Mark) := phrase (layers.map .quote)

/-- The pieces of a placeholder in layers of quotes. -/
def around (layers : List Quote) (p : Parameter) : List (Piece Mark) :=
  (quotes layers).reverse ++ .word (.parameter p) :: quotes layers

/-- Two placeholders in layers of quotes, with a quote between them that belongs to both. -/
def sharing (q : Quote) (layers : List Quote) (p : Parameter) (layers' : List Quote) (p' : Parameter) :
    List (Piece Mark) :=
  quotes [q] ++ around layers p ++ quotes [q] ++ around layers' p' ++ quotes [q]

variable {layers layers' : List Quote} {ps : List (Piece Mark)}

@[simp] theorem quotes_nil : quotes [] = [] := rfl

@[simp] theorem quotes_cons (q : Quote) (layers : List Quote) :
    quotes (q :: layers) = .word (.quote q) :: quotes layers := rfl

@[simp] theorem quotes_append (layers layers' : List Quote) :
    quotes (layers ++ layers') = quotes layers ++ quotes layers' := by
  simp only [quotes, List.map_append, phrase_append]

theorem quotes_reverse (layers : List Quote) : quotes layers.reverse = (quotes layers).reverse := by
  simp only [quotes, phrase, List.map_reverse]

@[simp] theorem text_quotes (layers : List Quote) :
    marks.text (quotes layers) = layers.flatMap Quote.text := by
  induction layers with
  | nil => rfl
  | cons q layers ih => rw [quotes_cons, Lexicon.text_word, ih, List.flatMap_cons]; rfl

@[simp] theorem text_around (layers : List Quote) (p : Parameter) :
    marks.text (around layers p) = wrapped layers p.1 := by
  rw [around, ← quotes_reverse, Lexicon.text_append, Lexicon.text_word, text_quotes, text_quotes,
    wrapped, List.append_assoc]
  rfl

theorem around_eq_phrase (layers : List Quote) (p : Parameter) :
    around layers p = phrase (layers.reverse.map .quote ++ .parameter p :: layers.map .quote) := by
  rw [around, ← quotes_reverse, phrase_append, phrase_cons, quotes, quotes]

theorem wrapped_isInfix_iff (h : marks.IsCut ps) :
    wrapped layers p.1 <:+: marks.text ps ↔ around layers p <:+: ps := by
  rw [← text_around, around_eq_phrase]
  exact Lexicon.isInfix_text_iff h (by simp)

/-- A quote belongs to two placeholders: it is in the layers of both. -/
def Shares (ps : List (Piece Mark)) : Prop :=
  ∃ q layers p layers' p', sharing q layers p layers' p' <:+: ps

/-- A text has a quote that belongs to two placeholders. -/
def SharesQuotes (t : Text) : Prop :=
  ∃ (q : Quote) (layers : List Quote) (p : Token) (layers' : List Quote) (p' : Token),
    p.IsParameter ∧ p'.IsParameter ∧
      q.text ++ wrapped layers p ++ q.text ++ wrapped layers' p' ++ q.text <:+: t

theorem sharing_isInfix_iff (h : marks.IsCut ps) :
    q.text ++ wrapped layers p.1 ++ q.text ++ wrapped layers' p'.1 ++ q.text <:+: marks.text ps ↔
      sharing q layers p layers' p' <:+: ps := by
  have hphrase : sharing q layers p layers' p' =
      phrase (.quote q :: (layers.reverse.map .quote ++ .parameter p :: layers.map .quote) ++
        .quote q :: (layers'.reverse.map .quote ++ .parameter p' :: layers'.map .quote) ++
          [.quote q]) := by
    simp only [sharing, around_eq_phrase, quotes_cons, quotes_nil, phrase_append, phrase_cons,
      phrase_nil, List.cons_append, List.nil_append, List.append_assoc]
  have htext : marks.text (sharing q layers p layers' p') =
      q.text ++ wrapped layers p.1 ++ q.text ++ wrapped layers' p'.1 ++ q.text := by
    simp only [sharing, Lexicon.text_append, text_around, text_quotes, List.flatMap_cons,
      List.flatMap_nil, List.append_nil]
  rw [← htext, hphrase]
  exact Lexicon.isInfix_text_iff h (by simp)

theorem sharesQuotes_iff (h : marks.IsCut ps) : SharesQuotes (marks.text ps) ↔ Shares ps := by
  constructor
  · rintro ⟨q, layers, p, layers', p', hp, hp', hinfix⟩
    exact ⟨q, layers, ⟨p, hp⟩, layers', ⟨p', hp'⟩, (sharing_isInfix_iff h).1 hinfix⟩
  · rintro ⟨q, layers, p, layers', p', hinfix⟩
    exact ⟨q, layers, p.1, layers', p'.1, p.2, p'.2, (sharing_isInfix_iff h).2 hinfix⟩

theorem reverse_around (layers : List Quote) (p : Parameter) :
    (around layers p).reverse = around layers p := by
  simp only [around, List.reverse_append, List.reverse_cons, List.reverse_reverse, List.append_assoc,
    List.singleton_append]

theorem shares_of_reverse (h : Shares ps.reverse) : Shares ps := by
  obtain ⟨q, layers, p, layers', p', h⟩ := h
  refine ⟨q, layers', p', layers, p, ?_⟩
  have hreverse : sharing q layers p layers' p' = (sharing q layers' p' layers p).reverse := by
    simp only [sharing, List.reverse_append, reverse_around, ← quotes_reverse, List.reverse_cons,
      List.reverse_nil, List.nil_append, List.append_assoc]
  rw [hreverse] at h
  exact List.reverse_infix.1 h

theorem quotes_isPrefix (h : layers <+: layers') : quotes layers <+: quotes layers' := by
  obtain ⟨rest, rfl⟩ := h
  rw [quotes_append]
  exact List.prefix_append _ _

end Check.InstparmQuote
end WorkflowLint
