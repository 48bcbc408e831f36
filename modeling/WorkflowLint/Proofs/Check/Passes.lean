import WorkflowLint.Proofs.Check.QuoteLayers

/-!
# One pass over quoted placeholders

The fix of a quoted placeholder makes one pass over a text (`exists_pass`).  Each of its steps reads some
pieces and writes one piece: it drops two quotes around the placeholder, or it keeps what it read.

What a pass leaves around a placeholder is what was around it before, less the innermost layer if the
pass was for that (`exists_around_of_after`).  The other way round this holds if no quote is shared
(`around_after`), as a pass takes a shared quote from both placeholders.
-/

namespace WorkflowLint

open Text Placeholder Placeholder.Token

namespace Check.InstparmQuote

variable {q q' : Quote} {p p' : Parameter} {t u : Text} {layers layers' inner : List Quote}
  {ps : List (Piece Mark)}

/-! ## Passes -/

/-- What a pass over the pieces of a text does: it drops two quotes around a placeholder, or keeps a
piece. -/
inductive Step where
  | bared
  | kept (x : Piece Mark)

/-- The pieces that a step of the pass for some quotes around some placeholder reads. -/
def Step.before (q : Quote) (p : Parameter) : Step → List (Piece Mark)
  | bared => around [q] p
  | kept x => [x]

/-- The piece that it writes. -/
def Step.after (p : Parameter) : Step → Piece Mark
  | bared => .word (.parameter p)
  | kept x => x

variable {steps : List Step}

/-- The pieces that a pass reads. -/
def before (q : Quote) (p : Parameter) (steps : List Step) : List (Piece Mark) :=
  steps.flatMap (Step.before q p)

/-- The pieces that it writes. -/
def after (p : Parameter) (steps : List Step) : List (Piece Mark) := steps.map (Step.after p)

@[simp] theorem before_bared (q : Quote) (p : Parameter) (steps : List Step) :
    before q p (.bared :: steps) = around [q] p ++ before q p steps := rfl

@[simp] theorem before_kept (q : Quote) (p : Parameter) (x : Piece Mark) (steps : List Step) :
    before q p (.kept x :: steps) = x :: before q p steps := rfl

@[simp] theorem before_append (q : Quote) (p : Parameter) (steps steps' : List Step) :
    before q p (steps ++ steps') = before q p steps ++ before q p steps' := List.flatMap_append

@[simp] theorem after_append (p : Parameter) (steps steps' : List Step) :
    after p (steps ++ steps') = after p steps ++ after p steps' := List.map_append

theorem reverse_before (q : Quote) (p : Parameter) (steps : List Step) :
    (before q p steps).reverse = before q p steps.reverse := by
  have hstep : List.reverse ∘ Step.before q p = Step.before q p := by
    funext step
    cases step with
    | bared => exact reverse_around [q] p
    | kept x => rfl
  rw [before, List.reverse_flatMap, hstep, before]

theorem reverse_after (p : Parameter) (steps : List Step) :
    (after p steps).reverse = after p steps.reverse := List.map_reverse.symm

/-- A pass drops quotes from left to right wherever it can. -/
def IsPass (q : Quote) (p : Parameter) : List Step → Prop
  | [] => True
  | .bared :: steps => IsPass q p steps
  | .kept x :: steps => ¬ around [q] p <+: x :: before q p steps ∧ IsPass q p steps

theorem exists_isPass (q : Quote) (p : Parameter) (ps : List (Piece Mark)) :
    ∃ steps, IsPass q p steps ∧ before q p steps = ps := by
  induction hn : ps.length using Nat.strong_induction_on generalizing ps with
  | _ n ih =>
    subst hn
    by_cases hstart : around [q] p <+: ps
    · obtain ⟨rest, rfl⟩ := hstart
      have hlt : rest.length < (around [q] p ++ rest).length := by
        simp only [around, List.length_append, List.length_cons]
        omega
      obtain ⟨steps, hsteps, rfl⟩ := ih rest.length hlt rest rfl
      exact ⟨.bared :: steps, hsteps, rfl⟩
    · cases ps with
      | nil => exact ⟨[], trivial, rfl⟩
      | cons x rest =>
        obtain ⟨steps, hsteps, rfl⟩ := ih rest.length (by simp) rest rfl
        exact ⟨.kept x :: steps, ⟨hstart, hsteps⟩, rfl⟩

/-- Code points between marks are kept by a pass. -/
theorem isPrefix_units_of_after (h : u.map .unit <+: after p steps) :
    u.map .unit <+: before q p steps := by
  induction u generalizing steps with
  | nil => exact List.nil_prefix
  | cons c u ih =>
    match steps with
    | [] => exact absurd (List.prefix_nil.1 h) (List.cons_ne_nil _ _)
    | .bared :: steps => exact nomatch (List.cons_prefix_cons.1 h).1
    | .kept x :: steps =>
      obtain ⟨rfl, hrest⟩ := List.cons_prefix_cons.1 h
      exact List.cons_prefix_cons.2 ⟨rfl, ih hrest⟩

/-- A pass leaves a cut. -/
theorem isCut_after (h : marks.IsCut (before q p steps)) : marks.IsCut (after p steps) := by
  induction steps with
  | nil => trivial
  | cons step steps ih =>
    match step with
    | .bared => exact ih h
    | .kept (.word _) => exact ih h
    | .kept (.unit _) => exact h.unit_cons (ih h.2) fun u => isPrefix_units_of_after

/-- A pass is what the fix of a finding does. -/
theorem replaceFrom_before (h : marks.IsCut (before q p steps)) (hpass : IsPass q p steps) :
    replaceFrom (wrapped [q] p.1) p.1.text 0 (marks.text (before q p steps)) =
      marks.text (after p steps) := by
  have hold : wrapped [q] p.1 = marks.text (phrase [.quote q, .parameter p, .quote q]) := by
    rw [← text_around, around_eq_phrase]
    rfl
  have haround : around [q] p = phrase [.quote q, .parameter p, .quote q] := around_eq_phrase [q] p
  induction steps with
  | nil => exact replaceFrom_nil 0
  | cons step steps ih =>
    match step with
    | .bared =>
      rw [before_bared, Lexicon.text_append, text_around, replaceFrom_append (wrapped_ne_nil [q] p.1),
        ih h hpass]
      rfl
    | .kept (.word a) =>
      have hnot := hpass.1
      rw [haround] at hnot
      rw [before_kept] at h ⊢
      rw [hold, Lexicon.replaceFrom_word h (List.cons_ne_nil _ _) hnot, ← hold,
        ih h hpass.2]
      rfl
    | .kept (.unit c) =>
      rw [before_kept] at h ⊢
      rw [hold, Lexicon.replaceFrom_unit h (List.cons_ne_nil _ _), ← hold,
        ih h.2 hpass.2]
      rfl

/-- The fix of a quoted placeholder makes a pass over the pieces of any text. -/
theorem exists_pass (q : Quote) (p : Parameter) (t : Text) :
    ∃ steps, IsPass q p steps ∧ marks.IsCut (before q p steps) ∧
      marks.text (before q p steps) = t ∧ marks.IsCut (after p steps) ∧
      marks.text (after p steps) = (fix ⟨q.text, p.1⟩).apply t := by
  obtain ⟨ps, hps, rfl⟩ := marks.exists_isCut t
  obtain ⟨steps, hpass, rfl⟩ := exists_isPass q p ps
  refine ⟨steps, hpass, hps, rfl, isCut_after hps, ?_⟩
  have hold : (Quoted.mk q.text p.1).text = wrapped [q] p.1 := (wrapped_singleton q p.1).symm
  show _ = Text.replaceAll _ _ _
  rw [hold, replaceAll_eq (wrapped_ne_nil [q] p.1)]
  exact (replaceFrom_before hps hpass).symm

/-! ## What a pass leaves -/

/-- A pass for some quotes takes them off if they are the innermost ones. -/
def peelOnce (quote : Text) (layers : List Quote) : List Quote :=
  if layers.head?.map Quote.text = some quote then layers.tail else layers

theorem peelOnce_cons (q : Quote) (layers : List Quote) : peelOnce q.text (q :: layers) = layers :=
  if_pos rfl

theorem peelOnce_eq_self (h : layers.head? ≠ some q) : peelOnce q.text layers = layers := by
  refine if_neg fun heq => h ?_
  obtain ⟨q', hq', htext⟩ := Option.map_eq_some_iff.1 heq
  obtain rfl : q' = q := quote_eq_of_isPrefix (t := []) (by rw [htext, List.append_nil])
  exact hq'

/-- What a pass leaves of the layers around some placeholder. -/
def peelFor (q : Quote) (p p' : Parameter) (layers : List Quote) : List Quote :=
  if p' = p then peelOnce q.text layers else layers

theorem exists_append_of_after {xs ys : List (Piece Mark)} (h : after p steps = xs ++ ys) :
    ∃ l r, steps = l ++ r ∧ after p l = xs ∧ after p r = ys := List.map_eq_append_iff.1 h

theorem exists_cons_of_after {x : Piece Mark} {xs : List (Piece Mark)}
    (h : after p steps = x :: xs) :
    ∃ step rest, steps = step :: rest ∧ step.after p = x ∧ after p rest = xs := List.map_eq_cons_iff.1 h

theorem eq_kept_of_after_quote {step : Step} (h : step.after p = .word (.quote q')) :
    step = .kept (.word (.quote q')) := by
  cases step with
  | bared => exact nomatch h
  | kept x => exact congrArg Step.kept h

/-- Quotes that a pass leaves were there before. -/
theorem before_of_after_quotes (h : after p steps = quotes layers) :
    before q p steps = quotes layers := by
  induction layers generalizing steps with
  | nil =>
    obtain rfl : steps = [] := List.map_eq_nil_iff.1 h
    rfl
  | cons q' layers ih =>
    obtain ⟨step, rest, rfl, hstep, hrest⟩ := exists_cons_of_after h
    obtain rfl := eq_kept_of_after_quote hstep
    rw [before_kept, ih hrest, quotes_cons]

/-- A placeholder that a pass leaves was there before, perhaps between the quotes that were
dropped. -/
theorem exists_step_of_after (h : after p steps = around layers p') :
    ∃ l step r, steps = l ++ step :: r ∧ after p l = quotes layers.reverse ∧
      after p r = quotes layers ∧ (step = .bared ∧ p' = p ∨ step = .kept (.word (.parameter p'))) := by
  rw [around, ← quotes_reverse] at h
  obtain ⟨l, rest, rfl, hl, hrest⟩ := exists_append_of_after h
  obtain ⟨step, r, rfl, hstep, hr⟩ := exists_cons_of_after hrest
  refine ⟨l, step, r, rfl, hl, hr, ?_⟩
  cases step with
  | bared =>
    obtain rfl := Mark.parameter.inj (Piece.word.inj hstep)
    exact .inl ⟨rfl, rfl⟩
  | kept x => exact .inr (congrArg Step.kept hstep)

theorem IsPass.right {steps' : List Step} (h : IsPass q p (steps ++ steps')) : IsPass q p steps' := by
  induction steps with
  | nil => exact h
  | cons step steps ih =>
    match step with
    | .bared => exact ih h
    | .kept x => exact ih h.2

/-- A pass keeps no placeholder between quotes that it should have dropped. -/
theorem IsPass.not_kept {steps' : List Step} (h : IsPass q p (steps ++
    .kept (.word (.quote q)) :: .kept (.word (.parameter p)) :: .kept (.word (.quote q)) :: steps')) :
    False :=
  h.right.1 ⟨before q p steps', rfl⟩

/-- A placeholder that a pass keeps is not in the quotes that the pass drops. -/
theorem IsPass.head?_ne {l r : List Step} (hpass : IsPass q p (l ++ .kept (.word (.parameter p)) :: r))
    (hl : quotes layers <+: after p l.reverse) (hr : quotes layers <+: after p r) :
    layers.head? ≠ some q := by
  intro hhead
  obtain ⟨layers, rfl⟩ := List.head?_eq_some_iff.1 hhead
  obtain ⟨left, hl⟩ := hl
  obtain ⟨right, hr⟩ := hr
  obtain ⟨first, r, rfl, hfirst, -⟩ := exists_cons_of_after hr.symm
  obtain ⟨last, l', hlast, hquote, -⟩ := exists_cons_of_after hl.symm
  obtain rfl := eq_kept_of_after_quote hfirst
  obtain rfl := eq_kept_of_after_quote hquote
  obtain rfl := List.reverse_eq_iff.1 hlast
  rw [List.reverse_cons, List.append_assoc] at hpass
  exact hpass.not_kept

/-- A placeholder in layers of quotes that a pass leaves was in one more layer before if the pass was
for it and took that off, and else the pass was not for the innermost layer. -/
theorem before_of_after_around (h : after p steps = around layers p') :
    (p' = p ∧ before q p steps = around (q :: layers) p') ∨
      (before q p steps = around layers p' ∧
        ∀ left right, IsPass q p (left ++ steps ++ right) → p' = p → layers.head? ≠ some q) := by
  obtain ⟨l, step, r, rfl, hl, hr, ⟨rfl, rfl⟩ | rfl⟩ := exists_step_of_after h
  · refine .inl ⟨rfl, ?_⟩
    rw [before_append, before_bared, before_of_after_quotes hl, before_of_after_quotes hr, quotes_reverse]
    simp only [around, quotes_cons, quotes_nil, List.reverse_cons, List.reverse_nil, List.append_assoc,
      List.cons_append, List.nil_append]
  · refine .inr ⟨?_, ?_⟩
    · rw [before_append, before_kept, before_of_after_quotes hl, before_of_after_quotes hr,
        quotes_reverse]
      rfl
    · rintro left right hpass rfl
      rw [List.append_assoc, List.append_assoc, List.cons_append, ← List.append_assoc] at hpass
      refine hpass.head?_ne ⟨after p' left.reverse, ?_⟩ ⟨after p' right, ?_⟩
      · rw [← reverse_after, ← reverse_after, after_append, hl, quotes_reverse, List.reverse_append,
          List.reverse_reverse]
      · rw [after_append, hr]

theorem exists_before_of_after_around (q : Quote) (h : after p steps = around layers p') :
    ∃ layers', before q p steps = around layers' p' := by
  obtain ⟨-, hbefore⟩ | ⟨hbefore, -⟩ := before_of_after_around (q := q) h
  · exact ⟨_, hbefore⟩
  · exact ⟨_, hbefore⟩

/-- A pass leaves no quote to two placeholders that was not theirs before. -/
theorem shares_of_after (h : Shares (after p steps)) : Shares (before q p steps) := by
  obtain ⟨q', layers, p₁, layers', p₂, left, right, h⟩ := h
  obtain ⟨s, s₆, rfl, hs, -⟩ := exists_append_of_after h.symm
  obtain ⟨s₀, s, rfl, -, hs⟩ := exists_append_of_after hs
  obtain ⟨s, s₅, rfl, hs, h₅⟩ := exists_append_of_after hs
  obtain ⟨s, s₄, rfl, hs, h₄⟩ := exists_append_of_after hs
  obtain ⟨s, s₃, rfl, hs, h₃⟩ := exists_append_of_after hs
  obtain ⟨s₁, s₂, rfl, h₁, h₂⟩ := exists_append_of_after hs
  obtain ⟨inner, h₂⟩ := exists_before_of_after_around q h₂
  obtain ⟨inner', h₄⟩ := exists_before_of_after_around q h₄
  refine ⟨q', inner, p₁, inner', p₂, before q p s₀, before q p s₆, ?_⟩
  simp only [before_append, before_of_after_quotes h₁, h₂, before_of_after_quotes h₃, h₄,
    before_of_after_quotes h₅, sharing, List.append_assoc]

/-- What stands in quotes after a pass stood in them before, and in one more layer if the pass took
that off. -/
theorem exists_around_of_after (hpass : IsPass q p steps) (h : around layers p' <:+: after p steps) :
    ∃ layers', around layers' p' <:+: before q p steps ∧ peelFor q p p' layers' = layers := by
  obtain ⟨left, right, h⟩ := h
  obtain ⟨s, s₂, rfl, hs, -⟩ := exists_append_of_after h.symm
  obtain ⟨s₀, s₁, rfl, -, h₁⟩ := exists_append_of_after hs
  obtain ⟨rfl, hbefore⟩ | ⟨hbefore, hkept⟩ := before_of_after_around (q := q) h₁
  · refine ⟨q :: layers, ⟨before q p' s₀, before q p' s₂, ?_⟩, ?_⟩
    · rw [before_append, before_append, hbefore]
    · rw [peelFor, if_pos rfl, peelOnce_cons]
  · refine ⟨layers, ⟨before q p s₀, before q p s₂, ?_⟩, ?_⟩
    · rw [before_append, before_append, hbefore]
    · rw [peelFor]
      split
      · next hp => exact peelOnce_eq_self (hkept s₀ s₂ hpass hp)
      · rfl

/-! ## What a pass takes off -/

/-- Quotes are there after a pass as before, unless the pass dropped one of them that stood before
another placeholder. -/
theorem quotes_isPrefix_after_or (h : quotes layers <+: before q p steps) :
    quotes layers <+: after p steps ∨ ∃ inner, inner ++ [q] <+: layers ∧
      quotes inner ++ around [q] p <+: before q p steps := by
  induction layers generalizing steps with
  | nil => exact .inl List.nil_prefix
  | cons q' layers ih =>
    match steps with
    | [] => exact absurd (List.prefix_nil.1 h) (List.cons_ne_nil _ _)
    | .bared :: steps =>
      obtain ⟨heq, -⟩ := List.cons_prefix_cons.1 h
      obtain rfl := Mark.quote.inj (Piece.word.inj heq)
      exact .inr ⟨[], ⟨layers, rfl⟩, List.prefix_append (around [q'] p) _⟩
    | .kept x :: steps =>
      obtain ⟨rfl, hrest⟩ := List.cons_prefix_cons.1 h
      rcases ih hrest with hafter | ⟨inner, hinner, hbefore⟩
      · exact .inl (List.cons_prefix_cons.2 ⟨rfl, hafter⟩)
      · exact .inr ⟨q' :: inner, List.cons_prefix_cons.2 ⟨rfl, hinner⟩,
          List.cons_prefix_cons.2 ⟨rfl, hbefore⟩⟩

/-- A placeholder is read by a step that drops quotes around it, or keeps it. -/
theorem exists_step_of_before {xs ys : List (Piece Mark)}
    (h : before q p steps = xs ++ .word (.parameter p') :: ys) :
    ∃ l step r, steps = l ++ step :: r ∧ step.after p = .word (.parameter p') ∧
      (p' = p ∧ xs = before q p l ++ quotes [q] ∧ ys = quotes [q] ++ before q p r ∨
        (step = .kept (.word (.parameter p')) ∧ xs = before q p l ∧ ys = before q p r)) := by
  induction steps generalizing xs with
  | nil => exact absurd (congrArg List.length h) (by simp [before])
  | cons step steps ih =>
    match step, xs with
    | .bared, [] => exact nomatch (List.cons.inj h).1
    | .bared, [x₁] =>
      obtain ⟨rfl, h₁⟩ := List.cons.inj h
      obtain ⟨hp, h₂⟩ := List.cons.inj h₁
      exact ⟨[], .bared, steps, rfl, hp,
        .inl ⟨(Mark.parameter.inj (Piece.word.inj hp)).symm, rfl, h₂.symm⟩⟩
    | .bared, [x₁, x₂] => exact nomatch (List.cons.inj (List.cons.inj (List.cons.inj h).2).2).1
    | .bared, x₁ :: x₂ :: x₃ :: xs =>
      obtain ⟨rfl, h₁⟩ := List.cons.inj h
      obtain ⟨rfl, h₂⟩ := List.cons.inj h₁
      obtain ⟨rfl, h₃⟩ := List.cons.inj h₂
      obtain ⟨l, step, r, rfl, hstep, ⟨hp, hl, hr⟩ | ⟨hkept, hl, hr⟩⟩ := ih h₃
      · exact ⟨.bared :: l, step, r, rfl, hstep, .inl ⟨hp, by rw [hl]; rfl, hr⟩⟩
      · exact ⟨.bared :: l, step, r, rfl, hstep, .inr ⟨hkept, by rw [hl]; rfl, hr⟩⟩
    | .kept x, [] =>
      obtain ⟨rfl, h₁⟩ := List.cons.inj h
      exact ⟨[], _, steps, rfl, rfl, .inr ⟨rfl, rfl, h₁.symm⟩⟩
    | .kept x, x₁ :: xs =>
      obtain ⟨rfl, h₁⟩ := List.cons.inj h
      obtain ⟨l, step, r, rfl, hstep, ⟨hp, hl, hr⟩ | ⟨hkept, hl, hr⟩⟩ := ih h₁
      · exact ⟨.kept x :: l, step, r, rfl, hstep, .inl ⟨hp, by rw [hl]; rfl, hr⟩⟩
      · exact ⟨.kept x :: l, step, r, rfl, hstep, .inr ⟨hkept, by rw [hl]; rfl, hr⟩⟩

/-- A quote that is between two placeholders and in the layers of both is shared. -/
theorem shares_of_right {xs ys : List (Piece Mark)} (hleft : quotes (inner ++ [q]) <+: xs.reverse)
    (hright : quotes inner ++ around [q] p <+: ys) : Shares (xs ++ .word (.parameter p') :: ys) := by
  obtain ⟨left, hleft⟩ := hleft
  obtain ⟨right, rfl⟩ := hright
  have hxs := congrArg List.reverse hleft
  rw [List.reverse_reverse] at hxs
  refine ⟨q, inner, p', [], p, left.reverse, right, ?_⟩
  rw [← hxs]
  simp only [sharing, around, quotes_append, quotes_cons, quotes_nil, List.reverse_append,
    List.reverse_cons, List.reverse_nil, List.append_assoc, List.cons_append, List.nil_append]

theorem shares_of_left {xs ys : List (Piece Mark)} (hleft : quotes inner ++ around [q] p <+: xs.reverse)
    (hright : quotes (inner ++ [q]) <+: ys) : Shares (xs ++ .word (.parameter p') :: ys) := by
  have h : Shares (ys.reverse ++ .word (.parameter p') :: xs.reverse) :=
    shares_of_right (by rwa [List.reverse_reverse]) hleft
  refine shares_of_reverse ?_
  simpa only [List.reverse_append, List.reverse_cons, List.append_assoc, List.cons_append,
    List.nil_append] using h

/-- The layers of a placeholder outside those that its step drops are left on both sides if no quote is
shared. -/
theorem sides_after {xs ys : List (Piece Mark)} {l r : List Step} (dropped : List Quote)
    (hxs : xs.reverse = quotes dropped ++ (before q p l).reverse)
    (hys : ys = quotes dropped ++ before q p r)
    (hleft : quotes (dropped ++ layers) <+: xs.reverse) (hright : quotes (dropped ++ layers) <+: ys)
    (hnot : ¬ Shares (xs ++ .word (.parameter p') :: ys)) :
    quotes layers <+: after p l.reverse ∧ quotes layers <+: after p r := by
  have hinside : ∀ inner, inner ++ [q] <+: layers →
      quotes (dropped ++ inner ++ [q]) <+: quotes (dropped ++ layers) := fun inner hinner =>
    quotes_isPrefix (by rw [List.append_assoc]; exact (List.prefix_append_right_inj dropped).2 hinner)
  have hl : quotes layers <+: before q p l.reverse := by
    rw [hxs, quotes_append, reverse_before] at hleft
    exact (List.prefix_append_right_inj _).1 hleft
  have hr : quotes layers <+: before q p r := by
    rw [hys, quotes_append] at hright
    exact (List.prefix_append_right_inj _).1 hright
  constructor
  · refine (quotes_isPrefix_after_or hl).resolve_right fun ⟨inner, hinner, h⟩ => hnot ?_
    refine shares_of_left (p := p) ?_ ((hinside inner hinner).trans hright)
    rw [hxs, quotes_append, List.append_assoc, reverse_before]
    exact (List.prefix_append_right_inj _).2 h
  · refine (quotes_isPrefix_after_or hr).resolve_right fun ⟨inner, hinner, h⟩ => hnot ?_
    refine shares_of_right (p := p) ((hinside inner hinner).trans hleft) ?_
    rw [hys, quotes_append, List.append_assoc]
    exact (List.prefix_append_right_inj _).2 h

theorem around_of_sides {l r : List Step} {step : Step} (hstep : step.after p = .word (.parameter p'))
    (hl : quotes layers <+: after p l.reverse) (hr : quotes layers <+: after p r) :
    around layers p' <:+: after p (l ++ step :: r) := by
  obtain ⟨left, hl⟩ := hl
  obtain ⟨right, hr⟩ := hr
  have hafter := congrArg List.reverse hl
  rw [← reverse_after, List.reverse_reverse, List.reverse_append] at hafter
  refine ⟨left.reverse, right, ?_⟩
  rw [after, List.map_append, List.map_cons, hstep, ← after, ← after, ← hafter, ← hr]
  simp only [around, List.append_assoc, List.cons_append]

/-- If no quote is shared, what stands in quotes before a pass stands in them after it, less the layer
that the pass was for. -/
theorem around_after (hpass : IsPass q p steps) (hnot : ¬ Shares (before q p steps))
    (h : around layers p' <:+: before q p steps) :
    around (peelFor q p p' layers) p' <:+: after p steps := by
  obtain ⟨left, right, h⟩ := h
  have hcut : before q p steps =
      (left ++ (quotes layers).reverse) ++ .word (.parameter p') :: (quotes layers ++ right) := by
    rw [← h]
    simp only [around, List.append_assoc, List.cons_append]
  have hleft : quotes layers <+: (left ++ (quotes layers).reverse).reverse := by
    rw [List.reverse_append, List.reverse_reverse]
    exact List.prefix_append _ _
  have hright : quotes layers <+: quotes layers ++ right := List.prefix_append _ _
  generalize left ++ (quotes layers).reverse = xs at hcut hleft
  generalize quotes layers ++ right = ys at hcut hright
  rw [hcut] at hnot
  obtain ⟨l, step, r, rfl, hstep, ⟨rfl, rfl, rfl⟩ | ⟨rfl, rfl, rfl⟩⟩ := exists_step_of_before hcut
  · -- the innermost layer is that of the pass, if there is one
    have hxs : (before q p' l ++ quotes [q]).reverse = quotes [q] ++ (before q p' l).reverse :=
      List.reverse_append
    rw [peelFor, if_pos rfl]
    cases layers with
    | nil => exact around_of_sides hstep List.nil_prefix List.nil_prefix
    | cons q' layers =>
      obtain ⟨heq, -⟩ := List.cons_prefix_cons.1 hright
      obtain rfl := Mark.quote.inj (Piece.word.inj heq)
      obtain ⟨hl, hr⟩ := sides_after [q'] hxs rfl hleft hright hnot
      rw [peelOnce_cons]
      exact around_of_sides hstep hl hr
  · -- a placeholder that is kept keeps all layers, and the pass is not for the innermost one
    obtain ⟨hl, hr⟩ := sides_after [] rfl rfl hleft hright hnot
    have hpeel : peelFor q p p' layers = layers := by
      unfold peelFor
      split
      · next hp =>
        subst hp
        exact peelOnce_eq_self (hpass.head?_ne hl hr)
      · rfl
    rw [hpeel]
    exact around_of_sides hstep hl hr

end Check.InstparmQuote
end WorkflowLint
