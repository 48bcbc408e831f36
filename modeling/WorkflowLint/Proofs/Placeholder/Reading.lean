import Mathlib.Data.List.TakeWhile
import WorkflowLint.Proofs.Check.Repairs
import WorkflowLint.Proofs.Text.Lexicon

/-!
# What the scanners of placeholders find

The scanners look at a text with recognisers that take as much as they can and then look for the last
underscore.  What they find are exactly the placeholders (`IsPlaceholder`, `IsParameter`) that the text
starts with: `PlaceholderSyntax.read?_eq_some_iff` for placeholders of any stem, and
`InstparmQuote.read?_eq_some_iff` for those between quotes.

A placeholder neither starts nor contains the start of another one, so they are the words of a lexicon
(`placeholders`).
-/

namespace WorkflowLint

/-! ## Cutting texts -/

namespace Text

variable {sep c : CodePoint} {s t e start rest : Text}

theorem afterLast_append (h : sep ∉ e) (s : Text) : afterLast sep (s ++ sep :: e) = e := by
  have hall : ∀ c ∈ e.reverse, (c != sep) = true := fun c hc =>
    bne_iff_ne.2 fun heq => h (heq ▸ List.mem_reverse.1 hc)
  rw [afterLast, List.reverse_append, List.reverse_cons, List.append_assoc,
    List.takeWhile_append_of_pos hall]
  simp

/-- What stands after the last separator stands after a separator unless it is the whole text. -/
theorem exists_eq_afterLast (h : (afterLast sep t).length < t.length) :
    ∃ s, t = s ++ sep :: afterLast sep t := by
  by_cases hmem : sep ∈ t.reverse
  · obtain ⟨e, s, hsplit, he⟩ := List.eq_append_cons_of_mem hmem
    have ht : t = s.reverse ++ sep :: e.reverse := by
      have hrev := congrArg List.reverse hsplit
      rwa [List.reverse_reverse, List.reverse_append, List.reverse_cons, List.append_assoc] at hrev
    refine ⟨s.reverse, ?_⟩
    conv_rhs => rw [ht, afterLast_append (fun hmem => he (List.mem_reverse.1 hmem))]
    exact ht
  · have hall : ∀ c ∈ t.reverse, (c != sep) = true := fun c hc =>
      bne_iff_ne.2 fun heq => hmem (heq ▸ hc)
    rw [afterLast, List.takeWhile_eq_self_iff.2 hall, List.reverse_reverse] at h
    exact absurd h (Nat.lt_irrefl _)

/-- Texts that are followed by the same code point are equal if neither has it and one starts with
the other. -/
theorem eq_of_isPrefix_of_not_mem (hs : sep ∉ s) (ht : sep ∉ t) {rest rest' : Text}
    (h : s ++ sep :: rest <+: t ++ sep :: rest') : s = t :=
  not_not.1 fun hne => not_isPrefix_of_ne hs ht hne rest rest' h

end Text

/-! ## Placeholders of one stem -/

namespace Placeholder.Token

variable {stem ending t body : Text} {p q : Token} {unit : CodePoint → Bool}

theorem closing_eq : closing = [.char '\x7d', .char '\x7d'] := by decide

theorem body?_eq_some_iff (hstop : unit (.char '\x7d') = false) :
    body? stem unit t = some body ↔
      (∀ c ∈ body, unit c = true) ∧ (opening ++ stem ++ "_" ++ body ++ closing : Text) <+: t := by
  constructor
  · intro h
    refine ⟨unit_of_mem_body? h, ?_⟩
    unfold body? at h
    split at h
    · simp at h
    · next rest hrest =>
      obtain rfl := Text.afterStart?_eq_some_iff.1 hrest
      simp only at h
      split at h
      · next hclosing =>
        obtain rfl := Option.some.inj h
        have hdrop : (rest.takeWhile unit ++ rest.dropWhile unit).drop (rest.takeWhile unit).length =
            rest.dropWhile unit := List.drop_left
        rw [List.takeWhile_append_dropWhile] at hdrop
        obtain ⟨rest', hrest'⟩ := Text.isPrefixOf_iff.1 hclosing
        refine ⟨rest', ?_⟩
        rw [List.append_assoc, hrest', hdrop, List.append_assoc, List.takeWhile_append_dropWhile]
      · simp at h
  · rintro ⟨hunit, rest, rfl⟩
    have hafter : Text.afterStart? (opening ++ stem ++ "_")
        (opening ++ stem ++ "_" ++ body ++ closing ++ rest) = some (body ++ (closing ++ rest)) := by
      rw [Text.afterStart?_eq_some_iff]
      simp only [List.append_assoc]
    have htake : (body ++ (closing ++ rest)).takeWhile unit = body := by
      rw [List.takeWhile_append_of_pos hunit, closing_eq]
      simp [hstop]
    unfold body?
    rw [hafter]
    simp only [htake, List.drop_left]
    rw [if_pos (Text.isPrefixOf_iff.2 (List.prefix_append closing rest))]

/-- A placeholder is written as its stem and what stands between the stem and the closing braces. -/
theorem text_eq_body (p : Token) :
    p.text = opening ++ p.stem ++ "_" ++ (p.name ++ .char '_' :: p.ending) ++ closing := by
  have hbar : ("_" : Text) = [.char '_'] := by decide
  simp only [text, hbar, List.append_assoc, List.cons_append, List.nil_append]

/-- What stands after the stem of a placeholder that a text starts with. -/
theorem body?_eq_some_iff_of_units (hstop : unit (.char '\x7d') = false)
    (hbar : unit (.char '_') = true) (hname : ∀ c ∈ p.name, unit c = true)
    (hending : ∀ c ∈ p.ending, unit c = true) :
    body? p.stem unit t = some (p.name ++ .char '_' :: p.ending) ↔ p.text <+: t := by
  rw [body?_eq_some_iff hstop, ← text_eq_body]
  refine and_iff_right fun c hc => ?_
  rcases List.mem_append.1 hc with hc | hc
  · exact hname c hc
  rcases List.mem_cons.1 hc with rfl | hc
  · exact hbar
  · exact hending c hc

/-- What a recogniser of one stem and one ending finds. -/
theorem read?_eq_some_iff (hstop : unit (.char '\x7d') = false) (hbar : unit (.char '_') = true)
    (hending : ∀ c ∈ ending, unit c = true) :
    read? stem ending unit t = some p ↔
      p.stem = stem ∧ p.ending = ending ∧ p.name ≠ [] ∧ (∀ c ∈ p.name, unit c = true) ∧
        p.text <+: t := by
  have htail : ("_" ++ ending : Text) = .char '_' :: ending := by
    have hone : ("_" : Text) = [.char '_'] := by decide
    rw [hone, List.singleton_append]
  constructor
  · intro h
    obtain ⟨hstem, hname, hend⟩ := parts_of_read? h
    unfold read? at h
    split at h
    · simp at h
    · next body hbody =>
      simp only at h
      split at h
      · next hlong =>
        obtain ⟨hsuffix, hlt⟩ := hlong
        obtain ⟨name, rfl⟩ := List.isSuffixOf_iff_suffix.1 hsuffix
        have htake : (name ++ ("_" ++ ending : Text)).take
            ((name ++ ("_" ++ ending : Text)).length - ("_" ++ ending : Text).length) = name := by
          rw [List.length_append, Nat.add_sub_cancel, List.take_left]
        rw [htake] at h
        obtain rfl := Option.some.inj h
        rw [htail] at hlt hbody
        refine ⟨rfl, rfl, ?_, hname, (body?_eq_some_iff_of_units hstop hbar hname hending).1 hbody⟩
        rintro rfl
        exact Nat.lt_irrefl _ hlt
      · simp at h
  · rintro ⟨rfl, rfl, hne, hname, hp⟩
    have hbody := (body?_eq_some_iff_of_units hstop hbar hname hending).2 hp
    have hpos := List.length_pos_of_ne_nil hne
    unfold read?
    rw [hbody]
    simp only [htail]
    rw [if_pos ⟨List.isSuffixOf_iff_suffix.2 (List.suffix_append _ _), by
      rw [List.length_append]; omega⟩, List.length_append, Nat.add_sub_cancel, List.take_left]

theorem isNameUnit_of_isUpper {c : CodePoint} (h : c.isUpper = true) : isNameUnit c = true := by
  rw [isNameUnit, h, Bool.true_or, Bool.true_or]

/-- What a recogniser of one stem finds. -/
theorem readAny?_eq_some_iff :
    readAny? stem t = some p ↔
      p.stem = stem ∧ p.name ≠ [] ∧ (∀ c ∈ p.name, isNameUnit c = true) ∧
        p.ending ≠ [] ∧ (∀ c ∈ p.ending, c.isUpper = true) ∧ p.text <+: t := by
  have hstop : isNameUnit (.char '\x7d') = false := by decide
  have hbar : isNameUnit (.char '_') = true := by decide
  constructor
  · intro h
    obtain ⟨hstem, hname, -⟩ := parts_of_readAny? h
    unfold readAny? at h
    split at h
    · simp at h
    · next body hbody =>
      simp only at h
      split at h
      · next hlong =>
        obtain ⟨hne, hupper, hlt⟩ := hlong
        obtain ⟨name, hsplit⟩ := Text.exists_eq_afterLast (Nat.lt_of_succ_lt hlt)
        generalize Text.afterLast (.char '_') body = ending at h hne hupper hlt hsplit
        subst hsplit
        have htake : (name ++ .char '_' :: ending).take
            ((name ++ .char '_' :: ending).length - ending.length - 1) = name := by
          have hlength : (name ++ .char '_' :: ending).length - ending.length - 1 = name.length := by
            simp only [List.length_append, List.length_cons]
            omega
          rw [hlength, List.take_left]
        rw [htake] at h
        obtain rfl := Option.some.inj h
        have hending : ∀ c ∈ ending, c.isUpper = true := List.all_eq_true.1 hupper
        refine ⟨rfl, ?_, hname, ?_, hending, (body?_eq_some_iff_of_units hstop hbar hname
          fun c hc => isNameUnit_of_isUpper (hending c hc)).1 hbody⟩
        · rintro rfl
          simp at hlt
        · rintro rfl
          simp at hne
      · simp at h
  · rintro ⟨rfl, hne, hname, hend, hupper, hp⟩
    have hbody := (body?_eq_some_iff_of_units hstop hbar hname
      fun c hc => isNameUnit_of_isUpper (hupper c hc)).2 hp
    have hlast : Text.afterLast (.char '_') (p.name ++ .char '_' :: p.ending) = p.ending := by
      refine Text.afterLast_append (fun hmem => ?_) p.name
      exact absurd (hupper _ hmem) (by decide)
    have hpos := List.length_pos_of_ne_nil hne
    have hlength : (p.name ++ .char '_' :: p.ending).length = p.name.length + (p.ending.length + 1) := by
      rw [List.length_append, List.length_cons]
    unfold readAny?
    rw [hbody]
    simp only [hlast, hlength]
    rw [if_pos ⟨by simpa using hend, List.all_eq_true.2 hupper, by omega⟩]
    have htake : p.name.length + (p.ending.length + 1) - p.ending.length - 1 = p.name.length := by
      omega
    rw [htake, List.take_left]

theorem text_ne_nil (p : Token) : p.text ≠ [] := by
  rw [text_eq]
  exact List.cons_ne_nil _ _

/-- No two braces start inside a placeholder whose parts have none. -/
theorem not_isPrefix (hp : Text.brace ∉ p.core) {u s t : Text} (hu : u <:+ p.text.tail) (hne : u ≠ []) :
    ¬ Text.brace :: Text.brace :: s <+: u ++ t := by
  rintro ⟨rest, hrest⟩
  rw [text_eq, List.tail_cons] at hu
  exact Text.clear_brace_cons hp p.core_ne_nil u hu hne t (s ++ rest) hrest.symm

/-! ## Placeholders -/

/-- A placeholder is one of a known stem that has a name and an ending in capital letters. -/
structure IsPlaceholder (p : Token) : Prop where
  stem : p.stem ∈ endings.map Prod.fst
  name_ne_nil : p.name ≠ []
  name : ∀ c ∈ p.name, isNameUnit c = true
  ending_ne_nil : p.ending ≠ []
  ending : ∀ c ∈ p.ending, c.isUpper = true

/-- A placeholder of an installation parameter. -/
structure IsParameter (p : Token) : Prop where
  stem : p.stem = "INSTPARM"
  ending : p.ending = "MRAPTSNI"
  name_ne_nil : p.name ≠ []
  name : ∀ c ∈ p.name, isNameUnit c = true

theorem IsParameter.isPlaceholder (h : p.IsParameter) : p.IsPlaceholder where
  stem := by
    rw [h.stem]
    decide
  name_ne_nil := h.name_ne_nil
  name := h.name
  ending_ne_nil := by
    rw [h.ending]
    decide
  ending := by
    rw [h.ending]
    decide

/-- The stems and their endings are words in capital letters. -/
theorem isUpper_of_mem_endings {e : Text × Text} (he : e ∈ endings) :
    (∀ c ∈ e.1, c.isUpper = true) ∧ e.2 ≠ [] ∧ ∀ c ∈ e.2, c.isUpper = true := by
  have hall : ∀ e ∈ endings, (∀ c ∈ e.1, c.isUpper = true) ∧ e.2 ≠ [] ∧
      ∀ c ∈ e.2, c.isUpper = true := by decide +kernel
  exact hall e he

namespace IsPlaceholder

theorem isUpper_stem (h : p.IsPlaceholder) : ∀ c ∈ p.stem, c.isUpper = true := by
  obtain ⟨e, he, hstem⟩ := List.mem_map.1 h.stem
  rw [← hstem]
  exact (isUpper_of_mem_endings he).1

theorem plain (h : p.IsPlaceholder) : p.Plain :=
  ⟨fun c hc => isNameUnit_of_isUpper (h.isUpper_stem c hc), h.name,
    fun c hc => isNameUnit_of_isUpper (h.ending c hc)⟩

theorem brace_not_mem_core (h : p.IsPlaceholder) : Text.brace ∉ p.core :=
  h.plain.not_mem_core (by decide) (by decide)

/-- A text starts with placeholders of one stem only. -/
theorem stem_eq (hp : p.IsPlaceholder) (hq : q.IsPlaceholder) (hpt : p.text <+: t)
    (hqt : q.text <+: t) : p.stem = q.stem := by
  have hbar : ("_" : Text) = [.char '_'] := by decide
  have hcut : ∀ r : Token, ∃ rest, r.text = opening ++ (r.stem ++ .char '_' :: rest) := fun r =>
    ⟨r.name ++ "_" ++ r.ending ++ closing, by
      simp only [text, hbar, List.append_assoc, List.cons_append, List.nil_append]⟩
  have hnot : ∀ {r : Token}, r.IsPlaceholder → .char '_' ∉ r.stem := fun hr hmem =>
    absurd (hr.isUpper_stem _ hmem) (by decide)
  obtain ⟨rest, hrest⟩ := hcut p
  obtain ⟨rest', hrest'⟩ := hcut q
  rw [hrest] at hpt
  rw [hrest'] at hqt
  rcases List.prefix_or_prefix_of_prefix hpt hqt with h | h
  · exact Text.eq_of_isPrefix_of_not_mem (hnot hp) (hnot hq) ((List.prefix_append_right_inj _).1 h)
  · exact (Text.eq_of_isPrefix_of_not_mem (hnot hq) (hnot hp)
      ((List.prefix_append_right_inj _).1 h)).symm

/-- A placeholder is found by the recogniser of its stem. -/
theorem readAny? (h : p.IsPlaceholder) (ht : p.text <+: t) : Token.readAny? p.stem t = some p :=
  readAny?_eq_some_iff.2 ⟨rfl, h.name_ne_nil, h.name, h.ending_ne_nil, h.ending, ht⟩

/-- A text starts with at most one placeholder. -/
theorem eq_of_isPrefix (hp : p.IsPlaceholder) (hq : q.IsPlaceholder) (hpt : p.text <+: t)
    (hqt : q.text <+: t) : p = q := by
  have hread := hp.readAny? hpt
  rw [hp.stem_eq hq hpt hqt, hq.readAny? hqt] at hread
  exact (Option.some.inj hread).symm

end IsPlaceholder

/-- Placeholders are told apart wherever they stand. -/
def placeholders : Text.Lexicon {p : Token // p.IsPlaceholder} where
  spell p := p.1.text
  spell_ne_nil p := p.1.text_ne_nil
  eq_of_isPrefix {p q t} h :=
    Subtype.ext (p.2.eq_of_isPrefix q.2 h (List.prefix_append q.1.text t))
  not_isPrefix {p q u t} hu hne := by
    rw [text_eq p.1]
    exact not_isPrefix q.2.brace_not_mem_core hu hne

end Placeholder.Token

/-! ## The recognisers of the checks -/

namespace Check

open Placeholder

/-- The recogniser of placeholders finds those that a text starts with. -/
theorem PlaceholderSyntax.read?_eq_some_iff {t : Text} {p : Token} {n : Nat} :
    read? t = some (p, n) ↔ p.IsPlaceholder ∧ p.text <+: t ∧ n = p.text.length := by
  constructor
  · intro h
    obtain ⟨p', hp, heq⟩ := Option.map_eq_some_iff.1 h
    obtain ⟨rfl, rfl⟩ := Prod.mk.inj heq
    obtain ⟨e, he, hany⟩ := List.exists_of_findSome?_eq_some hp
    obtain ⟨hstem, hne, hname, hend, hupper, ht⟩ := Token.readAny?_eq_some_iff.1 hany
    exact ⟨⟨hstem ▸ List.mem_map_of_mem he, hne, hname, hend, hupper⟩, ht, rfl⟩
  · rintro ⟨hp, ht, rfl⟩
    obtain ⟨e, he, hstem⟩ := List.mem_map.1 hp.stem
    have hread : Token.readAny? e.1 t = some p := by
      rw [hstem]
      exact hp.readAny? ht
    unfold read?
    cases hfind : endings.findSome? fun e => Token.readAny? e.1 t with
    | none =>
      have hnone := List.findSome?_eq_none_iff.1 hfind e he
      rw [hread] at hnone
      exact nomatch hnone
    | some q =>
      -- a stem that comes before is that of another placeholder, which the text does not start with
      obtain ⟨e', he', hany⟩ := List.exists_of_findSome?_eq_some hfind
      obtain ⟨hstem', hne, hname, hend, hupper, ht'⟩ := Token.readAny?_eq_some_iff.1 hany
      have hq : q.IsPlaceholder := ⟨hstem' ▸ List.mem_map_of_mem he', hne, hname, hend, hupper⟩
      rw [hp.eq_of_isPrefix hq ht ht']
      rfl

namespace InstparmQuote

variable {quote t : Text} {q : Quoted} {n : Nat}

theorem readBetween?_eq_some_iff :
    readBetween? quote t = some q ↔ q.quote = quote ∧ q.token.IsParameter ∧ q.text <+: t := by
  have hread : ∀ {rest token}, Token.read? "INSTPARM" "MRAPTSNI" isNameUnit rest = some token ↔
      token.IsParameter ∧ token.text <+: rest := by
    intro rest token
    rw [Token.read?_eq_some_iff (by decide) (by decide) (by decide)]
    exact ⟨fun ⟨hstem, hend, hne, hname, ht⟩ => ⟨⟨hstem, hend, hne, hname⟩, ht⟩,
      fun ⟨h, ht⟩ => ⟨h.stem, h.ending, h.name_ne_nil, h.name, ht⟩⟩
  constructor
  · intro h
    unfold readBetween? at h
    split at h
    · simp at h
    · next rest hrest =>
      obtain rfl := Text.afterStart?_eq_some_iff.1 hrest
      split at h
      · simp at h
      · next token htoken =>
        split at h
        · next hclose =>
          obtain rfl := Option.some.inj h
          obtain ⟨hparameter, rest, rfl⟩ := hread.1 htoken
          rw [List.drop_left] at hclose
          obtain ⟨rest, rfl⟩ := Text.isPrefixOf_iff.1 hclose
          exact ⟨rfl, hparameter, rest, by simp only [Quoted.text, List.append_assoc]⟩
        · simp at h
  · rintro ⟨rfl, hparameter, rest, rfl⟩
    have hafter : Text.afterStart? q.quote (q.text ++ rest) =
        some (q.token.text ++ (q.quote ++ rest)) := by
      rw [Text.afterStart?_eq_some_iff]
      simp only [Quoted.text, List.append_assoc]
    unfold readBetween?
    simp only [hafter, hread.2 ⟨hparameter, List.prefix_append q.token.text _⟩, List.drop_left]
    rw [if_pos (Text.isPrefixOf_iff.2 (List.prefix_append _ rest))]

/-- The recogniser of quoted placeholders finds those that a text starts with. -/
theorem read?_eq_some_iff :
    read? t = some (q, n) ↔ (q.quote = "\\\"" ∨ q.quote = "'") ∧ q.token.IsParameter ∧
      q.text <+: t ∧ n = q.text.length := by
  constructor
  · intro h
    obtain ⟨q', hq, heq⟩ := Option.map_eq_some_iff.1 h
    obtain ⟨rfl, rfl⟩ := Prod.mk.inj heq
    rcases Option.or_eq_some_iff.1 hq with hq | ⟨-, hq⟩
    · obtain ⟨hquote, hparameter, ht⟩ := readBetween?_eq_some_iff.1 hq
      exact ⟨.inl hquote, hparameter, ht, rfl⟩
    · obtain ⟨hquote, hparameter, ht⟩ := readBetween?_eq_some_iff.1 hq
      exact ⟨.inr hquote, hparameter, ht, rfl⟩
  · rintro ⟨hquote, hparameter, ht, rfl⟩
    have hread := readBetween?_eq_some_iff.2 ⟨rfl, hparameter, ht⟩
    unfold read?
    rcases hquote with hquote | hquote
    · rw [hquote] at hread
      rw [hread, Option.some_or, Option.map_some]
    · -- what starts with a single quote does not start with a double one
      have hnone : readBetween? "\\\"" t = none := by
        by_contra hsome
        obtain ⟨q', hq'⟩ := Option.ne_none_iff_exists'.1 hsome
        obtain ⟨hquote', -, rest', hrest'⟩ := readBetween?_eq_some_iff.1 hq'
        obtain ⟨rest, hrest⟩ := ht
        rw [← hrest, Quoted.text, Quoted.text, hquote, hquote'] at hrest'
        simp only [List.append_assoc] at hrest'
        exact absurd (List.cons.inj hrest').1 (by decide)
      rw [hquote] at hread
      rw [hnone, hread, Option.none_or, Option.map_some]

end InstparmQuote

end Check
end WorkflowLint
