import WorkflowLint.Proofs.Check.Repairs
import WorkflowLint.Proofs.Json.Retouching

/-!
# Placeholder fixes keep documents

The fixes of placeholders replace texts in a file without reading it.  Still they never break a
document, nor change more of it than its strings and names (`alike_applyAll_placeholderFixes`): what
they look for stands inside strings only, where it spells the same placeholder, and what they put there
neither opens nor closes anything.
-/

namespace WorkflowLint

open Check Placeholder

/-! ## What the fixes do to strings -/

/-- A quoted placeholder as it stands in a string, where its quotes are not escaped. -/
def Check.InstparmQuote.Quoted.spoken (q : InstparmQuote.Quoted) : Text :=
  q.quote.filter (· != .char '\\') ++ q.token.text ++ q.quote.filter (· != .char '\\')

/-- A fix of a placeholder changes a string in one place: it removes a pair of quotes, or corrects an
ending. -/
inductive Fix.Retouches : Fix → Text → Text → Prop
  | unquote (q : InstparmQuote.Quoted) (before after : Text) :
      Fix.Retouches (InstparmQuote.fix q) (before ++ q.spoken ++ after)
        (before ++ q.token.text ++ after)
  | respell (p : Token) (before after : Text) :
      Fix.Retouches (PlaceholderSyntax.fix p) (before ++ p.text ++ after)
        (before ++ (PlaceholderSyntax.corrected p).text ++ after)

/-- Some fixes change a string, one place after the other. -/
def Fix.RetouchAll (fixes : List Fix) : Text → Text → Prop :=
  Relation.ReflTransGen fun s s' => ∃ fix ∈ fixes, fix.Retouches s s'

/-! ## Placeholders in strings -/

namespace Placeholder.Token

variable {p : Token} {c : CodePoint}

theorem isPlain_of_isNameUnit (h : isNameUnit c = true) : Json.IsPlain c := by
  refine ⟨?_, ?_, ?_⟩
  · rintro rfl
    exact absurd h (by decide)
  · rintro rfl
    exact absurd h (by decide)
  · intro hc
    simp only [isNameUnit, Bool.or_eq_true, beq_iff_eq] at h
    obtain (hupper | hdigit) | rfl := h
    · cases c with
      | char c =>
        have hge : 65 ≤ c.toNat := by
          have hletter : 'A'.val ≤ c.val ∧ c.val ≤ 'Z'.val := of_decide_eq_true hupper
          exact UInt32.le_iff_toNat_le.1 hletter.1
        rw [CodePoint.val_char] at hc
        omega
      | surrogate k => simp [CodePoint.isUpper] at hupper
    · cases c with
      | char c =>
        have hge : 48 ≤ c.toNat := by
          simp only [CodePoint.isDigit, Char.isDigit, Bool.and_eq_true, decide_eq_true_eq] at hdigit
          exact UInt32.le_iff_toNat_le.1 hdigit.1
        rw [CodePoint.val_char] at hc
        omega
      | surrogate k => simp [CodePoint.isDigit] at hdigit
    · exact absurd hc (by decide)

/-- A placeholder spells itself. -/
theorem Plain.spells (h : p.Plain) : Json.Spells p.text p.text := by
  refine Json.spells_self fun c hc => ?_
  have hmarks : ∀ c ∈ opening ++ closing ++ "_", Json.IsPlain c := by decide
  simp only [text, List.mem_append] at hc
  obtain (((((hc | hc) | hc) | hc) | hc) | hc) | hc := hc
  · exact hmarks c (by simp [hc])
  · exact isPlain_of_isNameUnit (h.1 c hc)
  · exact hmarks c (by simp [hc])
  · exact isPlain_of_isNameUnit (h.2.1 c hc)
  · exact hmarks c (by simp [hc])
  · exact isPlain_of_isNameUnit (h.2.2 c hc)
  · exact hmarks c (by simp [hc])

end Placeholder.Token

namespace Check.InstparmQuote

variable {q : Quoted} {t : Text} {n : Nat}

theorem quote_of_read? (h : read? t = some (q, n)) :
    (q.quote = "\\\"" ∨ q.quote = "'") ∧ q.token.Plain := by
  obtain ⟨q', hq, heq⟩ := Option.map_eq_some_iff.1 h
  obtain rfl : q' = q := (Prod.mk.inj heq).1
  rcases Option.or_eq_some_iff.1 hq with hq | ⟨-, hq⟩
  · exact ⟨.inl (of_readBetween? hq).1, (of_readBetween? hq).2⟩
  · exact ⟨.inr (of_readBetween? hq).1, (of_readBetween? hq).2⟩

/-- A quote of a document spells the quote that is seen by who reads the string. -/
theorem spells_quote {quote : Text} (h : quote = "\\\"" ∨ quote = "'") :
    Json.Spells quote (quote.filter (· != .char '\\')) := by
  obtain rfl | rfl := h
  · exact Json.spells_quote
  · exact Json.spells_self (by decide)

end Check.InstparmQuote

namespace Fix

variable {fix : Fix} {fixes : List Fix} {t path : Text} {f : Finding}

/-- A fix that replaces in strings what it finds in a text. -/
def IsRetouch (fix : Fix) : Prop :=
  ∃ r : Json.Retouch, (∀ t, fix.run t = .text (r.run t)) ∧ ∀ s s', r.Step s s' → fix.Retouches s s'

theorem isRetouch_unquote {q : InstparmQuote.Quoted} {n : Nat}
    (h : InstparmQuote.read? t = some (q, n)) : (InstparmQuote.fix q).IsRetouch := by
  obtain ⟨hquote, hplain⟩ := InstparmQuote.quote_of_read? h
  have hopens : (∃ t, q.text = Text.brace :: Text.brace :: t) ∨
      (∃ t, q.text = .char '\\' :: .char '"' :: Text.brace :: t) ∨ ∃ t, q.text = .char '\'' :: t := by
    unfold InstparmQuote.Quoted.text
    rw [Token.text_eq]
    obtain hquote | hquote := hquote
    · exact .inr (.inl ⟨_, by rw [hquote]; rfl⟩)
    · exact .inr (.inr ⟨_, by rw [hquote]; rfl⟩)
  have hspells : Json.Spells q.text q.spoken := by
    refine (Json.Spells.append ?_ hplain.spells).append ?_
    · exact InstparmQuote.spells_quote hquote
    · exact InstparmQuote.spells_quote hquote
  refine ⟨⟨q.text, q.token.text, q.spoken, q.token.text, hopens, ⟨_, q.token.text_eq⟩, hspells,
    hplain.spells⟩, fun t => ?_, ?_⟩
  · have hlt := InstparmQuote.length_lt_length (InstparmQuote.of_read? h).1
    have hne : q.text ≠ [] := List.ne_nil_of_length_pos (Nat.zero_lt_of_lt hlt)
    exact congrArg Outcome.text (Text.replaceAll_eq hne t)
  · rintro _ _ ⟨before, after, rfl, rfl⟩
    exact .unquote q before after

theorem isRetouch_respell {p : Token} {n : Nat} (h : PlaceholderSyntax.read? t = some (p, n)) :
    (PlaceholderSyntax.fix p).IsRetouch := by
  obtain ⟨hplain, hplain'⟩ := PlaceholderSyntax.plain_of_read? h
  refine ⟨⟨p.text, (PlaceholderSyntax.corrected p).text, p.text,
    (PlaceholderSyntax.corrected p).text, .inl ⟨_, p.text_eq⟩, ⟨_, Token.text_eq _⟩,
    hplain.spells, hplain'.spells⟩, fun t => ?_, ?_⟩
  · have hne : p.text ≠ [] := by
      rw [Token.text_eq]
      exact List.cons_ne_nil _ _
    exact congrArg Outcome.text (Text.replaceAll_eq hne t)
  · rintro _ _ ⟨before, after, rfl, rfl⟩
    exact .respell p before after

theorem isRetouch_of_mem (hf : f ∈ InstparmQuote.run t path ++ PlaceholderSyntax.run t path)
    (hfix : f.fix = some fix) : fix.IsRetouch := by
  rcases List.mem_append.1 hf with hf | hf
  · obtain ⟨found, hfound, rfl⟩ := List.mem_map.1 hf
    obtain ⟨s, n, -, hread⟩ := Text.exists_suffix_of_mem_occurrences hfound
    obtain rfl := Option.some.inj hfix
    exact isRetouch_unquote hread
  · obtain ⟨found, hfound, rfl⟩ := List.mem_map.1 hf
    obtain ⟨s, n, -, hread⟩ := Text.exists_suffix_of_mem_occurrences (List.mem_filter.1 hfound).1
    obtain rfl := Option.some.inj hfix
    exact isRetouch_respell hread

/-- One fix leaves a document that is the same but for strings that it changes. -/
theorem IsRetouch.written_apply (h : fix.IsRetouch) {w : Json} (hw : Json.Written t w) :
    ∃ w', Json.Written (fix.apply t) w' ∧ Json.Alike (RetouchAll [fix]) w w' := by
  obtain ⟨r, hrun, hsteps⟩ := h
  obtain ⟨w', hw', halike⟩ := Json.Retouch.written_run (r := r) hw
  refine ⟨w', ?_, halike.mono (Relation.ReflTransGen.mono fun s s' hstep => ?_)⟩
  · rwa [apply, hrun]
  · exact ⟨fix, List.mem_singleton_self fix, hsteps s s' hstep⟩

theorem RetouchAll.mono {fixes' : List Fix} (hsub : fixes ⊆ fixes') {s s' : Text}
    (h : RetouchAll fixes s s') : RetouchAll fixes' s s' := by
  refine Relation.ReflTransGen.mono ?_ _ _ h
  rintro s s' ⟨fix, hfix, hs⟩
  exact ⟨fix, hsub hfix, hs⟩

theorem written_applyAll (h : ∀ fix ∈ fixes, fix.IsRetouch) {w : Json} (hw : Json.Written t w) :
    ∃ w', Json.Written (applyAll fixes t) w' ∧ Json.Alike (RetouchAll fixes) w w' := by
  -- by the fixes: each leaves a document of the same shape to those that follow
  induction fixes generalizing t w with
  | nil => exact ⟨w, hw, Json.alike_refl (fun _ => .refl) w⟩
  | cons fix fixes ih =>
    obtain ⟨hfix, hfixes⟩ := List.forall_mem_cons.1 h
    obtain ⟨w₁, hw₁, halike₁⟩ := hfix.written_apply hw
    obtain ⟨w₂, hw₂, halike₂⟩ := ih hfixes hw₁
    have hfirst : Json.Alike (RetouchAll (fix :: fixes)) w w₁ :=
      halike₁.mono fun _ _ => RetouchAll.mono (by simp)
    have hothers : Json.Alike (RetouchAll (fix :: fixes)) w₁ w₂ :=
      halike₂.mono fun _ _ => RetouchAll.mono (List.subset_cons_self fix fixes)
    exact ⟨w₂, hw₂, hfirst.trans (fun _ _ _ h h' => Relation.ReflTransGen.trans h h') hothers⟩

end Fix

/-- Whichever fixes of the findings on placeholders are run on a document, in whichever order, each gives
a text, and the last one is a document again.  As they are written the two documents are of the same
shape: strings and names differ by quotes that were removed and endings that were corrected, and nothing
else differs. -/
theorem alike_applyAll_placeholderFixes (t path : Text) (v : Json) (h : Json.read t = .ok v)
    (fixes : List Fix) (hfixes : ∀ fix ∈ fixes, ∃ f ∈ InstparmQuote.run t path ++
      PlaceholderSyntax.run t path, f.fix = some fix) :
    (∀ fix ∈ fixes, ∀ x, fix.run x = .text (fix.apply x)) ∧
      (∃ v', Json.read (Fix.applyAll fixes t) = .ok v') ∧
      ∃ w w', Json.readWritten t = .ok w ∧ Json.readWritten (Fix.applyAll fixes t) = .ok w' ∧
        Json.Alike (Fix.RetouchAll fixes) w w' := by
  have hretouch : ∀ fix ∈ fixes, fix.IsRetouch := by
    intro fix hfix
    obtain ⟨f, hf, hsome⟩ := hfixes fix hfix
    exact Fix.isRetouch_of_mem hf hsome
  obtain ⟨w, hw, -⟩ := Json.read_eq_ok_iff.1 h
  obtain ⟨w', hw', halike⟩ :=
    Fix.written_applyAll hretouch (Json.readWritten_eq_ok_iff.1 hw)
  have hwritten := Json.readWritten_eq_ok_iff.2 hw'
  refine ⟨fun fix hfix x => ?_, ⟨_, Json.read_eq_ok_iff.2 ⟨w', hwritten, rfl⟩⟩, w, w', hw, hwritten,
    halike⟩
  obtain ⟨r, hrun, -⟩ := hretouch fix hfix
  rw [Fix.apply, hrun]
  rfl

/-- A document with a placeholder between quotes, and one with a wrong ending in a name. -/
def misspeltDocument : Text :=
  "\x7b\"a\": \"\\\"\x7b\x7bINSTPARM_A_MRAPTSNI\x7d\x7d\\\"\", \"\x7b\x7bSUBWKFL_B_WRONG\x7d\x7d\": []\x7d"

/-- The placeholder between quotes, as the document has it. -/
def escapedParameter : InstparmQuote.Quoted := ⟨"\\\"", ⟨"INSTPARM", "A", "MRAPTSNI"⟩⟩

/-- The placeholder with a wrong ending. -/
def misspeltReference : Token := ⟨"SUBWKFL", "B", "WRONG"⟩

theorem exists_finding_misspeltDocument {fix : Fix} (h : fix = InstparmQuote.fix escapedParameter ∨
    fix = PlaceholderSyntax.fix misspeltReference) :
    ∃ f ∈ InstparmQuote.run misspeltDocument [] ++ PlaceholderSyntax.run misspeltDocument [],
      f.fix = some fix := by
  have hquoted : InstparmQuote.scan misspeltDocument = [(7, escapedParameter)] := by rfl
  have hmisspelt : PlaceholderSyntax.scan misspeltDocument = [(38, misspeltReference)] := by
    decide +kernel
  rw [InstparmQuote.run, PlaceholderSyntax.run, hquoted, hmisspelt]
  obtain rfl | rfl := h
  · exact ⟨_, List.mem_cons_self, rfl⟩
  · exact ⟨_, List.mem_cons_of_mem _ List.mem_cons_self, rfl⟩

/-- Both fixes change the document and leave it in shape, in either order. -/
theorem alike_applyAll_misspeltDocument :
    ∃ v, Json.read misspeltDocument = .ok v ∧
      ∀ fixes, fixes = [InstparmQuote.fix escapedParameter, PlaceholderSyntax.fix misspeltReference] ∨
        fixes = [PlaceholderSyntax.fix misspeltReference, InstparmQuote.fix escapedParameter] →
        Fix.applyAll fixes misspeltDocument ≠ misspeltDocument ∧
          ∃ w w', Json.readWritten misspeltDocument = .ok w ∧
            Json.readWritten (Fix.applyAll fixes misspeltDocument) = .ok w' ∧
            Json.Alike (Fix.RetouchAll fixes) w w' := by
  have hread : (Json.read misspeltDocument).toOption.any (fun _ => true) = true := by decide +kernel
  obtain ⟨v, hv, -⟩ := exists_ok_of_any hread
  refine ⟨v, hv, fun fixes hfixes => ⟨?_, ?_⟩⟩
  · obtain rfl | rfl := hfixes
    · decide +kernel
    · decide +kernel
  · refine (alike_applyAll_placeholderFixes misspeltDocument [] v hv fixes fun fix hfix => ?_).2.2
    refine exists_finding_misspeltDocument ?_
    obtain rfl | rfl := hfixes
    · simpa using hfix
    · simpa [or_comm] using hfix

end WorkflowLint
