import WorkflowLint.Check.Placeholder
import WorkflowLint.Proofs.Check.Edits
import WorkflowLint.Proofs.Json.Printed

/-!
# Fixes that keep line ends

A fix keeps line ends if it makes no carriage return where there was none, so that its text is read
from a file as it was written.  The fixes of placeholders do, since the names of placeholders consist
of capital letters, digits and underscores (`parts_of_read?`), and so does every gentle edit.
-/

namespace WorkflowLint

open Text

/-- A fix makes no carriage return. -/
def Fix.KeepsLineEnds (fix : Fix) : Prop := ∀ t, NoReturn t → NoReturn (fix.apply t)

theorem Fix.noReturn_applyAll {fixes : List Fix} (h : ∀ fix ∈ fixes, fix.KeepsLineEnds) {t : Text}
    (ht : NoReturn t) : NoReturn (applyAll fixes t) := by
  induction fixes generalizing t with
  | nil => exact ht
  | cons fix fixes ih =>
    obtain ⟨hfix, hfixes⟩ := List.forall_mem_cons.1 h
    exact ih hfixes (hfix t ht)

theorem Fix.keepsLineEnds_replacing (description old : Text) {new : Text} (hnew : NoReturn new) :
    (replacing description old new).KeepsLineEnds := fun _ ht => ht.replaceAll hnew

theorem Fix.keepsLineEnds_ofEdit (description : Text) {edit : Json.Members → Json.Members}
    (hedit : Gentle edit) : (ofEdit description edit).KeepsLineEnds := by
  intro t ht
  rw [apply_ofEdit]
  split
  · next document hread =>
    have hfits := Json.fits_of_read (Json.readObject_eq_ok_iff.1 hread)
    split
    · exact ht
    · exact Json.noReturn_print (hedit.fits document hfits)
  · exact ht

theorem Fix.keepsLineEnds_of_makes {fixes : List Fix} {edits : List (Json.Members → Json.Members)}
    (hmakes : List.Forall₂ Makes fixes edits) (hedits : ∀ edit ∈ edits, Gentle edit) :
    ∀ fix ∈ fixes, fix.KeepsLineEnds := by
  induction hmakes with
  | nil =>
    intro _ h
    exact absurd h List.not_mem_nil
  | cons hfix _ ih =>
    obtain ⟨description, rfl⟩ := hfix
    obtain ⟨hedit, hedits⟩ := List.forall_mem_cons.1 hedits
    exact List.forall_mem_cons.2 ⟨keepsLineEnds_ofEdit description hedit, ih hedits⟩

/-! ## Placeholders -/

namespace Placeholder.Token

variable {stem ending t body : Text} {p : Token} {unit : CodePoint → Bool}

theorem noReturn_text (hstem : NoReturn p.stem) (hname : NoReturn p.name)
    (hending : NoReturn p.ending) : NoReturn p.text := by
  have hopening : NoReturn opening := by decide
  have hbar : NoReturn ("_") := by decide
  have hclosing : NoReturn closing := by decide
  simp only [text, noReturn_append]
  exact ⟨⟨⟨⟨⟨⟨hopening, hstem⟩, hbar⟩, hname⟩, hbar⟩, hending⟩, hclosing⟩

theorem unit_of_mem_body? (h : body? stem unit t = some body) : ∀ c ∈ body, unit c = true := by
  unfold body? at h
  split at h
  · simp at h
  · next rest hrest =>
    simp only at h
    split at h
    · obtain rfl := Option.some.inj h
      exact List.all_eq_true.1 List.all_takeWhile
    · simp at h

/-- A placeholder that was read has its stem and its ending, and a name of the code points of
names. -/
theorem parts_of_read? (h : read? stem ending unit t = some p) :
    p.stem = stem ∧ (∀ c ∈ p.name, unit c = true) ∧ p.ending = ending := by
  unfold read? at h
  split at h
  · simp at h
  · next body hbody =>
    simp only at h
    split at h
    · obtain rfl := Option.some.inj h
      exact ⟨rfl, fun c hc => unit_of_mem_body? hbody c (List.mem_of_mem_take hc), rfl⟩
    · simp at h

/-- The same of a placeholder with whatever ending. -/
theorem parts_of_readAny? (h : readAny? stem t = some p) :
    p.stem = stem ∧ (∀ c ∈ p.name, isNameUnit c = true) ∧ ∀ c ∈ p.ending, isNameUnit c = true := by
  unfold readAny? at h
  split at h
  · simp at h
  · next body hbody =>
    have hunit := unit_of_mem_body? hbody
    simp only at h
    split at h
    · obtain rfl := Option.some.inj h
      refine ⟨rfl, fun c hc => hunit c (List.mem_of_mem_take hc), fun c hc => ?_⟩
      exact hunit c (List.mem_reverse.1 ((List.takeWhile_sublist _).subset (List.mem_reverse.1 hc)))
    · simp at h

theorem noReturn_of_units (hunit : unit (.char '\r') = false) (h : ∀ c ∈ t, unit c = true) :
    NoReturn t := by
  intro hr
  rw [h _ hr] at hunit
  exact Bool.noConfusion hunit

end Placeholder.Token

namespace Check

open Placeholder

theorem InstparmQuote.noReturn_of_readBetween? {quote t : Text} {q : Quoted}
    (h : readBetween? quote t = some q) : NoReturn q.token.text := by
  unfold readBetween? at h
  split at h
  · simp at h
  split at h
  · simp at h
  next token htoken =>
  split at h
  · obtain rfl := Option.some.inj h
    obtain ⟨hstem, hname, hending⟩ := Token.parts_of_read? htoken
    exact Token.noReturn_text (by rw [hstem]; decide) (Token.noReturn_of_units (by decide) hname)
      (by rw [hending]; decide)
  · simp at h

theorem InstparmQuote.keepsLineEnds_fix {t : Text} {found : Nat × Quoted} (h : found ∈ scan t) :
    (fix found.2).KeepsLineEnds := by
  obtain ⟨s, n, -, hread⟩ := exists_suffix_of_mem_occurrences h
  refine Fix.keepsLineEnds_replacing _ _ ?_
  obtain ⟨q, hq, heq⟩ := Option.map_eq_some_iff.1 hread
  obtain rfl : q = found.2 := (Prod.mk.inj heq).1
  rcases Option.or_eq_some_iff.1 hq with hq | ⟨-, hq⟩
  · exact noReturn_of_readBetween? hq
  · exact noReturn_of_readBetween? hq

theorem PlaceholderSyntax.keepsLineEnds_fix {t : Text} {found : Nat × Token} (h : found ∈ scan t) :
    (fix found.2).KeepsLineEnds := by
  obtain ⟨s, n, -, hread⟩ := exists_suffix_of_mem_occurrences (List.mem_filter.1 h).1
  refine Fix.keepsLineEnds_replacing _ _ ?_
  obtain ⟨p, hp, heq⟩ := Option.map_eq_some_iff.1 hread
  obtain rfl : p = found.2 := (Prod.mk.inj heq).1
  obtain ⟨e, he, hany⟩ := List.exists_of_findSome?_eq_some hp
  obtain ⟨hstem, hname, hending⟩ := Token.parts_of_readAny? hany
  have hendings : ∀ e ∈ endings, NoReturn e.1 ∧ NoReturn e.2 := by decide
  refine Token.noReturn_text (p := corrected found.2) ?_
    (Token.noReturn_of_units (by decide) hname) ?_
  · show NoReturn found.2.stem
    rw [hstem]
    exact (hendings e he).1
  · show NoReturn (expected found.2)
    unfold expected
    cases hget : Keyed.get? found.2.stem endings with
    | none => exact Token.noReturn_of_units (by decide) hending
    | some ending => exact (hendings _ (Keyed.mem_of_get? hget)).2

end Check
end WorkflowLint
