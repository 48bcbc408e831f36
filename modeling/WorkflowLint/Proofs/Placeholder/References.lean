import WorkflowLint.Proofs.Placeholder.Reading
import WorkflowLint.Proofs.Text.Scanning

/-!
# References to sub-workflows

The scanner of references looks for placeholders of one stem with its own ending, whose names may have
small letters and hyphens.  They too are the words of a lexicon (`subworkflowReferences`), so that the
scanner has a reference at an offset exactly if one stands there (`mem_references_iff`).
-/

namespace WorkflowLint.Placeholder

variable {id : Text} {t : Text} {i : Nat} {p : Token} {c : CodePoint}

/-- Something a reference can name. -/
def IsId (id : Text) : Prop := id ≠ [] ∧ ∀ c ∈ id, isIdUnit c = true

instance (id : Text) : Decidable (IsId id) :=
  inferInstanceAs (Decidable (id ≠ [] ∧ ∀ c ∈ id, isIdUnit c = true))

/-- The placeholder that refers to a sub-workflow. -/
def reference (id : Text) : Token := ⟨"SUBWKFL", id, "LFKWBUS"⟩

@[simp] theorem name_reference (id : Text) : (reference id).name = id := rfl

theorem IsId.not_mem_core (h : IsId id) (hc : isIdUnit c = false) (hclosing : c ∉ closing) :
    c ∉ (reference id).core := by
  have hstem : ∀ c ∈ ("SUBWKFL" : Text), isIdUnit c = true := by decide
  have hending : ∀ c ∈ ("LFKWBUS" : Text), isIdUnit c = true := by decide
  intro hmem
  rcases List.mem_append.1 hmem with hmem | hmem
  · exact Token.not_mem_of_units (by decide) hstem h.2 hending hc hmem
  · exact hclosing hmem

theorem IsId.newline_not_mem_text (h : IsId id) : .char '\n' ∉ (reference id).text :=
  Token.not_mem_text (by decide) (h.not_mem_core (by decide) (by decide))

/-- The recogniser of references finds those that a text starts with. -/
theorem read?_reference_iff : Token.read? "SUBWKFL" "LFKWBUS" isIdUnit t = some p ↔
    ∃ id, IsId id ∧ reference id = p ∧ p.text <+: t := by
  rw [Token.read?_eq_some_iff (by decide) (by decide) (by decide)]
  constructor
  · rintro ⟨hstem, hending, hne, hunits, ht⟩
    obtain ⟨stem, id, ending⟩ := p
    obtain rfl : stem = ("SUBWKFL" : Text) := hstem
    obtain rfl : ending = ("LFKWBUS" : Text) := hending
    exact ⟨id, ⟨hne, hunits⟩, rfl, ht⟩
  · rintro ⟨id, hid, rfl, ht⟩
    exact ⟨rfl, rfl, hid.1, hid.2, ht⟩

/-- References are told apart wherever they stand. -/
def subworkflowReferences : Text.Lexicon {id : Text // IsId id} where
  spell id := (reference id.1).text
  spell_ne_nil id := (reference id.1).text_ne_nil
  eq_of_isPrefix {id id' t} h := by
    have hread := read?_reference_iff.2 ⟨id.1, id.2, rfl, h⟩
    rw [read?_reference_iff.2 ⟨id'.1, id'.2, rfl, List.prefix_append _ t⟩] at hread
    exact Subtype.ext (congrArg Token.name (Option.some.inj hread)).symm
  not_isPrefix {id id' u t} hu hne := by
    rw [Token.text_eq (reference id.1)]
    exact Token.not_isPrefix (id'.2.not_mem_core (by decide) (by decide)) hu hne

theorem spell_subworkflowReferences (id : {id : Text // IsId id}) :
    subworkflowReferences.spell id = (reference id.1).text := rfl

theorem finds_references :
    Text.Finds (fun t => (Token.read? "SUBWKFL" "LFKWBUS" isIdUnit t).map Token.sized)
      subworkflowReferences fun id => reference id.1 := by
  intro t p n
  rw [Option.map_eq_some_iff]
  constructor
  · rintro ⟨p, hread, heq⟩
    obtain ⟨rfl, rfl⟩ := Prod.mk.inj heq
    obtain ⟨id, hid, rfl, ht⟩ := read?_reference_iff.1 hread
    exact ⟨⟨id, hid⟩, rfl, ht, rfl⟩
  · rintro ⟨id, rfl, ht, rfl⟩
    exact ⟨reference id.1, read?_reference_iff.2 ⟨id.1, id.2, rfl, ht⟩, rfl⟩

/-- A reference is found at an offset exactly if it stands there. -/
theorem mem_references_iff :
    (i, p) ∈ references t ↔ ∃ id, IsId id ∧ reference id = p ∧ Text.StandsAt p.text t i := by
  rw [references, finds_references.mem_occurrences_iff]
  constructor
  · rintro ⟨id, rfl, ht⟩
    exact ⟨id.1, id.2, rfl, ht⟩
  · rintro ⟨id, hid, rfl, ht⟩
    exact ⟨⟨id, hid⟩, rfl, ht⟩

/-- The references among the pieces of a text are found in their order. -/
theorem map_snd_references {ps : List (Text.Piece {id : Text // IsId id})}
    (hps : subworkflowReferences.IsCut ps) : (references (subworkflowReferences.text ps)).map (·.2) =
      (Text.Lexicon.words ps).map fun id => reference id.1 :=
  finds_references.map_snd_occurrences hps

end WorkflowLint.Placeholder
