import Mathlib.Data.Prod.Lex
import WorkflowLint.Project.Caller
import WorkflowLint.Proofs.Keyed
import WorkflowLint.Proofs.Placeholder.References

/-!
# Who calls which sub-workflow

The callers of sub-workflows are collected call by call, and a call that has been there before makes no
difference.  So they are told by the calls alone (`collect_eq`), and these by where references stand in
the documents (`mem_placedCalls_iff`).

The main result (`callers_are_calls`) says which sub-workflows have callers, which callers they have, and
in which order both come.
-/

namespace WorkflowLint.Caller

open Text Placeholder

variable {documents : List (Text × Text)} {found : List (Text × Text)} {id caller : Text}

/-- A text has a reference to a sub-workflow. -/
def Refers (t id : Text) : Prop := IsId id ∧ (reference id).text <:+: t

instance (t id : Text) : Decidable (Refers t id) :=
  inferInstanceAs (Decidable (IsId id ∧ (reference id).text <:+: t))

/-- The places at which some documents refer to a sub-workflow: the number of the document, and the offset
in its text. -/
def places (documents : List (Text × Text)) (id : Text) : Set (ℕ ×ₗ ℕ) :=
  {place | IsId id ∧ ∃ d, documents[(ofLex place).1]? = some d ∧
    StandsAt (reference id).text d.2 (ofLex place).2}

/-- The numbers of the documents of a caller that refer to a sub-workflow. -/
def calling (documents : List (Text × Text)) (id caller : Text) : Set ℕ :=
  {number | ∃ d, documents[number]? = some d ∧ d.1 = caller ∧ Refers d.2 id}

/-! ## Collecting calls -/

/-- The callers, with one more call. -/
def addCall (callers : List (Text × List Text)) (call : Text × Text) : List (Text × List Text) :=
  Keyed.update call.1 [] (fun ids => if ids.contains call.2 then ids else ids ++ [call.2]) callers

/-- The callers in some calls. -/
def collect (found : List (Text × Text)) : List (Text × List Text) := found.foldl addCall []

/-- The calls of some documents. -/
def allCalls (documents : List (Text × Text)) : List (Text × Text) :=
  documents.flatMap fun d => calls d.1 d.2

theorem ofDocuments_eq_collect (documents : List (Text × Text)) :
    ofDocuments documents = collect (allCalls documents) := rfl

theorem collect_concat (found : List (Text × Text)) (call : Text × Text) :
    collect (found ++ [call]) = addCall (collect found) call := by
  rw [collect, List.foldl_append]
  rfl

theorem map_fst_collect (found : List (Text × Text)) :
    (collect found).map (·.1) = Keyed.distinct (found.map (·.1)) := by
  induction found using List.reverseRecOn with
  | nil => rfl
  | append_singleton found call ih =>
    rw [collect_concat, addCall, Keyed.map_fst_update, Keyed.map_fst_set, ih, List.map_append,
      List.map_singleton, Keyed.distinct_concat]

theorem getD_get?_collect (found : List (Text × Text)) (id : Text) :
    (Keyed.get? id (collect found)).getD [] =
      Keyed.distinct ((found.filter fun call => call.1 = id).map (·.2)) := by
  induction found using List.reverseRecOn with
  | nil => rfl
  | append_singleton found call ih =>
    rw [collect_concat, addCall, Keyed.get?_update, List.filter_append, List.map_append]
    by_cases h : call.1 = id
    · rw [if_pos h, Option.getD_some, h, ih, List.filter_cons_of_pos (by simpa using h), List.filter_nil,
        List.map_singleton, Keyed.distinct_concat]
      split
      · next hcontains => rw [if_pos (List.contains_iff_mem.1 hcontains)]
      · next hnot => rw [if_neg fun hmem => hnot (List.contains_iff_mem.2 hmem)]
    · rw [if_neg h, ih, List.filter_cons_of_neg (by simpa using h), List.filter_nil, List.map_nil,
        List.append_nil]

/-- What is collected: every sub-workflow that is called, with those who call it. -/
theorem collect_eq (found : List (Text × Text)) :
    collect found = (Keyed.distinct (found.map (·.1))).map fun id =>
      (id, Keyed.distinct ((found.filter fun call => call.1 = id).map (·.2))) := by
  have hnodup : ((collect found).map (·.1)).Nodup := by
    rw [map_fst_collect]
    exact Keyed.nodup_distinct _
  rw [← map_fst_collect]
  exact Keyed.eq_map_getD_get? hnodup (getD_get?_collect found)

/-- A call that has been there before makes no difference. -/
theorem collect_append_cons {before : List (Text × Text)} {call : Text × Text} (h : call ∈ before)
    (after : List (Text × Text)) : collect (before ++ call :: after) = collect (before ++ after) := by
  have hfilter : ∀ id, Keyed.distinct (((before ++ call :: after).filter fun c => c.1 = id).map (·.2)) =
      Keyed.distinct (((before ++ after).filter fun c => c.1 = id).map (·.2)) := by
    intro id
    by_cases hid : call.1 = id
    · have hkept : call ∈ before.filter fun c => c.1 = id :=
        List.mem_filter.2 ⟨h, by simpa using hid⟩
      rw [List.filter_append, List.filter_cons_of_pos (by simpa using hid), List.map_append,
        List.map_cons, Keyed.distinct_append_cons (List.mem_map_of_mem hkept), List.filter_append,
        List.map_append]
    · rw [List.filter_append, List.filter_cons_of_neg (by simpa using hid), List.filter_append]
  rw [collect_eq, collect_eq, List.map_append, List.map_cons,
    Keyed.distinct_append_cons (List.mem_map_of_mem h), ← List.map_append]
  simp only [hfilter]

/-! ## Where calls stand -/

/-- The calls of some documents with their places: the number of the document, and the offset of the
reference. -/
def placedCalls (documents : List (Text × Text)) : List ((ℕ ×ₗ ℕ) × (Text × Text)) :=
  documents.zipIdx.flatMap fun d =>
    (references d.1.2).map fun r => (toLex (d.2, r.1), (r.2.name, d.1.1))

theorem map_snd_placedCalls (documents : List (Text × Text)) :
    (placedCalls documents).map (·.2) = allCalls documents := by
  rw [placedCalls, List.map_flatMap]
  conv_rhs => rw [allCalls, ← List.zipIdx_map_fst 0 documents, List.flatMap_map]
  simp only [List.map_map]
  rfl

theorem mem_placedCalls_iff {place : ℕ ×ₗ ℕ} :
    (place, (id, caller)) ∈ placedCalls documents ↔
      IsId id ∧ ∃ d, documents[(ofLex place).1]? = some d ∧ d.1 = caller ∧
        StandsAt (reference id).text d.2 (ofLex place).2 := by
  simp only [placedCalls, List.mem_flatMap, List.mem_map]
  constructor
  · rintro ⟨⟨d, k⟩, hd, ⟨offset, p⟩, hp, heq⟩
    obtain ⟨rfl, hcall⟩ := Prod.mk.inj heq
    obtain ⟨rfl, rfl⟩ := Prod.mk.inj hcall
    obtain ⟨id, hid, rfl, hstands⟩ := mem_references_iff.1 hp
    exact ⟨hid, d, List.mem_zipIdx_iff_getElem?.1 hd, rfl, hstands⟩
  · rintro ⟨hid, d, hd, rfl, hstands⟩
    exact ⟨(d, (ofLex place).1), List.mem_zipIdx_iff_getElem?.2 hd, ((ofLex place).2, reference id),
      mem_references_iff.2 ⟨id, hid, rfl, hstands⟩, rfl⟩

theorem pairwise_placedCalls (documents : List (Text × Text)) :
    (placedCalls documents).Pairwise fun x y => x.1 < y.1 := by
  have hnumbers : documents.zipIdx.Pairwise fun x y => x.2 < y.2 := by
    rw [← List.pairwise_map, List.zipIdx_map_snd]
    exact List.pairwise_lt_range'
  refine List.pairwise_flatMap.2 ⟨fun d _ => ?_, hnumbers.imp fun hlt x hx y hy => ?_⟩
  · refine List.pairwise_map.2 ((pairwise_occurrences _ d.1.2).imp fun hlt => ?_)
    exact Prod.Lex.toLex_lt_toLex.2 (.inr ⟨rfl, hlt⟩)
  · obtain ⟨r, -, rfl⟩ := List.mem_map.1 hx
    obtain ⟨r', -, rfl⟩ := List.mem_map.1 hy
    exact Prod.Lex.toLex_lt_toLex.2 (.inl hlt)

/-! ## Sub-workflows and callers in their order -/

theorem mem_allCalls_iff :
    (id, caller) ∈ allCalls documents ↔ ∃ d ∈ documents, d.1 = caller ∧ Refers d.2 id := by
  simp only [allCalls, calls, List.mem_flatMap, List.mem_map]
  constructor
  · rintro ⟨d, hd, ⟨offset, p⟩, hp, heq⟩
    obtain ⟨rfl, rfl⟩ := Prod.mk.inj heq
    obtain ⟨id, hid, rfl, hstands⟩ := mem_references_iff.1 hp
    exact ⟨d, hd, rfl, hid, isInfix_iff_exists_standsAt.2 ⟨offset, hstands⟩⟩
  · rintro ⟨d, hd, rfl, hid, hinfix⟩
    obtain ⟨offset, hstands⟩ := isInfix_iff_exists_standsAt.1 hinfix
    exact ⟨d, hd, (offset, reference id), mem_references_iff.2 ⟨id, hid, rfl, hstands⟩, rfl⟩

theorem mem_map_fst_ofDocuments_iff :
    id ∈ (ofDocuments documents).map (·.1) ↔ ∃ d ∈ documents, Refers d.2 id := by
  rw [ofDocuments_eq_collect, map_fst_collect, Keyed.mem_distinct, List.mem_map]
  constructor
  · rintro ⟨⟨id, caller⟩, hcall, rfl⟩
    obtain ⟨d, hd, -, hrefers⟩ := mem_allCalls_iff.1 hcall
    exact ⟨d, hd, hrefers⟩
  · rintro ⟨d, hd, hrefers⟩
    exact ⟨(id, d.1), mem_allCalls_iff.2 ⟨d, hd, rfl, hrefers⟩, rfl⟩

theorem nodup_map_fst_ofDocuments (documents : List (Text × Text)) :
    ((ofDocuments documents).map (·.1)).Nodup := by
  rw [ofDocuments_eq_collect, map_fst_collect]
  exact Keyed.nodup_distinct _

/-- The callers of a sub-workflow are collected from its calls. -/
theorem eq_of_mem_ofDocuments {called : Text × List Text} (h : called ∈ ofDocuments documents) :
    called.2 = Keyed.distinct (((allCalls documents).filter fun call => call.1 = called.1).map (·.2)) := by
  rw [ofDocuments_eq_collect, collect_eq] at h
  obtain ⟨id, -, rfl⟩ := List.mem_map.1 h
  rfl

theorem nodup_callers {called : Text × List Text} (h : called ∈ ofDocuments documents) :
    called.2.Nodup := by
  rw [eq_of_mem_ofDocuments h]
  exact Keyed.nodup_distinct _

theorem mem_callers_iff {called : Text × List Text} (h : called ∈ ofDocuments documents) :
    caller ∈ called.2 ↔ ∃ d ∈ documents, d.1 = caller ∧ Refers d.2 called.1 := by
  rw [eq_of_mem_ofDocuments h, Keyed.mem_distinct, ← mem_allCalls_iff, List.mem_map]
  constructor
  · rintro ⟨⟨id, caller⟩, hcall, rfl⟩
    obtain ⟨hcall, hid⟩ := List.mem_filter.1 hcall
    rwa [← of_decide_eq_true hid]
  · intro hcall
    exact ⟨(called.1, caller), List.mem_filter.2 ⟨hcall, by simp⟩, rfl⟩

/-- The sub-workflows are in the order of the places where they are referred to first. -/
theorem pairwise_map_fst_ofDocuments (documents : List (Text × Text)) :
    ((ofDocuments documents).map (·.1)).Pairwise fun id next => ∃ place place',
      IsLeast (places documents id) place ∧ IsLeast (places documents next) place' ∧ place < place' := by
  have hsorted : ((placedCalls documents).map fun x => (x.1, x.2.1)).Pairwise fun x y => x.1 < y.1 :=
    List.pairwise_map.2 (pairwise_placedCalls documents)
  have hplaces : ∀ id, {place | (place, id) ∈ (placedCalls documents).map fun x => (x.1, x.2.1)} =
      places documents id := by
    refine fun id => Set.ext fun place => ⟨fun h => ?_, ?_⟩
    · obtain ⟨⟨place, id, caller⟩, hcall, heq⟩ := List.mem_map.1 h
      obtain ⟨rfl, rfl⟩ := Prod.mk.inj heq
      obtain ⟨hid, d, hd, -, hstands⟩ := mem_placedCalls_iff.1 hcall
      exact ⟨hid, d, hd, hstands⟩
    · rintro ⟨hid, d, hd, hstands⟩
      exact List.mem_map.2 ⟨(place, id, d.1), mem_placedCalls_iff.2 ⟨hid, d, hd, rfl, hstands⟩, rfl⟩
  have hkeys : ((placedCalls documents).map fun x => (x.1, x.2.1)).map (·.2) =
      (allCalls documents).map (·.1) := by
    rw [← map_snd_placedCalls, List.map_map, List.map_map]
    rfl
  rw [ofDocuments_eq_collect, map_fst_collect, ← hkeys]
  simpa only [hplaces] using Keyed.pairwise_distinct hsorted

/-- The first call of a caller is in its first document with a call. -/
theorem isLeast_calling {place : ℕ ×ₗ ℕ}
    (h : IsLeast {place | (place, (id, caller)) ∈ placedCalls documents} place) :
    IsLeast (calling documents id caller) (ofLex place).1 := by
  obtain ⟨hcall, hleast⟩ := h
  obtain ⟨hid, d, hd, hcaller, hstands⟩ := mem_placedCalls_iff.1 hcall
  refine ⟨⟨d, hd, hcaller, hid, isInfix_iff_exists_standsAt.2 ⟨_, hstands⟩⟩, ?_⟩
  rintro number ⟨d', hd', hcaller', -, hinfix⟩
  obtain ⟨offset, hstands'⟩ := isInfix_iff_exists_standsAt.1 hinfix
  have hle : place ≤ toLex (number, offset) :=
    hleast (mem_placedCalls_iff.2 ⟨hid, d', hd', hcaller', hstands'⟩)
  obtain hlt | ⟨heq, -⟩ := Prod.Lex.le_iff.1 hle
  · exact hlt.le
  · exact heq.le

/-- The callers of a sub-workflow are in the order of their first documents that call it. -/
theorem pairwise_callers {called : Text × List Text} (h : called ∈ ofDocuments documents) :
    called.2.Pairwise fun caller next => ∃ number number',
      IsLeast (calling documents called.1 caller) number ∧
        IsLeast (calling documents called.1 next) number' ∧ number < number' := by
  have hsorted : (((placedCalls documents).filter fun x => x.2.1 = called.1).map
      fun x => (x.1, x.2.2)).Pairwise fun x y => x.1 < y.1 :=
    List.pairwise_map.2 ((pairwise_placedCalls documents).filter _)
  have hplaces : ∀ caller place, (place, caller) ∈ ((placedCalls documents).filter
      fun x => x.2.1 = called.1).map (fun x => (x.1, x.2.2)) ↔
        (place, (called.1, caller)) ∈ placedCalls documents := by
    intro caller place
    simp only [List.mem_map, List.mem_filter, decide_eq_true_eq]
    constructor
    · rintro ⟨⟨place, id, caller⟩, ⟨hcall, rfl⟩, heq⟩
      obtain ⟨rfl, rfl⟩ := Prod.mk.inj heq
      exact hcall
    · exact fun hcall => ⟨_, ⟨hcall, rfl⟩, rfl⟩
  have hcallers : (((placedCalls documents).filter fun x => x.2.1 = called.1).map
      fun x => (x.1, x.2.2)).map (·.2) =
        ((allCalls documents).filter fun call => call.1 = called.1).map (·.2) := by
    rw [← map_snd_placedCalls, List.filter_map, List.map_map, List.map_map]
    rfl
  have hplaced := Keyed.pairwise_distinct hsorted
  rw [hcallers, ← eq_of_mem_ofDocuments h] at hplaced
  refine (hplaced.and (nodup_callers h)).imp ?_
  rintro caller next ⟨⟨place, place', hplace, hplace', hlt⟩, hne⟩
  simp only [hplaces] at hplace hplace'
  refine ⟨_, _, isLeast_calling hplace, isLeast_calling hplace', ?_⟩
  obtain hlt | ⟨heq, -⟩ := Prod.Lex.lt_iff.1 hlt
  · exact hlt
  · -- one document has one id
    obtain ⟨-, d, hd, rfl, -⟩ := mem_placedCalls_iff.1 hplace.1
    obtain ⟨-, d', hd', rfl, -⟩ := mem_placedCalls_iff.1 hplace'.1
    rw [heq, hd'] at hd
    exact absurd (congrArg Prod.fst (Option.some.inj hd)).symm hne

/-! ## Repeating a call -/

/-- A reference that occurs in a text once more, where it splits no other reference, is found behind those
of the text and before what follows. -/
theorem exists_map_snd_references {s t : Text} (hid : IsId id) (hs : (reference id).text <:+: s)
    (hapart : subworkflowReferences.Apart s t) : ∃ before after, reference id ∈ before ∧
      (references (s ++ t)).map (·.2) = before ++ after ∧
      (references (s ++ (reference id).text ++ t)).map (·.2) = before ++ reference id :: after := by
  obtain ⟨ps, hps, rfl⟩ := subworkflowReferences.exists_isCut s
  obtain ⟨qs, hqs, rfl⟩ := subworkflowReferences.exists_isCut t
  have hmem : reference id ∈ (Lexicon.words ps).map fun id => reference id.1 := by
    obtain ⟨offset, hstands⟩ := isInfix_iff_exists_standsAt.1 hs
    rw [← map_snd_references hps]
    exact List.mem_map_of_mem (mem_references_iff.2 ⟨id, hid, rfl, hstands⟩)
  have hboth := map_snd_references (hps.append hqs hapart)
  have hmore := map_snd_references (hps.append_word hqs ⟨id, hid⟩)
  rw [Lexicon.text_append, Lexicon.words_append, List.map_append] at hboth hmore
  rw [Lexicon.text_word, ← List.append_assoc, spell_subworkflowReferences] at hmore
  exact ⟨_, _, hmem, hboth, hmore⟩

/-- Repeating a reference in the text of a document, behind where it occurs, makes no difference. -/
theorem ofDocuments_repeated {before after : List (Text × Text)} {s t : Text} (hid : IsId id)
    (hs : (reference id).text <:+: s) (hapart : subworkflowReferences.Apart s t) :
    ofDocuments (before ++ (caller, s ++ (reference id).text ++ t) :: after) =
      ofDocuments (before ++ (caller, s ++ t) :: after) := by
  obtain ⟨earlier, later, hmem, hboth, hmore⟩ := exists_map_snd_references hid hs hapart
  have hcalls : ∀ t, calls caller t = ((references t).map (·.2)).map fun p => (p.name, caller) :=
    fun t => by
      rw [List.map_map]
      rfl
  have hsplit : ∀ t, allCalls (before ++ (caller, t) :: after) =
      allCalls before ++ (calls caller t ++ allCalls after) := by
    intro t
    rw [allCalls, List.flatMap_append, List.flatMap_cons]
    rfl
  have hcall : (id, caller) ∈ allCalls before ++ earlier.map fun p => (p.name, caller) :=
    List.mem_append_right _ (List.mem_map.2 ⟨reference id, hmem, rfl⟩)
  have hrepeated := collect_append_cons hcall ((later.map fun p => (p.name, caller)) ++ allCalls after)
  rw [ofDocuments_eq_collect, ofDocuments_eq_collect, hsplit, hsplit, hcalls, hcalls, hboth, hmore]
  simpa only [List.map_append, List.map_cons, List.append_assoc, List.cons_append, name_reference]
    using hrepeated

/-- The sub-workflows that have callers are those that documents refer to, in the order of the places where
they are referred to first.  The callers of each differ, and are those whose documents refer to it, in the
order of the first of these documents.  Repeating a reference in the text of a document, behind where it
occurs, makes no difference. -/
theorem callers_are_calls (documents : List (Text × Text)) :
    (∀ id, id ∈ (ofDocuments documents).map (·.1) ↔ ∃ d ∈ documents, Refers d.2 id) ∧
    ((ofDocuments documents).map (·.1)).Pairwise (fun id next => ∃ place place',
      IsLeast (places documents id) place ∧ IsLeast (places documents next) place' ∧ place < place') ∧
    (∀ called ∈ ofDocuments documents, called.2.Nodup ∧
      (∀ caller, caller ∈ called.2 ↔ ∃ d ∈ documents, d.1 = caller ∧ Refers d.2 called.1) ∧
      called.2.Pairwise fun caller next => ∃ number number',
        IsLeast (calling documents called.1 caller) number ∧
          IsLeast (calling documents called.1 next) number' ∧ number < number') ∧
    ∀ before after caller s t id, documents = before ++ (caller, s ++ t) :: after → Refers s id →
      subworkflowReferences.Apart s t →
      ofDocuments (before ++ (caller, s ++ (reference id).text ++ t) :: after) = ofDocuments documents := by
  refine ⟨fun id => mem_map_fst_ofDocuments_iff, pairwise_map_fst_ofDocuments documents,
    fun called hcalled => ⟨nodup_callers hcalled, fun caller => mem_callers_iff hcalled,
      pairwise_callers hcalled⟩, ?_⟩
  rintro before after caller s t id rfl ⟨hid, hs⟩ hapart
  exact ofDocuments_repeated hid hs hapart

/-- A document that refers to another one and to itself, one with the same id, and one that refers to
itself. -/
def callingDocuments : List (Text × Text) :=
  [("a", (reference "b").text ++ ((reference "a").text ++ " ")), ("a", (reference "a").text),
    ("b", "\x7b" ++ (reference "b").text)]

/-- The first document can refer to the other one twice. -/
theorem callers_are_calls_callingDocuments :
    ofDocuments callingDocuments = [(("b" : Text), [("a" : Text), "b"]), ("a", [("a" : Text)])] ∧
      ofDocuments (("a", (reference "b").text ++ (reference "b").text ++ ((reference "a").text ++ " ")) ::
        callingDocuments.tail) = ofDocuments callingDocuments := by
  have hrefers : Refers (reference "b").text "b" := ⟨by decide, List.infix_rfl⟩
  have hapart := Lexicon.apart_spell (L := subworkflowReferences) ⟨"a", by decide⟩ (reference "b").text " "
  refine ⟨by decide +kernel, ?_⟩
  exact (callers_are_calls callingDocuments).2.2.2 [] _ _ _ _ _ rfl hrefers hapart

end WorkflowLint.Caller
