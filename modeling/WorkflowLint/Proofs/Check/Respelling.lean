import Mathlib.Data.List.Perm.Basic
import WorkflowLint.Proofs.Placeholder.Reading

/-!
# Correcting the endings of placeholders

A text is cut into placeholders and the code points between them in exactly one way, and the fix of a
placeholder with a wrong ending writes another placeholder in place of that one wherever it is a piece
of the text.  So the fixes do not meet each other: in whatever order they are run, they give the text in
which every placeholder has the ending that belongs to it, and nothing is left to report
(`respelling_complete_and_minimal`).
-/

namespace WorkflowLint

open Text Placeholder Placeholder.Token

namespace Check.PlaceholderSyntax

variable {t path : Text} {ps : List (Piece {p : Token // p.IsPlaceholder})}

/-! ## Right endings -/

/-- The ending of a placeholder is that of its stem. -/
theorem isPlaceholder_corrected {p : Token} (h : p.IsPlaceholder) : (corrected p).IsPlaceholder := by
  have hexpected : ∀ c ∈ expected p, c.isUpper = true := by
    unfold expected
    cases hget : Keyed.get? p.stem endings with
    | none => exact h.ending
    | some ending => exact (isUpper_of_mem_endings (Keyed.mem_of_get? hget)).2.2
  have hne : expected p ≠ [] := by
    unfold expected
    cases hget : Keyed.get? p.stem endings with
    | none => exact h.ending_ne_nil
    | some ending => exact (isUpper_of_mem_endings (Keyed.mem_of_get? hget)).2.1
  exact ⟨h.stem, h.name_ne_nil, h.name, hne, hexpected⟩

theorem expected_corrected (p : Token) : expected (corrected p) = expected p := by
  show (Keyed.get? p.stem endings).getD (expected p) = expected p
  unfold expected
  cases Keyed.get? p.stem endings with
  | none => rfl
  | some ending => rfl

/-- Whether a placeholder has a wrong ending. -/
def isMisspelt (p : Token) : Bool := p.ending != expected p

/-- A placeholder with the ending that belongs to it. -/
def respelt (p : {p : Token // p.IsPlaceholder}) : {p : Token // p.IsPlaceholder} :=
  ⟨corrected p.1, isPlaceholder_corrected p.2⟩

theorem not_isMisspelt_corrected (p : Token) : isMisspelt (corrected p) = false := by
  rw [isMisspelt, expected_corrected]
  exact bne_self_eq_false (expected p)

theorem respelt_eq_self {p : {p : Token // p.IsPlaceholder}} (h : isMisspelt p.1 = false) :
    respelt p = p := by
  have hending : p.1.ending = expected p.1 := bne_eq_false_iff_eq.1 h
  refine Subtype.ext ?_
  show Token.mk p.1.stem p.1.name (expected p.1) = p.1
  rw [← hending]

theorem respelt_respelt (p : {p : Token // p.IsPlaceholder}) : respelt (respelt p) = respelt p :=
  respelt_eq_self (not_isMisspelt_corrected p.1)

/-! ## Findings -/

theorem finds_read? : Finds read? placeholders Subtype.val := by
  intro t p n
  rw [read?_eq_some_iff]
  constructor
  · rintro ⟨hp, ht, rfl⟩
    exact ⟨⟨p, hp⟩, rfl, ht, rfl⟩
  · rintro ⟨p', rfl, ht, rfl⟩
    exact ⟨p'.2, ht, rfl⟩

/-- The finding on a placeholder with a wrong ending that stands on some line. -/
def reported (path : Text) (line : Nat) (p : Token) : Finding :=
  { finding [] path (0, p) with line := some line }

/-- What is reported on some of the placeholders of a text. -/
theorem map_finding_filter (hps : placeholders.IsCut ps) (path : Text) (keep : Token → Bool) :
    ((scan (placeholders.text ps)).filter fun found => keep found.2).map
        (finding (placeholders.text ps) path) =
      ((placeholders.lines 1 ps).filter fun found => keep found.2.1 && isMisspelt found.2.1).map
        fun found => reported path found.1 found.2.1 := by
  have hlines := finds_read?.map_lineAt_occurrences hps
  have hfilter := congrArg (List.filter fun found => keep found.2 && isMisspelt found.2) hlines
  have hmap := congrArg (List.map fun found => reported path found.1 found.2) hfilter
  rw [List.filter_map, List.filter_map, List.map_map, List.map_map] at hmap
  rw [scan, List.filter_filter]
  exact hmap

/-- What is reported on a text. -/
theorem run_text (hps : placeholders.IsCut ps) (path : Text) :
    run (placeholders.text ps) path =
      ((placeholders.lines 1 ps).filter fun found => isMisspelt found.2.1).map
        fun found => reported path found.1 found.2.1 := by
  have h := map_finding_filter hps path fun _ => true
  simp only [Bool.true_and, List.filter_true] at h
  exact h

/-! ## Fixes -/

theorem count_text (p : {p : Token // p.IsPlaceholder}) :
    (placeholders.spell p).count (.char '\n') = 0 := by
  refine List.count_eq_zero.2 (not_mem_text (by decide) ?_)
  exact p.2.plain.not_mem_core (by decide) (by decide)

theorem lines_map_respelling (f : {p : Token // p.IsPlaceholder} → {p : Token // p.IsPlaceholder})
    (n : Nat) (ps : List (Piece {p : Token // p.IsPlaceholder})) :
    placeholders.lines n (ps.map (Piece.map f)) =
      (placeholders.lines n ps).map fun found => (found.1, f found.2) :=
  Lexicon.lines_map (fun p => by rw [count_text, count_text]) n ps

/-- The fix of a placeholder writes it with another ending wherever it is a piece of the text. -/
theorem apply_fix (hps : placeholders.IsCut ps) (p : {p : Token // p.IsPlaceholder}) :
    (fix p.1).apply (placeholders.text ps) =
      placeholders.text (ps.map (Piece.map fun w => if w = p then respelt p else w)) :=
  Lexicon.replaceAll_spell hps p (respelt p)

/-- The fixes of some placeholders write each of them with another ending. -/
theorem applyAll_fixes (hps : placeholders.IsCut ps) (ws : List {p : Token // p.IsPlaceholder}) :
    Fix.applyAll (ws.map fun p => fix p.1) (placeholders.text ps) =
      placeholders.text (ps.map (Piece.map fun w => if w ∈ ws then respelt w else w)) := by
  -- by the fixes: each leaves a cut, and no placeholder that it has written is changed by those after
  induction ws generalizing ps with
  | nil => exact congrArg placeholders.text (Piece.map_eq_self fun _ _ => if_neg List.not_mem_nil).symm
  | cons p ws ih =>
    have hboth : ∀ w, (if (if w = p then respelt p else w) ∈ ws then
        respelt (if w = p then respelt p else w) else if w = p then respelt p else w) =
          if w ∈ p :: ws then respelt w else w := by
      intro w
      by_cases hw : w = p
      · rw [if_pos hw, respelt_respelt, ite_self, if_pos (hw ▸ List.mem_cons_self), hw]
      · rw [if_neg hw]
        simp only [List.mem_cons, hw, false_or]
    calc Fix.applyAll ((p :: ws).map fun p => fix p.1) (placeholders.text ps)
        = Fix.applyAll (ws.map fun p => fix p.1) ((fix p.1).apply (placeholders.text ps)) := rfl
      _ = placeholders.text (ps.map (Piece.map fun w => if w ∈ p :: ws then respelt w else w)) := by
        rw [apply_fix hps, ih (hps.map _), Piece.map_map]
        exact congrArg placeholders.text (Piece.map_congr fun w _ => hboth w)

/-- The misspelt placeholders of some pieces, in order. -/
def misspelt (ps : List (Piece {p : Token // p.IsPlaceholder})) : List {p : Token // p.IsPlaceholder} :=
  ((placeholders.lines 1 ps).filter fun found => isMisspelt found.2.1).map (·.2)

theorem filterMap_fix_run (hps : placeholders.IsCut ps) (path : Text) :
    (run (placeholders.text ps) path).filterMap Finding.fix = (misspelt ps).map fun p => fix p.1 := by
  have hfix : (Finding.fix ∘ fun found : Nat × {p : Token // p.IsPlaceholder} =>
      reported path found.1 found.2.1) = some ∘ ((fun p => fix p.1) ∘ (·.2)) := rfl
  rw [run_text hps, List.filterMap_map, misspelt, List.map_map, hfix, List.filterMap_eq_map]

/-- Run in whatever order, the fixes correct the endings of all placeholders. -/
theorem applyAll_of_perm (hps : placeholders.IsCut ps) {fixes : List Fix}
    (hperm : fixes.Perm ((run (placeholders.text ps) path).filterMap Finding.fix)) :
    Fix.applyAll fixes (placeholders.text ps) = placeholders.text (ps.map (Piece.map respelt)) := by
  rw [filterMap_fix_run hps] at hperm
  obtain ⟨ws, rfl, hws⟩ :=
    (congrFun (congrFun (List.eq_map_comp_perm _) fixes) (misspelt ps)).mpr hperm
  rw [applyAll_fixes hps]
  refine congrArg placeholders.text (Piece.map_congr fun w hw => ?_)
  by_cases hmem : w ∈ ws
  · exact if_pos hmem
  · rw [if_neg hmem, respelt_eq_self]
    by_contra hwrong
    obtain ⟨line, hline⟩ := Lexicon.exists_mem_lines (L := placeholders) hw 1
    refine hmem (hws.mem_iff.2 (List.mem_map.2 ⟨(line, w), List.mem_filter.2 ⟨hline, ?_⟩, rfl⟩))
    exact Bool.not_eq_false _ ▸ hwrong

theorem run_respelt (hps : placeholders.IsCut ps) (path : Text) :
    run (placeholders.text (ps.map (Piece.map respelt))) path = [] := by
  rw [run_text (hps.map respelt), lines_map_respelling, List.filter_map, List.map_map,
    List.map_eq_nil_iff, List.filter_eq_nil_iff]
  intro found _ hwrong
  exact Bool.false_ne_true ((not_isMisspelt_corrected found.2.1).symm.trans hwrong)

/-- After the fix of one placeholder the other ones are reported as before. -/
theorem run_apply_fix (hps : placeholders.IsCut ps) (p : {p : Token // p.IsPlaceholder}) (path : Text) :
    run ((fix p.1).apply (placeholders.text ps)) path =
      ((scan (placeholders.text ps)).filter fun found => found.2 ≠ p.1).map
        (finding (placeholders.text ps) path) := by
  have hkept : ∀ w : {p : Token // p.IsPlaceholder}, isMisspelt (if w = p then respelt p else w).1 =
      (decide (w.1 ≠ p.1) && isMisspelt w.1) := by
    intro w
    by_cases hw : w = p
    · subst hw
      rw [if_pos rfl, decide_eq_false (not_not.2 rfl), Bool.false_and]
      exact not_isMisspelt_corrected w.1
    · have hne : w.1 ≠ p.1 := fun heq => hw (Subtype.ext heq)
      rw [if_neg hw, decide_eq_true hne, Bool.true_and]
  rw [apply_fix hps, run_text (hps.map _), lines_map_respelling,
    map_finding_filter hps path fun q => q ≠ p.1, List.filter_map, List.map_map]
  have hfilter : ((fun found => isMisspelt found.2.1) ∘
      fun found : Nat × {p : Token // p.IsPlaceholder} =>
        (found.1, if found.2 = p then respelt p else found.2)) =
      fun found => decide (found.2.1 ≠ p.1) && isMisspelt found.2.1 := by
    funext found
    exact hkept found.2
  rw [hfilter]
  refine List.map_congr_left fun found hfound => ?_
  have hne := of_decide_eq_true (Bool.and_eq_true_iff.1 (List.mem_filter.1 hfound).2).1
  have hnot : found.2 ≠ p := fun heq => hne (congrArg Subtype.val heq)
  show reported path found.1 (if found.2 = p then respelt p else found.2).1 = _
  rw [if_neg hnot]

theorem isPlaceholder_of_mem_scan {found : Nat × Token} (h : found ∈ scan t) :
    found.2.IsPlaceholder := by
  obtain ⟨s, n, -, hread⟩ := exists_suffix_of_mem_occurrences (List.mem_filter.1 h).1
  exact (read?_eq_some_iff.1 hread).1

end Check.PlaceholderSyntax

open Check.PlaceholderSyntax

/-- A text is cut into placeholders and other code points in one way.  The fixes of its findings always
give a text, and run in whatever order they give the one in which every placeholder has the ending that
belongs to it and all else is as before, on which nothing is reported.  After one of the fixes just the
placeholders that are written like the one fixed are reported no more, and all others on the same
lines. -/
theorem respelling_complete_and_minimal (t path : Text) :
    ∃ pieces, (∀ pieces', placeholders.IsCut pieces' ∧ placeholders.text pieces' = t ↔
        pieces' = pieces) ∧
      (∀ fixes : List Fix, fixes.Perm ((run t path).filterMap Finding.fix) →
        (∀ fix ∈ fixes, ∀ x, fix.run x = .text (fix.apply x)) ∧
        Fix.applyAll fixes t = placeholders.text (pieces.map (Piece.map respelt)) ∧
        run (Fix.applyAll fixes t) path = []) ∧
      ∀ found ∈ scan t, run ((fix found.2).apply t) path =
        ((scan t).filter fun other => other.2 ≠ found.2).map (finding t path) := by
  obtain ⟨pieces, ⟨hcut, rfl⟩, hunique⟩ := placeholders.existsUnique_isCut t
  refine ⟨pieces, fun pieces' => ⟨hunique pieces', ?_⟩, fun fixes hperm => ⟨?_, ?_, ?_⟩, ?_⟩
  · rintro rfl
    exact ⟨hcut, rfl⟩
  · intro fix hfix x
    obtain ⟨f, hf, hsome⟩ := List.mem_filterMap.1 (hperm.mem_iff.1 hfix)
    obtain ⟨found, -, rfl⟩ := List.mem_map.1 hf
    obtain rfl := Option.some.inj hsome
    rfl
  · exact applyAll_of_perm hcut hperm
  · rw [applyAll_of_perm hcut hperm]
    exact run_respelt hcut path
  · exact fun found hfound => run_apply_fix hcut ⟨found.2, isPlaceholder_of_mem_scan hfound⟩ path

/-- A placeholder with a wrong ending on the first and the third line, and another one on the second
line, with more braces beside them. -/
def misspeltText : Text :=
  "\x7b\x7bORGSECRET_API_KEY_SECRETORG\x7d\x7d\n\x7b\x7bSUBWKFL_B_C_WRONG\x7d\x7d\x7d\n\x7b\x7b\x7bORGSECRET_API_KEY_SECRETORG\x7d\x7d"

/-- The placeholder that stands there twice. -/
def misspeltSecret : Token := ⟨"ORGSECRET", "API_KEY", "SECRETORG"⟩

/-- The other one. -/
def misspeltCallee : Token := ⟨"SUBWKFL", "B_C", "WRONG"⟩

/-- From last to first the three fixes leave nothing to report, and that of the placeholder which stands
there twice leaves the other one. -/
theorem respelling_misspeltText :
    run (Fix.applyAll [fix misspeltSecret, fix misspeltCallee, fix misspeltSecret] misspeltText) [] = [] ∧
      run ((fix misspeltSecret).apply misspeltText) [] = [finding misspeltText [] (32, misspeltCallee)] := by
  have hscan : scan misspeltText =
      [(0, misspeltSecret), (32, misspeltCallee), (56, misspeltSecret)] := by decide +kernel
  obtain ⟨_, _, hall, hone⟩ := respelling_complete_and_minimal misspeltText []
  constructor
  · refine (hall _ ?_).2.2
    rw [run, hscan]
    exact List.Perm.refl _
  · rw [hone (0, misspeltSecret) (by rw [hscan]; exact List.mem_cons_self), hscan]
    rfl

end WorkflowLint
