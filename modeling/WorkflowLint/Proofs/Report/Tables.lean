import Mathlib.Algebra.BigOperators.Group.List.Basic
import Mathlib.Algebra.GroupWithZero.Nat
import WorkflowLint.Proofs.Text.LineEnds
import WorkflowLint.Proofs.Text.Lines
import WorkflowLint.Proofs.Text.Numeral
import WorkflowLint.Proofs.Text.Parts
import WorkflowLint.Proofs.Text.Replacing
import WorkflowLint.Report.Markdown

/-!
# Tables stay tables

A report in Markdown has one line for each finding, and the table of the rules one line for each check
(`parts_markdown`), as cells have no line feeds.  The bars in a cell are escaped by one more backslash
than the text has before them.  So a bar that the text escapes itself is open in the table
(`unescapedBars_cell`), and a line is a row of the table exactly if there is no such bar and no carriage
return in its cells (`isRow_row_iff`).
-/

namespace WorkflowLint

/-! ## Joined texts -/

namespace Text

/-- Replacing a single code point goes through a text code point by code point. -/
theorem replaceAll_singleton (c : CodePoint) (new t : Text) :
    t.replaceAll [c] new = t.flatMap fun d => if d = c then new else [d] := by
  rw [replaceAll_eq (List.cons_ne_nil c [])]
  induction t with
  | nil => rfl
  | cons d t ih =>
    rw [List.flatMap_cons]
    by_cases hd : d = c
    · subst hd
      rw [if_pos rfl, ← ih]
      exact replaceFrom_append (List.cons_ne_nil d []) t
    · have hstart : ¬ [c] <+: d :: t := fun h => hd (List.cons_prefix_cons.1 h).1.symm
      rw [replaceFrom_cons hstart, ih, if_neg hd, List.singleton_append]

end Text

namespace Markdown

open Text

/-! ## Bars -/

/-- The bar between the cells of a row. -/
def bar : CodePoint := .char '|'

/-- The code point that escapes a bar. -/
def backslash : CodePoint := .char '\\'

/-- What comes next after a text is escaped: the text ends with an odd number of backslashes. -/
def escapesNext (before : Text) : Bool :=
  (before.reverse.takeWhile (· == backslash)).length % 2 == 1

/-- The number of bars in a text behind another one that are escaped, or that are not. -/
def barsBehind (escaped : Bool) (before : Text) : Text → ℕ
  | [] => 0
  | c :: t =>
    (if c = bar ∧ escapesNext before = escaped then 1 else 0) + barsBehind escaped (before ++ [c]) t

/-- The number of bars that have an even number of backslashes before them. -/
def unescapedBars (t : Text) : ℕ := barsBehind false [] t

/-- The number of bars that have an odd number of backslashes before them. -/
def escapedBars (t : Text) : ℕ := barsBehind true [] t

/-- A line of a table with so many columns. -/
structure IsRow (columns : ℕ) (t : Text) : Prop where
  feed : feed ∉ t
  noReturn : NoReturn t
  bars : unescapedBars t = columns + 1

/-- A text that a cell can show: it has no carriage return, and no bar that it escapes itself. -/
def FitsCell (t : Text) : Prop := NoReturn t ∧ escapedBars t = 0

instance (t : Text) : Decidable (FitsCell t) := inferInstanceAs (Decidable (_ ∧ _))

variable {escaped : Bool} {before before' s t : Text}

theorem escapesNext_concat (before : Text) (c : CodePoint) :
    escapesNext (before ++ [c]) = (c == backslash && !escapesNext before) := by
  unfold escapesNext
  rw [List.reverse_append, List.reverse_singleton, List.singleton_append, List.takeWhile_cons]
  by_cases hc : c = backslash
  · simp only [hc, beq_self_eq_true, if_true, List.length_cons, Bool.true_and]
    generalize (before.reverse.takeWhile (· == backslash)).length = n
    rcases Nat.mod_two_eq_zero_or_one n with h | h <;> simp [Nat.add_mod, h]
  · simp [hc]

/-- Of what stands before a text only its last backslashes matter. -/
theorem barsBehind_congr (h : escapesNext before = escapesNext before') (t : Text) :
    barsBehind escaped before t = barsBehind escaped before' t := by
  induction t generalizing before before' with
  | nil => rfl
  | cons c t ih =>
    have hnext : escapesNext (before ++ [c]) = escapesNext (before' ++ [c]) := by
      rw [escapesNext_concat, escapesNext_concat, h]
    rw [barsBehind, barsBehind, h, ih hnext]

theorem barsBehind_append (before s t : Text) :
    barsBehind escaped before (s ++ t) =
      barsBehind escaped before s + barsBehind escaped (before ++ s) t := by
  induction s generalizing before with
  | nil => simp [barsBehind]
  | cons c s ih =>
    rw [List.cons_append, barsBehind, barsBehind, ih, List.append_assoc, List.singleton_append,
      Nat.add_assoc]

theorem barsBehind_of_not_escapesNext (h : escapesNext before = false) (t : Text) :
    barsBehind false before t = unescapedBars t :=
  barsBehind_congr h t

/-! ## Cells -/

/-- What a cell shows for a code point. -/
def shown (c : CodePoint) : Text :=
  if c = bar then [backslash, bar] else if c = feed then [.char ' '] else [c]

theorem cell_eq (t : Text) : cell t = t.flatMap shown := by
  show replaceAll (replaceAll t [bar] [backslash, bar]) [feed] [.char ' '] = _
  rw [replaceAll_singleton, replaceAll_singleton, List.flatMap_assoc]
  congr 1
  funext c
  unfold shown
  split
  · rfl
  · rw [List.flatMap_singleton]

theorem feed_not_mem_cell (t : Text) : feed ∉ cell t := by
  rw [cell_eq, List.mem_flatMap]
  rintro ⟨c, -, hc⟩
  unfold shown at hc
  split_ifs at hc with hbar hfeed
  · simp [feed, bar, backslash] at hc
  · simp [feed] at hc
  · exact hfeed (List.mem_singleton.1 hc).symm

theorem noReturn_cell_iff : NoReturn (cell t) ↔ NoReturn t := by
  have hshown : ∀ c, NoReturn (shown c) ↔ c ≠ .char '\r' := by
    intro c
    unfold shown
    split_ifs with hbar hfeed
    · simp [hbar, bar, backslash]
    · simp [hfeed, feed]
    · simp
  rw [cell_eq]
  induction t with
  | nil => simp
  | cons c t ih =>
    rw [List.flatMap_cons, noReturn_append, noReturn_cons, hshown]
    exact and_congr_right fun _ => ih

/-- What a cell shows for a code point escapes what comes next if the code point itself does. -/
theorem escapesNext_append_shown (h : escapesNext before = escapesNext before') (c : CodePoint) :
    escapesNext (before ++ shown c) = escapesNext (before' ++ [c]) := by
  unfold shown
  split_ifs with hbar hfeed
  · rw [List.append_cons, escapesNext_concat, escapesNext_concat, escapesNext_concat, hbar]
    rfl
  · rw [escapesNext_concat, escapesNext_concat, hfeed]
    rfl
  · rw [escapesNext_concat, escapesNext_concat, h]

/-- A bar is open behind its backslash exactly if it was escaped without it. -/
theorem barsBehind_shown (h : escapesNext before = escapesNext before') (c : CodePoint) :
    barsBehind false before (shown c) = barsBehind true before' [c] := by
  unfold shown
  split_ifs with hbar hfeed
  · simp only [barsBehind, escapesNext_concat, h, hbar]
    cases escapesNext before' <;> simp [bar, backslash]
  · simp only [barsBehind, hfeed]
    simp [bar, feed]
  · simp only [barsBehind, hbar, false_and, if_false]

/-- The bars that are open in a cell are those that the text escapes. -/
theorem barsBehind_flatMap_shown (h : escapesNext before = escapesNext before') (t : Text) :
    barsBehind false before (t.flatMap shown) = barsBehind true before' t := by
  induction t generalizing before before' with
  | nil => rfl
  | cons c t ih =>
    rw [List.flatMap_cons, barsBehind_append, barsBehind_shown h, ih (escapesNext_append_shown h c),
      ← barsBehind_append, List.singleton_append]

theorem unescapedBars_cell (t : Text) : unescapedBars (cell t) = escapedBars t := by
  rw [cell_eq]
  exact barsBehind_flatMap_shown rfl t

/-! ## Rows -/

theorem barsBehind_space_bar (before : Text) : barsBehind false before " |" = 1 := by
  show barsBehind false before [.char ' ', bar] = 1
  simp only [barsBehind, escapesNext_concat]
  simp [bar, backslash]

theorem barsBehind_separator (before : Text) : barsBehind false before " | " = 1 := by
  show barsBehind false before [.char ' ', bar, .char ' '] = 1
  simp only [barsBehind, escapesNext_concat]
  simp [bar, backslash]

theorem escapesNext_append_space (before s : Text) :
    escapesNext (before ++ (s ++ [.char ' '])) = false := by
  rw [← List.append_assoc, escapesNext_concat]
  rfl

theorem barsBehind_join (h : escapesNext before = false) (p : Text) (ps : List Text) :
    barsBehind false before (join " | " (p :: ps)) =
      ((p :: ps).map unescapedBars).sum + ps.length := by
  induction ps generalizing before p with
  | nil => simp [join, barsBehind_of_not_escapesNext h]
  | cons q ps ih =>
    have hnext : escapesNext (before ++ (p ++ " | ")) = false := by
      rw [← List.append_assoc]
      exact escapesNext_append_space (before ++ p) " |"
    rw [join_cons_cons, barsBehind_append, ih hnext, barsBehind_append,
      barsBehind_of_not_escapesNext h, barsBehind_separator]
    simp only [List.map_cons, List.sum_cons, List.length_cons]
    omega

/-- A row has one bar more than it has cells, and those that are open in its cells. -/
theorem unescapedBars_row (p : Text) (ps : List Text) :
    unescapedBars (row (p :: ps)) =
      ((p :: ps).map unescapedBars).sum + ((p :: ps).length + 1) := by
  have hstart : barsBehind false [] "| " = 1 := by decide
  rw [unescapedBars, row, barsBehind_append, barsBehind_append, hstart, barsBehind_space_bar,
    barsBehind_join (by decide), List.length_cons]
  omega

theorem feed_not_mem_row {ts : List Text} (h : ∀ t ∈ ts, feed ∉ t) : feed ∉ row ts := by
  have hjoin := (not_mem_join_iff (by decide : feed ∉ (" | " : Text)) ts).2 h
  unfold row
  simp only [List.mem_append, not_or]
  exact ⟨⟨by decide, hjoin⟩, by decide⟩

/-- A row of cells is a row of the table exactly if the cells can show their texts. -/
theorem isRow_row_iff (t : Text) (ts : List Text) :
    IsRow (t :: ts).length (row ((t :: ts).map cell)) ↔ ∀ s ∈ t :: ts, FitsCell s := by
  have hfeed : feed ∉ row ((t :: ts).map cell) :=
    feed_not_mem_row (List.forall_mem_map.2 fun s _ => feed_not_mem_cell s)
  have hreturn : NoReturn (row ((t :: ts).map cell)) ↔ ∀ s ∈ t :: ts, NoReturn s := by
    have hjoin := not_mem_join_iff (by decide : CodePoint.char '\r' ∉ (" | " : Text))
      ((t :: ts).map cell)
    unfold row
    rw [noReturn_append, noReturn_append, and_iff_left (by decide), and_iff_right (by decide)]
    refine hjoin.trans (List.forall_mem_map.trans ?_)
    exact forall₂_congr fun s _ => noReturn_cell_iff
  have hbars : unescapedBars (row ((t :: ts).map cell)) = (t :: ts).length + 1 ↔
      ∀ s ∈ t :: ts, escapedBars s = 0 := by
    have hcells : ((t :: ts).map cell).map unescapedBars = (t :: ts).map escapedBars := by
      rw [List.map_map]
      exact List.map_congr_left fun s _ => unescapedBars_cell s
    rw [List.map_cons, unescapedBars_row, ← List.map_cons, hcells, List.length_map,
      Nat.add_eq_right, List.sum_eq_zero_iff_forall_eq_nat, List.forall_mem_map]
  constructor
  · rintro ⟨-, hr, hb⟩ s hs
    exact ⟨hreturn.1 hr s hs, hbars.1 hb s hs⟩
  · intro h
    exact ⟨hfeed, hreturn.2 fun s hs => (h s hs).1, hbars.2 fun s hs => (h s hs).2⟩

/-! ## Lines -/

/-- Texts without line feeds that are joined by line feeds are the lines of what they are joined to. -/
theorem parts_join_lines {lines : List Text} (hne : lines ≠ []) (h : ∀ t ∈ lines, feed ∉ t) :
    parts feed (join "\n" lines) = lines := by
  obtain ⟨t, ts, rfl⟩ := List.exists_cons_of_ne_nil hne
  exact parts_join h

theorem feed_not_mem_of_allDigits (h : AllDigits t) : feed ∉ t := fun hmem =>
  absurd (h feed hmem) (by decide)

/-- The first lines of a table of findings. -/
def findingsHead : List Text :=
  ["| Rule | Location | Message | Fix |", "|------|----------|---------|-----|"]

/-- The first lines of the table of the rules. -/
def rulesHead : List Text :=
  ["| Rule | Kind | Severity | Fixable | Description |",
    "|------|------|----------|---------|-------------|"]

/-- The lines of a section with the rows of its table. -/
def sectionLines (title : Text) (rows : List Text) : List Text :=
  [title, []] ++ (if rows = [] then [("_None._" : Text)] else findingsHead ++ rows) ++ [[]]

theorem feed_not_mem_sectionLines {title : Text} {rows : List Text} (htitle : feed ∉ title)
    (hrows : ∀ t ∈ rows, feed ∉ t) : ∀ t ∈ sectionLines title rows, feed ∉ t := by
  have hends : ∀ t ∈ ([[]] : List Text), feed ∉ t := by decide
  have hnone : ∀ t ∈ ([("_None._" : Text)] : List Text), feed ∉ t := by decide
  have hhead : ∀ t ∈ findingsHead, feed ∉ t := by decide
  unfold sectionLines
  rw [List.forall_mem_append, List.forall_mem_append]
  refine ⟨⟨List.forall_mem_cons.2 ⟨htitle, hends⟩, ?_⟩, hends⟩
  split
  · exact hnone
  · exact List.forall_mem_append.2 ⟨hhead, hrows⟩

end Markdown

open Markdown Text

/-! ## Reports -/

namespace Finding

/-- The texts in the row of a finding. -/
def cellTexts (f : Finding) : List Text :=
  [f.rule, f.location, f.message, (f.fix.map Fix.description).getD []]

theorem isRow_markdownRow_iff (f : Finding) :
    IsRow 4 f.markdownRow ↔ ∀ t ∈ f.cellTexts, FitsCell t :=
  isRow_row_iff f.rule [f.location, f.message, (f.fix.map Fix.description).getD []]

theorem feed_not_mem_markdownRow (f : Finding) : feed ∉ f.markdownRow :=
  feed_not_mem_row (List.forall_mem_map.2 fun t _ => feed_not_mem_cell t)

end Finding

namespace AnyCheck

/-- The texts in the row of a check, of which only the first and the last are its own. -/
def cellTexts (c : AnyCheck) : List Text :=
  [c.info.id, c.kind.name, c.info.severity.name, if c.info.fixable then ("yes" : Text) else "no",
    c.info.description]

theorem markdownRow_eq (c : AnyCheck) : c.markdownRow = row (c.cellTexts.map cell) := by
  have hkind : cell c.kind.name = c.kind.name := by cases c.kind <;> decide
  have hseverity : cell c.info.severity.name = c.info.severity.name := by
    cases c.info.severity <;> decide
  have hfixable : cell (if c.info.fixable then ("yes" : Text) else "no") =
      if c.info.fixable then ("yes" : Text) else "no" := by cases c.info.fixable <;> decide
  simp only [cellTexts, List.map_cons, List.map_nil, hkind, hseverity, hfixable]
  rfl

theorem isRow_markdownRow_iff (c : AnyCheck) :
    IsRow 5 c.markdownRow ↔ FitsCell c.info.id ∧ FitsCell c.info.description := by
  have hkind : FitsCell c.kind.name := by cases c.kind <;> decide
  have hseverity : FitsCell c.info.severity.name := by cases c.info.severity <;> decide
  have hfixable : FitsCell (if c.info.fixable then ("yes" : Text) else "no") := by
    cases c.info.fixable <;> decide
  have hrow : IsRow c.cellTexts.length (row (c.cellTexts.map cell)) ↔
      ∀ t ∈ c.cellTexts, FitsCell t := isRow_row_iff c.info.id _
  rw [markdownRow_eq]
  refine hrow.trans ?_
  simp only [cellTexts, List.forall_mem_cons, hkind, hseverity, hfixable, true_and,
    List.not_mem_nil, false_implies, implies_true, and_true]

theorem feed_not_mem_markdownRow (c : AnyCheck) : feed ∉ c.markdownRow := by
  rw [markdownRow_eq]
  exact feed_not_mem_row (List.forall_mem_map.2 fun t _ => feed_not_mem_cell t)

end AnyCheck

namespace Result

variable {time : Timestamp}

/-- The title of a section. -/
def sectionTitle (r : Result) (s : Severity) : Text :=
  "## " ++ s.name ++ " (" ++ ofNat (r.withSeverity s).length ++ ")"

theorem markdownSection_eq (r : Result) (s : Severity) :
    r.markdownSection s =
      sectionLines (r.sectionTitle s) ((r.withSeverity s).map Finding.markdownRow) := by
  unfold markdownSection sectionTitle sectionLines
  cases r.withSeverity s <;> rfl

theorem feed_not_mem_sectionTitle (r : Result) (s : Severity) : feed ∉ r.sectionTitle s := by
  have hname : feed ∉ s.name := by cases s <;> decide
  have hnumber := feed_not_mem_of_allDigits (allDigits_ofNat (r.withSeverity s).length)
  unfold sectionTitle
  simp only [List.mem_append, not_or]
  exact ⟨⟨⟨⟨by decide, hname⟩, by decide⟩, hnumber⟩, by decide⟩

theorem feed_not_mem_reportText (time : Timestamp) : feed ∉ time.reportText := by
  have hpadded : ∀ n, feed ∉ ofNatPadded 10 2 n := fun n =>
    feed_not_mem_of_allDigits (allDigits_ofNatPadded 2 n)
  have hclock : feed ∉ time.clock := by
    unfold Timestamp.clock
    simp only [List.mem_append, not_or]
    exact ⟨⟨⟨⟨hpadded _, by decide⟩, hpadded _⟩, by decide⟩, hpadded _⟩
  have hparts : ∀ t ∈ [ofNat time.date.year, ofNatPadded 10 2 time.date.month,
      ofNatPadded 10 2 time.date.day], feed ∉ t := by
    simp only [List.forall_mem_cons, List.not_mem_nil, false_implies, implies_true, and_true]
    exact ⟨feed_not_mem_of_allDigits (allDigits_ofNat _), hpadded _, hpadded _⟩
  have hdate := (not_mem_join_iff (by decide : feed ∉ ("-" : Text)) _).2 hparts
  unfold Timestamp.reportText
  simp only [List.mem_append, not_or]
  exact ⟨⟨⟨hdate, by decide⟩, hclock⟩, by decide⟩

/-- No line of the head has a line feed. -/
theorem feed_not_mem_markdownHead (r : Result) (time : Timestamp) :
    ∀ t ∈ r.markdownHead time, feed ∉ t := by
  have hstatus : feed ∉ r.status := by
    unfold status
    split <;> decide
  have hcounts : feed ∉ row ([r.summary.must, r.summary.should, r.summary.nit,
      r.summary.fixable].map ofNat) :=
    feed_not_mem_row <| List.forall_mem_map.2 fun n _ =>
      feed_not_mem_of_allDigits (allDigits_ofNat n)
  have htime : feed ∉ ("**Timestamp**: " : Text) ++ time.reportText :=
    List.not_mem_append (by decide) (feed_not_mem_reportText time)
  have hresult : feed ∉ ("**Status**: " : Text) ++ r.status :=
    List.not_mem_append (by decide) hstatus
  have hfiles : feed ∉ ("**Files validated**: " : Text) ++ ofNat r.files.length :=
    List.not_mem_append (by decide) (feed_not_mem_of_allDigits (allDigits_ofNat _))
  unfold markdownHead
  simp only [List.forall_mem_cons]
  exact ⟨by decide, by decide, htime, hresult, hfiles, by decide, by decide, by decide, by decide,
    by decide, hcounts, by decide⟩

/-- The lines of a report. -/
theorem parts_markdown (r : Result) (time : Timestamp) :
    parts feed (r.markdown time) = r.markdownHead time ++ Severity.all.flatMap fun s =>
      sectionLines (r.sectionTitle s) ((r.withSeverity s).map Finding.markdownRow) := by
  have hlines : ∀ t ∈ r.markdownHead time ++ Severity.all.flatMap r.markdownSection, feed ∉ t := by
    refine List.forall_mem_append.2 ⟨r.feed_not_mem_markdownHead time, fun t ht => ?_⟩
    obtain ⟨s, -, hs⟩ := List.mem_flatMap.1 ht
    rw [markdownSection_eq] at hs
    exact feed_not_mem_sectionLines (r.feed_not_mem_sectionTitle s)
      (List.forall_mem_map.2 fun f _ => f.feed_not_mem_markdownRow) t hs
  simp only [← markdownSection_eq]
  exact parts_join_lines (List.append_ne_nil_of_left_ne_nil (List.cons_ne_nil _ _) _) hlines

/-- The sections have all findings. -/
theorem flatMap_withSeverity_perm (r : Result) :
    (Severity.all.flatMap r.withSeverity).Perm r.findings := by
  obtain ⟨findings, files⟩ := r
  have hall : ∀ findings : List Finding, (Severity.all.flatMap fun s =>
      findings.filter fun f => f.severity == s).Perm findings := by
    intro findings
    induction findings with
    | nil => exact .nil
    | cons f findings ih =>
      refine .trans ?_ (ih.cons f)
      simp only [Severity.all, List.flatMap_cons, List.flatMap_nil, List.append_nil,
        List.filter_cons]
      cases f.severity with
      | must => exact .refl _
      | should => exact List.perm_middle
      | nit =>
        simp only [← List.append_assoc]
        exact List.perm_middle
  exact hall findings

end Result

/-- The lines of the table of the rules. -/
theorem Registry.parts_markdown (r : Registry) :
    parts feed r.markdown = rulesHead ++ r.all.map AnyCheck.markdownRow := by
  have hhead : ∀ t ∈ rulesHead, feed ∉ t := by decide
  refine parts_join_lines (List.append_ne_nil_of_left_ne_nil (List.cons_ne_nil _ _) _) ?_
  exact List.forall_mem_append.2
    ⟨hhead, List.forall_mem_map.2 fun c _ => c.feed_not_mem_markdownRow⟩

/-- The findings of a result and the checks of a registry have rows of their tables. -/
def KeepsTables (r : Result) (registry : Registry) : Prop :=
  (∀ f ∈ r.findings, IsRow 4 f.markdownRow) ∧ ∀ c ∈ registry.all, IsRow 5 c.markdownRow

/-- The lines of a report are those of its head and of a section for each severity, with one line for
each finding, and the table of the rules has one line for each check.  These are rows of their tables
exactly if all texts in them fit their cells: if none of them has a carriage return or a bar that it
escapes itself. -/
theorem keepsTables_iff (r : Result) (time : Timestamp) (registry : Registry) :
    (parts feed (r.markdown time) = r.markdownHead time ++ Severity.all.flatMap fun s =>
      sectionLines (r.sectionTitle s) ((r.withSeverity s).map Finding.markdownRow)) ∧
    (Severity.all.flatMap r.withSeverity).Perm r.findings ∧
    parts feed registry.markdown = rulesHead ++ registry.all.map AnyCheck.markdownRow ∧
    (KeepsTables r registry ↔ (∀ f ∈ r.findings, ∀ t ∈ f.cellTexts, FitsCell t) ∧
      ∀ c ∈ registry.all, FitsCell c.info.id ∧ FitsCell c.info.description) := by
  refine ⟨r.parts_markdown time, r.flatMap_withSeverity_perm, registry.parts_markdown, ?_⟩
  refine and_congr ?_ ?_
  · exact forall₂_congr fun f _ => f.isRow_markdownRow_iff
  · exact forall₂_congr fun c _ => c.isRow_markdownRow_iff

/-- A result with one finding that has a message. -/
def Result.ofMessage (message : Text) : Result where
  findings := [{ rule := "R", severity := .must, path := "/w.json", message := message }]
  files := ["/w.json"]

/-- Bars and line feeds do no harm, nor does a backslash before another code point. -/
theorem keepsTables_barredMessage : KeepsTables (Result.ofMessage "a | b\n\\c|") {} := by
  have hiff := (keepsTables_iff (Result.ofMessage "a | b\n\\c|")
    ⟨⟨2026, 1, 2⟩, 3, 4, 5, 0, none⟩ {}).2.2.2
  exact hiff.2 ⟨by decide, by decide⟩

/-- A bar behind a backslash makes a cell of its own, and a carriage return stays. -/
theorem not_keepsTables_slashedMessage :
    ∃ row ∈ parts feed ((Result.ofMessage "a\\|b\rc").markdown ⟨⟨2026, 1, 2⟩, 3, 4, 5, 0, none⟩),
      (Result.ofMessage "a\\|b\rc").findings.map Finding.markdownRow = [row] ∧
      unescapedBars row = 6 ∧ ¬ NoReturn row ∧ ¬ KeepsTables (Result.ofMessage "a\\|b\rc") {} := by
  refine ⟨"| R | /w.json | a\\\\|b\rc |  |", by decide +kernel, by decide +kernel, by decide +kernel,
    by decide, ?_⟩
  intro h
  obtain ⟨-, -, hbars⟩ := h.1 _ (List.mem_singleton_self _)
  exact absurd hbars (by decide +kernel)

end WorkflowLint
