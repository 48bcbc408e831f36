import Mathlib.Tactic.Common
import WorkflowLint.Proofs.Json.Paths
import WorkflowLint.Proofs.Report.Tables
import WorkflowLint.Report.Document

/-!
# Reports agree with findings and summary

The findings of a result are counted for the summary, grouped for the JSON report, and grouped and counted
again for the Markdown report.  The groups in the order of the severities are the findings sorted by rank,
those of one severity in the order in which they were found (`flatMap_withSeverity`).  So the sizes of the
groups are the counts of the summary and those in the titles of the Markdown report, and both reports pass
exactly if the first group is empty (`reports_agree`).
-/

namespace WorkflowLint

open Markdown Text

/-! ## Sorting by severity -/

/-- Whether a finding is at least as serious as another one. -/
def Finding.asSerious (f g : Finding) : Bool := decide (g.severity.rank ≤ f.severity.rank)

variable {findings : List Finding} {s : Severity}

theorem Finding.asSerious_trans (f g h : Finding) (hfg : f.asSerious g = true) (hgh : g.asSerious h = true) :
    f.asSerious h = true := by
  simp only [Finding.asSerious, decide_eq_true_eq] at hfg hgh ⊢
  exact Nat.le_trans hgh hfg

theorem Finding.asSerious_total (f g : Finding) : (f.asSerious g || g.asSerious f) = true := by
  simp only [Finding.asSerious, Bool.or_eq_true, decide_eq_true_eq]
  exact Nat.le_total _ _

/-- Sorting keeps the findings of one severity in their order. -/
theorem filter_mergeSort_asSerious (findings : List Finding) (s : Severity) :
    (findings.mergeSort Finding.asSerious).filter (fun f => f.severity == s) =
      findings.filter fun f => f.severity == s := by
  have hties : (findings.filter fun f => f.severity == s).Pairwise (Finding.asSerious · ·) := by
    refine List.pairwise_of_forall_mem_list fun f hf g hg => ?_
    have hf := eq_of_beq (List.mem_filter.1 hf).2
    have hg := eq_of_beq (List.mem_filter.1 hg).2
    simp [Finding.asSerious, hf, hg]
  have hsub := List.sublist_mergeSort Finding.asSerious_trans Finding.asSerious_total hties
    List.filter_sublist
  have hfiltered := hsub.filter fun f => f.severity == s
  rw [List.filter_filter] at hfiltered
  simp only [Bool.and_self] at hfiltered
  have hperm := (List.mergeSort_perm findings Finding.asSerious).filter fun f => f.severity == s
  exact (hfiltered.eq_of_length hperm.length_eq.symm).symm

/-- Findings that are sorted by rank are the findings of each severity, one severity after the other. -/
theorem flatMap_filter_of_sorted (h : findings.Pairwise (Finding.asSerious · ·)) :
    (Severity.all.flatMap fun s => findings.filter fun f => f.severity == s) = findings := by
  induction findings with
  | nil => rfl
  | cons f findings ih =>
    obtain ⟨hf, hfindings⟩ := List.pairwise_cons.1 h
    have hnone : ∀ s, f.severity.rank < s.rank → (findings.filter fun g => g.severity == s) = [] := by
      intro s hs
      refine List.filter_eq_nil_iff.2 fun g hg heq => ?_
      have hle := of_decide_eq_true (hf g hg)
      rw [eq_of_beq heq] at hle
      omega
    have hrest := ih hfindings
    simp only [Severity.all, List.flatMap_cons, List.flatMap_nil, List.append_nil,
      List.filter_cons] at hrest ⊢
    cases hseverity : f.severity with
    | must => simpa [hseverity] using hrest
    | should =>
      have hmust := hnone .must (by rw [hseverity]; decide)
      simpa [hseverity, hmust] using hrest
    | nit =>
      have hmust := hnone .must (by rw [hseverity]; decide)
      have hshould := hnone .should (by rw [hseverity]; decide)
      simpa [hseverity, hmust, hshould] using hrest

/-! ## Counting -/

/-- The number of findings with a severity that a summary gives. -/
def Summary.number (summary : Summary) : Severity → ℕ
  | .must => summary.must
  | .should => summary.should
  | .nit => summary.nit

/-- The document of a finding has a fix exactly if the finding does. -/
theorem Finding.at?_fix_toJson (f : Finding) :
    Json.at? [.member "fix"] f.toJson = f.fix.map fun fix => .string fix.description := by
  have hoptional : ∀ (name : Text) (value : Option Json),
      Keyed.get? ("fix" : Text) ((value.map fun v => [(name, v)]).getD []) =
        if name = ("fix" : Text) then value else none := by
    intro name value
    cases value with
    | none => simp
    | some v => rfl
  show (Keyed.get? ("fix" : Text) _).bind (Json.at? []) = _
  simp only [Keyed.get?_append, hoptional]
  rw [if_neg (by decide), if_neg (by decide), if_neg (by decide), if_pos trivial, if_neg (by decide)]
  cases f.fix <;> rfl

namespace Result

/-- The groups of a result, one after the other, are its findings sorted by rank. -/
theorem flatMap_withSeverity (r : Result) :
    Severity.all.flatMap r.withSeverity = r.findings.mergeSort Finding.asSerious := by
  have hsorted := List.pairwise_mergeSort Finding.asSerious_trans Finding.asSerious_total r.findings
  rw [← flatMap_filter_of_sorted hsorted]
  refine congrArg (Severity.all.flatMap ·) (funext fun s => ?_)
  exact (filter_mergeSort_asSerious r.findings s).symm

theorem number_summary (r : Result) (s : Severity) : r.summary.number s = (r.withSeverity s).length := by
  have hcount : Summary.count s r.findings = (r.withSeverity s).length := List.countP_eq_length_filter
  rw [← hcount]
  cases s <;> rfl

theorem total_summary (r : Result) : r.summary.total = r.findings.length := by
  have hlength : (Severity.all.flatMap r.withSeverity).length = r.findings.length := by
    rw [flatMap_withSeverity, List.length_mergeSort]
  have hmust := r.number_summary .must
  have hshould := r.number_summary .should
  have hnit := r.number_summary .nit
  simp only [Summary.number] at hmust hshould hnit
  simp only [Severity.all, List.flatMap_cons, List.flatMap_nil, List.append_nil,
    List.length_append] at hlength
  rw [Summary.total]
  omega

theorem valid_iff_withSeverity (r : Result) : r.valid = true ↔ r.withSeverity .must = [] := by
  have hmust : r.summary.must = (r.withSeverity .must).length := r.number_summary .must
  rw [valid, beq_iff_eq, hmust, List.length_eq_zero_iff]

/-! ## Lines of the Markdown report -/

/-- Of the lines of a section only the title can start with what neither a row nor the line for no findings
starts with. -/
theorem filter_sectionLines {c : CodePoint} (hbar : c ≠ bar) (hnone : c ≠ .char '_') (start title : Text)
    (findings : List Finding) :
    (sectionLines title (findings.map Finding.markdownRow)).filter (c :: start).isPrefixOf =
      [title].filter (c :: start).isPrefixOf := by
  have hother : ∀ d t, d ≠ c → (c :: start).isPrefixOf (d :: t) = false := by
    intro d t hd
    simp [List.isPrefixOf, Ne.symm hd]
  have hempty : (c :: start).isPrefixOf [] = false := rfl
  have hrows : (findings.map Finding.markdownRow).filter (c :: start).isPrefixOf = [] := by
    refine List.filter_eq_nil_iff.2 fun t ht => ?_
    obtain ⟨f, -, rfl⟩ := List.mem_map.1 ht
    rw [Bool.not_eq_true]
    exact hother bar _ (Ne.symm hbar)
  have hhead : findingsHead.filter (c :: start).isPrefixOf = [] := by
    refine List.filter_eq_nil_iff.2 fun t ht => ?_
    rw [Bool.not_eq_true]
    rcases List.mem_pair.1 ht with rfl | rfl
    · exact hother bar _ (Ne.symm hbar)
    · exact hother bar _ (Ne.symm hbar)
  have hnothing : (c :: start).isPrefixOf ("_None._" : Text) = false := hother (.char '_') _ (Ne.symm hnone)
  unfold sectionLines
  split
  · simp [List.filter_cons, hempty, hnothing]
  · simp [List.filter_cons, List.filter_append, hempty, hrows, hhead]

/-- Of the lines of a report those that start with what only titles start with. -/
theorem filter_markdown {c : CodePoint} (hbar : c ≠ bar) (hnone : c ≠ .char '_') (start : Text) (r : Result)
    (time : Timestamp) :
    (parts feed (r.markdown time)).filter (c :: start).isPrefixOf =
      (r.markdownHead time ++ Severity.all.map r.sectionTitle).filter (c :: start).isPrefixOf := by
  rw [parts_markdown, List.filter_append, List.filter_append]
  congr 1
  simp only [Severity.all, List.flatMap_cons, List.flatMap_nil, List.append_nil, List.filter_append,
    filter_sectionLines hbar hnone, List.map_cons, List.map_nil]
  simp only [← List.filter_append, List.singleton_append]

/-- The titles of the sections of a report. -/
theorem titles_markdown (r : Result) (time : Timestamp) :
    (parts feed (r.markdown time)).filter (List.isPrefixOf "## ") =
      ("## Summary" : Text) :: Severity.all.map fun s =>
        ("## " : Text) ++ s.name ++ " (" ++ ofNat (r.summary.number s) ++ ")" := by
  have hfilter := filter_markdown (c := .char '#') (by decide) (by decide) "# " r time
  simp only [number_summary]
  exact hfilter

/-- The line of a report that tells whether the result is valid. -/
theorem status_markdown (r : Result) (time : Timestamp) :
    (parts feed (r.markdown time)).filter (List.isPrefixOf "**Status**: ") =
      ["**Status**: " ++ r.status] := by
  have hfilter := filter_markdown (c := .char '*') (by decide) (by decide) "*Status**: " r time
  exact hfilter

/-! ## The whole -/

/-- What a result, its summary and both reports on it agree on, where the JSON report has a group of
documents for each severity. -/
structure ReportsAgree (r : Result) (time : Timestamp) (groups : Severity → List Json) : Prop where
  /-- The groups stand under the names of the severities. -/
  grouped : ∀ s, Json.at? [.member "findings", .member s.name] (r.report time) = some (.array (groups s))
  /-- One after the other they are the findings sorted by severity, in their order where it is the same. -/
  sorted : Severity.all.flatMap groups = (r.findings.mergeSort Finding.asSerious).map Finding.toJson
  /-- The summary has the size of each group. -/
  numbers : ∀ s, (groups s).length = r.summary.number s
  /-- The Markdown report has a section for each severity, with the size of the group in its title. -/
  titles : (parts feed (r.markdown time)).filter (List.isPrefixOf "## ") =
    ("## Summary" : Text) :: Severity.all.map fun s =>
      ("## " : Text) ++ s.name ++ " (" ++ ofNat (groups s).length ++ ")"
  /-- The sizes add up to the total, which is the number of findings. -/
  total : r.summary.total = (Severity.all.map fun s => (groups s).length).sum ∧
    r.summary.total = r.findings.length
  /-- The fixable findings are those whose documents have a fix. -/
  fixable : r.summary.fixable =
    r.findings.countP fun f => (Json.at? [.member "fix"] f.toJson).isSome
  /-- The JSON report has the summary. -/
  summary : Json.at? [.member "summary"] (r.report time) = some r.summary.toJson
  /-- A result is valid if nothing is in the first group. -/
  valid : r.valid = (groups .must).isEmpty
  /-- The JSON report says so twice. -/
  jsonStatus : Json.at? [.member "valid"] (r.report time) = some (.bool (groups .must).isEmpty) ∧
    Json.at? [.member "status"] (r.report time) =
      some (.string (if (groups .must).isEmpty then "PASS" else "FAIL"))
  /-- The Markdown report says so in one line. -/
  markdownStatus : (parts feed (r.markdown time)).filter (List.isPrefixOf "**Status**: ") =
    [("**Status**: " : Text) ++ if (groups .must).isEmpty then ("PASS" : Text) else "FAIL"]

/-- Findings, summary and reports of any result agree. -/
theorem reports_agree (r : Result) (time : Timestamp) : ∃ groups, r.ReportsAgree time groups := by
  have hvalid : r.valid = ((r.withSeverity .must).map Finding.toJson).isEmpty := by
    rw [Bool.eq_iff_iff, valid_iff_withSeverity, List.isEmpty_iff, List.map_eq_nil_iff]
  have hnumber : ∀ s, ((r.withSeverity s).map Finding.toJson).length = r.summary.number s := by
    intro s
    rw [List.length_map, number_summary]
  refine ⟨fun s => (r.withSeverity s).map Finding.toJson, ?_, ?_, hnumber, ?_, ?_, ?_, rfl, hvalid, ?_, ?_⟩
  · intro s
    cases s <;> rfl
  · rw [← flatMap_withSeverity, List.map_flatMap]
  · simp only [hnumber]
    exact r.titles_markdown time
  · refine ⟨?_, r.total_summary⟩
    simp only [hnumber]
    exact Nat.add_assoc _ _ _
  · show r.findings.countP Finding.fixable = _
    simp only [Finding.at?_fix_toJson, Option.isSome_map]
    rfl
  · rw [← hvalid]
    exact ⟨rfl, rfl⟩
  · rw [← hvalid]
    exact r.status_markdown time

end Result
end WorkflowLint
