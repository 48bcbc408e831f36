import WorkflowLint.Check.SubworkflowReference
import WorkflowLint.Proofs.Check.CalledBy
import WorkflowLint.Proofs.Check.Respelling
import WorkflowLint.Proofs.Placeholder.References

/-!
# Scanners miss nothing and point at the right line

The checks of endings and of references go through a text with a scanner that does not overlap and keep
some of its finds.  Placeholders do not overlap either, so each of them that is kept is reported: there
is one finding for each offset at which one stands, in the order of the offsets, and its line is that
which has the whole placeholder (`scanners_report_each_placeholder`).
-/

namespace WorkflowLint

open Text Placeholder

/-! ## Reports -/

/-- A finding of a rule on a file says which placeholder stands at an offset, and on which line all of it
lies. -/
structure Finding.PointsAt (f : Finding) (rule path t : Text) (site : Nat × Token) : Prop where
  rule : f.rule = rule
  path : f.path = path
  line : ∃ number : Nat, f.line = some number ∧ LiesOn site.2.text t site.1 number
  detail : ∃ detail, f.detail = some detail ∧ site.2.text <:+: detail

/-- Findings of a rule on a file that say where placeholders of a kind stand: there is one for each
offset at which one stands, and they are in the order of the offsets. -/
def Reports (rule path t : Text) (wanted : Token → Prop) (findings : List Finding) : Prop :=
  ∃ sites : List (Nat × Token), sites.Pairwise (fun site next => site.1 < next.1) ∧
    (∀ offset p, (offset, p) ∈ sites ↔ wanted p ∧ StandsAt p.text t offset) ∧
    List.Forall₂ (fun site (f : Finding) => f.PointsAt rule path t site) sites findings

section

variable {rule path t : Text} {wanted : Token → Prop} {found : List (Nat × Token)}
  {finding : Nat × Token → Finding}

/-- The offset of a find tells its line. -/
theorem Finding.pointsAt_of_lineAt {f : Finding} {site : Nat × Token} (hrule : f.rule = rule)
    (hpath : f.path = path) (hline : f.line = some (lineAt t site.1))
    (hdetail : ∃ detail, f.detail = some detail ∧ site.2.text <:+: detail)
    (hsite : StandsAt site.2.text t site.1) (hnewline : .char '\n' ∉ site.2.text) :
    f.PointsAt rule path t site :=
  ⟨hrule, hpath, ⟨_, hline, liesOn_lineAt hsite site.2.text_ne_nil hnewline⟩, hdetail⟩

/-- What is kept of the finds of a scanner is reported if each of them is pointed at. -/
theorem reports_filter {keep : Nat × Token → Bool} (hsorted : found.Pairwise fun x y => x.1 < y.1)
    (hwanted : ∀ offset p, (offset, p) ∈ found ∧ keep (offset, p) = true ↔
      wanted p ∧ StandsAt p.text t offset)
    (hpoints : ∀ site : Nat × Token, wanted site.2 → StandsAt site.2.text t site.1 →
      (finding site).PointsAt rule path t site) :
    Reports rule path t wanted ((found.filter keep).map finding) := by
  have hsites : ∀ offset p, (offset, p) ∈ found.filter keep ↔ wanted p ∧ StandsAt p.text t offset :=
    fun offset p => List.mem_filter.trans (hwanted offset p)
  refine ⟨found.filter keep, hsorted.filter keep, hsites, ?_⟩
  rw [List.forall₂_map_right_iff, List.forall₂_same]
  intro site hsite
  obtain ⟨hkind, hstands⟩ := (hsites site.1 site.2).1 hsite
  exact hpoints site hkind hstands

end

/-! ## Endings -/

namespace Check.PlaceholderSyntax

variable {p : Token}

/-- A placeholder is misspelt exactly if its ending does not belong to its stem. -/
theorem isMisspelt_iff (h : p.IsPlaceholder) : isMisspelt p = true ↔ (p.stem, p.ending) ∉ endings := by
  have hnodup : (endings.map Prod.fst).Nodup := by decide
  obtain ⟨e, he, hstem⟩ := List.mem_map.1 h.stem
  have hget : Keyed.get? p.stem endings = some e.2 := Keyed.get?_of_mem hnodup (hstem ▸ he)
  rw [isMisspelt, expected, hget, Option.getD_some, bne_iff_ne, not_iff_not]
  constructor
  · rintro heq
    rw [heq, ← hstem]
    exact he
  · intro hmem
    exact Option.some.inj ((Keyed.get?_of_mem hnodup hmem).symm.trans hget)

/-- The placeholders with an ending that is not the one of their stem are reported. -/
theorem reports_run (t path : Text) : Reports info.id path t
    (fun p => p.IsPlaceholder ∧ (p.stem, p.ending) ∉ endings) (run t path) := by
  refine reports_filter (pairwise_occurrences read? t) (fun offset p => ?_) fun site hwanted hstands => ?_
  · rw [finds_read?.mem_occurrences_iff]
    constructor
    · rintro ⟨⟨p, rfl, hstands⟩, hkeep⟩
      exact ⟨⟨p.2, (isMisspelt_iff p.2).1 hkeep⟩, hstands⟩
    · rintro ⟨⟨hp, hending⟩, hstands⟩
      exact ⟨⟨⟨p, hp⟩, rfl, hstands⟩, (isMisspelt_iff hp).2 hending⟩
  · refine Finding.pointsAt_of_lineAt rfl rfl rfl ⟨_, rfl, ?_⟩ hstands
      (List.count_eq_zero.1 (count_text ⟨site.2, hwanted.1⟩))
    exact ⟨"Replace ", " with " ++ (corrected site.2).text, by simp only [List.append_assoc]⟩

end Check.PlaceholderSyntax

/-! ## References -/

/-- A workflow file keeps its path and its text. -/
theorem WorkflowDocument.path_text_of_ofText {path t : Text} {d : WorkflowDocument}
    (h : ofText path t = .ok d) : d.path = path ∧ d.text = t := by
  unfold ofText at h
  split at h
  · cases h
  · obtain rfl := Except.ok.inj h
    exact ⟨rfl, rfl⟩

namespace Check.SubworkflowReference

variable {w : Workspace} {folder : Text} {findings : List Finding} {c : ProjectConfig}

/-- The references in a file to what is not configured are reported. -/
theorem reports_findings (w : Workspace) (ids : List Text) (d : WorkflowDocument) :
    Reports info.id d.path d.text (fun p => ∃ id, reference id = p ∧ IsId id ∧ id ∉ ids)
      (SubworkflowReference.findings w ids d) := by
  refine reports_filter (pairwise_occurrences _ d.text) (fun offset p => ?_) ?_
  · show (offset, p) ∈ references d.text ∧ _ ↔ _
    rw [mem_references_iff, Bool.not_eq_true', List.contains_eq_mem, decide_eq_false_iff_not]
    constructor
    · rintro ⟨⟨id, hid, rfl, hstands⟩, hnot⟩
      exact ⟨⟨id, rfl, hid, hnot⟩, hstands⟩
    · rintro ⟨⟨id, rfl, hid, hnot⟩, hstands⟩
      exact ⟨⟨id, hid, rfl, hstands⟩, hnot⟩
  · rintro ⟨offset, p⟩ ⟨id, rfl, hid, -⟩ hstands
    refine Finding.pointsAt_of_lineAt rfl rfl rfl ⟨_, rfl, ?_⟩ hstands hid.newline_not_mem_text
    exact ⟨"The placeholder ", _, by simp only [List.append_assoc]; rfl⟩

/-- The workflow files that can be read, in the order in which they are listed, and what they say. -/
def readable (w : Workspace) (files : List Text) : List (Text × Text) :=
  files.filterMap fun path => (w.store.read path).toOption.map fun t => (path, t)

/-- The check goes from file to file. -/
theorem exists_reports_of_run (hread : ProjectConfig.read w folder = .ok c)
    (hrun : run w folder = .ok findings) : ∃ files reports, w.workflowFiles folder = .ok files ∧
      findings = reports.flatten ∧
      List.Forall₂ (fun (d : Text × Text) report => Reports info.id d.1 d.2
        (fun p => ∃ id, reference id = p ∧ IsId id ∧ id ∉ c.templateIds) report)
        (readable w files) reports := by
  unfold run at hrun
  rw [ProjectConfig.read?_of_ok hread] at hrun
  obtain ⟨configured, hconfigured, hrun⟩ := exists_of_bind_eq_ok hrun
  obtain rfl := Except.ok.inj hconfigured
  obtain ⟨documents, hdocuments, hfindings⟩ := exists_of_bind_eq_ok hrun
  obtain ⟨files, hfiles, hmapM⟩ := exists_of_bind_eq_ok hdocuments
  refine ⟨files, documents.map (SubworkflowReference.findings w c.templateIds), hfiles,
    (Except.ok.inj hfindings).symm, ?_⟩
  rw [List.forall₂_map_right_iff]
  refine (forall₂_of_mapM hmapM).imp fun d document hdocument => ?_
  obtain ⟨hpath, htext⟩ := WorkflowDocument.path_text_of_ofText hdocument
  rw [← hpath, ← htext]
  exact reports_findings w c.templateIds document

end Check.SubworkflowReference

open Check

/-- On every text the check of endings reports, in the order of their offsets, the placeholders of a known
stem whose ending is not the one of the stem.  On a project with a configuration the check of references,
unless it stops, does the same for the references to ids that are not configured, file by file in the
order of the listing.  Each has one finding, whose line is that which has the whole placeholder. -/
theorem scanners_report_each_placeholder :
    (∀ t path, Reports PlaceholderSyntax.info.id path t
      (fun p => p.IsPlaceholder ∧ (p.stem, p.ending) ∉ endings) (PlaceholderSyntax.run t path)) ∧
    ∀ w folder c findings, ProjectConfig.read w folder = .ok c →
      SubworkflowReference.run w folder = .ok findings →
      ∃ files reports, w.workflowFiles folder = .ok files ∧ findings = reports.flatten ∧
        List.Forall₂ (fun (d : Text × Text) report => Reports SubworkflowReference.info.id d.1 d.2
          (fun p => ∃ id, reference id = p ∧ IsId id ∧ id ∉ c.templateIds) report)
          (SubworkflowReference.readable w files) reports :=
  ⟨PlaceholderSyntax.reports_run, fun _ _ _ _ hread hrun =>
    SubworkflowReference.exists_reports_of_run hread hrun⟩

/-- A project whose configuration has one workflow, and with a file that refers to it on the first line
and to two others on the second one, next to each other. -/
def strayProject : Workspace where
  settings := {}
  store :=
    { files := [(["ROOT", "config.yaml"], (Utf8.encode
          "project_id: p\nworkflow_files: []\nworkflows:\n- workflow_template_id: s\n").toOption.getD []),
        (["ROOT", "workflows", "main.json"], (Utf8.encode ("[\"\x7b\x7bSUBWKFL_s_LFKWBUS\x7d\x7d\",\n" ++
          "\"\x7b\x7bSUBWKFL_s-1_LFKWBUS\x7d\x7d\x7b\x7bSUBWKFL_S_LFKWBUS\x7d\x7d\"]")).toOption.getD [])]
      folders := [["ROOT"], ["ROOT", "workflows"]]
      current := ["ROOT"] }

/-- Both are reported, on the second line. -/
theorem scanners_report_each_placeholder_strayProject :
    ∃ c findings files reports, ProjectConfig.read strayProject "." = .ok c ∧
      SubworkflowReference.run strayProject "." = .ok findings ∧
      findings.map Finding.line = [some 2, some 2] ∧
      strayProject.workflowFiles "." = .ok files ∧ findings = reports.flatten ∧
      List.Forall₂ (fun (d : Text × Text) report => Reports SubworkflowReference.info.id d.1 d.2
        (fun p => ∃ id, reference id = p ∧ IsId id ∧ id ∉ c.templateIds) report)
        (SubworkflowReference.readable strayProject files) reports := by
  have hread : (ProjectConfig.read strayProject ".").toOption.any (fun c =>
      (SubworkflowReference.run strayProject ".").toOption.any fun findings =>
        decide (findings.map Finding.line = [some 2, some 2])) = true := by decide +kernel
  obtain ⟨c, hc, hrun⟩ := exists_ok_of_any hread
  obtain ⟨findings, hfindings, hlines⟩ := exists_ok_of_any hrun
  obtain ⟨files, reports, hreports⟩ :=
    scanners_report_each_placeholder.2 strayProject "." c findings hc hfindings
  exact ⟨c, findings, files, reports, hc, hfindings, of_decide_eq_true hlines, hreports⟩

end WorkflowLint
