import WorkflowLint.Proofs.Check.Pointing
import WorkflowLint.Proofs.Store.Locating

/-!
# The ids of workflow files

The workflow files of a project are found by the ending of their names, and the id of one is its name
without an extension.  The extension is only the last part of an ending that has several dots, and a name
that is nothing but an extension is kept whole (`stem_of_names`).  So a name is its id and the ending
where the ending is an extension and not the whole name (`IsIdOf.append_suffix_iff`), and two files have
the same id only if one has the ending twice as its name and the other one has it once (`IsIdOf.eq_iff`).
-/

namespace WorkflowLint

/-! ## Stems -/

theorem Text.sep_not_mem_afterLast (sep : CodePoint) (t : Text) : sep ∉ afterLast sep t := by
  intro h
  have hne := List.mem_takeWhile_imp (List.mem_reverse.1 h)
  simp at hne

namespace Path

variable {p q e : Text} {ns : List Text}

/-- The dot in front of an extension. -/
def dot : CodePoint := .char '.'

/-- The stem of a name is what stands before its last dot, unless that dot is its first or its last code
point. -/
theorem stem_of_names (h : names p = ns ++ [q ++ dot :: e]) (he : dot ∉ e) :
    stem p = if e = [] ∨ q = [] then q ++ dot :: e else q := by
  have hlast : ((names p).getLast?).getD [] = q ++ dot :: e := by
    rw [h, List.getLast?_concat, Option.getD_some]
  have htail : ((q ++ dot :: e).reverse.takeWhile (· != .char '.')).length = e.length := by
    have hafter : Text.afterLast dot (q ++ dot :: e) = e := Text.afterLast_append he q
    rw [← List.length_reverse]
    exact congrArg List.length hafter
  have hlength : (q ++ dot :: e).length = q.length + e.length + 1 := by
    rw [List.length_append, List.length_cons, Nat.add_assoc]
  unfold stem
  simp only [hlast, htail, hlength]
  split_ifs with hcut hnil hnil
  · rcases hnil with rfl | rfl <;> simp at hcut
  · have htake : q.length + e.length + 1 - e.length - 1 = q.length := by omega
    rw [htake, List.take_left]
  · rfl
  · rw [not_or] at hnil
    have hpos := List.length_pos_of_ne_nil hnil.1
    have hpos' := List.length_pos_of_ne_nil hnil.2
    omega

/-! ## Extensions -/

/-- An ending from its last dot on. -/
def extension (suffix : Text) : Text := dot :: suffix.afterLast dot

/-- An ending that is one extension: a dot, and something behind it that has no dots. -/
def IsExtension (suffix : Text) : Prop := ∃ e, suffix = dot :: e ∧ e ≠ [] ∧ dot ∉ e

/-- What the id of a file is whose name has an ending: what the extension leaves of the name, if there is
more to the extension than its dot and more to the name than the extension. -/
def IsIdOf (suffix name id : Text) : Prop :=
  if extension suffix = [dot] ∨ name = extension suffix then id = name
  else id ++ extension suffix = name

section

variable {suffix name name' id id' : Text}

theorem isExtension_iff : IsExtension suffix ↔ extension suffix = suffix ∧ suffix ≠ [dot] := by
  constructor
  · rintro ⟨e, rfl, hne, he⟩
    have hafter : Text.afterLast dot (dot :: e) = e := Text.afterLast_append he []
    rw [extension, hafter]
    exact ⟨rfl, fun heq => hne (List.cons.inj heq).2⟩
  · rintro ⟨heq, hne⟩
    refine ⟨suffix.afterLast dot, heq.symm, fun hnil => hne ?_, Text.sep_not_mem_afterLast dot suffix⟩
    rw [← heq, extension, hnil]

/-- An ending with a dot ends with its extension. -/
theorem exists_eq_append_extension (h : dot ∈ suffix) : ∃ q, suffix = q ++ extension suffix := by
  refine Text.exists_eq_afterLast (Nat.lt_of_not_le fun hle => ?_)
  have hsuffix : suffix.afterLast dot <:+ suffix := by
    rw [← List.reverse_prefix, Text.afterLast, List.reverse_reverse]
    exact List.takeWhile_prefix _
  refine Text.sep_not_mem_afterLast dot suffix ?_
  rwa [hsuffix.eq_of_length_le hle]

/-- The stem of a name with an ending is its id. -/
theorem isIdOf_stem (hdot : dot ∈ suffix) (hname : suffix <:+ name) (h : names p = ns ++ [name]) :
    IsIdOf suffix name (stem p) := by
  obtain ⟨q, hq⟩ := exists_eq_append_extension hdot
  obtain ⟨x, rfl⟩ := hname
  have hcut : x ++ suffix = (x ++ q) ++ dot :: suffix.afterLast dot := by
    rw [List.append_assoc]
    exact congrArg (x ++ ·) hq
  have hnil : x ++ suffix = extension suffix ↔ x ++ q = [] := by
    rw [hcut, extension, List.append_left_eq_self]
  have hbare : extension suffix = [dot] ↔ suffix.afterLast dot = [] := by
    rw [extension, List.cons.injEq, eq_self_iff_true, true_and]
  have hstem := stem_of_names (hcut ▸ h) (Text.sep_not_mem_afterLast dot suffix)
  by_cases hwhole : suffix.afterLast dot = [] ∨ x ++ q = []
  · rw [IsIdOf, if_pos (hwhole.imp hbare.2 hnil.2), hstem, if_pos hwhole, hcut]
  · rw [IsIdOf, if_neg fun h => hwhole (h.imp hbare.1 hnil.1), hstem, if_neg hwhole, hcut, extension]

namespace IsIdOf

/-- A name is its id and the ending exactly if the ending is one extension and not the whole name. -/
theorem append_suffix_iff (h : IsIdOf suffix name id) (hsuffix : suffix ≠ []) :
    id ++ suffix = name ↔ IsExtension suffix ∧ name ≠ suffix := by
  rw [isExtension_iff]
  unfold IsIdOf at h
  split_ifs at h with hwhole
  · subst h
    refine iff_of_false (fun heq => hsuffix (List.append_right_eq_self.1 heq)) ?_
    rintro ⟨⟨heq, hne⟩, hname⟩
    rw [heq] at hwhole
    exact hwhole.elim hne hname
  · rw [not_or] at hwhole
    constructor
    · intro heq
      have hext : extension suffix = suffix := List.append_cancel_left (h.trans heq.symm)
      rw [hext] at hwhole
      exact ⟨⟨hext, hwhole.1⟩, hwhole.2⟩
    · rintro ⟨⟨heq, -⟩, -⟩
      rwa [heq] at h

/-- A name that is kept whole has the id of another one only if the ending is one extension, which stands
once and twice in them. -/
theorem eq_of_whole (h : IsIdOf suffix name id) (h' : IsIdOf suffix name' id) (hdot : dot ∈ suffix)
    (hname : suffix <:+ name) (hwhole : extension suffix = [dot] ∨ name = extension suffix)
    (hcut : ¬ (extension suffix = [dot] ∨ name' = extension suffix)) :
    IsExtension suffix ∧ name = suffix ∧ name' = suffix ++ suffix := by
  rw [IsIdOf, if_pos hwhole] at h
  rw [IsIdOf, if_neg hcut] at h'
  rw [not_or] at hcut
  have hextension := hwhole.resolve_left hcut.1
  have hsuffix : extension suffix = suffix := by
    obtain ⟨q, hq⟩ := exists_eq_append_extension hdot
    exact List.IsSuffix.eq_of_length_le ⟨q, hq.symm⟩ (hextension ▸ hname.length_le)
  rw [hsuffix] at hcut hextension h'
  exact ⟨isExtension_iff.2 ⟨hsuffix, hcut.1⟩, hextension, by rw [← h', h, hextension]⟩

/-- Once and twice an extension have the extension as their id. -/
theorem eq_suffix (hsuffix : IsExtension suffix) (h : IsIdOf suffix name id)
    (hname : name = suffix ∨ name = suffix ++ suffix) : id = suffix := by
  obtain ⟨hextension, hdot⟩ := isExtension_iff.1 hsuffix
  have hne : suffix ≠ [] := by
    rw [← hextension]
    exact List.cons_ne_nil _ _
  rw [IsIdOf, hextension] at h
  rcases hname with rfl | rfl
  · rwa [if_pos (.inr rfl)] at h
  · rw [if_neg (not_or.2 ⟨hdot, fun heq => hne (List.append_right_eq_self.1 heq)⟩)] at h
    exact List.append_cancel_right h

/-- Two names with an ending have the same id exactly if the ending is one extension, and one of them is
the ending and the other one is it twice. -/
theorem eq_iff (h : IsIdOf suffix name id) (h' : IsIdOf suffix name' id') (hdot : dot ∈ suffix)
    (hname : suffix <:+ name) (hname' : suffix <:+ name') (hne : name ≠ name') :
    id = id' ↔ IsExtension suffix ∧
      (name = suffix ∧ name' = suffix ++ suffix ∨ name' = suffix ∧ name = suffix ++ suffix) := by
  constructor
  · rintro rfl
    by_cases hwhole : extension suffix = [dot] ∨ name = extension suffix
    · by_cases hwhole' : extension suffix = [dot] ∨ name' = extension suffix
      · rw [IsIdOf, if_pos hwhole] at h
        rw [IsIdOf, if_pos hwhole'] at h'
        exact absurd (h.symm.trans h') hne
      · exact (eq_of_whole h h' hdot hname hwhole hwhole').imp_right .inl
    · by_cases hwhole' : extension suffix = [dot] ∨ name' = extension suffix
      · exact (eq_of_whole h' h hdot hname' hwhole' hwhole).imp_right .inr
      · rw [IsIdOf, if_neg hwhole] at h
        rw [IsIdOf, if_neg hwhole'] at h'
        exact absurd (h.symm.trans h') hne
  · rintro ⟨hsuffix, ⟨hone, htwo⟩ | ⟨hone, htwo⟩⟩
    · exact (eq_suffix hsuffix h (.inl hone)).trans (eq_suffix hsuffix h' (.inr htwo)).symm
    · exact (eq_suffix hsuffix h (.inr htwo)).trans (eq_suffix hsuffix h' (.inl hone)).symm

end IsIdOf

end

end Path

/-! ## Listed files -/

namespace Workspace

variable {w : Workspace} {folder p : Text} {files : List Text}

/-- A listed file is in one folder with the others, under a name with the ending of workflow files. -/
theorem exists_of_mem_workflowFiles (hs : w.store.Sound) (h : w.workflowFiles folder = .ok files)
    (hp : p ∈ files) : ∃ n, p = w.store.absolute
        (Path.join (w.workflowsPath (w.store.absolute folder)) n) ∧
      Store.IsEntry n ∧ w.settings.suffix <:+ n := by
  obtain ⟨names, hnames, hfiles⟩ := exists_of_bind_eq_ok h
  obtain rfl := Except.ok.inj hfiles
  obtain ⟨n, hn, rfl⟩ := List.mem_map.1 hp
  rw [List.mem_filter] at hn
  refine ⟨n, rfl, ?_, List.isSuffixOf_iff_suffix.1 hn.2⟩
  unfold Store.list at hnames
  split at hnames
  · rw [← Except.ok.inj hnames] at hn
    exact nomatch hn.1
  · next l hl =>
    split_ifs at hnames
    rw [← Except.ok.inj hnames, Store.mem_fileNames_iff] at hn
    exact hs.entries _ (List.mem_append_left _ hn.1) n
      (List.mem_append_right _ (List.mem_singleton_self n))

/-- The name of a listed file is the last one of its path and has the ending of workflow files. -/
theorem names_of_mem_workflowFiles (hs : w.store.Sound) (h : w.workflowFiles folder = .ok files)
    (hp : p ∈ files) : w.settings.suffix <:+ Path.base p ∧ ∃ ns, Path.names p = ns ++ [Path.base p] := by
  obtain ⟨n, rfl, hn, hsuffix⟩ := exists_of_mem_workflowFiles hs h hp
  rw [hs.base_absolute_join hn.isName hn.ne_up]
  exact ⟨hsuffix, _, hs.names_absolute_join hn.isName hn.ne_up _⟩

/-- Listed files have different names. -/
theorem eq_of_base_eq {q : Text} (hs : w.store.Sound) (h : w.workflowFiles folder = .ok files)
    (hp : p ∈ files) (hq : q ∈ files) (hbase : Path.base p = Path.base q) : p = q := by
  obtain ⟨n, rfl, hn, -⟩ := exists_of_mem_workflowFiles hs h hp
  obtain ⟨m, rfl, hm, -⟩ := exists_of_mem_workflowFiles hs h hq
  rw [hs.base_absolute_join hn.isName hn.ne_up, hs.base_absolute_join hm.isName hm.ne_up] at hbase
  rw [hbase]

end Workspace

/-! ## Ids -/

/-- The ending of workflow files starts with a dot. -/
theorem Settings.dot_mem_of_chooseSuffix {e : Environment} {d : Defaults} {suffix : Text}
    (h : chooseSuffix e d = .ok suffix) : Path.dot ∈ suffix := by
  have hdotted : ∀ t, Path.dot ∈ dotted t := by
    intro t
    unfold dotted
    split_ifs with hdot
    · exact List.mem_of_mem_head? hdot
    · exact List.mem_cons_self ..
  unfold chooseSuffix at h
  split at h
  · exact Except.ok.inj h ▸ hdotted _
  · cases hproject : d.project "workflow_suffix" builtIn.suffix with
    | error f =>
      rw [hproject] at h
      exact nomatch h
    | ok t =>
      rw [hproject] at h
      exact Except.ok.inj h ▸ hdotted t

namespace WorkflowDocument

open Check.SubworkflowReference (readable)

variable {w : Workspace} {folder : Text} {documents : List WorkflowDocument}

/-- A document is a file with its text, with the stem of its name and with its members. -/
structure IsOf (d : WorkflowDocument) (file : Text × Text) : Prop where
  path : d.path = file.1
  templateId : d.templateId = Path.stem file.1
  text : d.text = file.2
  members : Json.readObject file.2 = .ok d.members

theorem isOf_of_ofText {path t : Text} {d : WorkflowDocument} (h : ofText path t = .ok d) :
    d.IsOf (path, t) := by
  unfold ofText at h
  split at h
  · cases h
  · next members hmembers =>
    obtain rfl := Except.ok.inj h
    exact ⟨rfl, rfl, rfl, hmembers⟩

/-- The documents of a project are its workflow files that can be read, in the order of the listing. -/
theorem forall₂_of_readAll (h : readAll w folder = .ok documents) :
    ∃ files, w.workflowFiles folder = .ok files ∧
      List.Forall₂ (fun file d => d.IsOf file) (readable w files) documents := by
  obtain ⟨files, hfiles, hmapM⟩ := exists_of_bind_eq_ok h
  exact ⟨files, hfiles, (forall₂_of_mapM hmapM).imp fun file d hd => isOf_of_ofText hd⟩

theorem mem_of_mem_readable {files : List Text} {file : Text × Text} (h : file ∈ readable w files) :
    file.1 ∈ files ∧ w.store.read file.1 = .ok file.2 := by
  obtain ⟨path, hpath, hread⟩ := List.mem_filterMap.1 h
  obtain ⟨t, ht, rfl⟩ := Option.map_eq_some_iff.1 hread
  exact ⟨hpath, eq_ok_of_toOption ht⟩

/-- The ids of workflow files, whatever the ending of their names is: the id of a file is what its name
has before the last extension of the ending, but the whole name if that extension is only a dot or nothing
stands before it.  So the id and the ending make the name exactly if the ending is one extension and the
name is more than that, and different files have the same id exactly if the ending is one extension and
their names are it and it twice. -/
theorem templateIds {e : Environment} {defaults : Settings.Defaults}
    (hsuffix : Settings.chooseSuffix e defaults = .ok w.settings.suffix) (hs : w.store.Sound)
    (h : readAll w folder = .ok documents) :
    ∃ files, w.workflowFiles folder = .ok files ∧
      documents.map (fun d => (d.path, d.text)) = readable w files ∧
      (∀ d ∈ documents, Path.IsIdOf w.settings.suffix (Path.base d.path) d.templateId) ∧
      (∀ d ∈ documents, d.templateId ++ w.settings.suffix = Path.base d.path ↔
        Path.IsExtension w.settings.suffix ∧ Path.base d.path ≠ w.settings.suffix) ∧
      ∀ d ∈ documents, ∀ d' ∈ documents, d.path ≠ d'.path →
        (d.templateId = d'.templateId ↔ Path.IsExtension w.settings.suffix ∧
          (Path.base d.path = w.settings.suffix ∧
              Path.base d'.path = w.settings.suffix ++ w.settings.suffix ∨
            Path.base d'.path = w.settings.suffix ∧
              Path.base d.path = w.settings.suffix ++ w.settings.suffix)) := by
  have hdot := Settings.dot_mem_of_chooseSuffix hsuffix
  obtain ⟨files, hfiles, hall⟩ := forall₂_of_readAll h
  have hof : ∀ d ∈ documents, d.path ∈ files ∧ d.templateId = Path.stem d.path := by
    intro d hd
    obtain ⟨file, hfile, hisOf⟩ := exists_of_mem_forall₂ hall hd
    rw [hisOf.templateId, hisOf.path]
    exact ⟨(mem_of_mem_readable hfile).1, rfl⟩
  have hends : ∀ d ∈ documents, w.settings.suffix <:+ Path.base d.path := fun d hd =>
    (w.names_of_mem_workflowFiles hs hfiles (hof d hd).1).1
  have hid : ∀ d ∈ documents, Path.IsIdOf w.settings.suffix (Path.base d.path) d.templateId := by
    intro d hd
    obtain ⟨hsuffix, ns, hns⟩ := w.names_of_mem_workflowFiles hs hfiles (hof d hd).1
    rw [(hof d hd).2]
    exact Path.isIdOf_stem hdot hsuffix hns
  refine ⟨files, hfiles, ?_, hid, fun d hd => ?_, fun d hd d' hd' hne => ?_⟩
  · refine (List.forall₂_eq_eq_eq ▸ List.forall₂_map_right_iff.2 (hall.imp fun file d hd => ?_)).symm
    rw [hd.path, hd.text]
  · exact (hid d hd).append_suffix_iff (List.ne_nil_of_mem hdot)
  · refine (hid d hd).eq_iff (hid d' hd') hdot (hends d hd) (hends d' hd') fun heq => hne ?_
    exact w.eq_of_base_eq hs hfiles (hof d hd).1 (hof d' hd').1 heq

/-- A project with empty workflow files of some names. -/
def emptyProject (suffix : Text) (names : List Text) : Workspace where
  settings := { suffix := suffix }
  store :=
    { files := names.map fun n => (["ROOT", "workflows", n], [])
      folders := [["ROOT"], ["ROOT", "workflows"]]
      current := ["ROOT"] }

/-- A project with files that are named by an extension, by it twice and by it behind something. -/
def extensionProject : Workspace := emptyProject ".json" [".json", ".json.json", "main.json"]

/-- The files of the project are listed in the order in which they are in it. -/
theorem workflowFiles_extensionProject : extensionProject.workflowFiles "." =
    .ok ["/ROOT/workflows/.json", "/ROOT/workflows/.json.json", "/ROOT/workflows/main.json"] := by
  have hdir : extensionProject.workflowsPath (extensionProject.store.absolute ".") =
      "/ROOT/workflows" := by decide +kernel
  have hfolder : (extensionProject.store.locate? "/ROOT/workflows").filter
      extensionProject.store.hasFolder = some (["ROOT", "workflows"] : Location) := by decide +kernel
  have hlist : extensionProject.store.list "/ROOT/workflows" =
      .ok [".json", ".json.json", "main.json"] := by
    rw [Store.list, hfolder]
    exact congrArg Except.ok (List.mergeSort_of_pairwise (by decide +kernel))
  rw [Workspace.workflowFiles, hdir, hlist]
  decide +kernel

/-- The first two have the same id. -/
theorem templateIds_extensionProject :
    ∃ documents, readAll extensionProject "." = .ok documents ∧
      documents.map templateId = ([".json", ".json", "main"] : List Text) ∧
      ∀ d ∈ documents, ∀ d' ∈ documents, d.path ≠ d'.path →
        (d.templateId = d'.templateId ↔ Path.IsExtension ".json" ∧
          (Path.base d.path = ".json" ∧ Path.base d'.path = ".json" ++ ".json" ∨
            Path.base d'.path = ".json" ∧ Path.base d.path = ".json" ++ ".json")) := by
  have hread : (readAll extensionProject ".").toOption.any (fun documents =>
      decide (documents.map templateId = ([".json", ".json", "main"] : List Text))) = true := by
    rw [readAll, workflowFiles_extensionProject]
    decide +kernel
  obtain ⟨documents, hdocuments, hids⟩ := exists_ok_of_any hread
  have hsuffix : Settings.chooseSuffix {} Settings.Defaults.none =
      .ok extensionProject.settings.suffix := by decide
  obtain ⟨files, -, -, -, -, hunique⟩ := templateIds hsuffix (by decide +kernel) hdocuments
  exact ⟨documents, hdocuments, of_decide_eq_true hids, hunique⟩

/-- The id of a file keeps all but the last of two extensions. -/
theorem not_templateId_append_suffix :
    Settings.chooseSuffix { suffix := some "n8n.json" } Settings.Defaults.none = .ok ".n8n.json" ∧
    (emptyProject ".n8n.json" ["main.n8n.json"]).store.Sound ∧
    ∃ documents, readAll (emptyProject ".n8n.json" ["main.n8n.json"]) "." = .ok documents ∧
      documents.map templateId = (["main.n8n"] : List Text) ∧
      ¬ ∀ d ∈ documents, d.templateId ++ ".n8n.json" = Path.base d.path := by
  have hread : (readAll (emptyProject ".n8n.json" ["main.n8n.json"]) ".").toOption.any (fun documents =>
      decide (documents.map templateId = (["main.n8n"] : List Text) ∧
        ¬ ∀ d ∈ documents, d.templateId ++ ".n8n.json" = Path.base d.path)) = true := by
    decide +kernel
  obtain ⟨documents, hdocuments, hids⟩ := exists_ok_of_any hread
  exact ⟨by decide, by decide +kernel, documents, hdocuments, of_decide_eq_true hids⟩

end WorkflowDocument
end WorkflowLint
