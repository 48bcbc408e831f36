import WorkflowLint.Proofs.Check.Identifying
import WorkflowLint.Proofs.Check.Tidying

/-!
# Fixes in any order

The fixes that edit documents can be run in any order (`fixes_commute`): what they come to is read
as the same document but for the order of members.  Edits of two kinds commute, and so do two of
properties or of webhooks, so that a run of edits can be sorted by kind (`foldl_run_eq`).  Of two
settings the order shows only in which of them is added first.
-/

namespace WorkflowLint

namespace Check

open Json

variable {document : Members} {name : Text} {change : Members → Members}

/-! ## Nodes beside other members -/

/-- What leaves the nodes alone can be done before or after these are changed. -/
theorem mapNodes_comm {f : Members → Members}
    (hget : (f document).get? "nodes" = document.get? "nodes")
    (hset : ∀ nodes, document.get? "nodes" ≠ none →
      (f document).set "nodes" nodes = f (document.set "nodes" nodes)) :
    mapNodes change (f document) = f (mapNodes change document) := by
  cases hraw : rawNodes? document with
  | none =>
    have hraw' : rawNodes? (f document) = none := by rw [rawNodes?, hget, ← hraw, rawNodes?]
    rw [mapNodes_eq_self hraw, mapNodes_eq_self hraw']
  | some items =>
    have hnodes := rawNodes?_eq_some_iff.1 hraw
    rw [mapNodes_of_rawNodes? hnodes, mapNodes_of_rawNodes? (hget.trans hnodes)]
    exact hset _ (by simp [hnodes])

theorem mapNodes_set {v : Json} (h : name ≠ ↑"nodes") :
    mapNodes change (document.set name v) = (mapNodes change document).set name v := by
  refine mapNodes_comm (f := fun ms => ms.set name v) ?_ fun nodes hnodes => ?_
  · rw [get?_set, if_neg h]
  · have hmem : ↑"nodes" ∈ document.map (·.1) :=
      Keyed.isSome_get?_iff.1 (Option.isSome_iff_ne_none.2 hnodes)
    exact Keyed.set_comm hmem (Ne.symm h)

theorem mapNodes_erase (h : name ≠ ↑"nodes") :
    mapNodes change (document.erase name) = (mapNodes change document).erase name := by
  refine mapNodes_comm (f := fun ms => ms.erase name) ?_ fun nodes _ => ?_
  · rw [get?_erase, if_neg (Ne.symm h)]
  · have hkept : (↑"nodes" != name) = true := bne_iff_ne.2 (Ne.symm h)
    exact (Keyed.filter_set (fun n => n != name) hkept).symm

/-! ## Edits -/

/-- What the fix of a finding on a document does. -/
inductive Edit where
  /-- Sets a setting. -/
  | settle (r : Text × Text)
  /-- Drops a property. -/
  | sanitise (key : Text)
  /-- Gives the webhooks of a name an id. -/
  | identify (name : Json)

namespace Edit

def run : Edit → Members → Members
  | settle r => RequiredSettings.setSetting r.1 (.string r.2)
  | sanitise key => ForbiddenProperties.dropProperty key
  | identify name => WebhookId.addId name

/-- The setting that an edit sets. -/
def setting? : Edit → Option (Text × Text)
  | settle r => some r
  | _ => none

/-- The property that an edit drops. -/
def property? : Edit → Option Text
  | sanitise key => some key
  | _ => none

/-- The name whose webhooks an edit gives an id. -/
def name? : Edit → Option Json
  | identify name => some name
  | _ => none

/-- An edit does not drop a member that the others are about. -/
def Sparing (e : Edit) : Prop := ∀ key ∈ e.property?, key ≠ ↑"settings" ∧ key ≠ ↑"nodes"

theorem gentle_run (e : Edit) : Gentle e.run := by
  cases e with
  | settle r => exact RequiredSettings.gentle_setSetting r.1 r.2
  | sanitise key => exact ForbiddenProperties.gentle_dropProperty key
  | identify name => exact WebhookId.gentle_addId name

/-! ## Edits of different kinds -/

section

variable {key : Text} {keys : List Text} (k : Text) (v : Json) (n : Json) (names : List Json)

theorem setSetting_dropProperty (h : key ≠ ↑"settings") (document : Members) :
    ForbiddenProperties.dropProperty key (RequiredSettings.setSetting k v document) =
      RequiredSettings.setSetting k v (ForbiddenProperties.dropProperty key document) := by
  have hsettings : RequiredSettings.settings (document.erase key) =
      RequiredSettings.settings document := by
    rw [RequiredSettings.settings, get?_erase, if_neg (Ne.symm h), RequiredSettings.settings]
  have hkept : (↑"settings" != key) = true := bne_iff_ne.2 (Ne.symm h)
  unfold ForbiddenProperties.dropProperty RequiredSettings.setSetting
  rw [hsettings]
  exact Keyed.filter_set (fun other => other != key) hkept

theorem addId_setSetting (document : Members) :
    WebhookId.addId n (RequiredSettings.setSetting k v document) =
      RequiredSettings.setSetting k v (WebhookId.addId n document) := by
  have hsettings : RequiredSettings.settings (WebhookId.addId n document) =
      RequiredSettings.settings document := by
    rw [RequiredSettings.settings, WebhookId.addId_eq, get?_mapNodes (by decide),
      RequiredSettings.settings]
  rw [RequiredSettings.setSetting, RequiredSettings.setSetting, hsettings, WebhookId.addId_eq,
    mapNodes_set (by decide)]

theorem sanitise_setSetting (h : ∀ key ∈ keys, key ≠ ↑"settings") (document : Members) :
    ForbiddenProperties.sanitise keys (RequiredSettings.setSetting k v document) =
      RequiredSettings.setSetting k v (ForbiddenProperties.sanitise keys document) := by
  induction keys generalizing document with
  | nil => rfl
  | cons key keys ih =>
    obtain ⟨hkey, hkeys⟩ := List.forall_mem_cons.1 h
    rw [ForbiddenProperties.sanitise_cons, setSetting_dropProperty k v hkey, ih hkeys,
      ForbiddenProperties.sanitise_cons]

theorem sanitise_addId (h : ∀ key ∈ keys, key ≠ ↑"nodes") (document : Members) :
    ForbiddenProperties.sanitise keys (WebhookId.addId n document) =
      WebhookId.addId n (ForbiddenProperties.sanitise keys document) := by
  induction keys generalizing document with
  | nil => rfl
  | cons key keys ih =>
    obtain ⟨hkey, hkeys⟩ := List.forall_mem_cons.1 h
    rw [ForbiddenProperties.sanitise_cons, ForbiddenProperties.sanitise_cons, ← ih hkeys,
      WebhookId.addId_eq]
    exact congrArg _ (mapNodes_erase hkey).symm

theorem identify_setSetting (document : Members) :
    WebhookId.identify names (RequiredSettings.setSetting k v document) =
      RequiredSettings.setSetting k v (WebhookId.identify names document) :=
  List.foldl_hom (RequiredSettings.setSetting k v) fun document n => addId_setSetting k v n document

end

/-! ## Edits sorted by kind -/

variable {es es' : List Edit}

/-- Edits come to what those of properties, then those of webhooks and then those of settings come
to. -/
theorem foldl_run_eq (hes : ∀ e ∈ es, e.Sparing) (document : Members) :
    es.foldl (fun document e => e.run document) document =
      RequiredSettings.settle (es.filterMap setting?)
        (WebhookId.identify (es.filterMap name?)
          (ForbiddenProperties.sanitise (es.filterMap property?) document)) := by
  induction es generalizing document with
  | nil => rfl
  | cons e es ih =>
    obtain ⟨-, hes⟩ := List.forall_mem_cons.1 hes
    have hkeys : ∀ key ∈ es.filterMap property?, key ≠ ↑"settings" ∧ key ≠ ↑"nodes" := by
      intro key hkey
      obtain ⟨e, he, hproperty⟩ := List.mem_filterMap.1 hkey
      exact hes e he key hproperty
    rw [List.foldl_cons, ih hes]
    cases e with
    | settle r =>
      have hrun : (settle r).run document =
        RequiredSettings.setSetting r.1 (.string r.2) document := rfl
      rw [hrun, sanitise_setSetting _ _ fun key hkey => (hkeys key hkey).1, identify_setSetting]
      rfl
    | sanitise key => rfl
    | identify n =>
      have hrun : (identify n).run document = WebhookId.addId n document := rfl
      rw [hrun, sanitise_addId _ fun key hkey => (hkeys key hkey).2]
      rfl

/-! ## Edits of one kind -/

theorem sanitise_perm {keys keys' : List Text} (h : keys.Perm keys') (document : Members) :
    ForbiddenProperties.sanitise keys document = ForbiddenProperties.sanitise keys' document := by
  rw [ForbiddenProperties.sanitise_eq_filter, ForbiddenProperties.sanitise_eq_filter]
  exact List.filter_congr fun m _ => decide_eq_decide.2 (not_congr h.mem_iff)

theorem identify_perm {names names' : List Json} (h : names.Perm names') (document : Members) :
    WebhookId.identify names document = WebhookId.identify names' document := by
  rw [WebhookId.identify_eq_mapNodes, WebhookId.identify_eq_mapNodes]
  refine mapNodes_congr fun node _ => ?_
  rw [WebhookId.identifyNode_eq, WebhookId.identifyNode_eq, h.any_eq]

theorem setAll_perm {rs rs' : List (Text × Text)} (hperm : rs.Perm rs') (h : (rs.map (·.1)).Nodup)
    {st : Members} (hst : (st.map (·.1)).Nodup) :
    (RequiredSettings.setAll rs st).Perm (RequiredSettings.setAll rs' st) := by
  have heq : ∀ rs, RequiredSettings.setAll rs st =
      (rs.map (Prod.map id Json.string)).foldl (fun st p => Keyed.set p.1 p.2 st) st := by
    intro rs
    rw [List.foldl_map]
    rfl
  have hnames : (rs.map (Prod.map id Json.string)).map (·.1) = rs.map (·.1) := by
    rw [List.map_map]
    rfl
  rw [heq, heq]
  exact Keyed.perm_foldl_set (hperm.map _) (hnames ▸ h) hst

/-- Settings with different names can be set in any order but for that of members. -/
theorem reordered_settle {rs rs' : List (Text × Text)} (hperm : rs.Perm rs')
    (h : (rs.map (·.1)).Nodup) (hst : ((RequiredSettings.settings document).map (·.1)).Nodup) :
    Reordered (.object (RequiredSettings.settle rs document))
      (.object (RequiredSettings.settle rs' document)) := by
  cases rs with
  | nil =>
    rw [hperm.nil_eq]
    exact reordered_refl _
  | cons r rs =>
    cases rs' with
    | nil => exact absurd hperm.eq_nil (List.cons_ne_nil r rs)
    | cons r' rs' =>
      rw [RequiredSettings.settle_cons_eq, RequiredSettings.settle_cons_eq]
      exact reordered_set (reordered_of_perm (setAll_perm hperm h hst))

/-- Edits in another order come to the same document but for the order of members. -/
theorem reordered_foldl_run (hperm : es.Perm es') (hes : ∀ e ∈ es, e.Sparing)
    (hnames : ((es.filterMap setting?).map (·.1)).Nodup)
    (hst : ((RequiredSettings.settings document).map (·.1)).Nodup) :
    Reordered (.object (es.foldl (fun document e => e.run document) document))
      (.object (es'.foldl (fun document e => e.run document) document)) := by
  have hes' : ∀ e ∈ es', e.Sparing := fun e he => hes e (hperm.mem_iff.2 he)
  have hkeys : ↑"settings" ∉ es.filterMap property? := by
    intro hmem
    obtain ⟨e, he, hproperty⟩ := List.mem_filterMap.1 hmem
    exact (hes e he _ hproperty).1 rfl
  rw [foldl_run_eq hes, foldl_run_eq hes', ← sanitise_perm (hperm.filterMap property?),
    ← identify_perm (hperm.filterMap name?)]
  refine reordered_settle (hperm.filterMap setting?) hnames ?_
  -- the edits of properties and webhooks do not touch the settings
  rwa [RequiredSettings.settings, WebhookId.get?_identify _ (by decide),
    ForbiddenProperties.get?_sanitise, if_neg hkeys]

end Edit

/-! ## The fixes of a document -/

section

variable (path : Text)

/-- The edits for what was found on a document. -/
def editsFor (document : Members) : List Edit :=
  (unsettled path document).map .settle ++ (unwanted document).map .sanitise ++
    (unidentified document).map .identify

theorem makes_editsFor (t : Text) (document : Members) :
    List.Forall₂ Fix.Makes ((editFindings path t document).filterMap (·.fix))
      ((editsFor path document).map Edit.run) := by
  rw [editFindings, List.filterMap_append, List.filterMap_append, editsFor, List.map_append,
    List.map_append, List.map_map, List.map_map, List.map_map]
  exact List.rel_append (List.rel_append (makes_settingFindings path document)
    (makes_propertyFindings path document)) (makes_webhookFindings path t document)

theorem sparing_of_mem_editsFor {e : Edit} (he : e ∈ editsFor path document) : e.Sparing := by
  have hforbidden : ∀ f ∈ ForbiddenProperties.forbidden, f.1 ≠ ↑"settings" ∧ f.1 ≠ ↑"nodes" := by
    decide
  rcases List.mem_append.1 he with he | he
  · rcases List.mem_append.1 he with he | he
    · obtain ⟨r, -, rfl⟩ := List.mem_map.1 he
      exact fun key hkey => absurd hkey.symm (Option.some_ne_none key)
    · obtain ⟨key, hkey, rfl⟩ := List.mem_map.1 he
      obtain ⟨f, hf, rfl⟩ := List.mem_map.1 ((mem_unwanted_iff document).1 hkey).2
      rintro _ ⟨⟩
      exact hforbidden f hf
  · obtain ⟨n, -, rfl⟩ := List.mem_map.1 he
    exact fun key hkey => absurd hkey.symm (Option.some_ne_none key)

theorem filterMap_setting?_editsFor (document : Members) :
    (editsFor path document).filterMap Edit.setting? = unsettled path document := by
  simp [editsFor, List.filterMap_map, Function.comp_def, Edit.setting?]

/-- Each setting is set once, and in an object without a name twice. -/
theorem nodup_of_perm_editsFor {es : List Edit} (hperm : es.Perm (editsFor path document))
    (hfits : Fits depthLimit (.object document)) :
    ((es.filterMap Edit.setting?).map (·.1)).Nodup ∧
      ((RequiredSettings.settings document).map (·.1)).Nodup := by
  constructor
  · have hrequired : (RequiredSettings.required.map (·.1)).Nodup := by decide
    refine ((hperm.filterMap Edit.setting?).map _).nodup_iff.2 ?_
    rw [filterMap_setting?_editsFor]
    exact hrequired.sublist (List.filter_sublist.map _)
  · obtain ⟨d, hd⟩ : ∃ d, depthLimit = d + 1 + 1 := ⟨998, rfl⟩
    rw [hd] at hfits
    obtain ⟨-, -, hnodup, -⟩ := fits_object_iff.1 (RequiredSettings.fits_settings hfits)
    exact hnodup

/-- Fixes of what was found on a document, in whatever order, make some of the edits for it. -/
theorem exists_editsFor_of_perm {t : Text} {fixes : List Fix}
    (h : fixes.Perm ((editFindings path t document).filterMap (·.fix))) :
    ∃ es : List Edit, es.Perm (editsFor path document) ∧
      List.Forall₂ Fix.Makes fixes (es.map Edit.run) := by
  obtain ⟨es, hmakes, hperm⟩ := List.perm_comp_forall₂ h
    (List.forall₂_map_right_iff.1 (makes_editsFor path t document))
  exact ⟨es, hperm, List.forall₂_map_right_iff.2 hmakes⟩

end

/-- A document without settings, with a tag and with a webhook that has no id. -/
def mixedText : Text :=
  "\x7b\"tags\":[],\"nodes\":[\x7b\"type\":\"n8n-nodes-base.webhook\",\"name\":\"Hook\"\x7d]\x7d"

end Check

end WorkflowLint
