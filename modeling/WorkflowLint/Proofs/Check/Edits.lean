import Mathlib.Data.List.Forall2
import WorkflowLint.Check.WebhookId
import WorkflowLint.Check.WorkflowSettings
import WorkflowLint.Finding.Fix
import WorkflowLint.Proofs.Json.RoundTrip

/-!
# Edits of documents

The three edits of the built-in checks set a setting, drop a property and give webhooks an id.  They
are *gentle*: a document that they edit can still be written and read back, and where the edited
document equals the one before, it is the one before.  So a text on which some fixes of this kind
have run is read as the document on which their edits have run (`Fix.read_applyAll`), whether or
not each of them wrote it anew; and none of these fixes stops (`Fix.exists_runsTo_of_makes`).
-/

namespace WorkflowLint

namespace Json

variable {ms : Members} {name : Text} {s : Text} {v w : Json} {depth : Nat}

/-! ## Equal documents -/

theorem eq_string_of_same (h : same (.string s) v = true) : v = .string s := by
  cases v with
  | string t =>
    have hst : (s == t) = true := h
    rw [beq_iff_eq.1 hst]
  | _ => exact absurd h Bool.false_ne_true

theorem exists_object_of_same (h : same (.object ms) v = true) :
    ∃ others, v = .object others ∧ ms.length = others.length ∧ sameMembers ms others = true := by
  cases v with
  | object others =>
    simp only [same, Bool.and_eq_true, beq_iff_eq] at h
    exact ⟨others, rfl, h⟩
  | _ =>
    simp only [same] at h
    exact absurd h Bool.false_ne_true

theorem exists_get?_of_sameMembers {others : Members} (h : sameMembers ms others = true)
    (hmem : (name, v) ∈ ms) : ∃ w, others.get? name = some w ∧ same v w = true := by
  induction ms with
  | nil => simp at hmem
  | cons m ms ih =>
    obtain ⟨n, u⟩ := m
    rw [sameMembers, Bool.and_eq_true] at h
    rcases List.mem_cons.1 hmem with heq | hmem
    · obtain ⟨rfl, rfl⟩ := Prod.mk.inj heq
      cases hget : others.get? name with
      | none => simp [hget] at h
      | some w => exact ⟨w, rfl, by simpa [hget] using h.1⟩
    · exact ih h.2 hmem

/-- Where giving a member a value leaves the document equal, the member has an equal value. -/
theorem exists_get?_of_same_set (h : same (.object (ms.set name v)) (.object ms) = true) :
    ∃ w, ms.get? name = some w ∧ same v w = true := by
  obtain ⟨others, heq, -, hsame⟩ := exists_object_of_same h
  obtain rfl := Json.object.inj heq
  exact exists_get?_of_sameMembers hsame Keyed.mem_set_self

theorem map_eq_self_of_sameItems {change : Json → Json} {items : List Json}
    (hchange : ∀ v ∈ items, same (change v) v = true → change v = v)
    (h : sameItems (items.map change) items = true) : items.map change = items := by
  induction items with
  | nil => rfl
  | cons v items ih =>
    rw [List.map_cons, sameItems, Bool.and_eq_true] at h
    obtain ⟨hv, hitems⟩ := List.forall_mem_cons.1 hchange
    rw [List.map_cons, hv h.1, ih hitems h.2]

/-! ## Values that fit -/

theorem fits_object_iff :
    Fits depth (.object ms) ↔
      ∃ d, depth = d + 1 ∧ (ms.map (·.1)).Nodup ∧ ∀ m ∈ ms, Fits d m.2 := by
  constructor
  · intro h
    cases h with
    | @object d _ hnodup hmem => exact ⟨d, rfl, hnodup, hmem⟩
  · rintro ⟨d, rfl, hnodup, hmem⟩
    exact .object hnodup hmem

theorem fits_array_iff {items : List Json} :
    Fits depth (.array items) ↔ ∃ d, depth = d + 1 ∧ ∀ v ∈ items, Fits d v := by
  constructor
  · intro h
    cases h with
    | @array d _ hmem => exact ⟨d, rfl, hmem⟩
  · rintro ⟨d, rfl, hmem⟩
    exact .array hmem

theorem Fits.get? (h : Fits (depth + 1) (.object ms)) (hget : ms.get? name = some v) :
    Fits depth v := by
  obtain ⟨d, hd, -, hmem⟩ := fits_object_iff.1 h
  obtain rfl : depth = d := Nat.succ.inj hd
  exact hmem _ (Keyed.mem_of_get? hget)

theorem Fits.set (h : Fits (depth + 1) (.object ms)) (hv : Fits depth v) :
    Fits (depth + 1) (.object (ms.set name v)) := by
  obtain ⟨d, hd, hnodup, hmem⟩ := fits_object_iff.1 h
  obtain rfl : depth = d := Nat.succ.inj hd
  refine .object (Keyed.nodup_set hnodup) ?_
  intro m hm
  rcases Keyed.mem_of_mem_set hm with hm | rfl
  · exact hmem m hm
  · exact hv

theorem Fits.erase (h : Fits depth (.object ms)) : Fits depth (.object (ms.erase name)) := by
  obtain ⟨d, rfl, hnodup, hmem⟩ := fits_object_iff.1 h
  refine .object (hnodup.sublist (List.filter_sublist.map _)) ?_
  intro m hm
  exact hmem m (List.mem_filter.1 hm).1

theorem get?_set (name other : Text) (v : Json) (ms : Members) :
    (ms.set name v).get? other = if name = other then some v else ms.get? other :=
  Keyed.get?_set name other v ms

theorem get?_erase (name other : Text) (ms : Members) :
    (ms.erase name).get? other = if other = name then none else ms.get? other :=
  Keyed.get?_filter (fun _ => bne_iff_ne) other

end Json

/-! ## Gentle edits -/

/-- An edit after which a document can still be written and read back, and which leaves a document
as it is if it leaves it equal. -/
structure Gentle (edit : Json.Members → Json.Members) : Prop where
  fits : ∀ ms, Json.Fits Json.depthLimit (.object ms) → Json.Fits Json.depthLimit (.object (edit ms))
  same : ∀ ms, Json.same (.object (edit ms)) (.object ms) = true → edit ms = ms

namespace Fix

variable {t : Text} {document : Json.Members}

/-- The fix of an edit writes the edited document anew, unless the text is no object or the document
stays equal. -/
theorem apply_ofEdit (description : Text) (edit : Json.Members → Json.Members) (t : Text) :
    (ofEdit description edit).apply t =
      match Json.readObject t with
      | .ok (some document) =>
        if Json.same (.object (edit document)) (.object document) then t
        else Json.print (.object (edit document))
      | _ => t := by
  rw [apply, ofEdit]
  simp only [editText]
  rcases Json.readObject t with e | _ | document
  · rfl
  · rfl
  · simp only
    cases Json.same (.object (edit document)) (.object document) <;> rfl

/-- The text after the fix of a gentle edit is read as the edited document. -/
theorem read_apply_ofEdit (description : Text) {edit : Json.Members → Json.Members}
    (hedit : Gentle edit) (h : Json.read t = .ok (.object document)) :
    Json.read ((ofEdit description edit).apply t) = .ok (.object (edit document)) := by
  rw [apply_ofEdit, Json.readObject_eq_ok_iff.2 h]
  simp only
  split
  · next hsame =>
    rw [hedit.same document hsame]
    exact h
  · exact Json.read_print (hedit.fits document (Json.fits_of_read h))

/-! ### Editing again -/

/-- A text that cannot be read at all stops the fix of an edit. -/
theorem editText_of_error {e : Json.ReadError} (edit : Json.Members → Json.Members)
    (h : Json.readObject t = .error e) : editText edit t = .fault (.ofReadError t e) := by
  rw [editText, h]

/-- A text that is no object stays as it is. -/
theorem editText_of_none (edit : Json.Members → Json.Members) (h : Json.readObject t = .ok none) :
    editText edit t = .text t := by
  rw [editText, h]

theorem editText_of_read (edit : Json.Members → Json.Members)
    (h : Json.readObject t = .ok (some document)) :
    editText edit t =
      .text (if Json.same (.object (edit document)) (.object document) then t
        else Json.print (.object (edit document))) := by
  rw [editText, h]
  simp only
  split <;> rfl

/-- The fix of a gentle edit changes nothing more if its edit does not. -/
theorem editText_editText {edit : Json.Members → Json.Members} (hedit : Gentle edit)
    (hagain : ∀ ms, edit (edit ms) = edit ms) {after : Text} (h : editText edit t = .text after) :
    editText edit after = .text after := by
  rcases hread : Json.readObject t with e | _ | document
  · simp [editText_of_error edit hread] at h
  · obtain rfl : t = after := by simpa [editText_of_none edit hread] using h
    exact editText_of_none edit hread
  · rw [editText_of_read edit hread] at h
    obtain rfl := Outcome.text.inj h
    split
    · next hsame => rw [editText_of_read edit hread, if_pos hsame]
    · -- what was written is read as the edited document, and editing that gives the same again
      have hfits := hedit.fits document (Json.fits_of_read (Json.readObject_eq_ok_iff.1 hread))
      have hwritten : Json.readObject (Json.print (.object (edit document))) = _ :=
        Json.readObject_eq_ok_iff.2 (Json.read_print hfits)
      rw [editText_of_read edit hwritten, hagain, ite_self]

/-- A fix is that of an edit, however it describes it. -/
def Makes (fix : Fix) (edit : Json.Members → Json.Members) : Prop :=
  ∃ description, fix = ofEdit description edit

/-! ### Runs of fixes -/

/-- Some fixes all give a text when they run one after the other, and the last of these is `t'`. -/
inductive RunsTo : List Fix → Text → Text → Prop
  | nil (t : Text) : RunsTo [] t t
  | cons {fix : Fix} {fixes : List Fix} {t t₁ t' : Text} :
      fix.run t = .text t₁ → RunsTo fixes t₁ t' → RunsTo (fix :: fixes) t t'

theorem RunsTo.applyAll_eq {fixes : List Fix} {t' : Text} (h : RunsTo fixes t t') :
    applyAll fixes t = t' := by
  induction h with
  | nil t => rfl
  | @cons fix fixes t t₁ t' hfix _ ih =>
    have happly : fix.apply t = t₁ := by
      rw [apply, hfix]
      rfl
    rw [applyAll, List.foldl_cons, happly]
    exact ih

/-- The fixes of gentle edits all give a text on a document, and in the end one that is read as the
document after these edits. -/
theorem exists_runsTo_of_makes {fixes : List Fix} {edits : List (Json.Members → Json.Members)}
    (hmakes : List.Forall₂ Makes fixes edits) (hedits : ∀ edit ∈ edits, Gentle edit)
    (h : Json.read t = .ok (.object document)) :
    ∃ t', RunsTo fixes t t' ∧
      Json.read t' = .ok (.object (edits.foldl (fun ms edit => edit ms) document)) := by
  induction hmakes generalizing t document with
  | nil => exact ⟨t, .nil t, h⟩
  | @cons fix edit fixes edits hfix _ ih =>
    obtain ⟨description, rfl⟩ := hfix
    obtain ⟨hedit, hedits⟩ := List.forall_mem_cons.1 hedits
    obtain ⟨t', hruns, hread⟩ := ih hedits (read_apply_ofEdit description hedit h)
    refine ⟨t', .cons ?_ hruns, hread⟩
    -- on a document the fix of an edit always gives a text
    have hgives : (ofEdit description edit).run t = _ :=
      editText_of_read edit (Json.readObject_eq_ok_iff.2 h)
    rw [hgives, apply, hgives]
    rfl

/-- The same for edits that are made of some data. -/
theorem exists_runsTo_of_makes_map {α : Type} {fixes : List Fix}
    {edit : α → Json.Members → Json.Members} {as : List α}
    (hmakes : List.Forall₂ Makes fixes (as.map edit)) (hedit : ∀ a, Gentle (edit a))
    (h : Json.read t = .ok (.object document)) :
    ∃ t', RunsTo fixes t t' ∧
      Json.read t' = .ok (.object (as.foldl (fun ms a => edit a ms) document)) := by
  obtain ⟨t', hruns, hread⟩ :=
    exists_runsTo_of_makes hmakes (List.forall_mem_map.2 fun a _ => hedit a) h
  rw [List.foldl_map] at hread
  exact ⟨t', hruns, hread⟩

/-- The text after the fixes of some gentle edits is read as the document after these edits. -/
theorem read_applyAll {fixes : List Fix} {edits : List (Json.Members → Json.Members)}
    (hmakes : List.Forall₂ Makes fixes edits) (hedits : ∀ edit ∈ edits, Gentle edit)
    (h : Json.read t = .ok (.object document)) :
    Json.read (applyAll fixes t) =
      .ok (.object (edits.foldl (fun ms edit => edit ms) document)) := by
  obtain ⟨t', hruns, hread⟩ := exists_runsTo_of_makes hmakes hedits h
  rw [hruns.applyAll_eq]
  exact hread

end Fix

end WorkflowLint
