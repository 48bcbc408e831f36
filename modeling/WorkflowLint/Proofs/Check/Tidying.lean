import WorkflowLint.Proofs.Check.BuiltIn

/-!
# Tidy documents

The fixes of the settings and those of the forbidden properties leave a document tidy
(`tidies_document`): the properties are left out, the settings are an object in which the required
ones have their values, and whatever else there is stays as and where it was.  Nothing more is found
then, although each of the fixes reads the document anew and writes it in its own way.
-/

namespace WorkflowLint.Check

open Json

variable {document : Members}

/-! ## Settings that are set -/

namespace RequiredSettings

variable {r : Text × Text}

/-- Settings of which one has its value are an object. -/
theorem get?_settings_of_settled (h : Settled document r) :
    document.get? "settings" = some (.object (settings document)) := by
  have hempty : Members.get? [] r.1 ≠ some (.string r.2) := (Option.some_ne_none _).symm
  unfold Settled at h
  unfold settings at h ⊢
  cases hget : document.get? "settings" with
  | none =>
    rw [hget] at h
    exact absurd h hempty
  | some v =>
    rw [hget] at h
    cases v with
    | object st => rfl
    | _ => exact absurd h hempty

/-- Setting a setting that has its value changes nothing. -/
theorem setSetting_of_settled (h : Settled document r) :
    setSetting r.1 (.string r.2) document = document := by
  have hset : (settings document).set r.1 (.string r.2) = settings document := Keyed.set_of_get? h
  rw [setSetting, hset]
  exact Keyed.set_of_get? (get?_settings_of_settled h)

/-- Of settings with different names only those need to be set that do not have their values. -/
theorem settle_filter {rs : List (Text × Text)} {keep : Text × Text → Bool}
    (hnames : (rs.map (·.1)).Nodup) (hkeep : ∀ r ∈ rs, keep r = false → Settled document r) :
    settle (rs.filter keep) document = settle rs document := by
  induction rs generalizing document with
  | nil => rfl
  | cons r rs ih =>
    rw [List.map_cons, List.nodup_cons] at hnames
    obtain ⟨hr, hrs⟩ := List.forall_mem_cons.1 hkeep
    cases hk : keep r with
    | false =>
      rw [List.filter_cons_of_neg (by simp [hk]), settle_cons, setSetting_of_settled (hr hk),
        ih hnames.2 hrs]
    | true =>
      rw [List.filter_cons_of_pos hk, settle_cons, settle_cons]
      refine ih hnames.2 fun r' hr' hk' => ?_
      have hne : r.1 ≠ r'.1 := fun heq => hnames.1 (heq ▸ List.mem_map_of_mem hr')
      rw [Settled, settings_setSetting, get?_set, if_neg hne]
      exact hrs r' hr' hk'

/-- Gives some members of an object their values. -/
def setAll (rs : List (Text × Text)) (st : Members) : Members :=
  rs.foldl (fun st r => Members.set st r.1 (.string r.2)) st

/-- Setting some settings replaces the object that they are in. -/
theorem settle_cons_eq (r : Text × Text) (rs : List (Text × Text)) :
    settle (r :: rs) document =
      document.set "settings" (.object (setAll (r :: rs) (settings document))) := by
  induction rs generalizing r document with
  | nil => rfl
  | cons r' rs ih =>
    rw [settle_cons, ih, settings_setSetting, setSetting]
    exact Keyed.set_set _

end RequiredSettings

/-! ## Properties that are left out -/

namespace ForbiddenProperties

theorem sanitise_eq_filter (keys : List Text) :
    sanitise keys document = document.filter fun m => m.1 ∉ keys := by
  induction keys generalizing document with
  | nil => simp [sanitise]
  | cons key keys ih =>
    rw [sanitise_cons, ih, dropProperty, Members.erase, List.filter_filter]
    refine List.filter_congr fun m _ => ?_
    by_cases hm : m.1 = key <;> simp [hm]

end ForbiddenProperties

/-! ## Tidy documents -/

/-- A document without the forbidden properties, whose settings are an object in which the required
ones have their values. -/
def tidied (document : Members) : Members :=
  Members.set (document.filter fun m => m.1 ∉ ForbiddenProperties.forbidden.map (·.1)) "settings"
    (.object (RequiredSettings.setAll RequiredSettings.required
      (RequiredSettings.settings document)))

theorem tidied_eq (document : Members) :
    tidied document = ForbiddenProperties.sanitise (ForbiddenProperties.forbidden.map (·.1))
      (RequiredSettings.settle RequiredSettings.required document) := by
  rw [ForbiddenProperties.sanitise_eq_filter, RequiredSettings.required,
    RequiredSettings.settle_cons_eq]
  have hkept : decide (↑"settings" ∉ ForbiddenProperties.forbidden.map (·.1)) = true := by decide
  exact (Keyed.filter_set (fun name => decide (name ∉ ForbiddenProperties.forbidden.map (·.1)))
    hkept).symm

/-- Mending what was found on a document makes it tidy. -/
theorem sanitise_settle (path : Text) (document : Members) :
    ForbiddenProperties.sanitise (unwanted document)
      (RequiredSettings.settle (unsettled path document) document) = tidied document := by
  have hsettled : RequiredSettings.settle (unsettled path document) document =
      RequiredSettings.settle RequiredSettings.required document := by
    refine RequiredSettings.settle_filter (by decide) fun r hr hnone => ?_
    exact (RequiredSettings.check?_eq_none_iff hr).1 (by simpa using hnone)
  rw [hsettled, tidied_eq, ForbiddenProperties.sanitise_eq_filter,
    ForbiddenProperties.sanitise_eq_filter]
  -- a forbidden property that is there after setting the settings was there before
  refine List.filter_congr fun m hm => decide_eq_decide.2 (not_congr ?_)
  rw [mem_unwanted_iff]
  refine and_iff_right_of_imp fun hforbidden => ?_
  have hname : m.1 ≠ ↑"settings" := by
    rintro heq
    rw [heq] at hforbidden
    revert hforbidden
    decide
  rw [← RequiredSettings.get?_settle RequiredSettings.required hname]
  exact Keyed.isSome_get?_iff.2 (List.mem_map_of_mem hm)

/-- Nothing is found on a tidy document. -/
theorem findings_tidied (path : Text) (document : Members) :
    settingFindings path (tidied document) = [] ∧ propertyFindings path (tidied document) = [] := by
  rw [settingFindings_eq_nil_iff, propertyFindings_eq_nil_iff, tidied_eq]
  constructor
  · intro r hr
    have hget : (ForbiddenProperties.sanitise (ForbiddenProperties.forbidden.map (·.1))
        (RequiredSettings.settle RequiredSettings.required document)).get? "settings" =
        (RequiredSettings.settle RequiredSettings.required document).get? "settings" := by
      rw [ForbiddenProperties.get?_sanitise, if_neg (by decide)]
    rw [RequiredSettings.Settled, RequiredSettings.settings, hget]
    exact (RequiredSettings.settled_settle_iff hr fun _ => id).2 (.inl hr)
  · intro f hf
    rw [ForbiddenProperties.get?_sanitise, if_pos (List.mem_map_of_mem hf)]

/-- A document with an id, whose settings are null. -/
def untidyText : Text := "\x7b\"id\":7,\"settings\":null,\"nodes\":[1.50]\x7d"

end WorkflowLint.Check
