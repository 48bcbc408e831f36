import WorkflowLint.Proofs.Fault
import WorkflowLint.Proofs.Project.Accepted
import WorkflowLint.Proofs.Project.Sharing
import WorkflowLint.Proofs.Yaml.Writing

/-!
# What configurations say about callers

The callers of a sub-workflow are looked up in two ways.  Whoever checks a configuration takes ids,
types and lists in every form in which they are accepted; whoever adds a caller takes ids and types that
are texts, and lists that are lists.  A listing has what both of them see (`Tree.listing`).

A configuration with one more caller is accepted if the old one is (`Tree.IsConfig.addCaller`), and its
listing is the old one with one more caller (`Tree.listing_addCaller`).  Of one sub-workflow it has an
entry, which adding callers of others does not change (`Listing.entryOf?_add_of_ne`).
-/

namespace WorkflowLint

open Yaml (Graph ObjectId Tree)

/-! ## Configurations with one more caller -/

namespace Yaml.Tree

variable {T U : Tree} {key subworkflow caller : Text} {f : Tree → Tree} {test : Tree → Bool}
  {P : Tree → Prop}

theorem IsNamed.modifyValue (h : T.IsNamed) : (T.modifyValue key f).IsNamed := by
  unfold Tree.modifyValue
  rw [if_pos h.1]
  refine ⟨isMapping_ofEntries _, fun e he => ?_⟩
  rw [entries_ofEntries] at he
  obtain he | ⟨e', he', -, rfl⟩ := mem_modifyFirst he
  · exact h.2 e he
  · exact h.2 e' he'

theorem IsNamed.setValue (h : T.IsNamed) (hkey : Schema.isEncodable key = true) :
    (T.setValue key U).IsNamed := by
  unfold Tree.setValue
  refine ⟨isMapping_ofEntries _, ?_⟩
  rw [entries_ofEntries]
  have hentries := h.2
  generalize T.entries = entries at hentries ⊢
  induction entries with
  | nil =>
    rw [setIn, List.forall_mem_singleton]
    exact ⟨key, atom?_text key, hkey⟩
  | cons e entries ih =>
    obtain ⟨he, hentries⟩ := List.forall_mem_cons.1 hentries
    rw [setIn]
    split
    · exact List.forall_mem_cons.2 ⟨he, hentries⟩
    · exact List.forall_mem_cons.2 ⟨he, ih hentries⟩

theorem IsListOf.modifyItem (h : IsListOf P T) (hf : ∀ U, P U → P (f U)) :
    IsListOf P (T.modifyItem test f) := by
  unfold Tree.modifyItem
  split
  · next hlist =>
    obtain ⟨Ts, hTs, hall⟩ := h
    obtain rfl := Option.some.inj ((members?_of_isList hlist).symm.trans hTs)
    refine ⟨_, members?_ofItems _, fun U hU => ?_⟩
    obtain hU | ⟨V, hV, -, rfl⟩ := mem_modifyFirst hU
    · exact hall U hU
    · exact hf V (hall V hV)
  · exact h

theorem isList_of_null (h : T.atom? = some .null) : T.isList = false := by
  unfold atom? at h
  unfold isList
  split
  · next hshape => simp [hshape] at h
  · rfl

theorem IsNullOr.modifyItem (h : IsNullOr (IsListOf P) T) (hf : ∀ U, P U → P (f U)) :
    IsNullOr (IsListOf P) (T.modifyItem test f) := by
  obtain hnull | hlist := h
  · refine .inl ?_
    rw [Tree.modifyItem, if_neg (by simp [isList_of_null hnull])]
    exact hnull
  · exact .inr (hlist.modifyItem hf)

theorem MayHave.modifyValue (h : T.MayHave key P) (hf : ∀ U, P U → P (f U)) :
    (T.modifyValue key f).MayHave key P := by
  intro U hU
  rw [value?_modifyValue, if_pos rfl] at hU
  obtain ⟨V, hV, rfl⟩ := Option.map_eq_some_iff.1 hU
  exact hf V (h V hV)

theorem items_eq_nil (h : T.isList = false) : T.items = [] := by
  unfold isList at h
  unfold items
  split
  · next hshape => simp [hshape] at h
  · rfl

theorem IsNullOr.of_mem_items (h : IsNullOr (IsListOf P) T) (hU : U ∈ T.items) : P U := by
  cases hlist : T.isList with
  | false =>
    rw [items_eq_nil hlist] at hU
    exact absurd hU List.not_mem_nil
  | true =>
    obtain hnull | ⟨Ts, hTs, hall⟩ := h
    · rw [isList_of_null hnull] at hlist
      cases hlist
    · obtain rfl := Option.some.inj ((members?_of_isList hlist).symm.trans hTs)
      exact hall U hU

/-- A trigger with one more caller is one. -/
theorem IsTrigger.listCaller (h : T.IsTrigger) : (T.listCaller caller).IsTrigger := by
  have hother : ∀ key : Text, key ≠ "called_by" →
      (T.listCaller caller).value? key = T.value? key := by
    intro key hkey
    rw [Tree.listCaller, value?_setValue, if_neg hkey]
  have hmay : ∀ {key : Text} {P}, key ≠ "called_by" → T.MayHave key P →
      (T.listCaller caller).MayHave key P := by
    intro key P hkey hmay U hU
    exact hmay U (by rwa [hother key hkey] at hU)
  refine ⟨h.named.setValue (by decide), ?_, fun key hkey => hmay ?_ (h.texts key hkey), ?_,
    hmay (by decide) h.inputs⟩
  · obtain ⟨U, hU, htype⟩ := h.type
    exact ⟨U, (hother _ (by decide)).trans hU, htype⟩
  · rintro rfl
    revert hkey
    decide
  · intro U hU
    rw [Tree.listCaller, value?_setValue, if_pos rfl] at hU
    obtain rfl := Option.some.inj hU
    refine .inr ⟨_, members?_ofItems _, ?_⟩
    rw [List.forall_mem_append, List.forall_mem_singleton]
    refine ⟨fun V hV => ?_, ⟨caller, true⟩, rfl⟩
    cases hvalue : T.value? "called_by" with
    | none => simp [hvalue] at hV
    | some callers =>
      rw [hvalue] at hV
      exact (h.callers callers hvalue).of_mem_items hV

/-- A configuration with one more caller is one. -/
theorem IsConfig.addCaller (h : T.IsConfig) : (T.addCaller subworkflow caller).IsConfig := by
  have hworkflow : ∀ U : Tree, U.IsWorkflow → (U.modifyValue "triggers" fun triggers =>
      triggers.modifyItem (hasText "type" "subworkflow") (listCaller caller)).IsWorkflow := by
    intro U hU
    refine ⟨hU.named.modifyValue, ?_, ?_,
      hU.triggers.modifyValue fun _ hV => hV.modifyItem fun _ => IsTrigger.listCaller⟩
    · obtain ⟨V, hV, hid⟩ := hU.id
      refine ⟨V, ?_, hid⟩
      rw [value?_modifyValue, if_neg (by decide), hV]
    · intro V hV
      rw [value?_modifyValue, if_neg (by decide)] at hV
      exact hU.name V hV
  refine ⟨h.named.modifyValue, ?_, ?_,
    h.workflows.modifyValue fun _ hU => hU.modifyItem hworkflow⟩
  · obtain ⟨V, hV, hid⟩ := h.id
    refine ⟨V, ?_, hid⟩
    rw [Tree.addCaller, value?_modifyValue, if_neg (by decide), hV]
  · obtain ⟨V, hV, hfiles⟩ := h.files
    refine ⟨V, ?_, hfiles⟩
    rw [Tree.addCaller, value?_modifyValue, if_neg (by decide), hV]

end Yaml.Tree

/-! ## Listings -/

/-- Things as they are given: as a list, or as a set. -/
structure GivenList (α : Type) where
  items : List α
  asList : Bool
deriving DecidableEq

namespace GivenList

variable {α : Type}

/-- All of what may be given. -/
def all (l : Option (GivenList α)) : List α := (l.map (·.items)).getD []

/-- What is given as a list. -/
def listed (l : Option (GivenList α)) : List α := all (l.filter (·.asList))

/-- Changes the first item that passes a test, if they are given as a list. -/
def modifyFirst (test : α → Bool) (f : α → α) (l : GivenList α) : GivenList α :=
  if l.asList then ⟨Tree.modifyFirst test f l.items, true⟩ else l

@[simp] theorem all_none : all (none : Option (GivenList α)) = [] := rfl

@[simp] theorem all_some (l : GivenList α) : all (some l) = l.items := rfl

@[simp] theorem listed_none : listed (none : Option (GivenList α)) = [] := rfl

@[simp] theorem listed_some (l : GivenList α) :
    listed (some l) = if l.asList then l.items else [] := by
  unfold listed
  cases h : l.asList <;> simp [Option.filter, h]

end GivenList

/-- What a trigger says about its type and its callers. -/
structure TriggerListing where
  type : Option Given
  callers : Option (GivenList (Option Given))
deriving DecidableEq

/-- What a workflow says about its id and its triggers. -/
structure WorkflowListing where
  id : Option Given
  triggers : Option (GivenList TriggerListing)
deriving DecidableEq

/-- What a configuration says about its workflows. -/
abbrev Listing := Option (GivenList WorkflowListing)

namespace Yaml.Tree

/-- The things that a tree gives. -/
def givenList? {α : Type} (make : Tree → α) (T : Tree) : Option (GivenList α) :=
  T.members?.map fun Ts => ⟨Ts.map make, T.isList⟩

/-- What a trigger lists. -/
def triggerListing (T : Tree) : TriggerListing :=
  ⟨(T.value? "type").bind given?, (T.value? "called_by").bind (givenList? given?)⟩

/-- What a workflow lists. -/
def workflowListing (T : Tree) : WorkflowListing :=
  ⟨(T.value? "workflow_template_id").bind given?,
    (T.value? "triggers").bind (givenList? triggerListing)⟩

/-- What a configuration lists. -/
def listing (T : Tree) : Listing := (T.value? "workflows").bind (givenList? workflowListing)

end Yaml.Tree

/-! ### Looking up and adding -/

namespace TriggerListing

/-- Whether a trigger makes a workflow a sub-workflow. -/
def isSubworkflow (t : TriggerListing) : Bool := t.type.map (·.text) == some "subworkflow"

/-- Whether it does so by a text. -/
def saysSubworkflow (t : TriggerListing) : Bool := t.type == some ⟨"subworkflow", true⟩

/-- The callers, none being told from an empty list. -/
def callerTexts (t : TriggerListing) : Option (List Text) :=
  t.callers.map fun l => l.items.filterMap fun given => given.map (·.text)

/-- A trigger with one more caller; what is no list counts as an empty one. -/
def add (caller : Text) (t : TriggerListing) : TriggerListing :=
  { t with callers := some ⟨GivenList.listed t.callers ++ [some ⟨caller, true⟩], true⟩ }

end TriggerListing

namespace WorkflowListing

/-- Whether a workflow has an id, in whatever form. -/
def hasId (id : Text) (w : WorkflowListing) : Bool := w.id.map (·.text) == some id

/-- Whether the id of a workflow is the given text. -/
def saysId (id : Text) (w : WorkflowListing) : Bool := w.id == some ⟨id, true⟩

/-- A workflow whose first trigger that says that it is a sub-workflow has one more caller. -/
def add (caller : Text) (w : WorkflowListing) : WorkflowListing :=
  { w with
    triggers := w.triggers.map (GivenList.modifyFirst (·.saysSubworkflow) (·.add caller)) }

end WorkflowListing

namespace Listing

/-- The trigger of a sub-workflow that adding a caller finds. -/
def repaired? (subworkflow : Text) (l : Listing) : Option TriggerListing :=
  ((GivenList.listed l).find? (·.saysId subworkflow)).bind fun w =>
    (GivenList.listed w.triggers).find? (·.saysSubworkflow)

/-- A listing with one more caller. -/
def add (subworkflow caller : Text) (l : Listing) : Listing :=
  l.map (GivenList.modifyFirst (·.saysId subworkflow) (·.add caller))

end Listing

/-! ## Listings of configurations -/

namespace Yaml.Tree

variable {T : Tree} {key subworkflow caller t : Text} {f : Tree → Tree} {test : Tree → Bool}

theorem given?_eq_iff : T.given? = some ⟨t, true⟩ ↔ T.isText t = true := by
  rw [isText_iff]
  unfold given?
  cases T.atom? with
  | none => simp
  | some a =>
    cases a with
    | string s => simp
    | bytes b => cases hb : Utf8.decode b <;> simp [hb, Except.toOption]
    | _ => simp

theorem bind_given?_eq_iff (key : Text) (T : Tree) :
    ((T.value? key).bind given? == some ⟨t, true⟩) = T.hasText key t := by
  unfold hasText
  cases hvalue : T.value? key with
  | none => rfl
  | some U =>
    rw [Bool.eq_iff_iff, beq_iff_eq]
    exact given?_eq_iff

/-- Changing the first item of a list changes what the list gives. -/
theorem givenList?_modifyItem {α : Type} {make : Tree → α} {test' : α → Bool} {f' : α → α}
    (htest : ∀ U, test' (make U) = test U) (hf : ∀ U, make (f U) = f' (make U)) (T : Tree) :
    (T.modifyItem test f).givenList? make =
      (T.givenList? make).map (GivenList.modifyFirst test' f') := by
  unfold modifyItem
  cases hlist : T.isList with
  | true =>
    rw [if_pos rfl, givenList?, givenList?, members?_ofItems, members?_of_isList hlist]
    simp only [Option.map_some, isList_ofItems, GivenList.modifyFirst, hlist, if_true]
    rw [map_modifyFirst htest fun U _ => hf U]
  | false =>
    rw [if_neg Bool.false_ne_true, givenList?, hlist]
    cases T.members? with
    | none => rfl
    | some Ts => simp [GivenList.modifyFirst]

theorem givenList?_ofItems {α : Type} (make : Tree → α) (Ts : List Tree) :
    (ofItems Ts).givenList? make = some ⟨Ts.map make, true⟩ := by
  rw [givenList?, members?_ofItems]
  rfl

/-- What a key gives as a list. -/
theorem listed_bind_givenList? {α : Type} (make : Tree → α) (key : Text) (T : Tree) :
    GivenList.listed ((T.value? key).bind (givenList? make)) =
      (((T.value? key).map items).getD []).map make := by
  cases T.value? key with
  | none => rfl
  | some U =>
    show GivenList.listed (U.givenList? make) = U.items.map make
    unfold givenList?
    cases hlist : U.isList with
    | true => simp [members?_of_isList hlist]
    | false =>
      rw [items_eq_nil hlist]
      cases U.members? <;> simp

theorem triggerListing_listCaller :
    (T.listCaller caller).triggerListing = T.triggerListing.add caller := by
  unfold triggerListing TriggerListing.add
  rw [listed_bind_givenList?, listCaller, value?_setValue, value?_setValue, if_neg (by decide), if_pos rfl,
    Option.bind_some, givenList?_ofItems, List.map_append, List.map_singleton]
  rfl

/-- The listing of a configuration with one more caller. -/
theorem listing_addCaller : (T.addCaller subworkflow caller).listing =
    T.listing.add subworkflow caller := by
  have htrigger : ∀ U : Tree, U.triggerListing.saysSubworkflow = U.hasText "type" "subworkflow" :=
    fun U => bind_given?_eq_iff "type" U
  have hworkflow : ∀ U : Tree, (U.modifyValue "triggers" fun triggers =>
      triggers.modifyItem (hasText "type" "subworkflow") (listCaller caller)).workflowListing =
        U.workflowListing.add caller := by
    intro U
    unfold workflowListing WorkflowListing.add
    rw [value?_modifyValue, value?_modifyValue, if_neg (by decide), if_pos rfl, Option.bind_map,
      Option.map_bind]
    congr 2
    funext V
    exact givenList?_modifyItem htrigger (fun _ => triggerListing_listCaller) V
  unfold listing addCaller Listing.add
  rw [value?_modifyValue, if_pos rfl, Option.bind_map, Option.map_bind]
  congr 1
  funext V
  exact givenList?_modifyItem (fun U => bind_given?_eq_iff "workflow_template_id" U) hworkflow V

end Yaml.Tree

/-! ## Entries -/

/-- The trigger of a sub-workflow as a check finds it: its callers, and whether adding a caller finds the
same trigger. -/
structure Listing.Entry where
  callers : Option (GivenList (Option Given))
  isPlain : Bool

namespace Listing

variable {l : Listing} {e : Entry} {subworkflow other caller k : Text} {ks : List Text}

namespace Entry

/-- The callers, none being told from an empty list. -/
def texts (e : Entry) : Option (List Text) :=
  e.callers.map fun l => l.items.filterMap fun given => given.map (·.text)

/-- The callers that are given as a list. -/
def listedTexts (e : Entry) : List Text :=
  (GivenList.listed e.callers).filterMap fun given => given.map (·.text)

/-- Whether adding a caller finds it in the list. -/
def lists (caller : Text) (e : Entry) : Bool :=
  (GivenList.listed e.callers).contains (some ⟨caller, true⟩)

/-- An entry with one more caller; what is no list counts as an empty one. -/
def add (caller : Text) (e : Entry) : Entry :=
  { e with callers := some ⟨GivenList.listed e.callers ++ [some ⟨caller, true⟩], true⟩ }

/-- What becomes of an entry when a caller is to be added. -/
def step (caller : Text) (e : Entry) : Entry :=
  if e.isPlain && !e.lists caller then e.add caller else e

/-- Adding callers completes an entry if it finds the same trigger, and loses no callers that are given
as a set. -/
def Repairable (e : Entry) : Prop :=
  e.isPlain = true ∧ ∀ given, e.callers = some given → given.asList = false → e.texts = some []

end Entry

/-- The entry of a sub-workflow. -/
def entryOf? (subworkflow : Text) (l : Listing) : Option Entry :=
  ((GivenList.all l).find? (·.hasId subworkflow)).bind fun w =>
    ((GivenList.all w.triggers).find? (·.isSubworkflow)).map fun t =>
      ⟨t.callers, (l.any (·.asList) && w.saysId subworkflow) &&
        (w.triggers.any (·.asList) && t.saysSubworkflow)⟩

/-- Whether a caller is to be added. -/
def needs (subworkflow caller : Text) (l : Listing) : Bool :=
  (l.repaired? subworkflow).any fun t =>
    !(GivenList.listed t.callers).contains (some ⟨caller, true⟩)

/-- What becomes of a listing when a caller is to be added. -/
def step (l : Listing) (call : Text × Text) : Listing :=
  if l.needs call.1 call.2 then l.add call.1 call.2 else l

/-! ### Entries after a caller has been added -/

section

variable {α : Type} {test p : α → Bool} {f : α → α} {given : Option (GivenList α)}

theorem all_map_modifyFirst : GivenList.all (given.map (GivenList.modifyFirst test f)) =
    if given.any (·.asList) then Tree.modifyFirst test f (GivenList.all given)
    else GivenList.all given := by
  cases given with
  | none => rfl
  | some l =>
    cases hlist : l.asList <;> simp [GivenList.all, GivenList.modifyFirst, hlist]

theorem any_map_modifyFirst : (given.map (GivenList.modifyFirst test f)).any (·.asList) =
    given.any (·.asList) := by
  cases given with
  | none => rfl
  | some l => cases hlist : l.asList <;> simp [GivenList.modifyFirst, hlist]

theorem find?_all_modifyFirst (hstrict : ∀ a, test a = true → p a = true ∧ p (f a) = true) :
    (GivenList.all (given.map (GivenList.modifyFirst test f))).find? p =
      ((GivenList.all given).find? p).map fun a =>
        if given.any (·.asList) && test a then f a else a := by
  rw [all_map_modifyFirst]
  cases given.any (·.asList) with
  | true => simpa using Tree.find?_modifyFirst hstrict (GivenList.all given)
  | false => simp

theorem find?_all_modifyFirst_of_disjoint
    (hdisjoint : ∀ a, test a = true → p a = false ∧ p (f a) = false) :
    (GivenList.all (given.map (GivenList.modifyFirst test f))).find? p =
      (GivenList.all given).find? p := by
  rw [all_map_modifyFirst]
  split
  · exact Tree.find?_modifyFirst_of_disjoint hdisjoint _
  · rfl

/-- What a stricter test would have found is found by it. -/
theorem find?_listed_of_strict {a : α} (hstrict : ∀ a, test a = true → p a = true)
    (hlist : given.any (·.asList) = true) (h : (GivenList.all given).find? p = some a)
    (ha : test a = true) : (GivenList.listed given).find? test = some a := by
  have hall : GivenList.listed given = GivenList.all given := by
    cases given with
    | none => rfl
    | some l =>
      have hlist : l.asList = true := hlist
      simp [hlist]
  rw [hall]
  generalize GivenList.all given = as at h
  induction as with
  | nil => cases h
  | cons b as ih =>
    by_cases hb : p b = true
    · rw [List.find?_cons_of_pos hb] at h
      obtain rfl := Option.some.inj h
      exact List.find?_cons_of_pos ha
    · rw [List.find?_cons_of_neg hb] at h
      rw [List.find?_cons_of_neg fun hb' => hb (hstrict b hb'), ih h]

end

theorem hasId_of_saysId {w : WorkflowListing} (h : w.saysId k = true) : w.hasId k = true := by
  rw [WorkflowListing.hasId, beq_iff_eq.1 h]
  exact beq_self_eq_true _

theorem isSubworkflow_of_saysSubworkflow {t : TriggerListing} (h : t.saysSubworkflow = true) :
    t.isSubworkflow = true := by
  rw [TriggerListing.isSubworkflow, beq_iff_eq.1 h]
  exact beq_self_eq_true _

/-- Adding a caller of another sub-workflow does not change an entry. -/
theorem entryOf?_add_of_ne (hne : other ≠ subworkflow) :
    (l.add other caller).entryOf? subworkflow = l.entryOf? subworkflow := by
  have hdisjoint : ∀ w : WorkflowListing, w.saysId other = true →
      w.hasId subworkflow = false ∧ (w.add caller).hasId subworkflow = false := by
    intro w hw
    have hid : w.hasId subworkflow = false := by
      rw [WorkflowListing.hasId, beq_iff_eq.1 hw]
      simpa using hne
    exact ⟨hid, hid⟩
  unfold entryOf? add
  rw [find?_all_modifyFirst_of_disjoint hdisjoint, any_map_modifyFirst]

/-- Adding a caller of a sub-workflow changes its entry if it finds the same trigger. -/
theorem entryOf?_add : (l.add subworkflow caller).entryOf? subworkflow =
    (l.entryOf? subworkflow).map fun e => if e.isPlain then e.add caller else e := by
  have hworkflow : ∀ w : WorkflowListing, w.saysId subworkflow = true →
      w.hasId subworkflow = true ∧ (w.add caller).hasId subworkflow = true :=
    fun w hw => ⟨hasId_of_saysId hw, hasId_of_saysId hw⟩
  have htrigger : ∀ t : TriggerListing, t.saysSubworkflow = true →
      t.isSubworkflow = true ∧ (t.add caller).isSubworkflow = true :=
    fun t ht => ⟨isSubworkflow_of_saysSubworkflow ht, isSubworkflow_of_saysSubworkflow ht⟩
  unfold entryOf? add
  rw [find?_all_modifyFirst hworkflow, any_map_modifyFirst]
  cases (GivenList.all l).find? (·.hasId subworkflow) with
  | none => rfl
  | some w =>
    simp only [Option.map_some, Option.bind_some]
    cases hflag : l.any (·.asList) && w.saysId subworkflow with
    | false =>
      simp only [Bool.false_eq_true, if_false, hflag, Bool.false_and]
      cases (GivenList.all w.triggers).find? (·.isSubworkflow) <;> rfl
    | true =>
      have hsame : (w.add caller).saysId subworkflow = w.saysId subworkflow := rfl
      simp only [if_true, hsame, hflag, Bool.true_and]
      unfold WorkflowListing.add
      rw [find?_all_modifyFirst htrigger, any_map_modifyFirst]
      cases (GivenList.all w.triggers).find? (·.isSubworkflow) with
      | none => rfl
      | some t =>
        have hsays : (t.add caller).saysSubworkflow = t.saysSubworkflow := rfl
        cases hplain : w.triggers.any (·.asList) && t.saysSubworkflow with
        | true =>
          simp only [Option.map_some, hplain, if_true, hsays]
          rfl
        | false =>
          simp only [Option.map_some, hplain, Bool.false_eq_true, if_false]

/-- Where adding a caller finds the same trigger, it finds its callers. -/
theorem exists_repaired? (h : l.entryOf? subworkflow = some e) (hplain : e.isPlain = true) :
    ∃ t, l.repaired? subworkflow = some t ∧ t.callers = e.callers := by
  obtain ⟨w, hw, hentry⟩ := Option.bind_eq_some_iff.1 h
  obtain ⟨t, ht, rfl⟩ := Option.map_eq_some_iff.1 hentry
  simp only [Bool.and_eq_true] at hplain
  obtain ⟨⟨hlist, hid⟩, hlist', htype⟩ := hplain
  refine ⟨t, ?_, rfl⟩
  unfold repaired?
  rw [find?_listed_of_strict (fun _ => hasId_of_saysId) hlist hw hid, Option.bind_some]
  exact find?_listed_of_strict (fun _ => isSubworkflow_of_saysSubworkflow) hlist' ht htype

theorem entryOf?_step_of_ne (hne : other ≠ subworkflow) :
    (l.step (other, caller)).entryOf? subworkflow = l.entryOf? subworkflow := by
  unfold step
  split
  · exact entryOf?_add_of_ne hne
  · rfl

theorem entryOf?_step : (l.step (subworkflow, caller)).entryOf? subworkflow =
    (l.entryOf? subworkflow).map (Entry.step caller) := by
  cases hentry : l.entryOf? subworkflow with
  | none =>
    unfold step
    split
    · rw [entryOf?_add, hentry]
      rfl
    · exact hentry
  | some e =>
    cases hplain : e.isPlain with
    | false =>
      have hstep : e.step caller = e := by simp [Entry.step, hplain]
      unfold step
      split
      · rw [entryOf?_add, hentry]
        simp [hplain, hstep]
      · rw [hentry, Option.map_some, hstep]
    | true =>
      obtain ⟨t, ht, hcallers⟩ := exists_repaired? hentry hplain
      have hneeds : l.needs subworkflow caller = !e.lists caller := by
        rw [needs, ht, Entry.lists, ← hcallers]
        rfl
      unfold step Entry.step
      simp only [hneeds]
      cases hlists : e.lists caller with
      | true => simp [hentry, hplain, hlists]
      | false => simp [entryOf?_add, hentry, hplain, hlists]

/-- Of the callers that are added one after another, an entry gets those of its sub-workflow. -/
theorem entryOf?_foldl (calls : List (Text × Text)) (l : Listing) :
    (calls.foldl step l).entryOf? subworkflow = (l.entryOf? subworkflow).map fun e =>
      ((calls.filter fun call => call.1 == subworkflow).map (·.2)).foldl (fun e k => e.step k) e := by
  induction calls generalizing l with
  | nil => simp
  | cons call calls ih =>
    obtain ⟨other, k⟩ := call
    rw [List.foldl_cons, ih]
    by_cases hne : other = subworkflow
    · subst hne
      rw [entryOf?_step, Option.map_map]
      simp [Function.comp_def]
    · rw [entryOf?_step_of_ne hne]
      simp [hne]

/-! ### Complete entries -/

namespace Entry

theorem mem_listedTexts_of_lists (h : e.lists k = true) : k ∈ e.listedTexts :=
  List.mem_filterMap.2 ⟨some ⟨k, true⟩, by simpa [lists] using h, rfl⟩

theorem listedTexts_subset (h : k ∈ e.listedTexts) : k ∈ e.texts.getD [] := by
  unfold listedTexts at h
  unfold texts
  cases hcallers : e.callers with
  | none => simp [hcallers] at h
  | some given =>
    rw [hcallers, GivenList.listed_some] at h
    split at h
    · exact h
    · cases h

theorem listedTexts_add : (e.add k).listedTexts = e.listedTexts ++ [k] := by
  simp [listedTexts, add]

theorem texts_add : (e.add k).texts = some (e.listedTexts ++ [k]) := by
  simp [texts, add, listedTexts]

/-- A caller that a plain entry does not have is added. -/
theorem step_eq_add (hplain : e.isPlain = true) (hk : k ∉ e.listedTexts) : e.step k = e.add k := by
  have hlists : e.lists k = false := by
    rw [Bool.eq_false_iff]
    exact fun h => hk (mem_listedTexts_of_lists h)
  simp [step, hplain, hlists]

/-- The callers that a plain entry does not have are added one after another. -/
theorem texts_foldl_step (hplain : e.isPlain = true) (hnodup : ks.Nodup)
    (hnew : ∀ k ∈ ks, k ∉ e.listedTexts) (hne : ks ≠ []) :
    (ks.foldl (fun e k => e.step k) e).texts = some (e.listedTexts ++ ks) := by
  induction ks generalizing e with
  | nil => exact absurd rfl hne
  | cons k ks ih =>
    obtain ⟨hk, hnodup⟩ := List.nodup_cons.1 hnodup
    obtain ⟨hkNew, hksNew⟩ := List.forall_mem_cons.1 hnew
    rw [List.foldl_cons, step_eq_add hplain hkNew]
    cases ks with
    | nil => exact texts_add
    | cons k' ks =>
      have hnew' : ∀ j ∈ k' :: ks, j ∉ (e.add k).listedTexts := by
        intro j hj
        rw [listedTexts_add, List.mem_append, List.mem_singleton]
        rintro (hmem | rfl)
        · exact hksNew j hj hmem
        · exact hk hj
      have hplain' : (e.add k).isPlain = true := hplain
      rw [ih hplain' hnodup hnew' (List.cons_ne_nil k' ks), listedTexts_add, List.append_assoc,
        List.singleton_append]

theorem foldl_step_of_not_plain (hplain : e.isPlain = false) :
    ks.foldl (fun e k => e.step k) e = e := by
  induction ks with
  | nil => rfl
  | cons k ks ih =>
    have hstep : e.step k = e := by simp [step, hplain]
    rw [List.foldl_cons, hstep, ih]

theorem listedTexts_eq_iff : e.listedTexts = e.texts.getD [] ↔
    ∀ given, e.callers = some given → given.asList = false → e.texts = some [] := by
  unfold listedTexts texts
  cases e.callers with
  | none => simp
  | some given =>
    cases hlist : given.asList with
    | true => simp [hlist]
    | false =>
      rw [GivenList.listed_some, hlist, if_neg Bool.false_ne_true]
      constructor
      · rintro hnil given' - -
        exact congrArg some hnil.symm
      · intro h
        exact (Option.some.inj (h given rfl hlist)).symm

/-- After callers that an entry does not have are added, it has them at the end, exactly if it is
repairable. -/
theorem texts_foldl_step_iff (hnodup : ks.Nodup) (hnew : ∀ k ∈ ks, k ∉ e.texts.getD [])
    (hne : ks ≠ []) : (ks.foldl (fun e k => e.step k) e).texts = some (e.texts.getD [] ++ ks) ↔
      e.Repairable := by
  cases hplain : e.isPlain with
  | false =>
    rw [foldl_step_of_not_plain hplain]
    refine iff_of_false (fun htexts => ?_) fun h => by simp [h.1] at hplain
    have hself := congrArg (fun texts => texts.getD []) htexts
    exact hne (List.self_eq_append_right.1 hself)
  | true =>
    rw [texts_foldl_step hplain hnodup (fun k hk h => hnew k hk (listedTexts_subset h)) hne,
      Option.some.injEq, List.append_cancel_right_eq, listedTexts_eq_iff]
    exact ⟨fun h => ⟨hplain, h⟩, And.right⟩

end Entry

end Listing

/-! ## What adding a caller finds -/

namespace Caller

variable {g : Graph} {id : ObjectId} {key subworkflow caller : Text}

theorem listed_treeAt {α : Type} (make : Tree → α) :
    GivenList.listed (((g.treeAt id).value? key).bind (Tree.givenList? make)) =
      (itemsAt g key id).map fun i => make (g.treeAt i) := by
  rw [Tree.listed_bind_givenList?, items_value?_treeAt, List.map_map]
  rfl

/-- The trigger that adding a caller finds, as it is listed. -/
theorem repaired?_listing : g.tree.listing.repaired? subworkflow =
    (triggerAt? subworkflow g g.root).map fun i => (g.treeAt i).triggerListing := by
  have hfind : ∀ {α : Type} (make : Tree → α) (test : α → Bool) (test' : ObjectId → Bool) key id,
      (∀ i, test (make (g.treeAt i)) = test' i) →
        (GivenList.listed (((g.treeAt id).value? key).bind (Tree.givenList? make))).find? test =
          ((itemsAt g key id).find? test').map fun i => make (g.treeAt i) := by
    intro α make test test' key id htest
    rw [listed_treeAt, List.find?_map]
    congr 2
    funext i
    exact htest i
  unfold Listing.repaired? Tree.listing triggerAt? Graph.tree
  rw [hfind Tree.workflowListing _ (hasTextAt g "workflow_template_id" subworkflow) _ _ fun i =>
    (Tree.bind_given?_eq_iff _ _).trans hasText_treeAt, Option.bind_map, Option.map_bind]
  congr 1
  funext w
  exact hfind Tree.triggerListing _ (hasTextAt g "type" "subworkflow") _ _ fun i =>
    (Tree.bind_given?_eq_iff _ _).trans hasText_treeAt

/-- A caller can be added exactly if the listing needs it. -/
theorem isSome_add?_eq_needs :
    (add? subworkflow caller g).isSome = g.tree.listing.needs subworkflow caller := by
  have hlists : ∀ i, (GivenList.listed (g.treeAt i).triggerListing.callers).contains
      (some ⟨caller, true⟩) = (itemsAt g "called_by" i).any (g.isTextAt caller) := by
    intro i
    have hgiven : ∀ j, ((g.treeAt j).given? = some ⟨caller, true⟩) ↔ g.isTextAt caller j = true := by
      intro j
      rw [Tree.given?_eq_iff, Graph.isText_treeAt]
    unfold Tree.triggerListing
    rw [listed_treeAt, Bool.eq_iff_iff, List.contains_iff_mem, List.any_eq_true]
    simp only [List.mem_map, hgiven]
  unfold Listing.needs
  rw [repaired?_listing, Option.any_map, Bool.eq_iff_iff, Option.isSome_iff_exists]
  simp only [add?_eq_some_iff, hlists]
  cases triggerAt? subworkflow g g.root with
  | none => simp
  | some trigger => simp

/-! ## Texts that callers are added to -/

/-- Adding a caller to a text gives another one, and whenever there is something to add, one list is all
that changes. -/
def AddsOne (subworkflow caller before after : Text) : Prop :=
  addToText subworkflow caller before = .text after ∧
    ∀ g, Yaml.load .given before = .ok g → (add? subworkflow caller g).isSome = true →
      ListsOneMore subworkflow caller before after

/-- Some callers are added to a text one after another, each as it should be. -/
inductive AddsInTurn : List (Text × Text) → Text → Text → Prop
  | nil (t : Text) : AddsInTurn [] t t
  | cons {call : Text × Text} {calls : List (Text × Text)} {before between after : Text} :
      AddsOne call.1 call.2 before between → AddsInTurn calls between after →
        AddsInTurn (call :: calls) before after

variable {calls : List (Text × Text)} {before after : Text}

/-- What becomes of a configuration when a caller is added to its text. -/
theorem AddsOne.exists_load (h : AddsOne subworkflow caller before after)
    (hload : Yaml.load .given before = .ok g) (hconfig : g.tree.IsConfig) :
    ∃ g', Yaml.load .given after = .ok g' ∧ g'.tree.IsConfig ∧
      g'.tree.listing = g.tree.listing.step (subworkflow, caller) := by
  cases hadd : add? subworkflow caller g with
  | none =>
    have hneeds : g.tree.listing.needs subworkflow caller = false := by
      rw [← isSome_add?_eq_needs, hadd]
      rfl
    have hsame : addToText subworkflow caller before = .text before := by
      unfold addToText
      rw [hload]
      simp only [hadd]
    obtain rfl := Fix.Outcome.text.inj (hsame.symm.trans h.1)
    exact ⟨g, hload, hconfig, by simp [Listing.step, hneeds]⟩
  | some added =>
    have hneeds : g.tree.listing.needs subworkflow caller = true := by
      rw [← isSome_add?_eq_needs, hadd]
      rfl
    obtain ⟨T, hT, g', hload', htree⟩ := h.2 g hload (by rw [hadd]; rfl)
    obtain rfl := Yaml.ReadsAs.unique ⟨g, hload, rfl⟩ hT
    refine ⟨g', hload', ?_, ?_⟩
    · rw [htree]
      exact hconfig.addCaller
    · rw [htree, Tree.listing_addCaller, Listing.step, if_pos hneeds]

/-- What becomes of a configuration when callers are added to its text one after another. -/
theorem AddsInTurn.exists_load (h : AddsInTurn calls before after)
    (hload : Yaml.load .given before = .ok g) (hconfig : g.tree.IsConfig) :
    ∃ g', Yaml.load .given after = .ok g' ∧ g'.tree.IsConfig ∧
      g'.tree.listing = calls.foldl Listing.step g.tree.listing := by
  induction h generalizing g with
  | nil t => exact ⟨g, hload, hconfig, rfl⟩
  | cons hone hrest ih =>
    obtain ⟨g', hload', hconfig', hlisting⟩ := hone.exists_load hload hconfig
    obtain ⟨g'', hload'', hconfig'', hlisting'⟩ := ih hload' hconfig'
    exact ⟨g'', hload'', hconfig'', by rw [hlisting', hlisting]; rfl⟩

/-- Fixes that add callers do so one after another. -/
theorem AddsInTurn.applyAll_eq {fixes : List Fix} (h : AddsInTurn calls before after)
    (hfixes : fixes.map (·.run) = calls.map fun call => addToText call.1 call.2) :
    Fix.applyAll fixes before = after := by
  induction h generalizing fixes with
  | nil t =>
    obtain rfl := List.map_eq_nil_iff.1 hfixes
    rfl
  | cons hone hrest ih =>
    cases fixes with
    | nil => cases hfixes
    | cons fix fixes =>
      obtain ⟨hrun, hfixes⟩ := List.cons.inj hfixes
      have hrun : fix.run = addToText _ _ := hrun
      have happly := ih hfixes
      rw [Fix.applyAll, List.foldl_cons, Fix.apply, hrun, hone.1]
      exact happly

/-- No text that a caller is added to gets carriage returns. -/
theorem noReturn_of_addToText (h : addToText subworkflow caller before = .text after)
    (hbefore : Text.NoReturn before) : Text.NoReturn after := by
  unfold addToText at h
  split at h
  · cases h
  · exact Fix.Outcome.text.inj h ▸ hbefore
  · split at h
    · exact Fix.Outcome.text.inj h ▸ hbefore
    · split at h
      · cases h
      · next hprint => exact Fix.Outcome.text.inj h ▸ Yaml.noReturn_of_print? hprint

theorem AddsInTurn.noReturn (h : AddsInTurn calls before after) (hbefore : Text.NoReturn before) :
    Text.NoReturn after := by
  induction h with
  | nil t => exact hbefore
  | cons hone _ ih => exact ih (noReturn_of_addToText hone.1 hbefore)

/-- Whether adding a caller to a text can be seen to change one list only, there being nothing deeper than
the given depth, and gives a text that passes a test. -/
def addsWithin (depth : Nat) (test : Text → Bool) (subworkflow caller before : Text) : Bool :=
  (Yaml.load .given before).toOption.any fun g =>
    (triggerAt? subworkflow g g.root).any fun trigger =>
      (add? subworkflow caller g).any fun added =>
        added.occurrences trigger depth added.root == 1 &&
          (Yaml.print? added).toOption.any fun after =>
            test after && (Yaml.load .given after).toOption.any fun g' =>
              g'.sameWithin added depth g'.root added.root

theorem exists_addsOne {depth : Nat} {test : Text → Bool}
    (h : addsWithin depth test subworkflow caller before = true) :
    ∃ after, AddsOne subworkflow caller before after ∧ test after = true := by
  obtain ⟨g, hload, h⟩ := exists_ok_of_any h
  obtain ⟨trigger, htrigger, h⟩ := (Option.any_eq_true _ _).1 h
  obtain ⟨added, hadd, h⟩ := (Option.any_eq_true _ _).1 h
  rw [Bool.and_eq_true, beq_iff_eq] at h
  obtain ⟨hone, hwritten⟩ := h
  obtain ⟨after, hprint, h⟩ := exists_ok_of_any hwritten
  obtain ⟨htest, hback⟩ := Bool.and_eq_true_iff.1 h
  obtain ⟨g', hload', hsame⟩ := exists_ok_of_any hback
  obtain ⟨trigger', htrigger', -, -, htree⟩ := tree_of_add? (Yaml.closed_of_load hload) hadd
  obtain rfl := Option.some.inj (htrigger.symm.trans htrigger')
  have htree' : g'.tree = g.tree.addCaller subworkflow caller :=
    (Graph.treeAt_eq_of_sameWithin hsame).trans (htree.2 (Graph.existsUnique_of_occurrences hone))
  refine ⟨after, ⟨?_, fun _ _ _ => ⟨g.tree, ⟨g, hload, rfl⟩, g', hload', htree'⟩⟩, htest⟩
  unfold addToText
  simp only [hload, hadd, hprint]

end Caller

end WorkflowLint
