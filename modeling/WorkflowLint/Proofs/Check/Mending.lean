import WorkflowLint.Proofs.Check.Edits

/-!
# What the edits of the built-in checks mend

For each of the three edits this module says that it is gentle, which parts of a document it leaves
alone, and what becomes of the part that it is about: the settings, a property, or the nodes.
-/

namespace WorkflowLint.Check

open Json

variable {document : Members} {change : Members → Members} {name : Text}

/-! ## Edits of nodes -/

/-- The list of the nodes of a document. -/
def rawNodes? (document : Members) : Option (List Json) := (document.get? "nodes").bind items?

/-- Changes a value that is an object. -/
def changeObject (change : Members → Members) : Json → Json
  | .object ms => .object (change ms)
  | v => v

theorem nodeObjects_eq (document : Members) :
    nodeObjects document = ((rawNodes? document).getD []).filterMap members? := by
  unfold nodeObjects rawNodes?
  rcases document.get? "nodes" with _ | (_ | _ | _ | _ | _ | _ | _) <;> rfl

theorem mapNodes_of_rawNodes? {items : List Json} (h : document.get? "nodes" = some (.array items)) :
    mapNodes change document =
      document.set "nodes" (.array (items.map (changeObject change))) := by
  unfold mapNodes
  rw [h]
  simp only
  congr 3

theorem mapNodes_eq_self (h : rawNodes? document = none) : mapNodes change document = document := by
  unfold mapNodes
  split
  · next items hnodes =>
    rw [rawNodes?, hnodes] at h
    exact absurd h (Option.some_ne_none items)
  · rfl

theorem rawNodes?_eq_some_iff {items : List Json} :
    rawNodes? document = some items ↔ document.get? "nodes" = some (.array items) := by
  unfold rawNodes?
  rcases document.get? "nodes" with _ | (_ | _ | _ | _ | _ | _ | _) <;> simp [items?]

/-- Changing the nodes changes nothing else. -/
theorem get?_mapNodes (h : name ≠ ↑"nodes") :
    (mapNodes change document).get? name = document.get? name := by
  cases hraw : rawNodes? document with
  | none => rw [mapNodes_eq_self hraw]
  | some items =>
    rw [mapNodes_of_rawNodes? (rawNodes?_eq_some_iff.1 hraw), get?_set, if_neg (Ne.symm h)]

theorem rawNodes?_mapNodes :
    rawNodes? (mapNodes change document) =
      (rawNodes? document).map (List.map (changeObject change)) := by
  cases hraw : rawNodes? document with
  | none => rw [mapNodes_eq_self hraw, hraw, Option.map_none]
  | some items =>
    rw [mapNodes_of_rawNodes? (rawNodes?_eq_some_iff.1 hraw), Option.map_some]
    refine rawNodes?_eq_some_iff.2 ?_
    rw [get?_set, if_pos rfl]

theorem filterMap_members?_map (items : List Json) :
    (items.map (changeObject change)).filterMap members? = (items.filterMap members?).map change := by
  rw [List.filterMap_map, List.map_filterMap]
  congr 1
  funext v
  cases v <;> rfl

/-- A change of the nodes of a document changes the objects among them. -/
theorem nodeObjects_of_rawNodes? {document' : Members}
    (h : rawNodes? document' = (rawNodes? document).map (List.map (changeObject change))) :
    nodeObjects document' = (nodeObjects document).map change := by
  rw [nodeObjects_eq, nodeObjects_eq, h]
  cases rawNodes? document with
  | none => rfl
  | some items => exact filterMap_members?_map items

theorem mapNodes_id (document : Members) : mapNodes id document = document := by
  cases hraw : rawNodes? document with
  | none => exact mapNodes_eq_self hraw
  | some items =>
    have hnodes := rawNodes?_eq_some_iff.1 hraw
    have hid : changeObject id = id := by
      funext v
      cases v <;> rfl
    rw [mapNodes_of_rawNodes? hnodes, hid, List.map_id]
    exact Keyed.set_of_get? hnodes

/-- Two changes of nodes are one. -/
theorem mapNodes_comp (first second : Members → Members) (document : Members) :
    mapNodes second (mapNodes first document) = mapNodes (second ∘ first) document := by
  cases hraw : rawNodes? document with
  | none => rw [mapNodes_eq_self hraw, mapNodes_eq_self hraw, mapNodes_eq_self hraw]
  | some items =>
    have hnodes := rawNodes?_eq_some_iff.1 hraw
    have hcomp : changeObject second ∘ changeObject first = changeObject (second ∘ first) := by
      funext v
      cases v <;> rfl
    rw [mapNodes_of_rawNodes? hnodes, mapNodes_of_rawNodes? hnodes,
      mapNodes_of_rawNodes? (by rw [get?_set, if_pos rfl]), List.map_map, hcomp]
    exact Keyed.set_set _

/-- What becomes of the nodes is all that counts of a change. -/
theorem mapNodes_congr {change change' : Members → Members}
    (h : ∀ node ∈ nodeObjects document, change node = change' node) :
    mapNodes change document = mapNodes change' document := by
  cases hraw : rawNodes? document with
  | none => rw [mapNodes_eq_self hraw, mapNodes_eq_self hraw]
  | some items =>
    have hnodes := rawNodes?_eq_some_iff.1 hraw
    rw [mapNodes_of_rawNodes? hnodes, mapNodes_of_rawNodes? hnodes]
    congr 2
    refine List.map_congr_left fun v hv => ?_
    cases v with
    | object node =>
      refine congrArg Json.object (h node ?_)
      rw [nodeObjects_eq, hraw]
      exact List.mem_filterMap.2 ⟨_, hv, rfl⟩
    | _ => rfl

theorem nodeObjects_mapNodes (change : Members → Members) (document : Members) :
    nodeObjects (mapNodes change document) = (nodeObjects document).map change :=
  nodeObjects_of_rawNodes? rawNodes?_mapNodes

/-- A change of nodes is gentle if it is so on every single node. -/
theorem gentle_mapNodes
    (hfits : ∀ depth ms, Fits depth (.object ms) → Fits depth (.object (change ms)))
    (hsame : ∀ ms, Json.same (.object (change ms)) (.object ms) = true → change ms = ms) :
    Gentle (mapNodes change) where
  fits ms h := by
    cases hraw : rawNodes? ms with
    | none => rwa [mapNodes_eq_self hraw]
    | some items =>
      have hnodes := rawNodes?_eq_some_iff.1 hraw
      rw [mapNodes_of_rawNodes? hnodes]
      obtain ⟨d, hd, -⟩ := fits_object_iff.1 h
      rw [hd] at h ⊢
      obtain ⟨d', rfl, hitems⟩ := fits_array_iff.1 (h.get? hnodes)
      refine h.set (.array fun v hv => ?_)
      obtain ⟨item, hitem, rfl⟩ := List.mem_map.1 hv
      cases item with
      | object node => exact hfits d' node (hitems _ hitem)
      | _ => exact hitems _ hitem
  same ms h := by
    cases hraw : rawNodes? ms with
    | none => exact mapNodes_eq_self hraw
    | some items =>
      have hnodes := rawNodes?_eq_some_iff.1 hraw
      rw [mapNodes_of_rawNodes? hnodes] at h ⊢
      -- equal documents have equal nodes, and no single change leaves a node equal but different
      obtain ⟨w, hw, hitems⟩ := exists_get?_of_same_set h
      obtain rfl : .array items = w := Option.some.inj (hnodes.symm.trans hw)
      have hself : items.map (changeObject change) = items := by
        refine map_eq_self_of_sameItems (fun v _ hv => ?_) (by simpa only [Json.same] using hitems)
        cases v with
        | object node => exact congrArg Json.object (hsame node hv)
        | _ => rfl
      rw [hself]
      exact Keyed.set_of_get? hnodes

/-- A change that does no more when it is made again is so on the nodes of a document. -/
theorem mapNodes_mapNodes (h : ∀ node, change (change node) = change node) :
    mapNodes change (mapNodes change document) = mapNodes change document := by
  rw [mapNodes_comp]
  exact mapNodes_congr fun node _ => h node

/-! ## Settings -/

namespace RequiredSettings

theorem isText_iff {t : Text} {v : Json} : v.isText t = true ↔ v = .string t := by
  cases v <;> simp [isText]

/-- A required setting has its value. -/
def Settled (document : Members) (r : Text × Text) : Prop :=
  (settings document).get? r.1 = some (.string r.2)

/-- There is no finding on a required setting exactly when it has its value. -/
theorem check?_eq_none_iff {path : Text} {r : Text × Text} (hr : r ∈ required) :
    check? path document r.1 r.2 = none ↔ Settled document r := by
  have hfull : r.2.isEmpty = false := by
    revert r
    decide
  unfold check?
  split
  · next hnone =>
    refine iff_of_false (Option.some_ne_none _) ?_
    intro hsettled
    rw [hsettled] at hnone
    simp [present?, isBlank, hfull] at hnone
  · next v hsome =>
    have hget : (settings document).get? r.1 = some v := (Option.filter_eq_some_iff.1 hsome).1
    rw [Settled, hget, Option.some.injEq, ← isText_iff]
    split
    · next htext => simp [htext]
    · next htext => simp [htext]

theorem settings_setSetting (key : Text) (value : Json) :
    settings (setSetting key value document) = (settings document).set key value := by
  rw [settings, setSetting, get?_set, if_pos rfl]
  rfl

theorem get?_setSetting (key : Text) (value : Json) (h : name ≠ ↑"settings") :
    (setSetting key value document).get? name = document.get? name := by
  rw [setSetting, get?_set, if_neg (Ne.symm h)]

theorem fits_settings {depth : Nat} (h : Fits (depth + 1 + 1) (.object document)) :
    Fits (depth + 1) (.object (settings document)) := by
  cases hget : document.get? "settings" with
  | none =>
    rw [settings, hget]
    exact .object List.nodup_nil fun _ hm => absurd hm List.not_mem_nil
  | some v =>
    rw [settings, hget, Option.bind_some]
    cases v with
    | object st => exact h.get? hget
    | _ => exact .object List.nodup_nil fun _ hm => absurd hm List.not_mem_nil

theorem gentle_setSetting (key s : Text) : Gentle (setSetting key (.string s)) where
  fits ms h := by
    -- a setting lies two levels deep
    obtain ⟨d, hd⟩ : ∃ d, depthLimit = d + 1 + 1 := ⟨998, rfl⟩
    rw [hd] at h ⊢
    exact h.set ((fits_settings h).set (.string s))
  same ms h := by
    obtain ⟨w, hw, hsame⟩ := exists_get?_of_same_set h
    obtain ⟨st, rfl, -⟩ := exists_object_of_same hsame
    have hst : settings ms = st := by
      rw [settings, hw]
      rfl
    rw [hst] at hsame
    obtain ⟨u, hu, hs⟩ := exists_get?_of_same_set hsame
    rw [eq_string_of_same hs] at hu
    have hset : Members.set st key (.string s) = st := Keyed.set_of_get? hu
    rw [setSetting, hst, hset]
    exact Keyed.set_of_get? hw

/-- Setting a setting again changes nothing. -/
theorem setSetting_setSetting (key : Text) (value : Json) :
    setSetting key value (setSetting key value document) = setSetting key value document := by
  have hset : Members.set ((settings document).set key value) key value =
      (settings document).set key value :=
    Keyed.set_of_get? ((get?_set key key value _).trans (if_pos rfl))
  have hget : (setSetting key value document).get? "settings" =
      some (.object ((settings document).set key value)) := by
    rw [setSetting, get?_set, if_pos rfl]
  rw [setSetting, settings_setSetting, hset]
  exact Keyed.set_of_get? hget

/-- Sets some settings, one after the other. -/
def settle (rs : List (Text × Text)) (document : Members) : Members :=
  rs.foldl (fun ms r => setSetting r.1 (.string r.2) ms) document

theorem settle_cons (r : Text × Text) (rs : List (Text × Text)) :
    settle (r :: rs) document = settle rs (setSetting r.1 (.string r.2) document) := rfl

theorem get?_settle (rs : List (Text × Text)) (h : name ≠ ↑"settings") :
    (settle rs document).get? name = document.get? name := by
  induction rs generalizing document with
  | nil => rfl
  | cons r rs ih => rw [settle_cons, ih, get?_setSetting _ _ h]

theorem settled_setSetting_iff {r r' : Text × Text} (hr : r ∈ required) (hr' : r' ∈ required) :
    Settled (setSetting r'.1 (.string r'.2) document) r ↔ r = r' ∨ Settled document r := by
  -- no setting is required with two values
  have hkey : ∀ q ∈ required, ∀ q' ∈ required, q'.1 = q.1 → q = q' := by decide
  unfold Settled
  rw [settings_setSetting, get?_set]
  by_cases hk : r'.1 = r.1
  · obtain rfl := hkey r hr r' hr' hk
    simp
  · rw [if_neg hk]
    exact ⟨.inr, fun h => h.resolve_left fun heq => hk (heq ▸ rfl)⟩

/-- The required settings that have their values after some were set are these and those that had
theirs before. -/
theorem settled_settle_iff {r : Text × Text} {rs : List (Text × Text)} (hr : r ∈ required)
    (hrs : ∀ r' ∈ rs, r' ∈ required) :
    Settled (settle rs document) r ↔ r ∈ rs ∨ Settled document r := by
  induction rs generalizing document with
  | nil => simp [settle]
  | cons r' rs ih =>
    obtain ⟨hr', hrs⟩ := List.forall_mem_cons.1 hrs
    rw [settle_cons, ih hrs, settled_setSetting_iff hr hr', List.mem_cons]
    constructor
    · rintro (h | h | h)
      · exact .inl (.inr h)
      · exact .inl (.inl h)
      · exact .inr h
    · rintro ((h | h) | h)
      · exact .inr (.inl h)
      · exact .inl h
      · exact .inr (.inr h)

end RequiredSettings

/-! ## Properties -/

namespace ForbiddenProperties

theorem gentle_dropProperty (key : Text) : Gentle (dropProperty key) where
  fits _ h := h.erase
  same ms h := by
    -- equal objects have as many members, so that none was left out
    obtain ⟨others, heq, hlen, -⟩ := exists_object_of_same h
    obtain rfl := Json.object.inj heq
    exact List.filter_eq_self.2 (List.length_filter_eq_length_iff.1 hlen)

/-- Dropping a property again changes nothing. -/
theorem dropProperty_dropProperty (key : Text) :
    dropProperty key (dropProperty key document) = dropProperty key document := by
  refine List.filter_eq_self.2 fun m hm => ?_
  exact (List.mem_filter.1 hm).2

/-- Drops some properties, one after the other. -/
def sanitise (keys : List Text) (document : Members) : Members :=
  keys.foldl (fun ms key => dropProperty key ms) document

theorem sanitise_cons (key : Text) (keys : List Text) :
    sanitise (key :: keys) document = sanitise keys (dropProperty key document) := rfl

theorem get?_sanitise (keys : List Text) :
    (sanitise keys document).get? name = if name ∈ keys then none else document.get? name := by
  induction keys generalizing document with
  | nil => rfl
  | cons key keys ih =>
    rw [sanitise_cons, ih, dropProperty, get?_erase]
    by_cases hkey : name = key
    · simp [hkey]
    · simp [hkey]

end ForbiddenProperties

/-! ## Ids of webhooks -/

namespace WebhookId

/-- Gives an id to a node if it is a webhook of a name that has none. -/
def addIdTo (name : Json) (node : Members) : Members :=
  if lacksId node ∧ sameName (nameOf node) name then
    node.set "webhookId" (.string (generated name))
  else node

theorem addId_eq (name : Json) : addId name = mapNodes (addIdTo name) := rfl

theorem gentle_addId (name : Json) : Gentle (addId name) := by
  rw [addId_eq]
  refine gentle_mapNodes (fun depth ms h => ?_) fun ms h => ?_
  · unfold addIdTo
    split
    · obtain ⟨d, rfl, -⟩ := fits_object_iff.1 h
      exact h.set (.string _)
    · exact h
  · unfold addIdTo at h ⊢
    split
    · next hadds =>
      rw [if_pos hadds] at h
      obtain ⟨w, hw, hsame⟩ := exists_get?_of_same_set h
      rw [eq_string_of_same hsame] at hw
      exact Keyed.set_of_get? hw
    · rfl

theorem addIdTo_addIdTo (name : Json) (node : Members) :
    addIdTo name (addIdTo name node) = addIdTo name node := by
  by_cases hadds : lacksId node ∧ sameName (nameOf node) name
  · have hset : addIdTo name node = node.set "webhookId" (.string (generated name)) := if_pos hadds
    -- an empty id counts as none, but it is given again
    have hget : (addIdTo name node).get? "webhookId" = some (.string (generated name)) := by
      rw [hset, get?_set, if_pos rfl]
    rw [addIdTo]
    split
    · exact Keyed.set_of_get? hget
    · rfl
  · have hself : addIdTo name node = node := if_neg hadds
    rw [hself, hself]

/-- Giving webhooks ids again changes nothing. -/
theorem addId_addId (name : Json) : addId name (addId name document) = addId name document := by
  rw [addId_eq]
  exact mapNodes_mapNodes (addIdTo_addIdTo name)

/-- Gives ids to the webhooks of some names that have none, name by name. -/
def identify (names : List Json) (document : Members) : Members :=
  names.foldl (fun ms name => addId name ms) document

/-- What becomes of a single node. -/
def identifyNode (names : List Json) (node : Members) : Members :=
  names.foldl (fun ms name => addIdTo name ms) node

theorem identify_cons (name : Json) (names : List Json) :
    identify (name :: names) document = identify names (addId name document) := rfl

theorem identifyNode_cons (name : Json) (names : List Json) (node : Members) :
    identifyNode (name :: names) node = identifyNode names (addIdTo name node) := rfl

theorem identify_eq_mapNodes (names : List Json) (document : Members) :
    identify names document = mapNodes (identifyNode names) document := by
  induction names generalizing document with
  | nil => exact (mapNodes_id document).symm
  | cons name names ih =>
    rw [identify_cons, ih, addId_eq, mapNodes_comp]
    rfl

theorem get?_identify (names : List Json) (h : name ≠ ↑"nodes") :
    (identify names document).get? name = document.get? name := by
  rw [identify_eq_mapNodes, get?_mapNodes h]

theorem rawNodes?_identify (names : List Json) :
    rawNodes? (identify names document) =
      (rawNodes? document).map (List.map (changeObject (identifyNode names))) := by
  rw [identify_eq_mapNodes, rawNodes?_mapNodes]

/-- Nothing but the id of a webhook is given to a node. -/
theorem get?_identifyNode (names : List Json) (node : Members) (h : name ≠ ↑"webhookId") :
    (identifyNode names node).get? name = node.get? name := by
  induction names generalizing node with
  | nil => rfl
  | cons n names ih =>
    rw [identifyNode_cons, ih, addIdTo]
    split
    · rw [get?_set, if_neg (Ne.symm h)]
    · rfl

theorem get?_addIdTo (n : Json) (node : Members) (h : name ≠ ↑"webhookId") :
    (addIdTo n node).get? name = node.get? name :=
  get?_identifyNode [n] node h

theorem nameOf_addIdTo (n : Json) (node : Members) : nameOf (addIdTo n node) = nameOf node := by
  rw [nameOf, get?_addIdTo n node (by decide), nameOf]

theorem lacksId_set_iff {node : Members} {id : Text} (hlacks : lacksId node = true) :
    lacksId (node.set "webhookId" (.string id)) = true ↔ id = [] := by
  have htype : (node.set "webhookId" (.string id)).get? "type" = node.get? "type" := by
    rw [get?_set, if_neg (by decide)]
  have hid : (node.set "webhookId" (.string id)).fullText? "webhookId" =
      (some id).filter fun s => !s.isEmpty := by
    rw [Members.fullText?, Members.text?, get?_set, if_pos rfl]
  rw [lacksId, Bool.and_eq_true] at hlacks
  rw [lacksId, htype, hid, hlacks.1, Bool.true_and]
  cases id <;> simp

theorem lacksId_addIdTo_iff (n : Json) (node : Members) :
    lacksId (addIdTo n node) = true ↔
      lacksId node = true ∧ (sameName (nameOf node) n = true → generated n = []) := by
  by_cases hadds : lacksId node ∧ sameName (nameOf node) n
  · rw [addIdTo, if_pos hadds, lacksId_set_iff hadds.1, and_iff_right hadds.1,
      imp_iff_right hadds.2]
  · rw [addIdTo, if_neg hadds]
    constructor
    · intro hl
      exact ⟨hl, fun hs => absurd ⟨hl, hs⟩ hadds⟩
    · intro h
      exact h.1

/-- A webhook has no id after some names were given one exactly when it had none before and no
name that is its own gives an id that is not empty. -/
theorem lacksId_identifyNode_iff (names : List Json) (node : Members) :
    lacksId (identifyNode names node) = true ↔
      lacksId node = true ∧
        ∀ n ∈ names, sameName (nameOf node) n = true → generated n = [] := by
  induction names generalizing node with
  | nil => simp [identifyNode]
  | cons n names ih =>
    rw [identifyNode_cons, ih, lacksId_addIdTo_iff, nameOf_addIdTo, List.forall_mem_cons, and_assoc]

end WebhookId

end WorkflowLint.Check
