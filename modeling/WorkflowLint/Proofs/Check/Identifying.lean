import WorkflowLint.Proofs.Check.BuiltIn
import WorkflowLint.Proofs.Json.Reordered
import WorkflowLint.Proofs.Text.Slug

/-!
# Identified webhooks

The fixes of webhooks give each one that has no id the slug of its name, and change nothing else
(`identifies_iff`).  A name that is not a number is equal to no name, so that its webhook gets no
id; and the slug of a name may be empty, which is as good as none.  For all other names nothing more
is found then, and so nothing is found if and only if no webhook without an id had one of those.
-/

namespace WorkflowLint.Check

open Json

variable {document : Members}

namespace WebhookId

variable {name other : Json} {node : Members}

/-! ## Names -/

/-- Names that are equal lead to the same id. -/
theorem generated_congr (h : sameName name other = true) : generated name = generated other := by
  have hsame : Json.same name other = true := by
    unfold sameName at h
    split at h
    · exact absurd h Bool.false_ne_true
    · exact h
  cases name with
  | string s => rw [eq_string_of_same hsame]
  | _ =>
    cases other with
    | string s =>
      simp only [Json.same] at hsame
      exact absurd hsame Bool.false_ne_true
    | _ => rfl

/-- A name is equal to itself unless it is not a number. -/
theorem sameName_self {depth : Nat} (hfits : Fits depth name) (hname : name ≠ .real .nan) :
    sameName name name = true := by
  have hsame := same_self hfits
  unfold sameName
  split
  · exact absurd rfl hname
  · exact hsame

theorem sameName_nan (name : Json) : sameName (.real .nan) name = false := by
  cases name with
  | real x => cases x <;> rfl
  | bool b => cases b <;> rfl
  | _ => rfl

/-- No id can be made of a name: it is a text that is not empty, and whose lower-case form has
neither a letter nor a digit of a slug. -/
theorem generated_eq_nil_iff :
    generated name = [] ↔
      ∃ s, name = .string s ∧ s ≠ [] ∧ ∀ c ∈ s.lower, Text.isSlugUnit c = false := by
  have hdefault : Text.slug "webhook" ≠ [] := by decide +kernel
  cases name with
  | string s =>
    cases s with
    | nil =>
      refine iff_of_false hdefault ?_
      rintro ⟨s, heq, hne, -⟩
      exact hne (Json.string.inj heq).symm
    | cons c s =>
      rw [generated, List.isEmpty_cons, if_neg Bool.false_ne_true, Text.slug_eq_nil_iff]
      simp
  | _ =>
    refine iff_of_false hdefault ?_
    rintro ⟨s, heq, -⟩
    exact absurd heq (by simp)

/-! ## What becomes of a webhook -/

/-- A node with the id that its name leads to. -/
def slugged (node : Members) : Members := node.set "webhookId" (.string (generated (nameOf node)))

theorem slugged_slugged (node : Members) : slugged (slugged node) = slugged node := by
  have hname : nameOf (slugged node) = nameOf node := by
    rw [nameOf, slugged, get?_set, if_neg (by decide), nameOf]
  rw [slugged, hname]
  exact Keyed.set_set _

/-- Giving ids to the webhooks of some names gives one to each webhook that has one of these names
and lacks an id. -/
theorem identifyNode_eq (names : List Json) (node : Members) :
    identifyNode names node =
      if lacksId node && names.any (sameName (nameOf node)) then slugged node else node := by
  induction names generalizing node with
  | nil => simp [identifyNode]
  | cons name names ih =>
    rw [identifyNode_cons, List.any_cons]
    by_cases hadds : lacksId node ∧ sameName (nameOf node) name
    · have hslugged : addIdTo name node = slugged node := by
        rw [addIdTo, if_pos hadds, slugged, generated_congr hadds.2]
      rw [hslugged, ih, slugged_slugged, ite_self, hadds.1, hadds.2]
      rfl
    · rw [addIdTo, if_neg hadds, ih]
      cases hlacks : lacksId node with
      | false => rfl
      | true =>
        have hother : sameName (nameOf node) name = false := by simpa [hlacks] using hadds
        rw [hother, Bool.false_or]

/-- Whether an id can be made of a name: of any but the number that is none, and of a text if it has
a letter or digit of a slug, or is empty, for which there is a default. -/
def nameable : Json → Bool
  | .string s => s.isEmpty || s.lower.any Text.isSlugUnit
  | .real .nan => false
  | _ => true

theorem nameable_iff : nameable name = true ↔ name ≠ .real .nan ∧ generated name ≠ [] := by
  rw [Ne, Ne, generated_eq_nil_iff]
  cases name with
  | string s =>
    rw [nameable, Bool.or_eq_true, List.isEmpty_iff, List.any_eq_true]
    simp only [Json.string.injEq, reduceCtorEq, not_false_eq_true, true_and]
    constructor
    · rintro (rfl | ⟨c, hc, hunit⟩) ⟨_, rfl, hne, hnone⟩
      · exact hne rfl
      · exact absurd (hnone c hc) (by simp [hunit])
    · intro hnot
      by_contra hcontra
      obtain ⟨hne, hnone⟩ := not_or.1 hcontra
      refine hnot ⟨s, rfl, hne, ?_⟩
      intro c hc
      by_contra hunit
      exact hnone ⟨c, hc, by simpa using hunit⟩
  | real x => cases x <;> simp [nameable]
  | _ => simp [nameable]

/-- A webhook without an id gets the one that its name leads to, unless its name is not a number. -/
def identified (node : Members) : Members :=
  if lacksId node then
    match nameOf node with
    | .real .nan => node
    | _ => slugged node
  else node

theorem identified_of_lacksId (hlacks : lacksId node = true) (hname : nameOf node ≠ .real .nan) :
    identified node = slugged node := by
  rw [identified, if_pos hlacks]
  split
  · next hnan => exact absurd hnan hname
  · rfl

theorem identified_of_nan (hname : nameOf node = .real .nan) : identified node = node := by
  rw [identified, hname]
  split <;> rfl

/-- A webhook still lacks an id exactly if it lacked one and no id can be made of its name. -/
theorem lacksId_identified_iff (node : Members) :
    lacksId (identified node) = true ↔ lacksId node = true ∧ ¬ nameable (nameOf node) = true := by
  cases hlacks : lacksId node with
  | false => simp [identified, hlacks]
  | true =>
    rw [nameable_iff, not_and_not_right, and_iff_right rfl]
    by_cases hname : nameOf node = .real .nan
    · rw [identified_of_nan hname, hlacks]
      exact iff_of_true rfl fun hne => absurd hname hne
    · rw [identified_of_lacksId hlacks hname, slugged, lacksId_set_iff hlacks]
      exact (imp_iff_right hname).symm

/-! ## What becomes of a document -/

/-- The nodes of a document that was read are objects as they are read. -/
theorem exists_fits_of_mem_nodeObjects {depth : Nat} (hfits : Fits depth (.object document))
    (hnode : node ∈ nodeObjects document) : ∃ d, Fits d (.object node) := by
  obtain ⟨d, rfl, -⟩ := fits_object_iff.1 hfits
  cases hraw : rawNodes? document with
  | none =>
    rw [nodeObjects_eq, hraw] at hnode
    exact absurd hnode List.not_mem_nil
  | some items =>
    rw [nodeObjects_eq, hraw] at hnode
    obtain ⟨d', rfl, hitems⟩ := fits_array_iff.1 (hfits.get? (rawNodes?_eq_some_iff.1 hraw))
    obtain ⟨v, hv, hobject⟩ := List.mem_filterMap.1 hnode
    cases v with
    | object ms =>
      obtain rfl : ms = node := Option.some.inj hobject
      exact ⟨d', hitems _ hv⟩
    | _ => exact absurd hobject.symm (Option.some_ne_none node)

theorem exists_fits_nameOf {depth : Nat} (hfits : Fits depth (.object node)) :
    ∃ d, Fits d (nameOf node) := by
  obtain ⟨d, rfl, -⟩ := fits_object_iff.1 hfits
  unfold nameOf
  cases hname : node.get? "name" with
  | none => exact ⟨d, .null⟩
  | some v => exact ⟨d, hfits.get? hname⟩

/-- The edits of the fixes identify the webhooks of a document. -/
theorem identify_unidentified {depth : Nat} (hfits : Fits depth (.object document)) :
    identify (unidentified document) document = mapNodes identified document := by
  rw [identify_eq_mapNodes]
  refine mapNodes_congr fun node hnode => ?_
  rw [identifyNode_eq]
  cases hlacks : lacksId node with
  | false => simp [identified, hlacks]
  | true =>
    by_cases hname : nameOf node = .real .nan
    · have hany : ((unidentified document).any (sameName (nameOf node))) = false := by
        simp [hname, sameName_nan]
      rw [identified_of_nan hname, hany, Bool.and_false]
      rfl
    · obtain ⟨d, hd⟩ := exists_fits_of_mem_nodeObjects hfits hnode
      obtain ⟨d', hd'⟩ := exists_fits_nameOf hd
      have hany : ((unidentified document).any (sameName (nameOf node))) = true :=
        List.any_eq_true.2 ⟨nameOf node,
          (mem_unidentified_iff document).2 ⟨node, hnode, hlacks, rfl⟩, sameName_self hd' hname⟩
      rw [identified_of_lacksId hlacks hname, hany]
      rfl

/-- A document that differs from another one in nothing but ids of webhooks: those that had none
have one that is not empty. -/
def Identifies (document document' : Members) : Prop :=
  ∃ ids : Members → Text,
    (∀ node ∈ nodeObjects document, lacksId node = true → ids node ≠ []) ∧
    document' = mapNodes
      (fun node => if lacksId node then node.set "webhookId" (.string (ids node)) else node)
      document

section

variable {t : Text} (path : Text)

/-- The fixes of the webhooks of a document identify them. -/
theorem exists_runsTo_identified (h : Json.read t = .ok (.object document)) :
    ∃ t', Fix.RunsTo ((webhookFindings path t document).filterMap (·.fix)) t t' ∧
      Json.read t' = .ok (.object (mapNodes identified document)) := by
  obtain ⟨t', hruns, hread⟩ :=
    Fix.exists_runsTo_of_makes_map (makes_webhookFindings path t document) gentle_addId h
  refine ⟨t', hruns, ?_⟩
  rw [hread, ← identify_unidentified (fits_of_read h)]
  rfl

/-- Nothing is found on identified webhooks exactly if ids could be made of their names. -/
theorem run_identified_iff (h : Json.read t = .ok (.object (mapNodes identified document))) :
    run t path = .ok [] ↔
      ∀ node ∈ nodeObjects document, lacksId node = true → nameable (nameOf node) = true := by
  have hrun : run t path = .ok (webhookFindings path t (mapNodes identified document)) :=
    onDocument_of_read h _
  rw [hrun, Except.ok.injEq, webhookFindings_eq_nil_iff, nodeObjects_mapNodes, List.forall_mem_map]
  refine forall₂_congr fun node _ => ?_
  rw [lacksId_identified_iff, not_and, not_not]

end

/-- A workflow whose only node is a webhook with a name and without an id. -/
def webhookText (name : Text) : Text :=
  "\x7b\"nodes\":[\x7b\"type\":\"n8n-nodes-base.webhook\",\"name\":\"" ++ name ++ "\"\x7d]\x7d"

end WebhookId

end WorkflowLint.Check
