import WorkflowLint.Check.Document
import WorkflowLint.Proofs.Json.Fits
import WorkflowLint.Proofs.Keyed
import WorkflowLint.Proofs.Workflow.Connected

/-!
# Lines of nodes

The nodes of a graph have the lines under which their ids were filed when the text was searched for the
objects of the document (`line_of_parse`).  The checks of texts search for one object at a time.  The two
agree on a document exactly if the last object filed under each id is found on the line on which that of
the node is (`locatesAlike_iff`).

They are at odds in three ways.  An id that is present but no text is none for the graph, which goes by
the name then, and what it is shown as is what the object is filed under, even if that is the id of
another node.  An id that is the empty text is none for the graph either, and it is searched for all the
same.  And so is an empty name, if the id was not found.
-/

namespace WorkflowLint.Workflow

/-- The id of an object, or else its name. -/
def identity (raw : Json.Members) : Text := (raw.fullText? "id").getD ((raw.text? "name").getD [])

/-- The line of an object, found by any text that is its id or its name. -/
def Places.anyLine? (places : Places) (raw : Json.Members) : Option Nat :=
  places.line? raw fun _ => true

/-- The id of an object counts as absent, is a text, or is shown as the name of the object. -/
def HasPlainId (raw : Json.Members) : Prop :=
  ∀ v, raw.get? "id" = some v →
    v.isBlank = true ∨ (∃ id, v = .string id) ∨ raw.text? "name" = some v.shown

/-- The lines of the objects that are filed under a key, in the order of the document. -/
def linesUnder (text : Text) (nodes : List Json.Members) (key : Text) : List Nat :=
  (nodes.filter fun raw => nodeKey raw = key).filterMap (Places.of text).anyLine?

/-- The nodes of a graph have the lines on which their objects are found one by one. -/
def LocatesAlike (text : Text) (nodes : List Json.Members) (g : Graph) : Prop :=
  List.Forall₂ (fun raw n => n.line = (Places.of text).nodeLine? raw) nodes g.nodes

/-- An object is found by an empty text only, or first: by its id, where its name is on another line or
nowhere, or by its name, where its id is nowhere. -/
def IsFoundByEmpty (text : Text) (raw : Json.Members) : Prop :=
  raw.text? "id" = some [] ∧ (∃ line, lineOfValue? (Places.of text).ids [] = some line ∧
      (Places.of text).nodeLine? raw ≠ some line) ∨
    raw.text? "name" = some [] ∧ (Places.of text).nodeLine? raw = none ∧
      ∃ line, lineOfValue? (Places.of text).names [] = some line

/-! ## Lines in the graph -/

section Lines

variable {text : Text} {ms raw : Json.Members} {nodes : List Json.Members} {g : Graph} {n : Node}
  {lines : List (Text × Nat)}

theorem Describes.id_eq (h : Describes raw n) : n.id = identity raw := by
  obtain hid | ⟨hnone, hid⟩ := h.id
  · rw [identity, fullText?_eq_some_iff.2 hid, Option.getD_some]
  · rw [identity, fullText?_eq_none_iff.2 hnone, Option.getD_none, hid, h.name]

theorem line_of_parseNodeObject {position : Nat}
    (h : parseNodeObject lines position raw = .ok n) : n.line = Keyed.get? n.id lines := by
  unfold parseNodeObject at h
  split at h
  · cases h
  dsimp only at h
  split at h
  · cases h
  split at h
  · obtain rfl := Except.ok.inj h
    rfl
  · obtain rfl := Except.ok.inj h
    rfl
  · cases h

theorem line_of_parseNodes {position : Nat} {ns : List Node}
    (h : parseNodes lines position (nodes.map .object) = .ok ns) :
    ∀ n ∈ ns, n.line = Keyed.get? n.id lines := by
  induction nodes generalizing position ns with
  | nil =>
    obtain rfl := Except.ok.inj h
    exact List.forall_mem_nil _
  | cons raw nodes ih =>
    rw [List.map_cons, parseNodes] at h
    split at h
    · cases h
    next n hnode =>
    split at h
    · cases h
    next rest hrest =>
    obtain rfl := Except.ok.inj h
    exact List.forall_mem_cons.2 ⟨line_of_parseNodeObject hnode, ih hrest⟩

/-- The line of a node is what its id was filed with. -/
theorem line_of_parse (hread : Json.read text = .ok (.object ms)) (hworkflow : IsWorkflow ms nodes)
    (hparse : Graph.parse text = .ok g) :
    ∀ n ∈ g.nodes, n.line = Keyed.get? n.id (locate text nodes) := by
  obtain ⟨document, hdocument, hg⟩ := parse_eq_ok_iff.1 hparse
  obtain rfl := Except.ok.inj (hread.symm.trans hdocument)
  have hmembers : (nodes.map Json.object).filterMap Json.members? = nodes := by
    rw [List.filterMap_map]
    exact List.filterMap_some
  simp only [Graph.ofDocument, hworkflow.nodes_eq, hmembers] at hg
  split at hg
  · cases hg
  next ns hns =>
  split at hg
  · cases hg
  obtain rfl := Except.ok.inj hg
  exact line_of_parseNodes hns

/-- The nodes of a workflow are described by its objects, in order. -/
theorem describes_of_parse (hread : Json.read text = .ok (.object ms)) (hworkflow : IsWorkflow ms nodes)
    (hparse : Graph.parse text = .ok g) : List.Forall₂ Describes nodes g.nodes := by
  obtain ⟨ms', nodes', hread', hworkflow', hrepresents⟩ := represents_of_parse hparse
  obtain rfl := Json.object.inj (Except.ok.inj (hread.symm.trans hread'))
  have hmap := Json.array.inj (Option.some.inj (hworkflow.nodes_eq.symm.trans hworkflow'.nodes_eq))
  rw [List.map_injective_iff.2 (fun _ _ h => Json.object.inj h) hmap]
  exact hrepresents.nodes

/-! ## What is filed -/

/-- The line of a key is the last one that was filed under it. -/
theorem get?_locate {key : Text} (hkey : key ≠ []) (text : Text) (nodes : List Json.Members) :
    Keyed.get? key (locate text nodes) = (linesUnder text nodes key).getLast? := by
  have hpoint : ∀ raw : Json.Members,
      (((if (nodeKey raw).isEmpty then none
          else ((Places.of text).anyLine? raw).map fun line => (nodeKey raw, line)).filter
        fun q => q.1 = key).map (·.2)) =
      if nodeKey raw = key then (Places.of text).anyLine? raw else none := by
    intro raw
    by_cases hraw : nodeKey raw = key
    · rw [if_neg (by simpa [hraw] using hkey), if_pos hraw]
      cases (Places.of text).anyLine? raw <;> simp [hraw]
    · rw [if_neg hraw]
      split
      · rfl
      · cases (Places.of text).anyLine? raw <;> simp [hraw]
  rw [locate, Keyed.get?_ofPairs_eq_getLast?, List.filter_filterMap, List.map_filterMap, linesUnder,
    List.filterMap_filter]
  simp only [decide_eq_true_eq, ← hpoint]
  rfl

/-! ## Objects filed under the ids of their nodes -/

theorem filter_eq_singleton {α β : Type} [DecidableEq β] {f : α → β} {l : List α} {a : α}
    (h : (l.map f).Nodup) (ha : a ∈ l) : (l.filter fun b => f b = f a) = [a] := by
  induction l with
  | nil => exact absurd ha List.not_mem_nil
  | cons b l ih =>
    obtain ⟨hb, hl⟩ := List.nodup_cons.1 h
    obtain rfl | ha := List.mem_cons.1 ha
    · have hnone : (l.filter fun b => f b = f a) = [] := by
        rw [List.filter_eq_nil_iff]
        intro b hmem heq
        exact hb (of_decide_eq_true heq ▸ List.mem_map_of_mem hmem)
      rw [List.filter_cons, if_pos (decide_eq_true rfl), hnone]
    · have hne : f b ≠ f a := fun heq => hb (heq ▸ List.mem_map_of_mem ha)
      rw [List.filter_cons_of_neg (by simpa using hne), ih hl ha]

theorem identity_ne_nil (hnode : IsNode raw) : identity raw ≠ [] := by
  obtain ⟨-, hno⟩ | ⟨hne, -⟩ := identity_cases raw rfl rfl
  · exact absurd hnode.identified hno
  · exact hne

/-- The name of an object that has no id is its identity. -/
theorem exists_name_of_not_exists_id (hnode : IsNode raw) (hno : ¬ ∃ id, HasText raw "id" id) :
    HasText raw "name" (identity raw) := by
  obtain ⟨name, hname⟩ := hnode.identified.resolve_left hno
  have hidentity : identity raw = name := by
    rw [identity, fullText?_eq_none_iff.2 hno, text?_eq_some_iff.2 hname.2]
    rfl
  rwa [hidentity]

theorem identity_eq_of_hasText {id : Text} (hid : HasText raw "id" id) : identity raw = id := by
  rw [identity, fullText?_eq_some_iff.2 hid, Option.getD_some]

/-- An object whose id is a text has a plain id. -/
theorem hasPlainId_of_hasText {id : Text} (hid : HasText raw "id" id) : HasPlainId raw :=
  fun _ hv => .inr (.inl ⟨id, Option.some.inj (hv.symm.trans hid.2)⟩)

theorem nodeKey_of_present {v : Json} (hget : raw.get? "id" = some v) (hfull : v.isBlank = false) :
    nodeKey raw = v.shown := by
  have hpresent : Json.present? (some v) = some v := Option.filter_eq_some_iff.2 ⟨rfl, by simp [hfull]⟩
  rw [nodeKey, hget, hpresent]
  rfl

theorem nodeKey_of_absent {name : Text} (habsent : Json.present? (raw.get? "id") = none)
    (hname : HasText raw "name" name) : nodeKey raw = name := by
  have hpresent : Json.present? (some (.string name)) = some (.string name) :=
    Option.filter_eq_some_iff.2 ⟨rfl, by simpa [Json.isBlank] using hname.1⟩
  rw [nodeKey, habsent, hname.2, hpresent]
  rfl

/-- An object is filed under the id of its node unless its id is something else that is present. -/
theorem nodeKey_eq_identity_iff (hnode : IsNode raw) : nodeKey raw = identity raw ↔ HasPlainId raw := by
  by_cases hid : ∃ id, HasText raw "id" id
  · obtain ⟨id, hid⟩ := hid
    refine iff_of_true ?_ (hasPlainId_of_hasText hid)
    rw [nodeKey_of_present hid.2 (by simpa [Json.isBlank] using hid.1), identity_eq_of_hasText hid]
    rfl
  · have hname := exists_name_of_not_exists_id hnode hid
    cases hget : raw.get? "id" with
    | none =>
      refine iff_of_true (nodeKey_of_absent (by rw [hget]; rfl) hname) fun v hv => ?_
      rw [hget] at hv
      cases hv
    | some v =>
      cases hblank : v.isBlank with
      | true =>
        have habsent : Json.present? (raw.get? "id") = none := by simp [hget, Json.present?, hblank]
        refine iff_of_true (nodeKey_of_absent habsent hname) fun w hw => .inl ?_
        obtain rfl := Option.some.inj (hget.symm.trans hw)
        exact hblank
      | false =>
        rw [nodeKey_of_present hget hblank]
        constructor
        · intro hshown w hw
          obtain rfl := Option.some.inj (hget.symm.trans hw)
          exact .inr (.inr (hshown ▸ text?_eq_some_iff.2 hname.2))
        · intro hplain
          obtain htrue | ⟨id, rfl⟩ | hshown := hplain v hget
          · rw [hblank] at htrue
            cases htrue
          · exact absurd ⟨id, by simpa [Json.isBlank] using hblank, hget⟩ hid
          · exact Option.some.inj (hshown.symm.trans (text?_eq_some_iff.2 hname.2))

/-- With an id for each node, and each object filed under the id of its node, nothing else is filed
there. -/
theorem getLast?_linesUnder (hnodup : (nodes.map identity).Nodup)
    (hkeys : ∀ raw ∈ nodes, nodeKey raw = identity raw) (hraw : raw ∈ nodes) :
    (linesUnder text nodes (identity raw)).getLast? = (Places.of text).anyLine? raw := by
  have hfilter : (nodes.filter fun other => nodeKey other = identity raw) =
      nodes.filter fun other => identity other = identity raw :=
    List.filter_congr fun other hother => by rw [hkeys other hother]
  rw [linesUnder, hfilter, filter_eq_singleton hnodup hraw]
  cases h : (Places.of text).anyLine? raw <;> simp [h]

/-- The two searches for an object differ in the use of empty texts. -/
theorem anyLine?_eq_iff (hnode : IsNode raw) :
    (Places.of text).anyLine? raw = (Places.of text).nodeLine? raw ↔ ¬ IsFoundByEmpty text raw := by
  have hname : (¬ ∃ id, HasText raw "id" id) → ∃ c t, raw.text? "name" = some (c :: t) := by
    intro hno
    obtain ⟨hne, hname⟩ := exists_name_of_not_exists_id hnode hno
    obtain ⟨c, t, heq⟩ := List.exists_cons_of_ne_nil hne
    exact ⟨c, t, heq ▸ text?_eq_some_iff.2 hname⟩
  unfold IsFoundByEmpty Places.anyLine? Places.nodeLine? Places.line?
  rcases hid : raw.text? "id" with _ | (_ | ⟨c, id⟩)
  · obtain ⟨c, t, htext⟩ := hname fun ⟨id, hid'⟩ => by
      rw [text?_eq_some_iff.2 hid'.2] at hid
      cases hid
    simp [htext, Option.filter]
  · -- the place of an empty id comes before that of the name
    obtain ⟨c, t, htext⟩ := hname fun ⟨id, hne, hid'⟩ => by
      rw [text?_eq_some_iff.2 hid'] at hid
      exact hne (Option.some.inj hid)
    cases hfound : lineOfValue? (Places.of text).ids [] <;>
      simp [htext, Option.filter, hfound, eq_comm]
  · -- the name is looked for where the id is not found
    cases hfound : lineOfValue? (Places.of text).ids (c :: id) with
    | some line => simp [Option.filter, hfound]
    | none =>
      rcases raw.text? "name" with _ | (_ | ⟨d, name⟩)
      · simp [Option.filter, hfound]
      · cases hname : lineOfValue? (Places.of text).names [] <;> simp [Option.filter, hfound, hname]
      · simp [Option.filter, hfound]

/-! ## Both searches -/

/-- The nodes of a graph have the lines that are last among those filed under their ids. -/
theorem line_eq_getLast? (hread : Json.read text = .ok (.object ms)) (hworkflow : IsWorkflow ms nodes)
    (hparse : Graph.parse text = .ok g) :
    List.Forall₂ (fun raw n => n.id = identity raw ∧
      n.line = (linesUnder text nodes (identity raw)).getLast?) nodes g.nodes := by
  have hlines := line_of_parse hread hworkflow hparse
  obtain ⟨hlength, hdescribes⟩ :=
    List.forall₂_iff_zip.1 (describes_of_parse hread hworkflow hparse)
  refine List.forall₂_iff_zip.2 ⟨hlength, fun {raw n} hmem => ?_⟩
  obtain ⟨hraw, hn⟩ := List.of_mem_zip hmem
  have hid := (hdescribes hmem).id_eq
  refine ⟨hid, ?_⟩
  rw [hlines n hn, hid, get?_locate (identity_ne_nil (hworkflow.node raw hraw))]

theorem map_id_of_parse (hread : Json.read text = .ok (.object ms)) (hworkflow : IsWorkflow ms nodes)
    (hparse : Graph.parse text = .ok g) : g.nodes.map Node.id = nodes.map identity := by
  have hids := (line_eq_getLast? hread hworkflow hparse).flip.imp fun n raw h => h.1
  exact List.forall₂_eq_eq_eq ▸ List.forall₂_map_left_iff.2 (List.forall₂_map_right_iff.2 hids)

/-- What is said of the object and the line of each node is said of its object and the line that was
filed last. -/
theorem forall₂_line_iff (hread : Json.read text = .ok (.object ms)) (hworkflow : IsWorkflow ms nodes)
    (hparse : Graph.parse text = .ok g) (P : Json.Members → Option Nat → Prop) :
    List.Forall₂ (fun raw n => P raw n.line) nodes g.nodes ↔
      ∀ raw ∈ nodes, P raw (linesUnder text nodes (identity raw)).getLast? := by
  have hlines := line_eq_getLast? hread hworkflow hparse
  constructor
  · intro h raw hraw
    obtain ⟨n, -, hn⟩ := exists_of_mem_left
      (List.forall₂_iff_zip.2 ⟨hlines.length_eq, fun {raw n} hmem => hmem⟩) raw hraw
    have hP := (List.forall₂_iff_zip.1 h).2 hn
    rwa [((List.forall₂_iff_zip.1 hlines).2 hn).2] at hP
  · intro h
    refine ((List.forall₂_and_left nodes g.nodes).2 ⟨h, hlines⟩).imp ?_
    rintro raw n ⟨hP, -, hline⟩
    rwa [hline]

/-- The searches agree exactly if the last line that is filed under the id of each node is that of its
object.  Where no id is present without being a text they agree exactly if no object is found by an empty
text. -/
theorem locatesAlike_iff (hread : Json.read text = .ok (.object ms)) (hworkflow : IsWorkflow ms nodes)
    (hparse : Graph.parse text = .ok g) (hnodup : (g.nodes.map Node.id).Nodup) :
    (LocatesAlike text nodes g ↔
      ∀ raw ∈ nodes, (linesUnder text nodes (identity raw)).getLast? = (Places.of text).nodeLine? raw) ∧
    ((∀ raw ∈ nodes, HasPlainId raw) →
      (LocatesAlike text nodes g ↔ ∀ raw ∈ nodes, ¬ IsFoundByEmpty text raw)) := by
  have hiff := forall₂_line_iff hread hworkflow hparse fun raw line =>
    line = (Places.of text).nodeLine? raw
  refine ⟨hiff, fun hplain => hiff.trans (forall₂_congr fun raw hraw => ?_)⟩
  have hkeys : ∀ raw ∈ nodes, nodeKey raw = identity raw := fun raw hraw =>
    (nodeKey_eq_identity_iff (hworkflow.node raw hraw)).2 (hplain raw hraw)
  rw [map_id_of_parse hread hworkflow hparse] at hnodup
  rw [getLast?_linesUnder hnodup hkeys hraw, anyLine?_eq_iff (hworkflow.node raw hraw)]

theorem nodeObjects_eq (hworkflow : IsWorkflow ms nodes) : Check.nodeObjects ms = nodes := by
  rw [Check.nodeObjects, hworkflow.nodes_eq]
  dsimp only
  rw [List.filterMap_map]
  exact List.filterMap_some

end Lines

/-- A node with a text for its id, one with a number that is its name as well, and one without an id. -/
def numberedWorkflow : Text :=
  "\x7b\"nodes\":[" ++
    "\x7b\"type\":\"a\",\"name\":\"A\",\"id\":\"1\"\x7d,\n" ++
    "\x7b\"type\":\"b\",\"name\":\"2\",\"id\":2\x7d,\n" ++
    "\x7b\"type\":\"c\",\"name\":\"C\",\"id\":null\x7d]\x7d"

theorem locatesAlike_numberedWorkflow :
    ∃ ms nodes g, Json.read numberedWorkflow = .ok (.object ms) ∧ IsWorkflow ms nodes ∧
      Graph.parse numberedWorkflow = .ok g ∧ (g.nodes.map Node.id).Nodup ∧
      LocatesAlike numberedWorkflow nodes g := by
  have hids : (Graph.parse numberedWorkflow).toOption.any (fun g =>
      decide (g.nodes.map Node.id).Nodup) = true := by decide +kernel
  have hreads : (Json.readObject numberedWorkflow).toOption.any (fun found => found.any fun ms =>
      decide (∀ raw ∈ Check.nodeObjects ms, nodeKey raw = identity raw ∧
        (Places.of numberedWorkflow).anyLine? raw = (Places.of numberedWorkflow).nodeLine? raw)) =
    true := by decide +kernel
  obtain ⟨g, hparse, hids⟩ := exists_ok_of_any hids
  obtain ⟨ms, nodes, hread, hworkflow, -⟩ := represents_of_parse hparse
  obtain ⟨ms', hread', hlines⟩ := Json.exists_read_of_any hreads
  obtain rfl := Json.object.inj (Except.ok.inj (hread.symm.trans hread'))
  rw [nodeObjects_eq hworkflow, decide_eq_true_eq] at hlines
  refine ⟨ms, nodes, g, hread, hworkflow, hparse, of_decide_eq_true hids, ?_⟩
  refine ((locatesAlike_iff hread hworkflow hparse (of_decide_eq_true hids)).2 fun raw hraw => ?_).2 ?_
  · exact (nodeKey_eq_identity_iff (hworkflow.node raw hraw)).1 (hlines raw hraw).1
  · exact fun raw hraw => (anyLine?_eq_iff (hworkflow.node raw hraw)).1 (hlines raw hraw).2

/-- A node with a number for its id that is not its name. -/
def misfiledWorkflow : Text :=
  "\x7b\"nodes\":[\x7b\"id\":5,\"name\":\"A\",\"type\":\"t\"\x7d]\x7d"

/-- The node has no line in the graph, and its object is found by its name. -/
theorem not_locatesAlike_misfiledWorkflow :
    ∃ ms nodes g, Json.read misfiledWorkflow = .ok (.object ms) ∧ IsWorkflow ms nodes ∧
      Graph.parse misfiledWorkflow = .ok g ∧ (g.nodes.map Node.id).Nodup ∧
      ¬ LocatesAlike misfiledWorkflow nodes g := by
  have hids : (Graph.parse misfiledWorkflow).toOption.any (fun g =>
      decide ((g.nodes.map Node.id).Nodup ∧ g.nodes.map Node.line = [none])) = true := by
    decide +kernel
  have hreads : (Json.readObject misfiledWorkflow).toOption.any (fun found => found.any fun ms =>
      decide ((Check.nodeObjects ms).map (Places.of misfiledWorkflow).nodeLine? = [some 1])) =
    true := by decide +kernel
  obtain ⟨g, hparse, hids⟩ := exists_ok_of_any hids
  obtain ⟨ms, nodes, hread, hworkflow, -⟩ := represents_of_parse hparse
  obtain ⟨ms', hread', hlines⟩ := Json.exists_read_of_any hreads
  obtain rfl := Json.object.inj (Except.ok.inj (hread.symm.trans hread'))
  rw [nodeObjects_eq hworkflow, decide_eq_true_eq] at hlines
  obtain ⟨hnodup, hnone⟩ := of_decide_eq_true hids
  refine ⟨ms, nodes, g, hread, hworkflow, hparse, hnodup, fun h => ?_⟩
  have hmap : List.Forall₂ Eq (g.nodes.map Node.line)
      (nodes.map (Places.of misfiledWorkflow).nodeLine?) :=
    List.forall₂_map_left_iff.2 (List.forall₂_map_right_iff.2 h.flip)
  rw [hlines, hnone, List.forall₂_eq_eq_eq] at hmap
  exact absurd hmap (by decide)

end WorkflowLint.Workflow
