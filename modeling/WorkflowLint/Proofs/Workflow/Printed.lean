import WorkflowLint.Proofs.Json.Paths
import WorkflowLint.Proofs.Text.Replacing
import WorkflowLint.Proofs.Workflow.Location

/-!
# Lines of nodes in printed documents

The places of a printed document that are found by the name of a member are those where a member with
that name is written (`mem_placesFrom_print`).  So a value that only one of these members has is found on
the line of that member (`lineOfValue?_print`), and the nodes of a document whose ids are no ids of other
objects have the lines of their ids (`lines_of_print`).
-/

namespace WorkflowLint.Workflow

open Json

/-- The nodes of a document have texts for their ids, all different, that no other object inside the
document has for its id. -/
structure HasOwnIds (ms : Json.Members) (nodes : List Json.Members) : Prop where
  id : ∀ raw ∈ nodes, ∃ id, HasText raw "id" id
  nodup : (nodes.map fun raw => raw.text? "id").Nodup
  others : ∀ path other id, at? path (.object ms) = some (.object other) → HasText other "id" id →
    (∃ raw ∈ nodes, HasText raw "id" id) → ∃ i, path = [.member "nodes", .item i]

/-- The nodes of a graph have the ids of their objects, and each has the line of the printed document on
which that id is written with its name. -/
def HaveLinesOfIds (ms : Json.Members) (nodes : List Json.Members) (g : Graph) : Prop :=
  g.nodes.length = nodes.length ∧ ∀ i raw, nodes[i]? = some raw → ∃ n before behind,
    g.nodes[i]? = some n ∧ HasText raw "id" n.id ∧
      textBefore 0 [.member "nodes", .item i, .member "id"] (.object ms) = before ++ "\"id\": " ∧
      print (.object ms) = before ++ ("\"id\": " ++ (writeString n.id ++ behind)) ∧
      n.line = some (before.count (.char '\n') + 1)

variable {name value t ahead pre : Text} {line level depth : Nat} {v w : Json} {p : Place}

/-! ## Places -/

theorem valueAhead?_eq_some_iff : valueAhead? name t = some ahead ↔
    ∃ behind after, t = name ++ behind ∧ behind.dropWhile CodePoint.isBlank = .char ':' :: after ∧
      ahead = after.dropWhile CodePoint.isBlank := by
  unfold valueAhead?
  constructor
  · intro h
    split at h
    · cases h
    next behind hbehind =>
    split at h
    · next after hafter =>
      exact ⟨behind, after, Text.afterStart?_eq_some_iff.1 hbehind, hafter, (Option.some.inj h).symm⟩
    · cases h
  · rintro ⟨behind, after, rfl, hafter, rfl⟩
    rw [Text.afterStart?_eq_some_iff.2 rfl]
    simp only [hafter]

theorem mem_placesFrom_cons {c : CodePoint} : p ∈ placesFrom name line (c :: t) ↔
    (valueAhead? name (c :: t) = some p.ahead ∧ p.line = line) ∨
      p ∈ placesFrom name (line + [c].count (.char '\n')) t := by
  have hnext : (if c = .char '\n' then line + 1 else line) = line + [c].count (.char '\n') := by
    split
    · next hc =>
      rw [hc]
      rfl
    · next hc =>
      rw [List.count_singleton, if_neg (by simpa using hc)]
      rfl
  rw [placesFrom, hnext]
  cases hahead : valueAhead? name (c :: t) with
  | none => simp
  | some ahead =>
    simp only [List.mem_cons, Option.some.injEq]
    refine or_congr_left ⟨?_, ?_⟩
    · rintro rfl
      exact ⟨rfl, rfl⟩
    · rintro ⟨rfl, rfl⟩
      rfl

/-- A place is where a member seems to start, and on the line that the text before it leads to. -/
theorem mem_placesFrom : p ∈ placesFrom name line t ↔
    ∃ pre u, t = pre ++ u ∧ u ≠ [] ∧ valueAhead? name u = some p.ahead ∧
      p.line = line + pre.count (.char '\n') := by
  induction t generalizing line with
  | nil =>
    refine iff_of_false List.not_mem_nil ?_
    rintro ⟨pre, u, heq, hne, -⟩
    exact hne (List.append_eq_nil_iff.1 heq.symm).2
  | cons c t ih =>
    have hcount : ∀ pre : Text, line + [c].count (.char '\n') + pre.count (.char '\n') =
        line + (c :: pre).count (.char '\n') := fun pre => by
      rw [Nat.add_assoc, ← List.count_append, List.singleton_append]
    rw [mem_placesFrom_cons, ih]
    simp only [hcount]
    constructor
    · rintro (⟨hahead, hline⟩ | ⟨pre, u, rfl, hne, hahead, hline⟩)
      · exact ⟨[], c :: t, rfl, List.cons_ne_nil c t, hahead, hline⟩
      · exact ⟨c :: pre, u, rfl, hne, hahead, hline⟩
    · rintro ⟨_ | ⟨d, pre⟩, u, heq, hne, hahead, hline⟩
      · obtain rfl : c :: t = u := heq
        exact .inl ⟨hahead, hline⟩
      · obtain ⟨rfl, rfl⟩ := List.cons.inj heq
        exact .inr ⟨pre, u, rfl, hne, hahead, hline⟩

/-- The value of a written member is what lies ahead of its name. -/
theorem valueAhead?_member (level : Nat) (w : Json) (name behind : Text) :
    valueAhead? (writeString name) (writeString name ++ (": " ++ (write level w ++ behind))) =
      some (write level w ++ behind) := by
  refine valueAhead?_eq_some_iff.2 ⟨_, .char ' ' :: (write level w ++ behind), rfl, rfl, ?_⟩
  obtain ⟨c, t, hwrite, hblank, -⟩ := exists_head_write level w
  have hspace : (CodePoint.char ' ').isBlank = true := rfl
  rw [List.dropWhile_cons_of_pos hspace, hwrite, List.cons_append,
    List.dropWhile_cons_of_neg (by simp [hblank])]

/-- The places of a printed document are where its members with a name are written. -/
theorem mem_placesFrom_print (hname : IsApart name) (hfits : Fits depth v) (hplain : HasPlainNames v) :
    p ∈ placesFrom (writeString name) 1 (print v) ↔
      ∃ path w pre behind, at? (path ++ [.member name]) v = some w ∧
        textBefore 0 (path ++ [.member name]) v = pre ++ (writeString name ++ ": ") ∧
        print v = pre ++ (writeString name ++ (": " ++ (write (path.length + 1) w ++ behind))) ∧
        p = ⟨1 + pre.count (.char '\n'), write (path.length + 1) w ++ behind⟩ := by
  rw [mem_placesFrom]
  constructor
  · rintro ⟨pre, u, hprint, -, hahead, hline⟩
    obtain ⟨t, after, rfl, hafter, -⟩ := valueAhead?_eq_some_iff.1 hahead
    have hcolon : ColonAhead t := by
      rw [ColonAhead, hafter]
      rfl
    obtain ⟨path, w, behind, hat, htext, rfl⟩ := exists_member_of_print hname hcolon hfits hplain hprint
    rw [valueAhead?_member] at hahead
    exact ⟨path, w, pre, behind, hat, htext, hprint, by rw [← hline, Option.some.inj hahead]⟩
  · rintro ⟨path, w, pre, behind, -, -, hprint, rfl⟩
    exact ⟨pre, _, hprint, by simp [writeString_append], valueAhead?_member _ w name behind, rfl⟩

/-- A value that one member only has is found on the line of that member. -/
theorem lineOfValue?_print (hname : IsApart name) (hfits : Fits depth v) (hplain : HasPlainNames v)
    {path : List PathStep} (hat : at? (path ++ [.member name]) v = some (.string value))
    (hunique : ∀ other, at? (other ++ [.member name]) v = some (.string value) → other = path) :
    ∃ pre behind, textBefore 0 (path ++ [.member name]) v = pre ++ (writeString name ++ ": ") ∧
      print v = pre ++ (writeString name ++ (": " ++ (writeString value ++ behind))) ∧
      lineOfValue? (placesFrom (writeString name) 1 (print v)) value =
        some (1 + pre.count (.char '\n')) := by
  obtain ⟨pre, htext⟩ := exists_textBefore_eq hat 0
  obtain ⟨behind, hwrite⟩ := exists_print_eq hat
  have hprint : print v = pre ++ (writeString name ++ (": " ++ (writeString value ++ behind))) := by
    rw [hwrite, htext, write, List.append_assoc, List.append_assoc]
  refine ⟨pre, behind, htext, hprint, ?_⟩
  -- the search stops at some place, and that is the only one
  have hplace : ⟨1 + pre.count (.char '\n'), writeString value ++ behind⟩ ∈
      placesFrom (writeString name) 1 (print v) :=
    (mem_placesFrom_print hname hfits hplain).2 ⟨path, .string value, pre, behind, hat, htext,
      by rwa [write], by rw [write]⟩
  have hstarts : (writeString value).isPrefixOf (writeString value ++ behind) = true :=
    Text.isPrefixOf_iff.2 (List.prefix_append _ behind)
  obtain ⟨q, hq⟩ : ∃ q, (placesFrom (writeString name) 1 (print v)).find?
      (fun p => (writeString value).isPrefixOf p.ahead) = some q :=
    Option.isSome_iff_exists.1 (List.find?_isSome.2 ⟨_, hplace, hstarts⟩)
  have hfound := List.find?_some hq
  obtain ⟨other, w, pre', behind', hat', htext', -, rfl⟩ :=
    (mem_placesFrom_print hname hfits hplain).1 (List.mem_of_find?_eq_some hq)
  obtain rfl := eq_string_of_isPrefix (Text.isPrefixOf_iff.1 hfound)
  obtain rfl := hunique other hat'
  have hpre : pre = pre' := List.append_cancel_right (htext.symm.trans htext')
  rw [lineOfValue?, hq, hpre]
  rfl

/-! ## Nodes -/

section Nodes

variable {ms raw : Json.Members} {nodes : List Json.Members} {id : Text} {i : Nat}

theorem at?_node_iff (hworkflow : IsWorkflow ms nodes) :
    at? [.member "nodes", .item i] (.object ms) = some (.object raw) ↔ nodes[i]? = some raw := by
  have hnodes : (PathStep.member "nodes").into? (.object ms) = some (.array (nodes.map .object)) :=
    hworkflow.nodes_eq
  have hitem : (PathStep.item i).into? (.array (nodes.map .object)) = nodes[i]?.map .object :=
    List.getElem?_map
  rw [at?_cons hnodes, at?, hitem]
  simp [at?]

/-- Only the node itself has its id. -/
theorem HasOwnIds.eq_of_at? (hids : HasOwnIds ms nodes) (hworkflow : IsWorkflow ms nodes)
    (hraw : nodes[i]? = some raw) (hid : HasText raw "id" id) {path : List PathStep}
    (hat : at? (path ++ [.member "id"]) (.object ms) = some (.string id)) :
    path = [.member "nodes", .item i] := by
  rw [at?_append] at hat
  obtain ⟨owner, howner, hmember⟩ := Option.bind_eq_some_iff.1 hat
  obtain ⟨x, hinto, hx⟩ := Option.bind_eq_some_iff.1 hmember
  obtain rfl := Option.some.inj hx
  cases owner with
  | object other =>
    have hother : HasText other "id" id := ⟨hid.1, hinto⟩
    obtain ⟨j, rfl⟩ := hids.others path other id howner hother ⟨raw, List.mem_of_getElem? hraw, hid⟩
    have hsame : (nodes.map fun raw => raw.text? "id")[i]? =
        (nodes.map fun raw => raw.text? "id")[j]? := by
      rw [List.getElem?_map, List.getElem?_map, hraw, (at?_node_iff hworkflow).1 howner,
        Option.map_some, Option.map_some, text?_eq_some_iff.2 hid.2, text?_eq_some_iff.2 hother.2]
    have hlt : i < (nodes.map fun raw => raw.text? "id").length := by
      rw [List.length_map]
      exact (List.getElem?_eq_some_iff.1 hraw).1
    rw [(List.getElem?_inj hlt hids.nodup).1 hsame]
  | _ => cases hinto

theorem HasOwnIds.nodup_identity (hids : HasOwnIds ms nodes) : (nodes.map identity).Nodup := by
  have hmap : (nodes.map fun raw => raw.text? "id") = (nodes.map identity).map some := by
    rw [List.map_map]
    refine List.map_congr_left fun raw hraw => ?_
    obtain ⟨id, hid⟩ := hids.id raw hraw
    rw [text?_eq_some_iff.2 hid.2, Function.comp_apply, identity_eq_of_hasText hid]
  exact List.Nodup.of_map some (hmap ▸ hids.nodup)

/-- What has a text for its id is found where the id is. -/
theorem anyLine?_of_hasText {text : Text} (hid : HasText raw "id" id)
    (hline : lineOfValue? (Places.of text).ids id = some line) :
    (Places.of text).anyLine? raw = some line := by
  have husable : (some id).filter (fun _ => true) = some id := Option.filter_some_pos rfl
  rw [Places.anyLine?, Places.line?, text?_eq_some_iff.2 hid.2, husable, Option.bind_some, hline,
    Option.some_or]

theorem HasOwnIds.nodeKey_eq (hids : HasOwnIds ms nodes) (hworkflow : IsWorkflow ms nodes) :
    ∀ raw ∈ nodes, nodeKey raw = identity raw := by
  intro raw hraw
  obtain ⟨id, hid⟩ := hids.id raw hraw
  exact (nodeKey_eq_identity_iff (hworkflow.node raw hraw)).2 (hasPlainId_of_hasText hid)

/-- The id of a node is found where the member of its object is printed. -/
theorem HasOwnIds.exists_place (hids : HasOwnIds ms nodes) (hworkflow : IsWorkflow ms nodes)
    (hfits : Fits depth (.object ms)) (hplain : HasPlainNames (.object ms)) (hraw : nodes[i]? = some raw)
    (hid : HasText raw "id" id) :
    ∃ before behind,
      textBefore 0 [.member "nodes", .item i, .member "id"] (.object ms) = before ++ "\"id\": " ∧
      print (.object ms) = before ++ ("\"id\": " ++ (writeString id ++ behind)) ∧
      lineOfValue? (Places.of (print (.object ms))).ids id = some (before.count (.char '\n') + 1) := by
  have hinto : (PathStep.member "id").into? (.object raw) = some (.string id) := hid.2
  have hat : at? ([.member "nodes", .item i] ++ [.member "id"]) (.object ms) = some (.string id) := by
    rw [at?_append, (at?_node_iff hworkflow).2 hraw, Option.bind_some, at?_cons hinto, at?]
  obtain ⟨before, behind, htext, hprint, hfound⟩ := lineOfValue?_print (by decide) hfits hplain hat
    fun _ hother => hids.eq_of_at? hworkflow hraw hid hother
  rw [Nat.add_comm] at hfound
  exact ⟨before, behind, htext, hprint, hfound⟩

/-- The nodes of a printed document have the lines of their ids. -/
theorem lines_of_print (hfits : Fits depthLimit (.object ms)) (hplain : HasPlainNames (.object ms))
    (hworkflow : IsWorkflow ms nodes) (hids : HasOwnIds ms nodes) :
    ∃ g, Graph.parse (print (.object ms)) = .ok g ∧ HaveLinesOfIds ms nodes g := by
  have hread := read_print hfits
  obtain ⟨g, hdocument⟩ := exists_ofDocument (print (.object ms)) hworkflow
  have hparse : Graph.parse (print (.object ms)) = .ok g := parse_eq_ok_iff.2 ⟨_, hread, hdocument⟩
  have hlines := line_eq_getLast? hread hworkflow hparse
  refine ⟨g, hparse, hlines.length_eq.symm, fun i raw hraw => ?_⟩
  obtain ⟨hi, hget⟩ := List.getElem?_eq_some_iff.1 hraw
  have hmem : raw ∈ nodes := List.mem_of_getElem? hraw
  have hi' : i < g.nodes.length := hlines.length_eq ▸ hi
  obtain ⟨hnode, hline⟩ := hlines.get hi hi'
  simp only [List.get_eq_getElem, hget] at hnode hline
  -- the node is filed under its own id, with the line of its only place
  obtain ⟨id, hid⟩ := hids.id raw hmem
  obtain ⟨before, behind, htext, hprint, hfound⟩ := hids.exists_place hworkflow hfits hplain hraw hid
  rw [getLast?_linesUnder hids.nodup_identity (hids.nodeKey_eq hworkflow) hmem,
    anyLine?_of_hasText hid hfound] at hline
  obtain rfl : g.nodes[i].id = id := hnode.trans (identity_eq_of_hasText hid)
  exact ⟨g.nodes[i], before, behind, List.getElem?_eq_getElem hi', hid, htext, hprint, hline⟩

end Nodes

/-- A document with its ids in other strings, with an id that starts another one, and with a name that is
`id`. -/
def quotingWorkflow : Text :=
  "\x7b\"name\":\"\\\"id\\\": \\\"b\\\"\",\"nodes\":[" ++
    "\x7b\"type\":\"t\",\"notes\":\"\\\"id\\\": \\\"b\\\"\",\"id\":\"a\"\x7d," ++
    "\x7b\"id\":\"a\\\"\\n\",\"type\":\"t\",\"parameters\":\x7b\"id\":\"c\"\x7d\x7d," ++
    "\x7b\"type\":\"t\",\"name\":\"id\",\"id\":\"b\"\x7d]\x7d"

theorem lines_of_print_quotingWorkflow :
    ∃ ms nodes g, Json.read quotingWorkflow = .ok (.object ms) ∧ Fits depthLimit (.object ms) ∧
      HasPlainNames (.object ms) ∧ IsWorkflow ms nodes ∧ HasOwnIds ms nodes ∧
      Graph.parse (print (.object ms)) = .ok g ∧ g.nodes.length = 3 ∧ HaveLinesOfIds ms nodes g := by
  have hparses : (Graph.parse quotingWorkflow).toOption.any (fun _ => true) = true := by decide +kernel
  have hreads : (Json.readObject quotingWorkflow).toOption.any (fun found => found.any fun ms => decide
      ((∀ found ∈ objects (.object ms), ∀ m ∈ found.2, .char '"' ∉ m.1) ∧
        (Check.nodeObjects ms).length = 3 ∧
        (∀ raw ∈ Check.nodeObjects ms, (raw.fullText? "id").isSome) ∧
        ((Check.nodeObjects ms).map fun raw => raw.text? "id").Nodup ∧
        ∀ found ∈ objects (.object ms), ∀ raw ∈ Check.nodeObjects ms,
          found.2.text? "id" = raw.text? "id" →
            ∃ i ∈ List.range 3, found.1 = [.member "nodes", .item i])) = true := by
    decide +kernel
  obtain ⟨g₀, hg₀, -⟩ := exists_ok_of_any hparses
  obtain ⟨ms, nodes, hread, hworkflow, -⟩ := represents_of_parse hg₀
  obtain ⟨ms', hread', hchecks⟩ := Json.exists_read_of_any hreads
  obtain rfl := Json.object.inj (Except.ok.inj (hread.symm.trans hread'))
  rw [nodeObjects_eq hworkflow] at hchecks
  obtain ⟨hnames, hlength, hids, hnodup, hothers⟩ := of_decide_eq_true hchecks
  have hown : HasOwnIds ms nodes := by
    refine ⟨fun raw hraw => ?_, hnodup, fun path other id hat hother hnode => ?_⟩
    · obtain ⟨id, hid⟩ := Option.isSome_iff_exists.1 (hids raw hraw)
      exact ⟨id, fullText?_eq_some_iff.1 hid⟩
    · obtain ⟨raw, hraw, hid⟩ := hnode
      have hsame : Json.Members.text? other "id" = raw.text? "id" :=
        (text?_eq_some_iff.2 hother.2).trans (text?_eq_some_iff.2 hid.2).symm
      obtain ⟨i, -, hpath⟩ := hothers (path, other) (mem_objects hat) raw hraw hsame
      exact ⟨i, hpath⟩
  have hplain := hasPlainNames_of_objects hnames
  obtain ⟨g, hparse, hlines⟩ := lines_of_print (fits_of_read hread) hplain hworkflow hown
  exact ⟨ms, nodes, g, hread, fits_of_read hread, hplain, hworkflow, hown, hparse,
    hlines.1.trans hlength, hlines⟩

end WorkflowLint.Workflow
