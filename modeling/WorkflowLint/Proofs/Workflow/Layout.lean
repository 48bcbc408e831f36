import Mathlib.Data.List.Forall2
import WorkflowLint.Proofs.Fault
import WorkflowLint.Workflow.Parse

/-!
# The layout of workflow documents

What a document must look like to be a workflow is said level by level (`IsWorkflow`), and so is what
is written in it: its nodes, and its links, one for each target of a connection (`links`).  A text has a
graph exactly when it is the text of an object with that layout.  The graph has a node for each node of
the document and an edge for each link, in the order of the document (`parse_layout`).
-/

namespace WorkflowLint.Workflow

/-! ## Layout -/

/-- An object has a text that is not empty as the value of a member. -/
def HasText (ms : Json.Members) (member value : Text) : Prop :=
  value ≠ [] ∧ ms.get? member = some (.string value)

/-- An object that describes a node: it has a type and an id or a name, and its parameters are an
object or count as absent. -/
structure IsNode (ms : Json.Members) : Prop where
  typed : ∃ type, HasText ms "type" type
  identified : (∃ id, HasText ms "id" id) ∨ ∃ name, HasText ms "name" name
  params : ∀ v, ms.get? "parameters" = some v → v.isBlank = true ∨ ∃ params, v = .object params

/-- A name, not empty, of one of the nodes. -/
def IsName (nodes : List Json.Members) (name : Text) : Prop :=
  ∃ ms ∈ nodes, HasText ms "name" name

/-- A target names a node. -/
def IsTarget (nodes : List Json.Members) (v : Json) : Prop :=
  ∃ (ms : Json.Members) (name : Text), v = .object ms ∧ ms.get? "node" = some (.string name) ∧
    IsName nodes name

/-- An output is null or a list of targets. -/
def IsOutput (nodes : List Json.Members) (v : Json) : Prop :=
  v = .null ∨ ∃ targets, v = .array targets ∧ ∀ target ∈ targets, IsTarget nodes target

/-- The connections of one type are a list of outputs. -/
def IsType (nodes : List Json.Members) (member : Text × Json) : Prop :=
  ∃ outputs, member.2 = .array outputs ∧ ∀ output ∈ outputs, IsOutput nodes output

/-- The connections from one node stand under its name and are an object of types. -/
def IsSource (nodes : List Json.Members) (member : Text × Json) : Prop :=
  IsName nodes member.1 ∧ ∃ types, member.2 = .object types ∧ ∀ type ∈ types, IsType nodes type

/-- The connections of a document are absent, null or an object of sources. -/
def AreConnections (nodes : List Json.Members) (v : Option Json) : Prop :=
  v = none ∨ v = some .null ∨
    ∃ sources, v = some (.object sources) ∧ ∀ source ∈ sources, IsSource nodes source

/-- An object that is a workflow with the given nodes. -/
structure IsWorkflow (ms : Json.Members) (nodes : List Json.Members) : Prop where
  nodes_eq : ms.get? "nodes" = some (.array (nodes.map .object))
  node : ∀ node ∈ nodes, IsNode node
  connections : AreConnections nodes (ms.get? "connections")

/-! ## Content -/

/-- A node of a graph is what an object says: its id is that of the object, or else its name. -/
structure Describes (ms : Json.Members) (n : Node) : Prop where
  id : HasText ms "id" n.id ∨ (¬ ∃ id, HasText ms "id" id) ∧ n.id = n.name
  type : HasText ms "type" n.type
  name : n.name = (ms.text? "name").getD []
  params : n.params = ((ms.get? "parameters").bind Json.members?).getD []
  onError : n.onError = ms.text? "onError"

/-- A target as it is written, under the name of its source, the type of its connection and the
position of its output. -/
structure Link where
  source : Text
  type : Text
  output : Nat
  target : Text
deriving DecidableEq

/-- The link to one target. -/
def targetLink (source type : Text) (output : Nat) (v : Json) : Link :=
  ⟨source, type, output, ((v.members?.getD []).text? "node").getD []⟩

/-- The links to the targets of one output. -/
def outputLinks (source type : Text) (output : Nat) (v : Json) : List Link :=
  (v.items?.getD []).map (targetLink source type output)

/-- The links of one type. -/
def typeLinks (source : Text) (member : Text × Json) : List Link :=
  (member.2.items?.getD []).zipIdx.flatMap fun output =>
    outputLinks source member.1 output.2 output.1

/-- The links from one node. -/
def sourceLinks (member : Text × Json) : List Link :=
  (member.2.members?.getD []).flatMap (typeLinks member.1)

/-- The links of a document, in its order. -/
def links (connections : Option Json) : List Link :=
  ((connections.bind Json.members?).getD []).flatMap sourceLinks

/-- The first node with a name. -/
def IsFirstNamed (nodes : List Node) (name : Text) (n : Node) : Prop :=
  ∃ before after, nodes = before ++ n :: after ∧ n.name = name ∧ ∀ m ∈ before, m.name ≠ name

/-- A link leaves its source where that fails. -/
def Link.OnError (l : Link) (source : Node) : Prop :=
  l.type = "main" ∧ l.output = 1 ∧ source.onError = some "continueErrorOutput"

/-- An edge leads from one node to another one along a link: on the error branch where the link leaves
its source as that fails, and else on the branch that its type names. -/
structure Joins (l : Link) (source target : Node) (e : Edge) : Prop where
  source_eq : e.source = source.id
  target_eq : e.target = target.id
  output_eq : e.output = l.output
  error : l.OnError source → e.branch = "error"
  branch : ¬ l.OnError source → e.branch = if l.type = [] then ↑"main" else l.type

/-- An edge leads from the first node with the name of the source of a link to the first node with the
name of its target. -/
def Joined (nodes : List Node) (l : Link) (e : Edge) : Prop :=
  ∃ source target, IsFirstNamed nodes l.source source ∧ IsFirstNamed nodes l.target target ∧
    Joins l source target e

/-- A graph shows what is written in a document. -/
structure Represents (ms : Json.Members) (nodes : List Json.Members) (g : Graph) : Prop where
  nodes : List.Forall₂ Describes nodes g.nodes
  edges : List.Forall₂ (Joined g.nodes) (links (ms.get? "connections")) g.edges
  name : g.name = ms.text? "name"

/-! ## Nodes -/

theorem text?_eq_some_iff {ms : Json.Members} {member value : Text} :
    ms.text? member = some value ↔ ms.get? member = some (.string value) := by
  unfold Json.Members.text?
  split
  · rename_i s hs
    simp [hs]
  · rename_i hno
    exact ⟨fun h => (Option.some_ne_none value h.symm).elim, fun h => absurd h (hno value)⟩

theorem fullText?_eq_some_iff {ms : Json.Members} {member value : Text} :
    ms.fullText? member = some value ↔ HasText ms member value := by
  rw [Json.Members.fullText?, Option.filter_eq_some_iff, text?_eq_some_iff, HasText, and_comm]
  simp

theorem fullText?_eq_none_iff {ms : Json.Members} {member : Text} :
    ms.fullText? member = none ↔ ¬ ∃ value, HasText ms member value := by
  simp only [Option.eq_none_iff_forall_ne_some, ne_eq, fullText?_eq_some_iff, not_exists]

theorem text?_getD_eq_iff {ms : Json.Members} {member value : Text} (h : value ≠ []) :
    (ms.text? member).getD [] = value ↔ HasText ms member value := by
  cases htext : ms.text? member with
  | none =>
    refine ⟨fun heq => absurd heq.symm h, fun hvalue => ?_⟩
    rw [text?_eq_some_iff.2 hvalue.2] at htext
    cases htext
  | some t =>
    rw [HasText, ← text?_eq_some_iff, htext]
    simp [h]

/-- The id of a node is a text that is not empty, or else the name is, unless the object has
neither. -/
theorem identity_cases (ms : Json.Members) {name id : Text} (hname : (ms.text? "name").getD [] = name)
    (hid : (ms.fullText? "id").getD name = id) :
    id = [] ∧ ¬ ((∃ id, HasText ms "id" id) ∨ ∃ name, HasText ms "name" name) ∨
      id ≠ [] ∧ ((∃ id, HasText ms "id" id) ∨ ∃ name, HasText ms "name" name) ∧
        (HasText ms "id" id ∨ (¬ ∃ id, HasText ms "id" id) ∧ id = name) := by
  cases hfull : ms.fullText? "id" with
  | some value =>
    obtain rfl : value = id := by rw [← hid, hfull, Option.getD_some]
    have htext := fullText?_eq_some_iff.1 hfull
    exact .inr ⟨htext.1, .inl ⟨value, htext⟩, .inl htext⟩
  | none =>
    obtain rfl : name = id := by rw [← hid, hfull, Option.getD_none]
    have hno := fullText?_eq_none_iff.1 hfull
    by_cases hempty : name = []
    · refine .inl ⟨hempty, ?_⟩
      rintro (hsome | ⟨value, hvalue⟩)
      · exact hno hsome
      · rw [(text?_getD_eq_iff hvalue.1).2 hvalue] at hname
        exact hvalue.1 (hname.trans hempty)
    · exact .inr ⟨hempty, .inr ⟨name, (text?_getD_eq_iff hempty).1 hname⟩, .inr ⟨hno, rfl⟩⟩

theorem params_of_present?_eq_none {v : Option Json} (h : Json.present? v = none) :
    (∀ p, v = some p → p.isBlank = true ∨ ∃ params, p = .object params) ∧
      (v.bind Json.members?).getD [] = [] := by
  cases v with
  | none => exact ⟨fun p hp => absurd hp.symm (Option.some_ne_none p), rfl⟩
  | some p =>
    have hblank : p.isBlank = true := by simpa [Json.present?, Option.filter] using h
    refine ⟨fun q hq => Option.some.inj hq ▸ .inl hblank, ?_⟩
    cases p with
    | object ms => exact List.isEmpty_iff.1 hblank
    | _ => rfl

/-- An object that describes a node gives that node, and another one gives a defect. -/
theorem parseNodeObject_cases (lines : List (Text × Nat)) (position : Nat) (ms : Json.Members) :
    IsNode ms ∧ (∃ n, parseNodeObject lines position ms = .ok n ∧ Describes ms n) ∨
      ¬ IsNode ms ∧ ∃ e, parseNodeObject lines position ms = .error e := by
  unfold parseNodeObject
  cases htype : ms.fullText? "type" with
  | none => exact .inr ⟨fun h => fullText?_eq_none_iff.1 htype h.typed, _, rfl⟩
  | some type =>
    have htyped := fullText?_eq_some_iff.1 htype
    simp only
    obtain ⟨hempty, hno⟩ | ⟨hne, hidentified, hidentity⟩ := identity_cases ms rfl rfl
    · rw [if_pos (List.isEmpty_iff.2 hempty)]
      exact .inr ⟨fun h => hno h.identified, _, rfl⟩
    · rw [if_neg (mt List.isEmpty_iff.1 hne)]
      cases hpresent : Json.present? (ms.get? "parameters") with
      | none =>
        obtain ⟨hparams, hmembers⟩ := params_of_present?_eq_none hpresent
        exact .inl ⟨⟨⟨type, htyped⟩, hidentified, hparams⟩, _, rfl,
          ⟨hidentity, htyped, rfl, hmembers.symm, rfl⟩⟩
      | some p =>
        obtain ⟨hp, hfull⟩ := Option.filter_eq_some_iff.1 hpresent
        by_cases hobject : ∃ params, p = .object params
        · obtain ⟨params, rfl⟩ := hobject
          refine .inl ⟨⟨⟨type, htyped⟩, hidentified, fun q hq => ?_⟩, _, rfl,
            ⟨hidentity, htyped, rfl, by rw [hp]; rfl, rfl⟩⟩
          exact .inr ⟨params, Option.some.inj (hq.symm.trans hp)⟩
        · refine .inr ⟨fun h => ?_, ?_⟩
          · obtain hblank | hparams := h.params p hp
            · rw [hblank] at hfull
              exact absurd hfull (by decide)
            · exact hobject hparams
          · cases p with
            | object params => exact absurd ⟨params, rfl⟩ hobject
            | _ => exact ⟨_, rfl⟩

/-- What gives nodes is a list of objects that describe them, in order. -/
theorem describes_of_parseNodes {lines : List (Text × Nat)} {position : Nat} {raws : List Json}
    {nodes : List Node} (h : parseNodes lines position raws = .ok nodes) :
    ∃ members, raws = members.map Json.object ∧ (∀ ms ∈ members, IsNode ms) ∧
      List.Forall₂ Describes members nodes := by
  induction raws generalizing position nodes with
  | nil =>
    obtain rfl := Except.ok.inj h
    exact ⟨[], rfl, List.forall_mem_nil _, .nil⟩
  | cons raw raws ih =>
    rw [parseNodes] at h
    split at h
    · cases h
    rename_i n hnode
    split at h
    · cases h
    rename_i rest hrest
    obtain rfl := Except.ok.inj h
    obtain ⟨members, rfl, hmembers, hdescribes⟩ := ih hrest
    cases raw with
    | object ms =>
      rw [parseNode] at hnode
      obtain ⟨his, n', hn', hdescribed⟩ | ⟨-, e, he⟩ := parseNodeObject_cases lines position ms
      · obtain rfl := Except.ok.inj (hnode.symm.trans hn')
        exact ⟨ms :: members, rfl, List.forall_mem_cons.2 ⟨his, hmembers⟩, .cons hdescribed hdescribes⟩
      · cases hnode.symm.trans he
    | _ => cases hnode

/-- A list of objects that describe nodes gives those nodes, in order. -/
theorem exists_parseNodes (lines : List (Text × Nat)) (position : Nat) {members : List Json.Members}
    (h : ∀ ms ∈ members, IsNode ms) :
    ∃ nodes, parseNodes lines position (members.map .object) = .ok nodes ∧
      List.Forall₂ Describes members nodes := by
  induction members generalizing position with
  | nil => exact ⟨[], rfl, .nil⟩
  | cons ms members ih =>
    obtain ⟨his, hmembers⟩ := List.forall_mem_cons.1 h
    obtain ⟨rest, hrest, hdescribes⟩ := ih (position + 1) hmembers
    obtain ⟨-, n, hn, hdescribed⟩ | ⟨hno, -⟩ := parseNodeObject_cases lines position ms
    · refine ⟨n :: rest, ?_, .cons hdescribed hdescribes⟩
      rw [List.map_cons, parseNodes, parseNode, hn, hrest]
    · exact absurd his hno

/-! ## Names -/

theorem named?_eq_some_iff {nodes : List Node} {name : Text} {n : Node} :
    named? nodes name = some n ↔ name ≠ [] ∧ IsFirstNamed nodes name n := by
  rw [named?, List.find?_eq_some_iff_append]
  simp only [Bool.and_eq_true, Bool.not_eq_true', List.isEmpty_eq_false_iff, beq_iff_eq,
    Bool.and_eq_false_iff, beq_eq_false_iff_ne, ne_eq]
  constructor
  · rintro ⟨⟨hne, rfl⟩, before, after, rfl, hbefore⟩
    refine ⟨hne, before, after, rfl, rfl, fun m hm heq => ?_⟩
    simpa [heq, hne] using hbefore m hm
  · rintro ⟨hne, before, after, rfl, rfl, hbefore⟩
    refine ⟨⟨hne, rfl⟩, before, after, rfl, fun m hm => ?_⟩
    exact .inr (hbefore m hm)

/-- A name is found among the nodes of a document exactly if it is the name, not empty, of one of
them. -/
theorem exists_named?_iff {members : List Json.Members} {nodes : List Node}
    (h : List.Forall₂ Describes members nodes) {name : Text} :
    (∃ n, named? nodes name = some n) ↔ IsName members name := by
  rw [← Option.isSome_iff_exists, named?, List.find?_isSome, IsName]
  simp only [Bool.and_eq_true, Bool.not_eq_true', List.isEmpty_eq_false_iff, beq_iff_eq]
  induction h with
  | nil => simp
  | cons hdescribed _ ih =>
    rw [List.exists_mem_cons_iff, List.exists_mem_cons_iff, ih, hdescribed.name]
    refine or_congr_left ⟨?_, fun h => ?_⟩
    · rintro ⟨hne, rfl⟩
      exact (text?_getD_eq_iff hne).1 rfl
    · rw [(text?_getD_eq_iff h.1).2 h]
      exact ⟨h.1, rfl⟩

/-! ## Connections -/

/-- What reading a part of the connections comes to: where the part has its layout there is an edge for
each of its links, and else a defect. -/
inductive Reading (nodes : List Node) (layout : Prop) (ls : List Link) :
    Except ParseError (List Edge) → Prop
  | edges {es : List Edge} (holds : layout) (joined : List.Forall₂ (Joined nodes) ls es) :
    Reading nodes layout ls (.ok es)
  | defect {e : ParseError} (fails : ¬ layout) : Reading nodes layout ls (.error e)

section Connections

variable {nodes : List Node} {layout : Prop} {ls : List Link} {source : Node} {sourceName type : Text}

theorem Reading.congr {layout' : Prop} {r : Except ParseError (List Edge)}
    (h : Reading nodes layout ls r) (hiff : layout' ↔ layout) : Reading nodes layout' ls r := by
  rwa [propext hiff]

/-- Parts that are read one after the other. -/
theorem reading_collect {α : Type} {step : Nat → α → Except ParseError (List Edge)}
    {P : α → Prop} {linksOf : α → Nat → List Link}
    (h : ∀ i a, Reading nodes (P a) (linksOf a i) (step i a)) (position : Nat) (as : List α) :
    Reading nodes (∀ a ∈ as, P a) ((as.zipIdx position).flatMap fun p => linksOf p.1 p.2)
      (collect step position as) := by
  induction as generalizing position with
  | nil => exact .edges (List.forall_mem_nil P) .nil
  | cons a as ih =>
    have hfirst := h position a
    have hrest := ih (position + 1)
    rw [collect, List.zipIdx_cons, List.flatMap_cons]
    cases hstep : step position a with
    | error e =>
      rw [hstep] at hfirst
      cases hfirst with
      | defect fails => exact .defect fun hall => fails (hall a List.mem_cons_self)
    | ok es =>
      rw [hstep] at hfirst
      cases hfirst with
      | edges holds joined =>
        cases hsteps : collect step (position + 1) as with
        | error e =>
          rw [hsteps] at hrest
          cases hrest with
          | defect fails => exact .defect fun hall => fails (List.forall_mem_cons.1 hall).2
        | ok rest =>
          rw [hsteps] at hrest
          cases hrest with
          | edges holds' joined' =>
            exact .edges (List.forall_mem_cons.2 ⟨holds, holds'⟩) (List.rel_append joined joined')

/-- Parts whose positions do not matter. -/
theorem reading_collect_const {α : Type} {step : α → Except ParseError (List Edge)}
    {P : α → Prop} {linksOf : α → List Link}
    (h : ∀ a, Reading nodes (P a) (linksOf a) (step a)) (as : List α) :
    Reading nodes (∀ a ∈ as, P a) (as.flatMap linksOf) (collect (fun _ => step) 0 as) := by
  have hread := reading_collect (fun _ => h) 0 as
  rwa [← List.flatMap_map Prod.fst linksOf, List.zipIdx_map_fst] at hread

/-- The edge of a link from a node is on the branch that the reader names. -/
theorem joins_branchOf (target : Node) (l : Link) :
    Joins l source target ⟨source.id, target.id, branchOf source l.type l.output, l.output⟩ := by
  have hiff : (l.type = mainBranch ∧ source.onError = some errorOutputMode ∧ l.output = 1) ↔
      l.OnError source := by
    rw [Link.OnError, and_comm (a := source.onError = _)]
    rfl
  refine ⟨rfl, rfl, rfl, fun herror => ?_, fun hother => ?_⟩
  · exact if_pos (hiff.2 herror)
  · show branchOf source l.type l.output = _
    rw [branchOf, if_neg (mt hiff.1 hother)]
    simp only [List.isEmpty_iff]
    rfl

variable {members : List Json.Members} (hnodes : List.Forall₂ Describes members nodes)
  (hsource : IsFirstNamed nodes sourceName source)
include hnodes hsource

theorem reading_parseTarget (output : Nat) (v : Json) :
    Reading nodes (IsTarget members v) [targetLink sourceName type output v]
      (parseTarget nodes source sourceName type output v) := by
  cases v with
  | object ms =>
    rw [parseTarget]
    cases hname : Json.Members.text? ms "node" with
    | none =>
      refine .defect ?_
      rintro ⟨ms', name, heq, hget, -⟩
      obtain rfl := Json.object.inj heq
      rw [text?_eq_some_iff.2 hget] at hname
      cases hname
    | some targetName =>
      have hlink : targetLink sourceName type output (.object ms) =
          ⟨sourceName, type, output, targetName⟩ := by
        rw [targetLink, Json.members?, Option.getD_some, hname, Option.getD_some]
      simp only
      cases htarget : named? nodes targetName with
      | none =>
        refine .defect ?_
        rintro ⟨ms', name, heq, hget, his⟩
        obtain rfl := Json.object.inj heq
        obtain rfl := Option.some.inj (hname.symm.trans (text?_eq_some_iff.2 hget))
        obtain ⟨target, hsome⟩ := (exists_named?_iff hnodes).2 his
        cases htarget.symm.trans hsome
      | some target =>
        refine .edges ⟨ms, targetName, rfl, text?_eq_some_iff.1 hname,
          (exists_named?_iff hnodes).1 ⟨target, htarget⟩⟩ (.cons ?_ .nil)
        rw [hlink]
        exact ⟨source, target, hsource, (named?_eq_some_iff.1 htarget).2, joins_branchOf target _⟩
  | _ =>
    refine .defect ?_
    rintro ⟨ms, name, heq, -⟩
    cases heq

theorem reading_parseOutput (output : Nat) (v : Json) :
    Reading nodes (IsOutput members v) (outputLinks sourceName type output v)
      (parseOutput nodes source sourceName type output v) := by
  cases v with
  | null => exact .edges (.inl rfl) .nil
  | array targets =>
    have hread := reading_collect_const
      (reading_parseTarget hnodes hsource output : ∀ v, Reading nodes _ [targetLink _ type _ v] _) targets
    rw [← List.map_eq_flatMap] at hread
    exact hread.congr (by simp [IsOutput])
  | _ =>
    refine .defect ?_
    rintro (heq | ⟨targets, heq, -⟩) <;> cases heq

theorem reading_parseType (member : Text × Json) :
    Reading nodes (IsType members member) (typeLinks sourceName member)
      (parseType nodes source sourceName member) := by
  obtain ⟨type, v⟩ := member
  cases v with
  | array outputs =>
    exact (reading_collect (reading_parseOutput hnodes hsource) 0 outputs).congr (by simp [IsType])
  | _ =>
    refine .defect ?_
    rintro ⟨outputs, heq, -⟩
    cases heq

omit hsource in
theorem reading_parseSource (member : Text × Json) :
    Reading nodes (IsSource members member) (sourceLinks member) (parseSource nodes member) := by
  obtain ⟨sourceName, v⟩ := member
  rw [parseSource]
  cases hsource : named? nodes sourceName with
  | none =>
    refine .defect fun his => ?_
    obtain ⟨source, hsome⟩ := (exists_named?_iff hnodes).2 his.1
    cases hsource.symm.trans hsome
  | some source =>
    have hname : IsName members sourceName := (exists_named?_iff hnodes).1 ⟨source, hsource⟩
    cases v with
    | object types =>
      have hread := reading_collect_const
        (reading_parseType hnodes (named?_eq_some_iff.1 hsource).2) types
      exact hread.congr (by simp [IsSource, hname])
    | _ =>
      refine .defect ?_
      rintro ⟨-, types, heq, -⟩
      cases heq

omit hsource in
/-- The connections of a document give an edge for each link, or a defect if they do not have their
layout. -/
theorem reading_parseEdges (v : Option Json) :
    Reading nodes (AreConnections members v) (links v) (parseEdges nodes v) := by
  rcases v with _ | v
  · exact .edges (.inl rfl) .nil
  cases v with
  | null => exact .edges (.inr (.inl rfl)) .nil
  | object sources =>
    exact (reading_collect_const (reading_parseSource hnodes) sources).congr (by simp [AreConnections])
  | _ =>
    refine .defect ?_
    rintro (heq | heq | ⟨sources, heq, -⟩) <;> cases heq

end Connections

/-! ## Documents -/

/-- What gives a graph is a workflow that the graph represents. -/
theorem represents_of_ofDocument {text : Text} {document : Json} {g : Graph}
    (h : Graph.ofDocument text document = .ok g) :
    ∃ ms nodes, document = .object ms ∧ IsWorkflow ms nodes ∧ Represents ms nodes g := by
  unfold Graph.ofDocument at h
  split at h
  case h_2 => cases h
  rename_i ms
  split at h
  case h_2 => cases h
  rename_i raws hraws
  split at h
  · cases h
  rename_i nodes hnodes
  obtain ⟨members, rfl, hmembers, hdescribes⟩ := describes_of_parseNodes hnodes
  have hedges := reading_parseEdges hdescribes (Json.Members.get? ms "connections")
  split at h
  · cases h
  rename_i edges heq
  obtain rfl := Except.ok.inj h
  rw [heq] at hedges
  cases hedges with
  | edges holds joined =>
    exact ⟨ms, members, rfl, ⟨hraws, hmembers, holds⟩, ⟨hdescribes, joined, rfl⟩⟩

/-- A workflow gives a graph. -/
theorem exists_ofDocument (text : Text) {ms : Json.Members} {nodes : List Json.Members}
    (h : IsWorkflow ms nodes) : ∃ g, Graph.ofDocument text (.object ms) = .ok g := by
  obtain ⟨ns, hns, hdescribes⟩ := exists_parseNodes
    (locate text ((nodes.map Json.object).filterMap Json.members?)) 0 h.node
  have hedges := reading_parseEdges hdescribes (Json.Members.get? ms "connections")
  cases heq : parseEdges ns (Json.Members.get? ms "connections") with
  | error e =>
    rw [heq] at hedges
    cases hedges with
    | defect fails => exact absurd h.connections fails
  | ok edges =>
    refine ⟨⟨ns, edges, Json.Members.text? ms "name"⟩, ?_⟩
    simp only [Graph.ofDocument, h.nodes_eq, hns, heq]

theorem parse_eq_ok_iff {text : Text} {g : Graph} :
    Graph.parse text = .ok g ↔
      ∃ document, Json.read text = .ok document ∧ Graph.ofDocument text document = .ok g := by
  unfold Graph.parse
  constructor
  · intro h
    split at h
    · cases h
    · cases h
    · cases h
    · rename_i document hread
      split at h
      · cases h
      · rename_i hg
        obtain rfl := Except.ok.inj h
        exact ⟨document, hread, hg⟩
  · rintro ⟨document, hread, hg⟩
    simp only [hread, hg]

/-- What has a graph is the text of a workflow that the graph represents. -/
theorem represents_of_parse {text : Text} {g : Graph} (h : Graph.parse text = .ok g) :
    ∃ ms nodes, Json.read text = .ok (.object ms) ∧ IsWorkflow ms nodes ∧ Represents ms nodes g := by
  obtain ⟨document, hread, hdocument⟩ := parse_eq_ok_iff.1 h
  obtain ⟨ms, nodes, rfl, hworkflow, hrepresents⟩ := represents_of_ofDocument hdocument
  exact ⟨ms, nodes, hread, hworkflow, hrepresents⟩

/-- A text has a graph exactly if it is the text of an object that is a workflow, and its graph
represents that workflow. -/
theorem parse_layout (text : Text) :
    ((∃ g, Graph.parse text = .ok g) ↔
      ∃ ms nodes, Json.read text = .ok (.object ms) ∧ IsWorkflow ms nodes) ∧
    ∀ g, Graph.parse text = .ok g →
      ∃ ms nodes, Json.read text = .ok (.object ms) ∧ IsWorkflow ms nodes ∧
        Represents ms nodes g := by
  refine ⟨⟨?_, ?_⟩, fun g hg => represents_of_parse hg⟩
  · rintro ⟨g, hg⟩
    obtain ⟨ms, nodes, hread, hworkflow, -⟩ := represents_of_parse hg
    exact ⟨ms, nodes, hread, hworkflow⟩
  · rintro ⟨ms, nodes, hread, hworkflow⟩
    obtain ⟨g, hg⟩ := exists_ofDocument text hworkflow
    exact ⟨g, parse_eq_ok_iff.2 ⟨_, hread, hg⟩⟩

/-- A node whose second output leads on from a failure, to the first of two nodes with one name. -/
def failingWorkflow : Text :=
  "\x7b\"nodes\":[" ++
    "\x7b\"type\":\"a\",\"name\":\"A\",\"onError\":\"continueErrorOutput\"\x7d," ++
    "\x7b\"type\":\"b\",\"name\":\"B\",\"id\":\"1\",\"parameters\":0\x7d," ++
    "\x7b\"type\":\"b\",\"name\":\"B\",\"id\":\"2\"\x7d]," ++
  "\"connections\":\x7b\"A\":\x7b\"main\":[null,[\x7b\"node\":\"B\"\x7d]]\x7d\x7d\x7d"

theorem parse_failingWorkflow :
    ∃ g ms nodes, Graph.parse failingWorkflow = .ok g ∧ g.edges = [⟨"A", "1", "error", 1⟩] ∧
      Json.read failingWorkflow = .ok (.object ms) ∧ IsWorkflow ms nodes ∧ Represents ms nodes g := by
  have hedges : (Graph.parse failingWorkflow).toOption.any (fun g =>
      decide (g.edges = [⟨"A", "1", "error", 1⟩])) = true := by decide +kernel
  obtain ⟨g, hg, hedges⟩ := exists_ok_of_any hedges
  obtain ⟨ms, nodes, hread, hworkflow, hrepresents⟩ := (parse_layout failingWorkflow).2 g hg
  exact ⟨g, ms, nodes, hg, of_decide_eq_true hedges, hread, hworkflow, hrepresents⟩

end WorkflowLint.Workflow
