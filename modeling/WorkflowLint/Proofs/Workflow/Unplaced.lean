import WorkflowLint.Proofs.Check.Mending
import WorkflowLint.Workflow.Parse

/-!
# Graphs without the lines of their nodes

Where a node stands in its file is no part of what the checks of graphs decide on.  Documents whose
nodes differ in nothing but the ids of webhooks, with the same connections and the same name, have
graphs that are equal but for the lines of their nodes (`ofDocument_unplaced`): the one is defined
exactly when the other is.
-/

namespace WorkflowLint.Workflow

open Check

/-- A node without its line. -/
def Node.unplaced (n : Node) : Node := { n with line := none }

/-- A graph without the lines of its nodes. -/
def Graph.unplaced (g : Graph) : Graph := { g with nodes := g.nodes.map Node.unplaced }

/-- A change of objects that concerns nothing but the ids of webhooks. -/
def KeepsParts (change : Json.Members → Json.Members) : Prop :=
  ∀ ms name, name ≠ ↑"webhookId" → (change ms).get? name = ms.get? name

/-- Two results that are equal under a function are the same defect, or have values that are. -/
theorem eq_of_map_eq {ε α β : Type} {f : α → β} {r r' : Except ε α} (h : r'.map f = r.map f) :
    (∃ e, r' = .error e ∧ r = .error e) ∨ ∃ a' a, r' = .ok a' ∧ r = .ok a ∧ f a' = f a := by
  cases r' with
  | error e' =>
    cases r with
    | error e => exact .inl ⟨e', rfl, congrArg Except.error (Except.error.inj h).symm⟩
    | ok a => exact absurd h (by simp [Except.map])
  | ok a' =>
    cases r with
    | error e => exact absurd h (by simp [Except.map])
    | ok a => exact .inr ⟨a', a, rfl, rfl, Except.ok.inj h⟩

/-! ## Nodes -/

section Nodes

variable {change : Json.Members → Json.Members} (h : KeepsParts change)
include h

theorem KeepsParts.text? (ms : Json.Members) {name : Text} (hname : name ≠ ↑"webhookId") :
    (change ms).text? name = ms.text? name := by
  rw [Json.Members.text?, h ms name hname, Json.Members.text?]

theorem KeepsParts.fullText? (ms : Json.Members) {name : Text} (hname : name ≠ ↑"webhookId") :
    (change ms).fullText? name = ms.fullText? name := by
  rw [Json.Members.fullText?, h.text? ms hname, Json.Members.fullText?]

theorem parseNodeObject_unplaced (lines lines' : List (Text × Nat)) (position : Nat)
    (ms : Json.Members) :
    (parseNodeObject lines' position (change ms)).map Node.unplaced =
      (parseNodeObject lines position ms).map Node.unplaced := by
  unfold parseNodeObject
  rw [h.fullText? ms (by decide), h.fullText? ms (by decide), h.text? ms (by decide),
    h.text? ms (by decide), h ms _ (by decide)]
  cases ms.fullText? "type" with
  | none => rfl
  | some type =>
    simp only
    split
    · rfl
    · rcases Json.present? (ms.get? "parameters") with _ | (_ | _ | _ | _ | _ | _ | _) <;> rfl

theorem parseNode_unplaced (lines lines' : List (Text × Nat)) (position : Nat) (raw : Json) :
    (parseNode lines' position (changeObject change raw)).map Node.unplaced =
      (parseNode lines position raw).map Node.unplaced := by
  cases raw with
  | object ms => exact parseNodeObject_unplaced h lines lines' position ms
  | _ => rfl

/-- The nodes of a document hang on nothing but the parts that are kept, but for their lines. -/
theorem parseNodes_unplaced (lines lines' : List (Text × Nat)) (position : Nat)
    (raws : List Json) :
    (parseNodes lines' position (raws.map (changeObject change))).map (List.map Node.unplaced) =
      (parseNodes lines position raws).map (List.map Node.unplaced) := by
  induction raws generalizing position with
  | nil => rfl
  | cons raw raws ih =>
    rw [List.map_cons, parseNodes, parseNodes]
    obtain ⟨e, hnode', hnode⟩ | ⟨node', node, hnode', hnode, heq⟩ :=
      eq_of_map_eq (parseNode_unplaced h lines lines' position raw)
    · rw [hnode', hnode]
    · obtain ⟨e, hnodes', hnodes⟩ | ⟨nodes', nodes, hnodes', hnodes, heqs⟩ :=
        eq_of_map_eq (ih (position + 1))
      · rw [hnode', hnode, hnodes', hnodes]
      · rw [hnode', hnode, hnodes', hnodes]
        simp only [Except.map, List.map_cons, heq, heqs]

end Nodes

/-! ## Connections -/

section Edges

variable (nodes : List Node)

theorem named?_unplaced (name : Text) :
    named? (nodes.map Node.unplaced) name = (named? nodes name).map Node.unplaced := by
  rw [named?, List.find?_map]
  rfl

theorem parseTarget_unplaced (source : Node) (sourceName type : Text) (output : Nat) (raw : Json) :
    parseTarget (nodes.map Node.unplaced) source.unplaced sourceName type output raw =
      parseTarget nodes source sourceName type output raw := by
  unfold parseTarget
  cases raw with
  | object ms =>
    simp only [named?_unplaced]
    cases Json.Members.text? ms "node" with
    | none => rfl
    | some name =>
      simp only
      cases named? nodes name <;> rfl
  | _ => rfl

theorem parseOutput_unplaced (source : Node) (sourceName type : Text) (output : Nat) (raw : Json) :
    parseOutput (nodes.map Node.unplaced) source.unplaced sourceName type output raw =
      parseOutput nodes source sourceName type output raw := by
  have htarget : parseTarget (nodes.map Node.unplaced) source.unplaced sourceName type output =
      parseTarget nodes source sourceName type output :=
    funext (parseTarget_unplaced nodes source sourceName type output)
  unfold parseOutput
  rw [htarget]

theorem parseType_unplaced (source : Node) (sourceName : Text) (member : Text × Json) :
    parseType (nodes.map Node.unplaced) source.unplaced sourceName member =
      parseType nodes source sourceName member := by
  have houtput : parseOutput (nodes.map Node.unplaced) source.unplaced sourceName member.1 =
      parseOutput nodes source sourceName member.1 :=
    funext fun output => funext (parseOutput_unplaced nodes source sourceName member.1 output)
  unfold parseType
  rw [houtput]

theorem parseSource_unplaced (member : Text × Json) :
    parseSource (nodes.map Node.unplaced) member = parseSource nodes member := by
  unfold parseSource
  rw [named?_unplaced]
  cases named? nodes member.1 with
  | none => rfl
  | some source =>
    have htype : parseType (nodes.map Node.unplaced) source.unplaced member.1 =
        parseType nodes source member.1 := funext (parseType_unplaced nodes source member.1)
    simp only [Option.map_some, htype]

/-- The connections do not hang on the lines of the nodes. -/
theorem parseEdges_unplaced (connections : Option Json) :
    parseEdges (nodes.map Node.unplaced) connections = parseEdges nodes connections := by
  have hsource : parseSource (nodes.map Node.unplaced) = parseSource nodes :=
    funext (parseSource_unplaced nodes)
  unfold parseEdges
  rw [hsource]

end Edges

/-! ## Documents -/

theorem ofDocument_eq (text : Text) (ms : Json.Members) :
    Graph.ofDocument text (.object ms) =
      match rawNodes? ms with
      | none => .error .noNodes
      | some raws =>
        match parseNodes (locate text (raws.filterMap Json.members?)) 0 raws with
        | .error e => .error e
        | .ok nodes =>
          match parseEdges nodes (ms.get? "connections") with
          | .error e => .error e
          | .ok edges => .ok ⟨nodes, edges, ms.text? "name"⟩ := by
  unfold Graph.ofDocument rawNodes?
  simp only
  rcases ms.get? "nodes" with _ | (_ | _ | _ | _ | _ | _ | _) <;> rfl

/-- Documents that differ in nothing but the ids of webhooks and in what graphs do not hang on have
equal graphs but for the lines. -/
theorem ofDocument_unplaced {change : Json.Members → Json.Members} (h : KeepsParts change)
    {ms ms' : Json.Members} (text text' : Text)
    (hnodes : rawNodes? ms' = (rawNodes? ms).map (List.map (changeObject change)))
    (hedges : ms'.get? "connections" = ms.get? "connections")
    (hname : ms'.get? "name" = ms.get? "name") :
    (Graph.ofDocument text' (.object ms')).map Graph.unplaced =
      (Graph.ofDocument text (.object ms)).map Graph.unplaced := by
  have htext : ms'.text? "name" = ms.text? "name" := by
    rw [Json.Members.text?, hname, Json.Members.text?]
  rw [ofDocument_eq, ofDocument_eq, hnodes, hedges, htext]
  cases rawNodes? ms with
  | none => rfl
  | some raws =>
    rw [Option.map_some]
    simp only
    obtain ⟨e, hparse', hparse⟩ | ⟨nodes', nodes, hparse', hparse, heq⟩ :=
      eq_of_map_eq (parseNodes_unplaced h (locate text (raws.filterMap Json.members?))
        (locate text' ((raws.map (changeObject change)).filterMap Json.members?)) 0 raws)
    · rw [hparse', hparse]
    · rw [hparse', hparse]
      simp only
      -- the edges are read from the nodes without their lines, and these are the same
      rw [← parseEdges_unplaced nodes', heq, parseEdges_unplaced]
      cases parseEdges nodes (ms.get? "connections") with
      | error e => rfl
      | ok edges => simp only [Except.map, Graph.unplaced, heq]

end WorkflowLint.Workflow
