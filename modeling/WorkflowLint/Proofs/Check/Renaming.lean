import Mathlib.Data.List.Find
import Mathlib.Data.Set.Function
import Mathlib.Logic.Equiv.Basic
import WorkflowLint.Check.BuiltIn
import WorkflowLint.Proofs.Check.Execution

/-!
# Graphs under other ids

The checks of graphs look nodes up by their ids, compare ids, and leave out nodes with the same id as
another one.  What they find does not depend on which ids these are: if the ids of a graph are replaced
by others, different ones by different ones, every helper of the checks gives the same nodes under their
new ids (`successors_refile`, `roots_refile`, `trigger?_refile`), and so every check gives the same
findings on them (`graphChecks_ignore_ids`).  The lines on which nodes stand do not count either, so that
all this is shown of graphs whose nodes are put on other lines at the same time (`Graph.refile`).
-/

namespace WorkflowLint

namespace Workflow

/-- A node under another id and on another line. -/
def Node.refile (f : Text → Text) (place : Node → Option Nat) (n : Node) : Node :=
  { n with id := f n.id, line := place n }

/-- An edge between other ids. -/
def Edge.rename (f : Text → Text) (e : Edge) : Edge :=
  { e with source := f e.source, target := f e.target }

namespace Graph

/-- A graph whose nodes and edges have other ids. -/
def rename (f : Text → Text) (g : Graph) : Graph :=
  { g with
    nodes := g.nodes.map fun n => { n with id := f n.id }
    edges := g.edges.map (Edge.rename f) }

/-- Such a graph with its nodes on other lines. -/
def refile (f : Text → Text) (place : Node → Option Nat) (g : Graph) : Graph :=
  { g with nodes := g.nodes.map (Node.refile f place), edges := g.edges.map (Edge.rename f) }

/-- An id occurs in a graph, as that of a node or at an end of an edge. -/
def UsesId (g : Graph) (id : Text) : Prop :=
  (∃ n ∈ g.nodes, n.id = id) ∨ ∃ e ∈ g.edges, e.source = id ∨ e.target = id

end Graph

section Lists

variable {α β : Type} {l : List α} {change : α → β} {p : α → Bool} {q : β → Bool}

theorem filter_map_of (h : ∀ a ∈ l, q (change a) = p a) :
    (l.map change).filter q = (l.filter p).map change := by
  rw [List.filter_map]
  exact congrArg (List.map change) (List.filter_congr h)

theorem find?_map_of (h : ∀ a ∈ l, q (change a) = p a) :
    (l.map change).find? q = (l.find? p).map change := by
  rw [List.find?_map]
  exact congrArg (Option.map change) (List.find?_congr h)

theorem any_map_of (h : ∀ a ∈ l, q (change a) = p a) : (l.map change).any q = l.any p := by
  induction l with
  | nil => rfl
  | cons a l ih =>
    obtain ⟨ha, hl⟩ := List.forall_mem_cons.1 h
    rw [List.map_cons, List.any_cons, List.any_cons, ha, ih hl]

end Lists

/-! ## Nodes under their new ids -/

namespace Graph

variable {f : Text → Text} {place : Node → Option Nat} {g : Graph} {id id' : Text} {n : Node} {e : Edge}

theorem usesId_of_mem (h : n ∈ g.nodes) : g.UsesId n.id := .inl ⟨n, h, rfl⟩

theorem usesId_source (h : e ∈ g.edges) : g.UsesId e.source := .inr ⟨e, h, .inl rfl⟩

theorem usesId_target (h : e ∈ g.edges) : g.UsesId e.target := .inr ⟨e, h, .inr rfl⟩

section

variable (hf : Set.InjOn f {id | g.UsesId id})
include hf

/-- New ids are equal where the old ones are. -/
theorem beq_rename (h : g.UsesId id) (h' : g.UsesId id') : (f id == f id') = (id == id') := by
  rw [Bool.eq_iff_iff, beq_iff_eq, beq_iff_eq]
  exact hf.eq_iff h h'

theorem nodeById?_refile (h : g.UsesId id) :
    (g.refile f place).nodeById? (f id) = (g.nodeById? id).map (Node.refile f place) :=
  find?_map_of fun _ hn => beq_rename hf (usesId_of_mem hn) h

theorem outgoing_refile (h : g.UsesId id) :
    (g.refile f place).outgoing (f id) = (g.outgoing id).map (Edge.rename f) :=
  filter_map_of fun _ he => beq_rename hf (usesId_source he) h

theorem successors_refile (h : g.UsesId id) :
    (g.refile f place).successors (f id) = (g.successors id).map (Node.refile f place) := by
  have htargets : ∀ target ∈ (g.outgoing id).map (·.target), g.UsesId target := by
    intro target htarget
    obtain ⟨e, he, rfl⟩ := List.mem_map.1 htarget
    exact usesId_target (List.mem_filter.1 he).1
  have hends : ((g.outgoing id).map (Edge.rename f)).map (·.target) =
      ((g.outgoing id).map (·.target)).map f := by
    rw [List.map_map, List.map_map]
    rfl
  rw [successors, outgoing_refile hf h, hends,
    Keyed.distinct_map fun a ha b hb => hf (htargets a ha) (htargets b hb), List.filterMap_map,
    successors, List.map_filterMap]
  exact List.filterMap_congr fun target htarget =>
    nodeById?_refile hf (htargets target (Keyed.mem_distinct.1 htarget))

theorem roots_refile : (g.refile f place).roots = g.roots.map (Node.refile f place) := by
  refine filter_map_of fun n hn => congrArg not (any_map_of fun e he => ?_)
  exact beq_rename hf (usesId_target he) (usesId_of_mem hn)

theorem terminals_refile : (g.refile f place).terminals = g.terminals.map (Node.refile f place) := by
  refine filter_map_of fun n hn => congrArg (· && _) (congrArg not (any_map_of fun e he => ?_))
  exact beq_rename hf (usesId_source he) (usesId_of_mem hn)

theorem trigger?_refile : (g.refile f place).trigger? = g.trigger?.map (Node.refile f place) := by
  have hfind : ∀ kind : Text → Bool, ((g.roots.map (Node.refile f place)).find? fun n => kind n.type) =
      (g.roots.find? fun n => kind n.type).map (Node.refile f place) :=
    fun kind => find?_map_of fun _ _ => rfl
  rw [trigger?, roots_refile hf, hfind NodeKind.isTrigger, hfind fun type => !NodeKind.isStickyNote type,
    trigger?]
  cases g.roots.find? fun n => NodeKind.isTrigger n.type <;> rfl

/-- A node has the line under its new id that it has under its old one. -/
theorem get?_nodeLines_rename (h : g.UsesId id) :
    Keyed.get? (f id) (g.rename f).nodeLines = Keyed.get? id g.nodeLines := by
  have hpairs : ((g.rename f).nodes.filterMap fun n => n.line.map fun line => (n.id, line)) =
      (g.nodes.filterMap fun n => n.line.map fun line => (n.id, line)).map fun p => (f p.1, p.2) := by
    rw [rename, List.filterMap_map, List.map_filterMap]
    refine List.filterMap_congr fun n _ => ?_
    cases hline : n.line <;> simp [hline]
  have hused : ∀ p ∈ g.nodes.filterMap (fun n => n.line.map fun line => (n.id, line)),
      decide (f p.1 = f id) = decide (p.1 = id) := by
    intro p hp
    obtain ⟨n, hn, hsome⟩ := List.mem_filterMap.1 hp
    obtain ⟨line, -, rfl⟩ := Option.map_eq_some_iff.1 hsome
    exact decide_eq_decide.2 (hf.eq_iff (usesId_of_mem hn) h)
  rw [nodeLines, hpairs, nodeLines, Keyed.get?_ofPairs_eq_getLast?, Keyed.get?_ofPairs_eq_getLast?,
    filter_map_of hused, List.map_map]
  rfl

end

end Graph

end Workflow

/-- The finding on the node under its new id, on the line that this id has. -/
def Finding.rename (f : Text → Text) (c : CheckContext) (x : Finding) : Finding :=
  { x with nodeId := x.nodeId.map f, line := (x.nodeId.map f).bind c.lineOf }

namespace Check

open Workflow Graph

/-! ## Findings on nodes under their new ids -/

/-- A check of graphs does not depend on the choice of ids, nor on the lines of nodes but for those that
its context has. -/
def IgnoresIds (run : Graph → CheckContext → List Finding) : Prop :=
  ∀ {f place g c c'}, Set.InjOn f {id | g.UsesId id} → c'.path = c.path →
    run (g.refile f place) c' = (run g c).map (Finding.rename f c')

section

variable {f : Text → Text} {place : Node → Option Nat} {g : Graph} {c c' : CheckContext}

theorem quotedLabels_refile (nodes : List Node) :
    quotedLabels (nodes.map (Node.refile f place)) = quotedLabels nodes := by
  rw [quotedLabels, List.map_map, quotedLabels]
  rfl

theorem parentTrigger?_refile (hf : Set.InjOn f {id | g.UsesId id}) :
    parentTrigger? (g.refile f place) = (parentTrigger? g).map (Node.refile f place) := by
  rw [parentTrigger?, trigger?_refile hf, parentTrigger?]
  cases g.trigger? with
  | none => rfl
  | some n =>
    rw [Option.map_some, Option.filter_some, Option.filter_some]
    cases hn : NodeKind.isSubworkflowTrigger n.type <;> simp [Node.refile, hn]

theorem mem_nodes_of_parentTrigger? {n : Node} (h : parentTrigger? g = some n) : n ∈ g.nodes :=
  mem_nodes_of_trigger? (Option.filter_eq_some_iff.1 h).1

end

theorem ignoresIds_initRequired : IgnoresIds InitRequired.run := by
  intro f place g c c' hf hpath
  rw [InitRequired.run, parentTrigger?_refile hf, InitRequired.run]
  cases htrigger : parentTrigger? g with
  | none => rfl
  | some trigger =>
    have hopens : ∀ nodes : List Node, (nodes.map (Node.refile f place)).any opensReport =
      nodes.any opensReport := fun _ => any_map_of fun _ _ => rfl
    have hsuccessors : (g.refile f place).successors (trigger.refile f place).id =
        (g.successors trigger.id).map (Node.refile f place) :=
      successors_refile hf (usesId_of_mem (mem_nodes_of_parentTrigger? htrigger))
    simp only [Option.map_some, hsuccessors, List.isEmpty_map, hopens, quotedLabels_refile, hpath]
    split <;> rfl

theorem ignoresIds_submitResult : IgnoresIds SubmitResult.run := by
  intro f place g c c' hf hpath
  rw [SubmitResult.run, parentTrigger?_refile hf, SubmitResult.run]
  cases htrigger : parentTrigger? g with
  | none => rfl
  | some trigger =>
    have hends : SubmitResult.openEnds (g.refile f place) (trigger.refile f place) =
        (SubmitResult.openEnds g trigger).map (Node.refile f place) := by
      rw [SubmitResult.openEnds, terminals_refile hf, SubmitResult.openEnds]
      refine filter_map_of fun n hn => congrArg (· && _) (congrArg not ?_)
      exact beq_rename hf (usesId_of_mem (List.mem_filter.1 hn).1)
        (usesId_of_mem (mem_nodes_of_parentTrigger? htrigger))
    simp only [Option.map_some, hends]
    cases SubmitResult.openEnds g trigger with
    | nil => rfl
    | cons first others =>
      have hlabels : quotedLabels ((first :: others).map (Node.refile f place)) =
          quotedLabels (first :: others) := quotedLabels_refile _
      rw [List.map_cons] at hlabels
      simp only [List.map_cons, hlabels, List.map_nil, hpath]
      rfl

theorem ignoresIds_subworkflowInput : IgnoresIds SubworkflowInput.run := by
  intro f place g c c' hf hpath
  have hfind : ((g.refile f place).nodes.find? fun n => NodeKind.isSubworkflowTrigger n.type) =
      (g.nodes.find? fun n => NodeKind.isSubworkflowTrigger n.type).map (Node.refile f place) :=
    find?_map_of fun _ _ => rfl
  rw [SubworkflowInput.run, hfind, SubworkflowInput.run]
  cases g.nodes.find? fun n => NodeKind.isSubworkflowTrigger n.type with
  | none => rfl
  | some trigger =>
    have hcount : inputCount (trigger.refile f place) = inputCount trigger := rfl
    simp only [Option.map_some, hcount, hpath]
    split <;> rfl

section ScheduleWebhook

open ScheduleWebhook

variable {f : Text → Text} {place : Node → Option Nat} {g : Graph} {c c' : CheckContext} {m n : Node}

theorem schedules_refile :
    schedules (g.refile f place) = (schedules g).map (Node.refile f place) :=
  filter_map_of fun _ _ => rfl

theorem webhooks_refile : webhooks (g.refile f place) = (webhooks g).map (Node.refile f place) :=
  filter_map_of fun _ _ => rfl

variable (hf : Set.InjOn f {id | g.UsesId id})
include hf

theorem targets_refile (hn : n ∈ g.nodes) :
    targets (g.refile f place) (n.refile f place).id = (targets g n.id).map f := by
  have houtgoing : (g.refile f place).outgoing (n.refile f place).id =
      (g.outgoing n.id).map (Edge.rename f) := outgoing_refile hf (usesId_of_mem hn)
  rw [targets, houtgoing, List.map_map, targets, List.map_map]
  rfl

theorem converge_refile (hm : m ∈ g.nodes) (hn : n ∈ g.nodes) :
    converge (g.refile f place) (m.refile f place) (n.refile f place) = converge g m n := by
  have hused : ∀ {k : Node}, ∀ target ∈ targets g k.id, g.UsesId target := by
    intro k target htarget
    obtain ⟨e, he, rfl⟩ := List.mem_map.1 htarget
    exact usesId_target (List.mem_filter.1 he).1
  rw [converge, targets_refile hf hm, targets_refile hf hn, converge]
  refine any_map_of fun a ha => ?_
  simp only [List.contains_eq_any_beq]
  exact any_map_of fun b hb => beq_rename hf (hused a ha) (hused b hb)

theorem targetLabels_refile (hn : n ∈ g.nodes) :
    targetLabels (g.refile f place) (n.refile f place) = targetLabels g n := by
  have hsuccessors : (g.refile f place).successors (n.refile f place).id =
      (g.successors n.id).map (Node.refile f place) := successors_refile hf (usesId_of_mem hn)
  rw [targetLabels, hsuccessors, List.map_map, targetLabels]
  rfl

theorem webhookShown_refile (hn : n ∈ g.nodes) :
    webhookShown (g.refile f place) (n.refile f place) = webhookShown g n := by
  rw [webhookShown, targetLabels_refile hf hn, webhookShown]
  rfl

theorem notConverging_refile (hpath : c'.path = c.path) (hn : n ∈ g.nodes) :
    notConverging (g.refile f place) c' (n.refile f place) =
      (notConverging g c n).rename f c' := by
  have hshown : ((webhooks g).map (Node.refile f place)).map (webhookShown (g.refile f place)) =
      (webhooks g).map (webhookShown g) := by
    rw [List.map_map]
    exact List.map_congr_left fun w hw => webhookShown_refile hf (List.mem_filter.1 hw).1
  rw [notConverging, webhooks_refile, hshown, targetLabels_refile hf hn, notConverging]
  simp only [ScheduleWebhook.finding, hpath]
  rfl

omit hf in
theorem ignoresIds_scheduleWebhook : IgnoresIds ScheduleWebhook.run := by
  intro f place g c c' hf hpath
  have hnodes : ∀ {n}, n ∈ schedules g → n ∈ g.nodes := fun hn => (List.mem_filter.1 hn).1
  have hmissed : ∀ s ∈ schedules g,
      (!(targets (g.refile f place) (s.refile f place).id).isEmpty &&
        !(webhooks (g.refile f place)).any fun w => converge (g.refile f place) (s.refile f place) w) =
      (!(targets g s.id).isEmpty && !(webhooks g).any fun w => converge g s w) := by
    intro s hs
    have hmet : ((webhooks g).map (Node.refile f place)).any (fun w =>
        converge (g.refile f place) (s.refile f place) w) =
        (webhooks g).any fun w => converge g s w :=
      any_map_of fun w hw => converge_refile hf (hnodes hs) (List.mem_filter.1 hw).1
    rw [targets_refile hf (hnodes hs), List.isEmpty_map, webhooks_refile, hmet]
  rw [ScheduleWebhook.run, ScheduleWebhook.run, schedules_refile, webhooks_refile, List.isEmpty_map]
  split
  · rw [List.map_map, List.map_map]
    refine List.map_congr_left fun s _ => ?_
    simp only [Function.comp_apply, missingWebhook, ScheduleWebhook.finding, hpath]
    rfl
  · have hwebhooks : webhooks (g.refile f place) = (webhooks g).map (Node.refile f place) :=
      webhooks_refile
    rw [← hwebhooks, filter_map_of hmissed, List.map_map, List.map_map]
    exact List.map_congr_left fun s hs =>
      notConverging_refile hf hpath (hnodes (List.mem_filter.1 hs).1)

end ScheduleWebhook

theorem ignoresIds_errorBranch : IgnoresIds ErrorBranch.run := by
  intro f place g c c' hf hpath
  have hleads : ∀ e ∈ g.edges,
      leadsToHandling (g.refile f place) (e.rename f) = leadsToHandling g e := by
    intro e he
    have hfound : (g.refile f place).nodeById? (e.rename f).target =
        (g.nodeById? e.target).map (Node.refile f place) := nodeById?_refile hf (usesId_target he)
    rw [leadsToHandling, hfound, leadsToHandling]
    cases g.nodeById? e.target <;> rfl
  have hcovered : ∀ n ∈ g.nodes, ErrorBranch.hasErrorPath (g.refile f place) (n.refile f place) =
      ErrorBranch.hasErrorPath g n := by
    intro n hn
    have houtgoing : (g.refile f place).outgoing (n.refile f place).id =
        (g.outgoing n.id).map (Edge.rename f) := outgoing_refile hf (usesId_of_mem hn)
    rw [ErrorBranch.hasErrorPath, houtgoing, ErrorBranch.hasErrorPath]
    exact any_map_of fun e he => hleads e (List.mem_filter.1 he).1
  have hnodes : (g.refile f place).nodes = g.nodes.map (Node.refile f place) := rfl
  rw [ErrorBranch.run, hnodes,
    filter_map_of fun n hn => congrArg (isErrorProne n && ·) (congrArg not (hcovered n hn)),
    ErrorBranch.run, List.map_map, List.map_map]
  refine List.map_congr_left fun n _ => ?_
  simp only [Function.comp_apply, ErrorBranch.finding, hpath]
  rfl

end Check

open Workflow Check

/-- A built-in check of graphs is one that does not depend on ids, and never stops with a fault. -/
theorem exists_ignoresIds_of_mem {check : GraphCheck} (h : check ∈ Registry.builtIn.graph) :
    ∃ run, IgnoresIds run ∧ ∀ g c, check.run g c = .ok (run g c) := by
  simp only [Registry.builtIn, List.mem_cons, List.not_mem_nil, or_false] at h
  obtain rfl | rfl | rfl | rfl | rfl := h
  · exact ⟨_, ignoresIds_initRequired, fun _ _ => rfl⟩
  · exact ⟨_, ignoresIds_submitResult, fun _ _ => rfl⟩
  · exact ⟨_, ignoresIds_subworkflowInput, fun _ _ => rfl⟩
  · exact ⟨_, ignoresIds_scheduleWebhook, fun _ _ => rfl⟩
  · exact ⟨_, ignoresIds_errorBranch, fun _ _ => rfl⟩

/-- If the ids that occur in a graph are replaced by others, different ones by different ones, each
built-in check of graphs has the same findings in the same order, each on the node under its new id and
on the line that this id has; and by the lines of the graphs themselves that is the line it had
before. -/
theorem graphChecks_ignore_ids {f : Text → Text} {g : Graph} (hf : Set.InjOn f {id | g.UsesId id})
    {check : GraphCheck} (hcheck : check ∈ Registry.builtIn.graph) :
    (∀ {c c' : CheckContext}, c'.path = c.path →
      ∃ findings, check.run g c = .ok findings ∧
        check.run (g.rename f) c' = .ok (findings.map (Finding.rename f c'))) ∧
      ∀ (path : Text) (id : Text), g.UsesId id →
        (CheckContext.mk path (g.rename f).nodeLines).lineOf (f id) =
          (CheckContext.mk path g.nodeLines).lineOf id := by
  obtain ⟨run, hrun, hok⟩ := exists_ignoresIds_of_mem hcheck
  refine ⟨fun hpath => ⟨_, hok _ _, ?_⟩, fun path id hid => ?_⟩
  · exact (hok _ _).trans (congrArg Except.ok (@hrun f Node.line g _ _ hf hpath))
  · exact congrArg (Option.map Int.ofNat) (Graph.get?_nodeLines_rename hf hid)

/-- A schedule that is connected twice to one node, and a webhook that is connected to another one. -/
def crossedGraph : Graph where
  nodes := [
    ⟨"1", "n8n-nodes-base.scheduleTrigger", "Daily", [], some 2, none⟩,
    ⟨"2", "n8n-nodes-base.webhook", "Start", [], some 3, none⟩,
    ⟨"3", "n8n-nodes-base.noOp", "Work", [], some 4, none⟩,
    ⟨"4", "n8n-nodes-base.noOp", "Rest", [], none, none⟩]
  edges := [⟨"1", "3", "main", 0⟩, ⟨"1", "3", "main", 1⟩, ⟨"2", "4", "main", 0⟩]
  name := none

/-- The ids of these two are exchanged. -/
def exchanged : Text → Text := Equiv.swap (↑"1") (↑"2")

/-- Then the schedule, which is reported on its line, is reported there under the id of the webhook. -/
theorem graphChecks_ignore_ids_crossedGraph :
    ∃ findings : List Finding,
      ScheduleWebhook.run crossedGraph ⟨"w.json", crossedGraph.nodeLines⟩ = findings ∧
      findings.map (·.nodeId) = [some ↑"1"] ∧
      findings.map (·.line) = [some 2] ∧
      ScheduleWebhook.run (crossedGraph.rename exchanged)
          ⟨"w.json", (crossedGraph.rename exchanged).nodeLines⟩ =
        findings.map (Finding.rename exchanged ⟨"w.json", (crossedGraph.rename exchanged).nodeLines⟩) ∧
      (CheckContext.mk "w.json" (crossedGraph.rename exchanged).nodeLines).lineOf ↑"2" = some 2 := by
  have hinjective : Function.Injective exchanged := (Equiv.swap (↑"1" : Text) ↑"2").injective
  obtain ⟨hruns, hlines⟩ := @graphChecks_ignore_ids exchanged crossedGraph hinjective.injOn
    (.total ScheduleWebhook.info ScheduleWebhook.run) (by simp [Registry.builtIn])
  obtain ⟨findings, hrun, hrenamed⟩ := @hruns ⟨"w.json", crossedGraph.nodeLines⟩
    ⟨"w.json", (crossedGraph.rename exchanged).nodeLines⟩ rfl
  obtain rfl := Except.ok.inj hrun
  refine ⟨_, rfl, by decide +kernel, by decide +kernel, Except.ok.inj hrenamed, ?_⟩
  exact (hlines "w.json" "1" (.inl ⟨_, List.mem_cons_self, rfl⟩)).trans (by decide +kernel)

end WorkflowLint
