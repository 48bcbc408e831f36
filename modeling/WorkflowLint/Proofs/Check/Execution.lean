import WorkflowLint.Check.Execution
import WorkflowLint.Proofs.Text.Replacing
import WorkflowLint.Proofs.Workflow.Connected

/-!
# The ends of the paths of a workflow

The check of closed reports looks at the nodes from which nothing leads on, one by one, and what it is
for is said of paths: whatever path an execution takes, its report is closed at the end.  A path never
leaves the nodes of a graph (`Path.exists_node`), and where it cannot be extended all nodes with the id
at which it ends are among those that were looked at.  So the check is sound for paths
(`closes_every_path`), for cycles, connections that are doubled and ids that are shared, too.
-/

namespace WorkflowLint

namespace Workflow

/-- A path along edges, from one id to another one. -/
inductive Path (g : Graph) : (first : Text) → List Edge → (last : Text) → Prop
  | nil (id : Text) : Path g id [] id
  | cons {e : Edge} {es : List Edge} {last : Text} :
      e ∈ g.edges → Path g e.target es last → Path g e.source (e :: es) last

/-- No edge leads on from an id. -/
def IsEnd (g : Graph) (id : Text) : Prop := ∀ e ∈ g.edges, e.source ≠ id

/-- An id is that of a node. -/
def IsId (g : Graph) (id : Text) : Prop := ∃ n ∈ g.nodes, n.id = id

section Paths

variable {g : Graph} {first last : Text} {es : List Edge}

/-- What the edges of a path keep holds at its end if it holds at its start. -/
theorem Path.keeps {P : Text → Prop} (h : Path g first es last)
    (hkeep : ∀ e ∈ g.edges, P e.source → P e.target) (hfirst : P first) : P last := by
  induction h with
  | nil id => exact hfirst
  | cons he _ ih => exact ih (hkeep _ he hfirst)

/-- The edges of a graph that was parsed lead to its nodes. -/
theorem isId_target_of_parse {text : Text} (h : Graph.parse text = .ok g) :
    ∀ e ∈ g.edges, IsId g e.target := by
  obtain ⟨ms, nodes, -, -, hrepresents⟩ := represents_of_parse h
  intro e he
  obtain ⟨l, -, source, target, -, htarget, hjoins⟩ := exists_of_mem_left hrepresents.edges.flip e he
  exact ⟨target, htarget.mem, hjoins.target_eq.symm⟩

theorem Path.isId_last (h : Path g first es last) (htargets : ∀ e ∈ g.edges, IsId g e.target)
    (hfirst : IsId g first) : IsId g last :=
  h.keeps (fun e he _ => htargets e he) hfirst

theorem mem_nodes_of_trigger? {n : Node} (h : g.trigger? = some n) : n ∈ g.nodes := by
  have hroots : n ∈ g.roots := by
    rw [Graph.trigger?] at h
    split at h
    · next m hm =>
      obtain rfl := Option.some.inj h
      exact List.mem_of_find?_eq_some hm
    · exact List.mem_of_find?_eq_some h
  exact (mem_roots.1 hroots).1

end Paths

end Workflow

namespace Check

open Workflow

/-- A node closes the report of an execution: it is one of those that track executions, and its
operation is to submit the result or to report an error. -/
def ClosesReport (n : Node) : Prop :=
  ("codika" : Text) <:+: n.type.lower ∧
    (n.params.text? "operation" = some "submitResult" ∨
      n.params.text? "operation" = some "reportError")

instance (n : Node) : Decidable (ClosesReport n) := inferInstanceAs (Decidable (_ ∧ _))

theorem closesReport_iff {n : Node} : closesReport n = true ↔ ClosesReport n := by
  have hsubmit : (↑"submitResult" : Text) ≠ [] := by decide
  have hreport : (↑"reportError" : Text) ≠ [] := by decide
  rw [closesReport, tracks, Bool.and_eq_true, NodeKind.isCodika, Text.hasPart_iff_isInfix, ClosesReport,
    operation]
  cases n.params.text? "operation" with
  | none => simp [Ne.symm hsubmit, Ne.symm hreport]
  | some value => simp

namespace SubmitResult

/-- A node at which a path may end: it has the id of the trigger, is a note, or closes the report. -/
def MayEnd (trigger n : Node) : Prop :=
  n.id = trigger.id ∨ ("stickynote" : Text) <:+: n.type.lower ∨ ClosesReport n

instance (trigger n : Node) : Decidable (MayEnd trigger n) := inferInstanceAs (Decidable (_ ∨ _))

/-- A node from which nothing leads on and at which no path may end. -/
def IsOpenEnd (g : Graph) (trigger n : Node) : Prop := IsEnd g n.id ∧ ¬ MayEnd trigger n

instance (g : Graph) (trigger n : Node) : Decidable (IsOpenEnd g trigger n) :=
  inferInstanceAs (Decidable ((∀ e ∈ g.edges, e.source ≠ n.id) ∧ _))

section

variable {g : Graph} {trigger : Node}

theorem openEnds_eq (g : Graph) (trigger : Node) :
    openEnds g trigger = g.nodes.filter fun n => decide (IsOpenEnd g trigger n) := by
  rw [openEnds, Graph.terminals, List.filter_filter]
  refine List.filter_congr fun n _ => ?_
  rw [Bool.eq_iff_iff, decide_eq_true_eq]
  simp only [Bool.and_eq_true, bne_iff_ne, Bool.not_eq_true', ← Bool.not_eq_true, closesReport_iff,
    NodeKind.isStickyNote, Text.hasPart_iff_isInfix, List.any_eq_true, beq_iff_eq, IsOpenEnd, IsEnd,
    MayEnd]
  push Not
  tauto

/-- Without a finding there is no open end, and else the open ends are in the message of the one
finding. -/
theorem run_cases (htrigger : g.trigger? = some trigger)
    (hparent : ¬ ("executeworkflowtrigger" : Text) <:+: trigger.type.lower) (c : CheckContext) :
    run g c = [] ∧ openEnds g trigger = [] ∨
      openEnds g trigger ≠ [] ∧ ∃ f, run g c = [f] ∧ f.message =
        "Workflow paths end without Codika Submit Result or Report Error: "
          ++ quotedLabels (openEnds g trigger) := by
  have hsubworkflow : NodeKind.isSubworkflowTrigger trigger.type = false := by
    rwa [NodeKind.isSubworkflowTrigger, ← Bool.not_eq_true, Text.hasPart_iff_isInfix]
  have hparent? : parentTrigger? g = some trigger := by
    rw [parentTrigger?, htrigger, Option.filter_some, if_pos (by rw [hsubworkflow]; rfl)]
  unfold run
  rw [hparent?]
  dsimp only
  cases openEnds g trigger with
  | nil => exact .inl ⟨rfl, rfl⟩
  | cons first others => exact .inr ⟨List.cons_ne_nil _ _, _, rfl, rfl⟩

end

/-- Without a finding every path from the trigger that cannot be extended ends at a node, and at nodes
only, at which it may end.  Otherwise there is one finding, and it shows the labels of the nodes from
which nothing leads on and at which no path may end, of which there is one. -/
theorem closes_every_path {text : Text} {g : Graph} {trigger : Node} (hparse : Graph.parse text = .ok g)
    (htrigger : g.trigger? = some trigger)
    (hparent : ¬ ("executeworkflowtrigger" : Text) <:+: trigger.type.lower) (c : CheckContext) :
    (run g c = [] → ∀ es last, Path g trigger.id es last → IsEnd g last →
      (∃ n ∈ g.nodes, n.id = last) ∧ ∀ n ∈ g.nodes, n.id = last → MayEnd trigger n) ∧
    (run g c ≠ [] → ∃ ends f, ends = g.nodes.filter (fun n => decide (IsOpenEnd g trigger n)) ∧
      ends ≠ [] ∧ run g c = [f] ∧
      f.message = "Workflow paths end without Codika Submit Result or Report Error: "
        ++ quotedList (ends.map Node.label)) := by
  rw [← openEnds_eq]
  obtain ⟨hrun, hends⟩ | ⟨hends, f, hrun, hmessage⟩ := run_cases htrigger hparent c
  · refine ⟨fun _ es last hpath hlast => ⟨?_, fun n hn hid => ?_⟩, fun h => absurd hrun h⟩
    · exact hpath.isId_last (isId_target_of_parse hparse) ⟨trigger, mem_nodes_of_trigger? htrigger, rfl⟩
    · -- all nodes with that id were looked at, whichever of them the edges mean
      rw [openEnds_eq, List.filter_eq_nil_iff] at hends
      by_contra hmay
      exact hends n hn (decide_eq_true ⟨hid ▸ hlast, hmay⟩)
  · refine ⟨fun h => ?_, fun _ => ⟨_, f, rfl, hends, hrun, hmessage⟩⟩
    rw [hrun] at h
    exact absurd h (List.cons_ne_nil f [])

/-- A request that is repeated any number of times before its result is submitted. -/
def repeatingWorkflow : Text :=
  "\x7b\"nodes\":[" ++
    "\x7b\"type\":\"n8n-nodes-base.webhook\",\"name\":\"Start\"\x7d," ++
    "\x7b\"type\":\"n8n-nodes-base.httpRequest\",\"name\":\"Fetch\"\x7d," ++
    "\x7b\"type\":\"n8n-nodes-codika.codika\",\"name\":\"Submit\"," ++
      "\"parameters\":\x7b\"operation\":\"submitResult\"\x7d\x7d]," ++
  "\"connections\":\x7b\"Start\":\x7b\"main\":[[\x7b\"node\":\"Fetch\"\x7d]]\x7d," ++
    "\"Fetch\":\x7b\"main\":[[\x7b\"node\":\"Fetch\"\x7d,\x7b\"node\":\"Submit\"\x7d]]\x7d\x7d\x7d"

/-- Nothing is reported, and so each of the infinitely many paths that end closes its report. -/
theorem closes_every_path_repeatingWorkflow :
    ∃ (g : Graph) (trigger : Node), Graph.parse repeatingWorkflow = .ok g ∧
      g.trigger? = some trigger ∧ ¬ ("executeworkflowtrigger" : Text) <:+: trigger.type.lower ∧
      run g ⟨"w.json", g.nodeLines⟩ = [] ∧
      ∀ es last, Path g trigger.id es last → IsEnd g last →
        (∃ n ∈ g.nodes, n.id = last) ∧ ∀ n ∈ g.nodes, n.id = last → MayEnd trigger n := by
  have hchecks : (Graph.parse repeatingWorkflow).toOption.any (fun g =>
      g.trigger?.any (fun trigger => !NodeKind.isSubworkflowTrigger trigger.type) &&
        (run g ⟨"w.json", g.nodeLines⟩).isEmpty) = true := by decide +kernel
  obtain ⟨g, hparse, hchecks⟩ := exists_ok_of_any hchecks
  rw [Bool.and_eq_true, List.isEmpty_iff] at hchecks
  obtain ⟨htriggers, hrun⟩ := hchecks
  obtain ⟨trigger, htrigger, hparent⟩ := (Option.any_eq_true _ _).1 htriggers
  rw [NodeKind.isSubworkflowTrigger, Bool.not_eq_true', ← Bool.not_eq_true,
    Text.hasPart_iff_isInfix] at hparent
  exact ⟨g, trigger, hparse, htrigger, hparent, hrun,
    (closes_every_path hparse htrigger hparent ⟨"w.json", g.nodeLines⟩).1 hrun⟩

end SubmitResult

end Check

end WorkflowLint
