import WorkflowLint.Proofs.Workflow.Connected

/-!
# Edges on the error branch

An edge is on the error branch if its link leaves its source where that fails, which takes the second
main output of a node in the mode for errors.  The branch of any other edge is named by the type of
its connection, and that may be any text: an edge along a link of the type `error` is on the error
branch, too (`isError_iff`).  So the nodes that are reported are those without a path for their
failures exactly if no connection has that type (`marksFailures_iff`).
-/

namespace WorkflowLint.Workflow

open Check (isErrorProne isErrorHandler)
open Check.ErrorBranch (hasErrorPath)

/-- A link leaves the node that it starts at where that fails. -/
def LeavesOnError (g : Graph) (l : Link) : Prop :=
  ∃ source, IsFirstNamed g.nodes l.source source ∧ l.OnError source

/-- An edge from a node leads on where the node fails: its link is one of those that do, or it leads to
a node that handles errors. -/
def HasFailurePath (g : Graph) (ls : List Link) (onError : Link → Prop) (n : Node) : Prop :=
  ∃ l e, (l, e) ∈ ls.zip g.edges ∧ e.source = n.id ∧
    (onError l ∨ ∃ m, g.nodeById? e.target = some m ∧ isErrorHandler m = true)

/-- The edges on the error branch are those of certain links, and the nodes that are reported are those
that can fail and have no path for that. -/
structure MarksFailures (g : Graph) (ls : List Link) (onError : Link → Prop) : Prop where
  edges : List.Forall₂ (fun l e => e.isError = true ↔ onError l) ls g.edges
  reports : ∀ c, ∃ reported : Node → Bool,
    (∀ n ∈ g.nodes, reported n = true ↔ isErrorProne n = true ∧ ¬ HasFailurePath g ls onError n) ∧
    Check.ErrorBranch.run g c = (g.nodes.filter reported).map (Check.ErrorBranch.finding c)

section

variable {g : Graph} {ls : List Link}

/-- An edge is on the error branch if its link leaves its source where that fails, and if its link has
the type that is the name of that branch. -/
theorem Joined.isError_iff {l : Link} {e : Edge} (h : Joined g.nodes l e) :
    e.isError = true ↔ LeavesOnError g l ∨ l.type = "error" := by
  obtain ⟨source, target, hsource, -, hjoins⟩ := h
  have hleaves : LeavesOnError g l ↔ l.OnError source := by
    constructor
    · rintro ⟨source', hsource', hon⟩
      rwa [hsource.unique hsource']
    · intro hon
      exact ⟨source, hsource, hon⟩
  rw [hleaves, ← hjoins.branch_eq_error_iff, Edge.isError, beq_iff_eq]
  rfl

/-- Links and edges that belong together, where there are as many of the one as of the other. -/
theorem forall₂_mem_zip {es : List Edge} (h : ls.length = es.length) :
    List.Forall₂ (fun l e => (l, e) ∈ ls.zip es) ls es :=
  List.forall₂_iff_zip.2 ⟨h, fun hmem => hmem⟩

/-- Which edges are on the error branch decides which nodes are reported. -/
theorem marksFailures_of_edges {onError : Link → Prop}
    (h : List.Forall₂ (fun l e => e.isError = true ↔ onError l) ls g.edges) :
    MarksFailures g ls onError := by
  obtain ⟨hlength, hzip⟩ := List.forall₂_iff_zip.1 h
  refine ⟨h, fun c => ⟨fun n => isErrorProne n && !hasErrorPath g n, fun n _ => ?_, rfl⟩⟩
  have hpath : hasErrorPath g n = true ↔ HasFailurePath g ls onError n := by
    rw [hasErrorPath_iff]
    constructor
    · rintro ⟨e, he, hsource, hleads⟩
      obtain ⟨l, -, hl⟩ := exists_of_mem_left (forall₂_mem_zip hlength).flip e he
      exact ⟨l, e, hl, hsource, hleads.imp_left fun hbranch => (hzip hl).1 (beq_iff_eq.2 hbranch)⟩
    · rintro ⟨l, e, hl, hsource, hleads⟩
      exact ⟨e, (List.of_mem_zip hl).2, hsource, hleads.imp_left fun hon => beq_iff_eq.1 ((hzip hl).2 hon)⟩
  rw [Bool.and_eq_true, Bool.not_eq_true', ← Bool.not_eq_true, hpath]

end

/-- The edges on the error branch are those of links that leave their source where that fails, and
those of links of the type that is the name of that branch.  The former are all of them, and the nodes
that are reported are those without a path for their failures, exactly if there are no links of that
type. -/
theorem marksFailures_iff {text : Text} {ms : Json.Members} {g : Graph}
    (hread : Json.read text = .ok (.object ms)) (hparse : Graph.parse text = .ok g) :
    (MarksFailures g (links (ms.get? "connections")) (LeavesOnError g) ↔
      ∀ l ∈ links (ms.get? "connections"), l.type ≠ "error") ∧
    MarksFailures g (links (ms.get? "connections")) fun l => LeavesOnError g l ∨ l.type = "error" := by
  obtain ⟨ms', nodes, hread', -, hrepresents⟩ := represents_of_parse hparse
  obtain rfl := Json.object.inj (Except.ok.inj (hread.symm.trans hread'))
  have hedges := hrepresents.edges.imp fun l e hjoined => hjoined.isError_iff
  refine ⟨⟨fun h l hl htype => ?_, fun h => marksFailures_of_edges ?_⟩,
    marksFailures_of_edges hedges⟩
  · -- the edge of a link with that type is on the error branch, and its type is not that of main outputs
    obtain ⟨e, -, he⟩ := exists_of_mem_left (forall₂_mem_zip hedges.length_eq) l hl
    have herror : e.isError = true := ((List.forall₂_iff_zip.1 hedges).2 he).2 (.inr htype)
    obtain ⟨source, -, hmain, -⟩ := ((List.forall₂_iff_zip.1 h.edges).2 he).1 herror
    rw [htype] at hmain
    exact absurd hmain (by decide)
  · refine ((List.forall₂_and_left (links (ms.get? "connections")) g.edges).2 ⟨h, hedges⟩).imp ?_
    rintro l e ⟨htype, herror⟩
    rw [herror, or_iff_left htype]

/-- The one connection of this workflow leaves the first node where that fails. -/
theorem marksFailures_failingWorkflow :
    ∃ (ms : Json.Members) (g : Graph), Json.read failingWorkflow = .ok (.object ms) ∧
      Graph.parse failingWorkflow = .ok g ∧
      MarksFailures g (links (ms.get? "connections")) (LeavesOnError g) := by
  have hparses : (Graph.parse failingWorkflow).toOption.isSome = true := by decide +kernel
  have hreads : ((Json.read failingWorkflow).toOption.bind Json.members?).any (fun ms =>
      decide (∀ l ∈ links (Json.Members.get? ms "connections"), l.type ≠ "error")) = true := by
    decide +kernel
  obtain ⟨g, hparse⟩ := Option.isSome_iff_exists.1 hparses
  obtain ⟨ms, -, hread, -, -⟩ := represents_of_parse (eq_ok_of_toOption hparse)
  refine ⟨ms, g, hread, eq_ok_of_toOption hparse,
    (marksFailures_iff hread (eq_ok_of_toOption hparse)).1.2 ?_⟩
  simpa [hread, Except.toOption, Json.members?] using hreads

/-- A request with a connection of the type `error` to a node that does not handle errors. -/
def divertedWorkflow : Text :=
  "\x7b\"nodes\":[" ++
    "\x7b\"type\":\"n8n-nodes-base.httpRequest\",\"name\":\"Fetch\"\x7d," ++
    "\x7b\"type\":\"n8n-nodes-base.noOp\",\"name\":\"Next\"\x7d]," ++
  "\"connections\":\x7b\"Fetch\":\x7b\"error\":[[\x7b\"node\":\"Next\"\x7d]]\x7d\x7d\x7d"

/-- The edge of that connection is on the error branch, though the request does not fail into it. -/
theorem not_marksFailures_divertedWorkflow :
    ∃ (ms : Json.Members) (g : Graph), Json.read divertedWorkflow = .ok (.object ms) ∧
      Graph.parse divertedWorkflow = .ok g ∧
      ¬ MarksFailures g (links (ms.get? "connections")) (LeavesOnError g) := by
  have hparses : (Graph.parse divertedWorkflow).toOption.any (fun g =>
      decide (g.edges = [⟨"Fetch", "Next", "error", 0⟩])) = true := by decide +kernel
  have hreads : ((Json.read divertedWorkflow).toOption.bind Json.members?).any (fun ms =>
      decide (links (Json.Members.get? ms "connections") = [⟨"Fetch", "error", 0, "Next"⟩])) =
    true := by decide +kernel
  obtain ⟨g, hparse, hedges⟩ := exists_ok_of_any hparses
  obtain ⟨ms, -, hread, -, -⟩ := represents_of_parse hparse
  refine ⟨ms, g, hread, hparse, fun h => ?_⟩
  simp only [hread, Except.toOption, Option.bind_some, Json.members?, Option.any_some,
    decide_eq_true_eq] at hreads
  have hmarked := h.edges
  rw [hreads, of_decide_eq_true hedges, List.forall₂_cons] at hmarked
  obtain ⟨source, -, hmain, -⟩ := hmarked.1.1 (by decide)
  exact absurd hmain (by decide)

end WorkflowLint.Workflow
