import Mathlib.Data.List.Nodup
import WorkflowLint.Check.ErrorBranch
import WorkflowLint.Proofs.Keyed
import WorkflowLint.Proofs.Workflow.Layout

/-!
# What the edges of a graph denote

The connections of a document are written between names, and the edges of its graph between ids.  What
is looked up by an id is the node that the document names if that node shares its id with no other one;
an id may be written twice, and the name of a node without an id may be the id of another one.  A graph
connects the nodes that its document names (`ConnectsAsNamed`) exactly if no node at an end of a
connection shares its id (`connectsAsNamed_iff`).
-/

namespace WorkflowLint.Workflow

open Check (isErrorHandler)
open Check.ErrorBranch (hasErrorPath)

/-- The ids of an edge are those of the first nodes with the names of its link, and stand for them. -/
def Denotes (g : Graph) (l : Link) (e : Edge) : Prop :=
  ∃ source target, IsFirstNamed g.nodes l.source source ∧ IsFirstNamed g.nodes l.target target ∧
    g.nodeById? e.source = some source ∧ g.nodeById? e.target = some target

/-- One of the links leads from a node. -/
def LeadsFrom (g : Graph) (ls : List Link) (n : Node) : Prop :=
  ∃ l ∈ ls, IsFirstNamed g.nodes l.source n

/-- One of the links leads to a node. -/
def LeadsTo (g : Graph) (ls : List Link) (n : Node) : Prop :=
  ∃ l ∈ ls, IsFirstNamed g.nodes l.target n

/-- What is read off a graph by ids is what its links say of names: the ends of its edges, the nodes
after a node, the nodes to which or from which nothing leads, and the nodes with a path for their
failures. -/
structure ConnectsAsNamed (g : Graph) (ls : List Link) : Prop where
  edges : List.Forall₂ (Denotes g) ls g.edges
  successors : ∀ n ∈ g.nodes, ∀ m, m ∈ g.successors n.id ↔
    ∃ l ∈ ls, IsFirstNamed g.nodes l.source n ∧ IsFirstNamed g.nodes l.target m
  roots : ∀ n ∈ g.nodes, n ∈ g.roots ↔ ¬ LeadsTo g ls n
  terminals : ∀ n ∈ g.nodes, n ∈ g.terminals ↔
    ¬ LeadsFrom g ls n ∧ NodeKind.isStickyNote n.type = false
  errorPath : ∀ n ∈ g.nodes, hasErrorPath g n = true ↔
    ∃ l ∈ ls, IsFirstNamed g.nodes l.source n ∧
      (l.OnError n ∨ l.type = "error" ∨
        ∃ m, IsFirstNamed g.nodes l.target m ∧ isErrorHandler m = true)

/-- A node shares its id with no other one. -/
def OwnsId (nodes : List Node) (n : Node) : Prop := ∀ m ∈ nodes, m.id = n.id → m = n

/-! ## First nodes -/

section Nodes

variable {nodes : List Node} {name : Text} {n m : Node} {g : Graph}

theorem isFirstNamed_iff : IsFirstNamed nodes name n ↔
    nodes.find? (fun n => n.name == name) = some n := by
  rw [List.find?_eq_some_iff_append, IsFirstNamed]
  simp only [beq_iff_eq, Bool.not_eq_true', beq_eq_false_iff_ne, ne_eq]
  constructor
  · rintro ⟨before, after, hnodes, hname, hbefore⟩
    exact ⟨hname, before, after, hnodes, hbefore⟩
  · rintro ⟨hname, before, after, hnodes, hbefore⟩
    exact ⟨before, after, hnodes, hname, hbefore⟩

theorem IsFirstNamed.mem (h : IsFirstNamed nodes name n) : n ∈ nodes :=
  List.mem_of_find?_eq_some (isFirstNamed_iff.1 h)

theorem IsFirstNamed.unique (h : IsFirstNamed nodes name n) (h' : IsFirstNamed nodes name m) :
    n = m :=
  Option.some.inj ((isFirstNamed_iff.1 h).symm.trans (isFirstNamed_iff.1 h'))

/-- What stands for an id that is owned is the node that owns it. -/
theorem nodeById?_of_ownsId (hn : n ∈ g.nodes) (h : OwnsId g.nodes n) :
    g.nodeById? n.id = some n := by
  rw [Graph.nodeById?]
  cases hfind : g.nodes.find? fun m => m.id == n.id with
  | none => exact absurd (List.find?_eq_none.1 hfind n hn) (by simp)
  | some m =>
    rw [h m (List.mem_of_find?_eq_some hfind) (by simpa using List.find?_some hfind)]

theorem mem_successors {id : Text} : m ∈ g.successors id ↔
    ∃ e ∈ g.edges, e.source = id ∧ g.nodeById? e.target = some m := by
  simp only [Graph.successors, List.mem_filterMap, Keyed.mem_distinct, List.mem_map,
    Graph.outgoing, List.mem_filter, beq_iff_eq]
  constructor
  · rintro ⟨_, ⟨e, ⟨he, hsource⟩, rfl⟩, htarget⟩
    exact ⟨e, he, hsource, htarget⟩
  · rintro ⟨e, he, hsource, htarget⟩
    exact ⟨e.target, ⟨e, ⟨he, hsource⟩, rfl⟩, htarget⟩

theorem mem_roots : n ∈ g.roots ↔ n ∈ g.nodes ∧ ∀ e ∈ g.edges, e.target ≠ n.id := by
  simp [Graph.roots]

theorem mem_terminals : n ∈ g.terminals ↔
    n ∈ g.nodes ∧ (∀ e ∈ g.edges, e.source ≠ n.id) ∧ NodeKind.isStickyNote n.type = false := by
  simp [Graph.terminals]

theorem hasErrorPath_iff : hasErrorPath g n = true ↔
    ∃ e ∈ g.edges, e.source = n.id ∧
      (e.branch = "error" ∨ ∃ m, g.nodeById? e.target = some m ∧ isErrorHandler m = true) := by
  simp only [hasErrorPath, List.any_eq_true, Graph.outgoing, List.mem_filter, beq_iff_eq,
    Check.leadsToHandling, Edge.isError, Bool.or_eq_true, Option.any_eq_true, and_assoc]
  rfl

end Nodes

/-! ## Links and edges -/

theorem exists_of_mem_left {α β : Type} {R : α → β → Prop} {as : List α} {bs : List β}
    (h : List.Forall₂ R as bs) : ∀ a ∈ as, ∃ b ∈ bs, R a b := by
  induction h with
  | nil => exact List.forall_mem_nil _
  | cons hab _ ih =>
    refine List.forall_mem_cons.2 ⟨⟨_, List.mem_cons_self, hab⟩, fun a ha => ?_⟩
    obtain ⟨b, hb, hR⟩ := ih a ha
    exact ⟨b, List.mem_cons_of_mem _ hb, hR⟩

theorem Joins.branch_eq_error_iff {l : Link} {source target : Node} {e : Edge}
    (h : Joins l source target e) : e.branch = "error" ↔ l.OnError source ∨ l.type = "error" := by
  by_cases herror : l.OnError source
  · simp [h.error herror, herror]
  · rw [h.branch herror]
    by_cases htype : l.type = []
    · rw [if_pos htype, htype]
      simp only [herror, false_or]
      exact iff_of_false (by decide) (by decide)
    · rw [if_neg htype]
      simp only [herror, false_or]

section Links

variable {g : Graph} {ls : List Link} {n m : Node}

theorem Denotes.source {l : Link} {e : Edge} (h : Denotes g l e)
    (hn : IsFirstNamed g.nodes l.source n) : e.source = n.id ∧ g.nodeById? n.id = some n := by
  obtain ⟨source, target, hsource, -, hfound, -⟩ := h
  obtain rfl := hsource.unique hn
  have hid : source.id = e.source := by simpa using List.find?_some hfound
  exact ⟨hid.symm, hid ▸ hfound⟩

theorem Denotes.target {l : Link} {e : Edge} (h : Denotes g l e)
    (hn : IsFirstNamed g.nodes l.target n) : e.target = n.id ∧ g.nodeById? n.id = some n := by
  obtain ⟨source, target, -, htarget, -, hfound⟩ := h
  obtain rfl := htarget.unique hn
  have hid : target.id = e.target := by simpa using List.find?_some hfound
  exact ⟨hid.symm, hid ▸ hfound⟩

/-- Each end of a link is what its id stands for, and nothing else has that id: a node with the same id
would have the same nodes after it, or no less lead to it, and so be an end of a link itself. -/
theorem ConnectsAsNamed.ownsId (h : ConnectsAsNamed g ls) {l : Link} (hl : l ∈ ls)
    (hn : IsFirstNamed g.nodes l.source n ∨ IsFirstNamed g.nodes l.target n) : OwnsId g.nodes n := by
  intro m hm hid
  obtain ⟨e, he, hdenotes⟩ := exists_of_mem_left h.edges l hl
  obtain hn | hn := hn
  · obtain ⟨-, hfound⟩ := hdenotes.source hn
    obtain ⟨-, target, -, htarget, -⟩ := hdenotes
    have hafter : target ∈ g.successors n.id := (h.successors n hn.mem target).2 ⟨l, hl, hn, htarget⟩
    rw [← hid] at hafter
    obtain ⟨l', hl', hm', -⟩ := (h.successors m hm target).1 hafter
    obtain ⟨e', -, hdenotes'⟩ := exists_of_mem_left h.edges l' hl'
    obtain ⟨-, hfound'⟩ := hdenotes'.source hm'
    exact Option.some.inj (hfound'.symm.trans (hid ▸ hfound))
  · obtain ⟨htarget, hfound⟩ := hdenotes.target hn
    have hled : LeadsTo g ls m := by
      by_contra hnone
      exact (mem_roots.1 ((h.roots m hm).2 hnone)).2 e he (htarget.trans hid.symm)
    obtain ⟨l', hl', hm'⟩ := hled
    obtain ⟨e', -, hdenotes'⟩ := exists_of_mem_left h.edges l' hl'
    obtain ⟨-, hfound'⟩ := hdenotes'.target hm'
    exact Option.some.inj (hfound'.symm.trans (hid ▸ hfound))

variable (hjoined : List.Forall₂ (Joined g.nodes) ls g.edges)
include hjoined

/-- The edges from a node and the links from it, if the sources of links own their ids. -/
theorem exists_outgoing_iff
    (howns : ∀ l ∈ ls, ∀ s, IsFirstNamed g.nodes l.source s → OwnsId g.nodes s) (hn : n ∈ g.nodes)
    {P : Edge → Prop} {Q : Link → Prop}
    (h : ∀ l ∈ ls, ∀ e t, IsFirstNamed g.nodes l.target t → Joins l n t e → (P e ↔ Q l)) :
    (∃ e ∈ g.edges, e.source = n.id ∧ P e) ↔ ∃ l ∈ ls, IsFirstNamed g.nodes l.source n ∧ Q l := by
  constructor
  · rintro ⟨e, he, hid, hP⟩
    obtain ⟨l, hl, s, t, hs, ht, hjoins⟩ := exists_of_mem_left hjoined.flip e he
    obtain rfl := howns l hl s hs n hn (hid.symm.trans hjoins.source_eq)
    exact ⟨l, hl, hs, (h l hl e t ht hjoins).1 hP⟩
  · rintro ⟨l, hl, hs, hQ⟩
    obtain ⟨e, he, s, t, hs', ht, hjoins⟩ := exists_of_mem_left hjoined l hl
    obtain rfl := hs.unique hs'
    exact ⟨e, he, hjoins.source_eq, (h l hl e t ht hjoins).2 hQ⟩

/-- The edges to a node and the links to it, if the targets of links own their ids. -/
theorem exists_incoming_iff
    (howns : ∀ l ∈ ls, ∀ t, IsFirstNamed g.nodes l.target t → OwnsId g.nodes t) (hn : n ∈ g.nodes) :
    (∃ e ∈ g.edges, e.target = n.id) ↔ LeadsTo g ls n := by
  constructor
  · rintro ⟨e, he, hid⟩
    obtain ⟨l, hl, s, t, -, ht, hjoins⟩ := exists_of_mem_left hjoined.flip e he
    obtain rfl := howns l hl t ht n hn (hid.symm.trans hjoins.target_eq)
    exact ⟨l, hl, ht⟩
  · rintro ⟨l, hl, ht⟩
    obtain ⟨e, he, s, t, -, ht', hjoins⟩ := exists_of_mem_left hjoined l hl
    obtain rfl := ht.unique ht'
    exact ⟨e, he, hjoins.target_eq⟩

/-- A graph whose links have ends that own their ids connects the nodes that its document names. -/
theorem connectsAsNamed_of_ownsId (howns : ∀ l ∈ ls, ∀ n,
      IsFirstNamed g.nodes l.source n ∨ IsFirstNamed g.nodes l.target n → OwnsId g.nodes n) :
    ConnectsAsNamed g ls := by
  have hsources : ∀ l ∈ ls, ∀ s, IsFirstNamed g.nodes l.source s → OwnsId g.nodes s :=
    fun l hl s hs => howns l hl s (.inl hs)
  have htargets : ∀ l ∈ ls, ∀ t, IsFirstNamed g.nodes l.target t → OwnsId g.nodes t :=
    fun l hl t ht => howns l hl t (.inr ht)
  have hfound : ∀ l ∈ ls, ∀ e s t, IsFirstNamed g.nodes l.target t → Joins l s t e →
      g.nodeById? e.target = some t := by
    intro l hl e s t ht hjoins
    rw [hjoins.target_eq, nodeById?_of_ownsId ht.mem (htargets l hl t ht)]
  refine ⟨?edges, ?successors, ?roots, ?terminals, ?errorPath⟩
  case edges =>
    refine ((List.forall₂_and_left ls g.edges).2 ⟨fun l hl => hl, hjoined⟩).imp ?_
    rintro l e ⟨hl, s, t, hs, ht, hjoins⟩
    refine ⟨s, t, hs, ht, ?_, hfound l hl e s t ht hjoins⟩
    rw [hjoins.source_eq, nodeById?_of_ownsId hs.mem (hsources l hl s hs)]
  case successors =>
    intro n hn m
    rw [mem_successors]
    refine exists_outgoing_iff hjoined hsources hn fun l hl e t ht hjoins => ?_
    rw [hfound l hl e n t ht hjoins, Option.some_inj]
    exact ⟨fun heq => heq ▸ ht, fun hm => ht.unique hm⟩
  case roots =>
    intro n hn
    rw [mem_roots, ← exists_incoming_iff hjoined htargets hn]
    simp [hn]
  case terminals =>
    intro n hn
    have hleads : (∃ e ∈ g.edges, e.source = n.id) ↔ LeadsFrom g ls n := by
      simpa [LeadsFrom] using
        exists_outgoing_iff (P := fun _ => True) (Q := fun _ => True) hjoined hsources hn
          fun _ _ _ _ _ _ => Iff.rfl
    rw [mem_terminals, ← hleads]
    simp [hn]
  case errorPath =>
    intro n hn
    rw [hasErrorPath_iff]
    refine exists_outgoing_iff hjoined hsources hn fun l hl e t ht hjoins => ?_
    rw [hjoins.branch_eq_error_iff, hfound l hl e n t ht hjoins, or_assoc]
    refine or_congr_right (or_congr_right ⟨?_, ?_⟩)
    · rintro ⟨m, hm, hhandler⟩
      exact ⟨m, Option.some.inj hm ▸ ht, hhandler⟩
    · rintro ⟨m, hm, hhandler⟩
      exact ⟨m, congrArg some (ht.unique hm), hhandler⟩

end Links

/-- The graph of a document connects the nodes that the document names exactly if no node at an end of
a link shares its id with another one. -/
theorem connectsAsNamed_iff {text : Text} {ms : Json.Members} {g : Graph}
    (hread : Json.read text = .ok (.object ms)) (hparse : Graph.parse text = .ok g) :
    ConnectsAsNamed g (links (ms.get? "connections")) ↔
      ∀ l ∈ links (ms.get? "connections"), ∀ n,
        IsFirstNamed g.nodes l.source n ∨ IsFirstNamed g.nodes l.target n → OwnsId g.nodes n := by
  obtain ⟨ms', nodes, hread', -, hrepresents⟩ := represents_of_parse hparse
  obtain rfl := Json.object.inj (Except.ok.inj (hread.symm.trans hread'))
  exact ⟨fun h l hl n hn => h.ownsId hl hn, connectsAsNamed_of_ownsId hrepresents.edges⟩

/-- Nodes with pairwise different ids own them. -/
theorem ownsId_of_nodup {nodes : List Node} (h : (nodes.map Node.id).Nodup) {n : Node}
    (hn : n ∈ nodes) : OwnsId nodes n :=
  fun _ hm hid => List.inj_on_of_nodup_map h hm hn hid

/-- Two nodes share a name and none shares an id. -/
theorem connectsAsNamed_failingWorkflow :
    ∃ (ms : Json.Members) (g : Graph), Json.read failingWorkflow = .ok (.object ms) ∧
      Graph.parse failingWorkflow = .ok g ∧ ConnectsAsNamed g (links (ms.get? "connections")) := by
  have hids : (Graph.parse failingWorkflow).toOption.any (fun g =>
      decide (g.nodes.map Node.id).Nodup) = true := by decide +kernel
  obtain ⟨g, hparse, hids⟩ := exists_ok_of_any hids
  obtain ⟨ms, -, hread, -, -⟩ := represents_of_parse hparse
  refine ⟨ms, g, hread, hparse, (connectsAsNamed_iff hread hparse).2 fun l _ n hn => ?_⟩
  exact ownsId_of_nodup (of_decide_eq_true hids) (hn.elim IsFirstNamed.mem IsFirstNamed.mem)

/-- A request that is connected to a node for failures without an id, whose name is the id of the
request. -/
def stoppedWorkflow : Text :=
  "\x7b\"nodes\":[" ++
    "\x7b\"id\":\"Stop\",\"type\":\"n8n-nodes-base.httpRequest\",\"name\":\"Fetch\"\x7d," ++
    "\x7b\"type\":\"n8n-nodes-base.stopAndError\",\"name\":\"Stop\"\x7d]," ++
  "\"connections\":\x7b\"Fetch\":\x7b\"main\":[[\x7b\"node\":\"Stop\"\x7d]]\x7d\x7d\x7d"

/-- The request seems to be connected to itself. -/
theorem not_connectsAsNamed_stoppedWorkflow :
    ∃ (ms : Json.Members) (g : Graph), Json.read stoppedWorkflow = .ok (.object ms) ∧
      Graph.parse stoppedWorkflow = .ok g ∧ ¬ ConnectsAsNamed g (links (ms.get? "connections")) := by
  have hparses : (Graph.parse stoppedWorkflow).toOption.any (fun g =>
      decide (g.nodes.map (fun n => (n.id, n.name)) =
        [((↑"Stop" : Text), (↑"Fetch" : Text)), (↑"Stop", ↑"Stop")])) = true := by decide +kernel
  have hreads : ((Json.read stoppedWorkflow).toOption.bind Json.members?).any (fun ms =>
      decide (links (Json.Members.get? ms "connections") = [⟨"Fetch", "main", 0, "Stop"⟩])) =
    true := by decide +kernel
  obtain ⟨g, hparse, hnodes⟩ := exists_ok_of_any hparses
  obtain ⟨ms, -, hread, -, -⟩ := represents_of_parse hparse
  refine ⟨ms, g, hread, hparse, fun h => ?_⟩
  simp only [hread, Except.toOption, Option.bind_some, Json.members?, Option.any_some,
    decide_eq_true_eq] at hreads
  obtain ⟨fetch, rest, hfetch, hfetched, hrest⟩ := List.map_eq_cons_iff.1 (of_decide_eq_true hnodes)
  obtain ⟨stop, rest, rfl, hstopped, hnil⟩ := List.map_eq_cons_iff.1 hrest
  obtain ⟨hfetchId, hfetchName⟩ := Prod.mk.inj hfetched
  obtain ⟨hstopId, hstopName⟩ := Prod.mk.inj hstopped
  have htarget : IsFirstNamed g.nodes "Stop" stop := by
    refine ⟨[fetch], rest, hfetch, hstopName, ?_⟩
    rw [List.forall_mem_singleton, hfetchName]
    decide
  have howns := h.ownsId (by rw [hreads]; exact List.mem_cons_self) (.inr htarget)
  have heq := howns fetch (by rw [hfetch]; exact List.mem_cons_self) (hfetchId.trans hstopId.symm)
  rw [← heq, hfetchName] at hstopName
  exact absurd hstopName (by decide)

end WorkflowLint.Workflow
