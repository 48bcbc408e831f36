import WorkflowLint.Proofs.Keyed
import WorkflowLint.Proofs.Yaml.Keeping

/-!
# Nodes that refer to nodes

The nodes of a document that has been read consist of nodes of the document, and so does its root
(`Document.closed_of_read`).
-/

namespace WorkflowLint.Yaml

/-- The nodes that a node consists of. -/
def Content.parts : Content → List NodeId
  | .scalar _ => []
  | .sequence items => items
  | .mapping entries => entries.flatMap fun e => [e.1, e.2]

/-- All numbers of some are less than another. -/
def AllBelow (ids : List Nat) (m : Nat) : Prop := ∀ id ∈ ids, id < m

/-- The numbers in all of some pairs are less than another. -/
def PairsBelow (entries : List (Nat × Nat)) (m : Nat) : Prop := ∀ e ∈ entries, e.1 < m ∧ e.2 < m

theorem allBelow_nil (m : Nat) : AllBelow [] m := fun _ h => absurd h List.not_mem_nil

theorem pairsBelow_nil (m : Nat) : PairsBelow [] m := fun _ h => absurd h List.not_mem_nil

theorem AllBelow.mono {ids : List Nat} {m m' : Nat} (h : AllBelow ids m) (hle : m ≤ m') :
    AllBelow ids m' := fun id hid => Nat.lt_of_lt_of_le (h id hid) hle

theorem PairsBelow.mono {entries : List (Nat × Nat)} {m m' : Nat} (h : PairsBelow entries m)
    (hle : m ≤ m') : PairsBelow entries m' :=
  fun e he => ⟨Nat.lt_of_lt_of_le (h e he).1 hle, Nat.lt_of_lt_of_le (h e he).2 hle⟩

theorem PairsBelow.cons {entries : List (Nat × Nat)} {e : Nat × Nat} {m : Nat} (h₁ : e.1 < m)
    (h₂ : e.2 < m) (h : PairsBelow entries m) : PairsBelow (e :: entries) m :=
  List.forall_mem_cons.2 ⟨⟨h₁, h₂⟩, h⟩

theorem allBelow_flatMap_iff {entries : List (Nat × Nat)} {m : Nat} :
    AllBelow (entries.flatMap fun e => [e.1, e.2]) m ↔ PairsBelow entries m := by
  unfold AllBelow PairsBelow
  rw [List.forall_mem_flatMap]
  simp

/-- All nodes that some nodes consist of are among them. -/
def NodesClosed (nodes : Array Node) : Prop := ∀ n ∈ nodes, AllBelow n.content.parts nodes.size

theorem NodesClosed.push {nodes : Array Node} {n : Node} (h : NodesClosed nodes)
    (hn : AllBelow n.content.parts nodes.size) : NodesClosed (nodes.push n) := by
  have hle : nodes.size ≤ (nodes.push n).size := by simp
  intro n' hn'
  rcases Array.mem_push.1 hn' with hn' | rfl
  · exact (h n' hn').mono hle
  · exact hn.mono hle

theorem NodesClosed.modify {nodes : Array Node} {change : Node → Node} (h : NodesClosed nodes)
    (hchange : ∀ n, AllBelow n.content.parts nodes.size →
      AllBelow (change n).content.parts nodes.size) (id : NodeId) :
    NodesClosed (nodes.modify id change) := by
  intro n hn
  rw [Array.size_modify]
  obtain ⟨i, hi, rfl⟩ := Array.mem_iff_getElem.1 hn
  rw [Array.getElem_modify]
  have hparts := h _ (Array.getElem_mem (Array.size_modify ▸ hi))
  split
  · exact hchange _ hparts
  · exact hparts

/-- What the nodes read so far consist of has been read, and so has what has an anchor. -/
structure Builder.Closed (b : Builder) : Prop where
  nodes : NodesClosed b.nodes
  anchors : ∀ a ∈ b.anchors, a.2 < b.nodes.size

namespace Build

/-- A step keeps the nodes closed. -/
abbrev KeepsNodes {α : Type} (n : Nat) (step : Build α) (post : α → Nat → Prop) : Prop :=
  Keeps Builder.Closed (fun b => b.nodes.size) n step post

variable {n : Nat} {α : Type}

/-! ## Steps that add no nodes -/

theorem keepsNodes_peek : KeepsNodes n peek fun _ _ => True := by
  intro b hb _ t b' h
  unfold peek at h
  split at h
  · obtain ⟨-, rfl⟩ := Prod.mk.inj (Except.ok.inj h)
    exact ⟨hb, Nat.le_refl _, trivial⟩
  · exact absurd h (by simp)
  · obtain ⟨-, rfl⟩ := Prod.mk.inj (Except.ok.inj h)
    exact ⟨hb, Nat.le_refl _, trivial⟩

theorem keepsNodes_skip : KeepsNodes n skip fun _ _ => True := by
  unfold skip
  exact Keeps.modify fun b hb _ => ⟨⟨hb.nodes, hb.anchors⟩, Nat.le_refl _⟩

theorem keepsNodes_nextIn (kinds : List TokenKind) : KeepsNodes n (nextIn kinds) fun _ _ => True :=
  keepsNodes_peek.bind fun _ _ _ _ => .pure fun _ _ => trivial

theorem keepsNodes_failAt {context : Option (Text × Mark)} {problem : Text} {mark : Mark}
    {post : α → Nat → Prop} : KeepsNodes n (failAt context problem mark) post := .throw _

theorem keepsNodes_failName {context : Option (Text × Mark)} {problem : Text} {mark : Mark}
    {post : α → Nat → Prop} : KeepsNodes n (failName context problem mark) post := .throw _

theorem keepsNodes_failCollection {what expected : Text} {start : Mark} {post : α → Nat → Prop} :
    KeepsNodes n (failCollection what start expected) post :=
  keepsNodes_peek.bind fun _ _ _ _ => keepsNodes_failAt

theorem keepsNodes_readAnchorInto (p : Properties) :
    KeepsNodes n (readAnchorInto p) fun _ _ => True := by
  refine keepsNodes_peek.bind fun t m _ _ => ?_
  split
  · exact keepsNodes_skip.bind fun _ _ _ _ => .pure fun _ _ => trivial
  · exact .pure fun _ _ => trivial

theorem keepsNodes_readTagInto (p : Properties) :
    KeepsNodes n (readTagInto p) fun _ _ => True := by
  refine keepsNodes_peek.bind fun t m _ _ => ?_
  split
  · exact keepsNodes_skip.bind fun _ _ _ _ => .pure fun _ _ => trivial
  · exact .pure fun _ _ => trivial

theorem keepsNodes_readProperties : KeepsNodes n readProperties fun _ _ => True := by
  refine (keepsNodes_readAnchorInto _).bind fun p m _ _ => ?_
  split
  · exact keepsNodes_readTagInto p
  · refine (keepsNodes_readTagInto p).bind fun p m' _ _ => ?_
    split
    · exact keepsNodes_readAnchorInto p
    · exact .pure fun _ _ => trivial

theorem keepsNodes_expandTag (p : Properties) : KeepsNodes n (expandTag p) fun _ _ => True := by
  unfold expandTag
  split
  · exact .pure fun _ _ => trivial
  · exact .pure fun _ _ => trivial
  · refine Keeps.get.bind fun b m _ _ => ?_
    split
    · exact .pure fun _ _ => trivial
    · exact keepsNodes_failAt

/-! ## Steps that add a node -/

/-- A new node may consist of nodes that were there before. -/
theorem keepsNodes_add {anchor : Option Text} {node : Node} (h : AllBelow node.content.parts n) :
    KeepsNodes n (add anchor node) LT.lt := by
  have hadded : ∀ (b : Builder) anchors, b.Closed → n ≤ b.nodes.size →
      (∀ a ∈ anchors, a ∈ b.anchors ∨ a.2 = b.nodes.size) →
      ({ b with nodes := b.nodes.push node, anchors } : Builder).Closed ∧
        b.nodes.size ≤ (b.nodes.push node).size ∧ b.nodes.size < (b.nodes.push node).size := by
    intro b anchors hb hn hanchors
    have hlt : b.nodes.size < (b.nodes.push node).size := by simp
    refine ⟨⟨hb.nodes.push (h.mono hn), fun a ha => ?_⟩, Nat.le_of_lt hlt, hlt⟩
    rcases hanchors a ha with ha | heq
    · exact Nat.lt_trans (hb.anchors a ha) hlt
    · exact heq ▸ hlt
  refine Keeps.get_bind fun b hb hn id b' heq => ?_
  cases anchor with
  | none =>
    obtain ⟨rfl, rfl⟩ := Prod.mk.inj (Except.ok.inj heq)
    exact hadded b b.anchors hb hn fun a ha => .inl ha
  | some name =>
    cases hget : Keyed.get? name b.anchors with
    | some first =>
      simp only [hget] at heq
      cases heq
    | none =>
      simp only [hget] at heq
      obtain ⟨rfl, rfl⟩ := Prod.mk.inj (Except.ok.inj heq)
      refine hadded b _ hb hn fun a ha => ?_
      rcases Keyed.mem_of_mem_set ha with ha | rfl
      · exact .inl ha
      · exact .inr rfl

theorem keepsNodes_fill {id : NodeId} {content : Content} (hid : id < n)
    (h : AllBelow content.parts n) : KeepsNodes n (fill id content) LT.lt := by
  unfold fill
  refine Keeps.bind (Keeps.modify fun b hb hn => ?_) fun _ m hm _ => .pure fun m' hm' => ?_
  · have hsize : (b.nodes.modify id fun n => { n with content }).size = b.nodes.size :=
      Array.size_modify
    have hnodes : NodesClosed (b.nodes.modify id fun n => { n with content }) :=
      hb.nodes.modify (fun n _ => h.mono hn) id
    exact ⟨⟨hnodes, fun a ha => hsize.symm ▸ hb.anchors a ha⟩, Nat.le_of_eq hsize.symm⟩
  · exact Nat.lt_of_lt_of_le hid (Nat.le_trans hm hm')

theorem keepsNodes_addMissing (mark : Mark) :
    KeepsNodes n (addMissing mark) LT.lt := keepsNodes_add (allBelow_nil n)

theorem keepsNodes_findAlias (name : Text) (mark : Mark) :
    KeepsNodes n (findAlias name mark) LT.lt := by
  refine Keeps.get.bind fun b m _ hb => ?_
  obtain ⟨hb, rfl⟩ := hb
  split
  · next id hget =>
    have hid := hb.anchors _ (Keyed.mem_of_get? hget)
    exact .pure fun m hm => Nat.lt_of_lt_of_le hid hm
  · exact keepsNodes_failName

theorem keepsNodes_nodeUnless {ends : List TokenKind} {missing : Mark} {node : Build NodeId}
    (h : ∀ m, n ≤ m → KeepsNodes m node LT.lt) :
    KeepsNodes n (nodeUnless ends missing node) LT.lt := by
  refine (keepsNodes_nextIn ends).bind fun found m hm _ => ?_
  split
  · exact keepsNodes_addMissing missing
  · exact h m hm

theorem keepsNodes_valueUnless {ends : List TokenKind} {node : Build NodeId}
    (h : ∀ m, n ≤ m → KeepsNodes m node LT.lt) :
    KeepsNodes n (valueUnless ends node) LT.lt := by
  refine keepsNodes_peek.bind fun t m hm _ => ?_
  split
  · exact keepsNodes_skip.bind fun _ m' hm' _ =>
      keepsNodes_nodeUnless fun k hk => h k (by omega)
  · exact keepsNodes_addMissing _

theorem keepsNodes_sequence {anchor : Option Text} {tag : Tag} {start : Mark}
    {items : Build (List NodeId)} (h : ∀ m, KeepsNodes m items AllBelow) :
    KeepsNodes n (do
      let id ← add anchor ⟨tag, start, .sequence []⟩
      fill id (.sequence (← items))) LT.lt := by
  have hadd : KeepsNodes n (add anchor ⟨tag, start, .sequence []⟩) LT.lt :=
    keepsNodes_add (allBelow_nil n)
  refine hadd.bind fun id m _ hid => (h m).bind fun ids m' hm' hids => ?_
  exact keepsNodes_fill (Nat.lt_of_lt_of_le hid hm') hids

theorem keepsNodes_mapping {anchor : Option Text} {tag : Tag} {start : Mark}
    {entries : Build (List (NodeId × NodeId))} (h : ∀ m, KeepsNodes m entries PairsBelow) :
    KeepsNodes n (do
      let id ← add anchor ⟨tag, start, .mapping []⟩
      fill id (.mapping (← entries))) LT.lt := by
  have hadd : KeepsNodes n (add anchor ⟨tag, start, .mapping []⟩) LT.lt :=
    keepsNodes_add (allBelow_nil n)
  refine hadd.bind fun id m _ hid => (h m).bind fun es m' hm' hes => ?_
  exact keepsNodes_fill (Nat.lt_of_lt_of_le hid hm') (allBelow_flatMap_iff.2 hes)

theorem keepsNodes_cons {item : NodeId} {items : Build (List NodeId)} (hitem : item < n)
    (h : KeepsNodes n items AllBelow) : KeepsNodes n (do return item :: (← items)) AllBelow :=
  h.bind fun _ _ hm hids => .pure fun _ hm' =>
    List.forall_mem_cons.2 ⟨Nat.lt_of_lt_of_le hitem (Nat.le_trans hm hm'), hids.mono hm'⟩

theorem keepsNodes_cons_pair {key value : NodeId} {entries : Build (List (NodeId × NodeId))}
    (hkey : key < n) (hvalue : value < n) (h : KeepsNodes n entries PairsBelow) :
    KeepsNodes n (do return (key, value) :: (← entries)) PairsBelow :=
  h.bind fun _ _ hm hes => .pure fun _ hm' =>
    .cons (Nat.lt_of_lt_of_le hkey (Nat.le_trans hm hm'))
      (Nat.lt_of_lt_of_le hvalue (Nat.le_trans hm hm')) (hes.mono hm')

/-- A collection between brackets has a comma before each of its parts but the first. -/
theorem keepsNodes_afterComma {first : Bool} {kinds : List TokenKind} {what expected : Text}
    {start : Mark} {rest : Build α} {post : α → Nat → Prop} (h : ∀ m, KeepsNodes m rest post) :
    KeepsNodes n (do
      if !first then
        if ← nextIn kinds then skip
        else failCollection what start expected
      rest) post := by
  dsimp only
  split
  · refine (keepsNodes_nextIn kinds).bind fun found m _ _ => ?_
    split
    · exact keepsNodes_skip.bind fun _ m' _ _ => h m'
    · exact keepsNodes_failCollection.bind fun _ m' _ (_ : True) => h m'
  · exact h n

/-! ## The readers of nodes -/

/-- What is said of the steps that read nodes, which call one another. -/
structure KeepAllNodes (fuel : Nat) : Prop where
  node : ∀ n inBlock indentless, KeepsNodes n (node fuel inBlock indentless) LT.lt
  blockItems : ∀ n start, KeepsNodes n (blockItems fuel start) AllBelow
  indentlessItems : ∀ n, KeepsNodes n (indentlessItems fuel) AllBelow
  blockEntries : ∀ n start, KeepsNodes n (blockEntries fuel start) PairsBelow
  flowItems : ∀ n start first, KeepsNodes n (flowItems fuel start first) AllBelow
  flowPair : ∀ n, KeepsNodes n (flowPair fuel) LT.lt
  flowEntries : ∀ n start first, KeepsNodes n (flowEntries fuel start first) PairsBelow

namespace KeepAllNodes

variable {fuel : Nat}

/-- Without fuel a reader adds an empty node or gives nothing. -/
theorem zero : KeepAllNodes 0 where
  node _ _ _ := keepsNodes_peek.bind fun _ _ _ _ => keepsNodes_addMissing _
  blockItems _ _ := .pure fun m _ => allBelow_nil m
  indentlessItems _ := .pure fun m _ => allBelow_nil m
  blockEntries _ _ := .pure fun m _ => pairsBelow_nil m
  flowItems _ _ _ := .pure fun m _ => allBelow_nil m
  flowPair _ := keepsNodes_peek.bind fun _ _ _ _ => keepsNodes_addMissing _
  flowEntries _ _ _ := .pure fun m _ => pairsBelow_nil m

variable (ih : KeepAllNodes fuel)
include ih

theorem node_succ (inBlock indentless : Bool) :
    KeepsNodes n (Build.node (fuel + 1) inBlock indentless) LT.lt := by
  unfold Build.node
  refine keepsNodes_peek.bind fun first m hm _ => ?_
  split
  · exact keepsNodes_skip.bind fun _ _ _ _ => keepsNodes_findAlias _ _
  refine keepsNodes_readProperties.bind fun p m hm _ => ?_
  refine (keepsNodes_expandTag p).bind fun tag m hm _ => ?_
  refine keepsNodes_peek.bind fun t m hm _ => ?_
  simp only
  split
  · exact keepsNodes_sequence ih.indentlessItems
  · exact keepsNodes_skip.bind fun _ m _ _ => keepsNodes_add (allBelow_nil m)
  · exact keepsNodes_sequence fun _ => keepsNodes_skip.bind fun _ _ _ _ => ih.flowItems _ _ _
  · exact keepsNodes_mapping fun _ => keepsNodes_skip.bind fun _ _ _ _ => ih.flowEntries _ _ _
  · exact keepsNodes_sequence fun _ => keepsNodes_skip.bind fun _ _ _ _ => ih.blockItems _ _
  · exact keepsNodes_mapping fun _ => keepsNodes_skip.bind fun _ _ _ _ => ih.blockEntries _ _
  · split
    · exact keepsNodes_add (allBelow_nil m)
    · exact keepsNodes_failAt

/-- An item that may be missing comes before the other items. -/
theorem itemThen {ends : List TokenKind} {missing : Mark} {inBlock indentless : Bool}
    {rest : Build (List NodeId)} (h : ∀ m, KeepsNodes m rest AllBelow) :
    KeepsNodes n (do
      let item ← nodeUnless ends missing (Build.node fuel inBlock indentless)
      return item :: (← rest)) AllBelow :=
  (keepsNodes_nodeUnless fun m _ => ih.node m _ _).bind fun _ m _ hitem =>
    keepsNodes_cons hitem (h m)

/-- A key and a value, either of which may be missing, come before what is made of them. -/
theorem entryThen {ends valueEnds : List TokenKind} {missing : Mark}
    {inBlock indentless inBlock' indentless' : Bool} {rest : NodeId → NodeId → Build α}
    {post : α → Nat → Prop}
    (h : ∀ key value m, n ≤ m → key < m → value < m → KeepsNodes m (rest key value) post) :
    KeepsNodes n (do
      let key ← nodeUnless ends missing (Build.node fuel inBlock indentless)
      let value ← valueUnless valueEnds (Build.node fuel inBlock' indentless')
      rest key value) post := by
  refine (keepsNodes_nodeUnless fun m _ => ih.node m _ _).bind fun key m hm hkey => ?_
  refine (keepsNodes_valueUnless fun m _ => ih.node m _ _).bind fun value m' hm' hvalue => ?_
  exact h key value m' (Nat.le_trans hm hm') (Nat.lt_of_lt_of_le hkey hm') hvalue

theorem blockItems_succ (start : Mark) :
    KeepsNodes n (Build.blockItems (fuel + 1) start) AllBelow := by
  unfold Build.blockItems
  refine keepsNodes_peek.bind fun t m hm _ => ?_
  split
  · exact keepsNodes_skip.bind fun _ _ _ _ => ih.itemThen fun m => ih.blockItems m start
  · exact keepsNodes_skip.bind fun _ _ _ _ => .pure fun m _ => allBelow_nil m
  · exact keepsNodes_failCollection

theorem indentlessItems_succ : KeepsNodes n (Build.indentlessItems (fuel + 1)) AllBelow := by
  unfold Build.indentlessItems
  refine keepsNodes_peek.bind fun t m hm _ => ?_
  split
  · exact keepsNodes_skip.bind fun _ _ _ _ => ih.itemThen ih.indentlessItems
  · exact .pure fun m _ => allBelow_nil m

theorem blockEntries_succ (start : Mark) :
    KeepsNodes n (Build.blockEntries (fuel + 1) start) PairsBelow := by
  unfold Build.blockEntries
  refine keepsNodes_peek.bind fun t m hm _ => ?_
  split
  · exact keepsNodes_skip.bind fun _ _ _ _ => ih.entryThen fun key value m _ hkey hvalue =>
      keepsNodes_cons_pair hkey hvalue (ih.blockEntries m start)
  · exact keepsNodes_skip.bind fun _ _ _ _ => .pure fun m _ => pairsBelow_nil m
  · exact keepsNodes_failCollection

theorem flowItems_succ (start : Mark) (first : Bool) :
    KeepsNodes n (Build.flowItems (fuel + 1) start first) AllBelow := by
  unfold Build.flowItems
  refine (keepsNodes_nextIn _).bind fun ends m hm _ => ?_
  split
  · exact keepsNodes_skip.bind fun _ _ _ _ => .pure fun m _ => allBelow_nil m
  refine keepsNodes_afterComma fun m => keepsNodes_peek.bind fun t m' _ _ => ?_
  split
  · exact keepsNodes_skip.bind fun _ _ _ _ => .pure fun m _ => allBelow_nil m
  · exact (ih.flowPair m').bind fun item k _ hitem =>
      keepsNodes_cons hitem (ih.flowItems k start false)
  · exact (ih.node m' false false).bind fun item k _ hitem =>
      keepsNodes_cons hitem (ih.flowItems k start false)

theorem flowPair_succ : KeepsNodes n (Build.flowPair (fuel + 1)) LT.lt := by
  unfold Build.flowPair
  refine keepsNodes_peek.bind fun t m _ _ => ?_
  have hadd : KeepsNodes m (add none ⟨.mapping, t.start, .mapping []⟩) LT.lt :=
    keepsNodes_add (allBelow_nil m)
  refine hadd.bind fun id m₁ _ hid => keepsNodes_skip.bind fun _ m₂ hm₂ _ => ?_
  refine ih.entryThen fun key value m₃ hm₃ hkey hvalue => ?_
  refine keepsNodes_fill (Nat.lt_of_lt_of_le hid (Nat.le_trans hm₂ hm₃)) ?_
  exact allBelow_flatMap_iff.2 (.cons hkey hvalue (pairsBelow_nil _))

theorem flowEntries_succ (start : Mark) (first : Bool) :
    KeepsNodes n (Build.flowEntries (fuel + 1) start first) PairsBelow := by
  unfold Build.flowEntries
  refine (keepsNodes_nextIn _).bind fun ends m hm _ => ?_
  split
  · exact keepsNodes_skip.bind fun _ _ _ _ => .pure fun m _ => pairsBelow_nil m
  refine keepsNodes_afterComma fun m => keepsNodes_peek.bind fun t m' _ _ => ?_
  split
  · exact keepsNodes_skip.bind fun _ _ _ _ => .pure fun m _ => pairsBelow_nil m
  · exact keepsNodes_skip.bind fun _ _ _ _ => ih.entryThen fun key value m _ hkey hvalue =>
      keepsNodes_cons_pair hkey hvalue (ih.flowEntries m start false)
  -- a key that is followed by no value
  · refine (ih.node m' false false).bind fun key m₁ _ hkey => ?_
    refine keepsNodes_peek.bind fun t m₂ hm₂ _ => ?_
    refine (keepsNodes_addMissing t.start).bind fun value m₃ hm₃ hvalue => ?_
    exact keepsNodes_cons_pair (Nat.lt_of_lt_of_le hkey (Nat.le_trans hm₂ hm₃)) hvalue
      (ih.flowEntries m₃ start false)

end KeepAllNodes

theorem keepAllNodes (fuel : Nat) : KeepAllNodes fuel := by
  induction fuel with
  | zero => exact .zero
  | succ fuel ih =>
    exact {
      node := fun _ => ih.node_succ
      blockItems := fun _ => ih.blockItems_succ
      indentlessItems := fun _ => ih.indentlessItems_succ
      blockEntries := fun _ => ih.blockEntries_succ
      flowItems := fun _ => ih.flowItems_succ
      flowPair := fun _ => ih.flowPair_succ
      flowEntries := fun _ => ih.flowEntries_succ }

/-! ## Documents -/

theorem keepsNodes_directives (fuel : Nat) (version : Bool) :
    KeepsNodes n (directives fuel version) fun _ _ => True := by
  induction fuel generalizing n version with
  | zero => exact .pure fun _ _ => trivial
  | succ fuel ih =>
    unfold directives
    refine keepsNodes_peek.bind fun t m _ _ => ?_
    split
    · refine keepsNodes_skip.bind fun _ m _ _ => ?_
      dsimp only
      split
      · exact keepsNodes_failAt.bind fun _ _ _ h => False.elim h
      · split
        · exact keepsNodes_failAt.bind fun _ _ _ h => False.elim h
        · exact ih _
    · next handle start _ =>
      refine keepsNodes_skip.bind fun _ m _ _ => Keeps.get_bind fun b hb hm a b' heq => ?_
      dsimp only at heq
      split at heq
      · cases heq
      · exact ih version { b with handles := Keyed.set handle start b.handles }
          ⟨hb.nodes, hb.anchors⟩ hm a b' heq
    · exact keepsNodes_skip.bind fun _ _ _ _ => ih _
    · exact .pure fun _ _ => trivial

theorem keepsNodes_documentStart (fuel : Nat) :
    KeepsNodes n (documentStart fuel) fun _ _ => True := by
  unfold documentStart
  refine keepsNodes_peek.bind fun first m _ _ => ?_
  refine Keeps.bind (Keeps.modify fun b hb _ => ⟨⟨hb.nodes, hb.anchors⟩, Nat.le_refl _⟩)
    fun _ m _ _ => ?_
  refine (keepsNodes_directives fuel false).bind fun _ m _ _ => ?_
  refine Keeps.bind (Keeps.modify fun b hb _ => ⟨⟨hb.nodes, hb.anchors⟩, Nat.le_refl _⟩)
    fun _ m _ _ => ?_
  refine keepsNodes_peek.bind fun t m _ _ => ?_
  split
  · exact keepsNodes_skip.bind fun _ _ _ _ => .pure fun _ _ => trivial
  · exact keepsNodes_failAt

theorem keepsNodes_skipEnds (fuel : Nat) : KeepsNodes n (skipEnds fuel) fun _ _ => True := by
  induction fuel generalizing n with
  | zero => exact .pure fun _ _ => trivial
  | succ fuel ih =>
    refine (keepsNodes_nextIn _).bind fun found m _ _ => ?_
    split
    · exact keepsNodes_skip.bind fun _ _ _ _ => ih
    · exact .pure fun _ _ => trivial

/-- A root, if there is one, is among the nodes. -/
def RootBelow (root : Option NodeId) (m : Nat) : Prop := ∀ id ∈ root, id < m

theorem keepsNodes_some {step : Build NodeId} (h : KeepsNodes n step LT.lt) :
    KeepsNodes n (some <$> step) RootBelow := by
  refine .map (h.mono fun id m _ hid id' hid' => ?_)
  obtain rfl := Option.mem_some.1 hid'
  exact hid

theorem keepsNodes_root (fuel : Nat) : KeepsNodes n (root fuel) RootBelow := by
  refine keepsNodes_peek.bind fun t m _ _ => ?_
  have hdocument : ∀ m, KeepsNodes m (do
      let _ ← documentStart fuel
      let t ← peek
      if isBoundary t.kind then some <$> addMissing t.start else some <$> node fuel true false)
      RootBelow := by
    intro m
    refine (keepsNodes_documentStart fuel).bind fun _ m _ _ => keepsNodes_peek.bind fun t m _ _ => ?_
    split
    · exact keepsNodes_some (keepsNodes_addMissing t.start)
    · exact keepsNodes_some ((keepAllNodes fuel).node m true false)
  split
  · exact .pure fun _ _ id h => absurd h (Option.not_mem_none id)
  · exact hdocument m
  · exact hdocument m
  · exact keepsNodes_some ((keepAllNodes fuel).node m true false)

theorem keepsNodes_single (fuel : Nat) : KeepsNodes n (single fuel) RootBelow := by
  unfold single
  refine keepsNodes_skip.bind fun _ m _ _ => ?_
  refine (keepsNodes_root fuel).bind fun id m _ hid => ?_
  refine (keepsNodes_skipEnds fuel).bind fun _ m' hm' _ => ?_
  refine (keepsNodes_nextIn _).bind fun found k hk _ => ?_
  dsimp only
  split
  · exact .pure fun m hm id' hid' => Nat.lt_of_lt_of_le (hid id' hid') (by omega)
  · refine (keepsNodes_documentStart fuel).bind fun mark k _ _ => ?_
    exact Keeps.get.bind fun b _ _ _ => keepsNodes_failName

end Build

/-- The nodes of a document that was read consist of nodes of the document, and so does the
document. -/
theorem Document.closed_of_read {t : Text} {barrier : Option Barrier} {d : Document}
    (h : Document.read t barrier = .ok d) :
    NodesClosed d.nodes ∧ ∀ id ∈ d.root, id < d.nodes.size := by
  unfold Document.read at h
  dsimp only at h
  split at h
  · cases h
  · next root b hrun =>
    obtain rfl := Except.ok.inj h
    have hempty : Builder.Closed ⟨(tokens t barrier).1, (tokens t barrier).2, Build.defaultHandles,
        #[], []⟩ :=
      ⟨fun n hn => absurd hn (Array.not_mem_empty n), fun a ha => absurd ha List.not_mem_nil⟩
    obtain ⟨hb, -, hroot⟩ := Build.keepsNodes_single (n := 0) _ _ hempty (Nat.zero_le _) _ _ hrun
    exact ⟨hb.nodes, hroot⟩

end WorkflowLint.Yaml
