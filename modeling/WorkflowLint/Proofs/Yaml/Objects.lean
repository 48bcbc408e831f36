import WorkflowLint.Proofs.Yaml.Nodes
import WorkflowLint.Yaml.Load

/-!
# Objects that refer to objects

The objects of a document that has been read consist of objects of the document (`closed_of_load`).
While they are made, nodes consist of nodes and objects of objects; a merge moves entries from one
node to another, but makes no new ones.
-/

namespace WorkflowLint.Yaml

/-- All objects that a graph or its objects consist of are objects of the graph. -/
structure Graph.Closed (g : Graph) : Prop where
  root : g.root < g.objects.size
  parts : ∀ id, AllBelow (g.objectAt id).parts g.objects.size

/-- Of a number of nodes, those that nodes consist of are among them, and all objects that objects
consist of among the objects, of which there is one for each node. -/
structure Making.Closed (count : Nat) (m : Making) : Prop where
  size : m.nodes.size = count
  nodes : NodesClosed m.nodes
  enough : count ≤ m.objects.size
  objects : ∀ o, some o ∈ m.objects → AllBelow o.parts m.objects.size

namespace Make

variable {α : Type} {count n : Nat}

/-- A step keeps the nodes and the objects closed. -/
abbrev KeepsObjects (count n : Nat) (step : Make α) (post : α → Nat → Prop) : Prop :=
  Keeps (Making.Closed count) (fun m => m.objects.size) n step post

theorem parts_getElem! {nodes : Array Node} (h : NodesClosed nodes) (id : NodeId) :
    AllBelow nodes[id]!.content.parts nodes.size := by
  by_cases hid : id < nodes.size
  · rw [getElem!_pos nodes id hid]
    exact h _ (Array.getElem_mem hid)
  · rw [getElem!_neg nodes id hid]
    exact allBelow_nil _

/-! ## Values of scalars -/

theorem keepsObjects_nodeOf (id : NodeId) :
    KeepsObjects count n (nodeOf id) fun node _ => AllBelow node.content.parts count := by
  refine Keeps.get.bind fun m k _ hm => .pure fun _ _ => ?_
  rw [← hm.1.size]
  exact parts_getElem! hm.1.nodes id

theorem keepsObjects_failAt {context : Option (Text × Mark)} {problem : Text} {mark : Mark}
    {post : α → Nat → Prop} : KeepsObjects count n (failAt context problem mark) post := .throw _

theorem keepsObjects_lift (x : Except LoadError α) :
    KeepsObjects count n (liftM x : Make α) fun _ _ => True := by
  intro m hm _ a m' heq
  cases x with
  | error e => cases heq
  | ok b =>
    obtain ⟨rfl, rfl⟩ := Prod.mk.inj (Except.ok.inj heq)
    exact ⟨hm, Nat.le_refl _, trivial⟩

theorem keepsObjects_textOf (fuel : Nat) (id : NodeId) :
    KeepsObjects count n (textOf fuel id) fun _ _ => True := by
  induction fuel generalizing n id with
  | zero => exact .throw _
  | succ fuel ih =>
    refine Keeps.get.bind fun m k _ _ => ?_
    dsimp only
    split
    · exact .pure fun _ _ => trivial
    · split
      · exact ih _
      · exact keepsObjects_failAt
    · exact keepsObjects_failAt

theorem keepsObjects_readBinary (mark : Mark) (t : Text) :
    KeepsObjects count n (readBinary mark t) fun _ _ => True := by
  unfold readBinary
  split
  · exact keepsObjects_failAt
  · split
    · exact .pure fun _ _ => trivial
    · exact keepsObjects_failAt

theorem keepsObjects_atomOf (id : NodeId) (node : Node) :
    KeepsObjects count n (atomOf id node) fun _ _ => True := by
  unfold atomOf
  extract_lets read
  have hread : ∀ t k, KeepsObjects count k (read t) fun _ _ => True := by
    intro t k
    dsimp only [read]
    split
    · exact keepsObjects_lift _
    · exact .map (keepsObjects_lift _)
    · exact .map (keepsObjects_lift _)
    · exact keepsObjects_readBinary _ _
    · exact keepsObjects_lift _
    · exact .pure fun _ _ => trivial
    · exact .pure fun _ _ => trivial
  have htext : ∀ k, KeepsObjects count k
      (do
        let t ← textOf ((← get).nodes.size + 1) id
        read t) fun _ _ => True :=
    fun k => Keeps.get.bind fun _ _ _ _ => (keepsObjects_textOf _ _).bind fun t k _ _ => hread t k
  split
  case h_8 => exact keepsObjects_failAt.bind fun t k _ (_ : True) => hread t k
  all_goals exact htext n

theorem keepsObjects_isNan (id : NodeId) (node : Node) :
    KeepsObjects count n (isNan id node) fun _ _ => True := by
  unfold isNan
  split
  · exact Keeps.get.bind fun _ _ _ _ =>
      (keepsObjects_textOf _ _).bind fun _ _ _ _ => .pure fun _ _ => trivial
  · exact .pure fun _ _ => trivial

/-! ## Merging -/

theorem pairsBelow_entriesOf {nodes : Array Node} (h : NodesClosed nodes) (id : NodeId) :
    PairsBelow (entriesOf nodes id) nodes.size := by
  have hparts := parts_getElem! h id
  unfold entriesOf
  split
  · next entries hcontent =>
    rw [hcontent] at hparts
    exact allBelow_flatMap_iff.1 hparts
  · exact pairsBelow_nil _

theorem keepsObjects_modifyNode {id : NodeId} {change : Node → Node}
    (h : ∀ node, AllBelow node.content.parts count → AllBelow (change node).content.parts count) :
    KeepsObjects count n (modify fun m => { m with nodes := m.nodes.modify id change } : Make Unit)
      fun _ _ => True := by
  refine Keeps.modify fun m hm _ => ⟨⟨?_, ?_, hm.enough, hm.objects⟩, Nat.le_refl _⟩
  · rw [← hm.size]
    exact Array.size_modify
  · exact hm.nodes.modify (by rw [hm.size]; exact h) id

theorem keepsObjects_setEntries {id : NodeId} {entries : List (NodeId × NodeId)}
    (h : PairsBelow entries count) :
    KeepsObjects count n (setEntries id entries) fun _ _ => True :=
  keepsObjects_modifyNode fun _ _ => allBelow_flatMap_iff.2 h

theorem keepsObjects_plainKeys (entries : List (NodeId × NodeId)) :
    KeepsObjects count n (plainKeys entries) fun _ _ => True := by
  refine .forM fun e _ m _ => (keepsObjects_nodeOf e.1).bind fun node k _ _ => ?_
  split
  · exact keepsObjects_modifyNode fun _ h => h
  · exact .pure fun _ _ => trivial

theorem keepsObjects_entriesOf (id : NodeId) :
    KeepsObjects count n (do return entriesOf (← get).nodes id) fun entries _ =>
      PairsBelow entries count :=
  Keeps.get.bind fun _ _ _ hm => .pure fun _ _ => hm.1.size ▸ pairsBelow_entriesOf hm.1.nodes id

theorem keepsObjects_takeMerge? (id : NodeId) :
    KeepsObjects count n (takeMerge? id) fun _ _ => True := by
  refine Keeps.get.bind fun m k _ hm => ?_
  dsimp only
  split
  · exact .pure fun _ _ => trivial
  · next i _ =>
    have hentries : PairsBelow ((entriesOf m.nodes id).eraseIdx i) count := fun e he =>
      hm.1.size ▸ pairsBelow_entriesOf hm.1.nodes id e ((List.eraseIdx_sublist _ i).subset he)
    exact (keepsObjects_setEntries hentries).bind fun _ _ _ _ => .pure fun _ _ => trivial

/-- What is said of the steps of a merge, which call one another. -/
structure KeepMerges (count fuel : Nat) : Prop where
  merge : ∀ n id, KeepsObjects count n (merge fuel id) fun _ _ => True
  mergeAll : ∀ n id, KeepsObjects count n (mergeAll fuel id) fun entries _ =>
    PairsBelow entries count
  mergeFrom : ∀ n id source expected, KeepsObjects count n (mergeFrom fuel id source expected)
    fun entries _ => PairsBelow entries count

namespace KeepMerges

variable {fuel : Nat}

/-- Without fuel there is nothing to merge. -/
theorem zero (count : Nat) : KeepMerges count 0 := by
  constructor
  · intro n id
    unfold Make.merge
    exact .pure fun _ _ => trivial
  · intro n id
    unfold Make.mergeAll
    exact .pure fun _ _ => pairsBelow_nil count
  · intro n id source expected
    unfold Make.mergeFrom
    exact .pure fun _ _ => pairsBelow_nil count

variable (ih : KeepMerges count fuel)
include ih

theorem merge_succ (id : NodeId) :
    KeepsObjects count n (Make.merge (fuel + 1) id) fun _ _ => True := by
  unfold Make.merge
  refine Keeps.get.bind fun m k _ _ => ?_
  refine (keepsObjects_plainKeys _).bind fun _ k _ _ => ?_
  refine (ih.mergeAll k id).bind fun taken k _ htaken => ?_
  split
  · refine Keeps.get.bind fun m k _ hm => keepsObjects_setEntries fun e he => ?_
    rcases List.mem_append.1 he with he | he
    · exact htaken e he
    · exact hm.1.size ▸ pairsBelow_entriesOf hm.1.nodes id e he
  · exact .pure fun _ _ => trivial

theorem mergeAll_succ (id : NodeId) :
    KeepsObjects count n (Make.mergeAll (fuel + 1) id) fun entries _ => PairsBelow entries count := by
  unfold Make.mergeAll
  refine (keepsObjects_takeMerge? id).bind fun source k _ _ => ?_
  split
  · exact .pure fun _ _ => pairsBelow_nil count
  · next source =>
    extract_lets rest
    have hrest : ∀ taken k, PairsBelow taken count →
        KeepsObjects count k (rest taken) fun entries _ => PairsBelow entries count := by
      intro taken k htaken
      refine (ih.mergeAll k id).bind fun others _ _ hothers => .pure fun _ _ => ?_
      exact List.forall_mem_append.2 ⟨htaken, hothers⟩
    refine (keepsObjects_nodeOf source).bind fun node k _ _ => ?_
    split
    · next sources _ =>
      have hparts : KeepsObjects count k (sources.mapM fun s => Make.mergeFrom fuel id s
          "expected a mapping") fun parts _ => ∀ part ∈ parts, PairsBelow part count :=
        .mapM (fun _ _ _ _ h => h) fun s _ m _ => ih.mergeFrom m id s _
      refine hparts.bind fun parts k _ hparts => ?_
      rw [pure_bind]
      refine hrest _ k fun e he => ?_
      obtain ⟨part, hpart, he⟩ := List.mem_flatten.1 he
      exact hparts part (List.mem_reverse.1 hpart) e he
    · exact (ih.mergeFrom k id source _).bind fun taken k _ htaken => hrest taken k htaken

theorem mergeFrom_succ (id source : NodeId) (expected : Text) :
    KeepsObjects count n (Make.mergeFrom (fuel + 1) id source expected) fun entries _ =>
      PairsBelow entries count := by
  unfold Make.mergeFrom
  refine (keepsObjects_nodeOf source).bind fun node k _ _ => ?_
  split
  · exact (ih.merge k source).bind fun _ k _ _ => keepsObjects_entriesOf source
  · exact (keepsObjects_nodeOf id).bind fun _ _ _ _ => keepsObjects_failAt

end KeepMerges

theorem keepMerges (count fuel : Nat) : KeepMerges count fuel := by
  induction fuel with
  | zero => exact .zero count
  | succ fuel ih =>
    exact {
      merge := fun _ => ih.merge_succ
      mergeAll := fun _ => ih.mergeAll_succ
      mergeFrom := fun _ => ih.mergeFrom_succ }

/-! ## Collections -/

theorem parts_emptyOf? {tag : Tag} {o : Object} (h : emptyOf? tag = some o) : o.parts = [] := by
  unfold emptyOf? at h
  split at h
  case h_6 => cases h
  all_goals
    obtain rfl := Option.some.inj h
    rfl

theorem closed_setObject {m : Making} (hm : m.Closed count) {o : Object}
    (ho : AllBelow o.parts m.objects.size) (id : NodeId) (pending nans : List NodeId) :
    (⟨m.nodes, m.objects.set! id (some o), pending, nans⟩ : Making).Closed count := by
  have hsize : (m.objects.set! id (some o)).size = m.objects.size := by simp
  refine ⟨hm.size, hm.nodes, hsize.symm ▸ hm.enough, fun o' ho' => ?_⟩
  simp only [hsize]
  rcases Array.mem_or_eq_of_mem_setIfInBounds ho' with ho' | heq
  · exact hm.objects o' ho'
  · obtain rfl := Option.some.inj heq
    exact ho

theorem keepsObjects_make (id : NodeId) : KeepsObjects count n (make id) fun _ _ => True := by
  refine Keeps.get_bind fun m hm hn a m' heq => ?_
  dsimp only at heq
  split at heq
  · obtain ⟨-, rfl⟩ := Prod.mk.inj (Except.ok.inj heq)
    exact ⟨hm, Nat.le_refl _, trivial⟩
  cases hempty : emptyOf? m.nodes[id]!.tag with
  | some o =>
    simp only [hempty] at heq
    obtain ⟨-, rfl⟩ := Prod.mk.inj (Except.ok.inj heq)
    refine ⟨closed_setObject hm ?_ id _ _, by simp, trivial⟩
    rw [parts_emptyOf? hempty]
    exact allBelow_nil _
  | none =>
    simp only [hempty] at heq
    have hatom : KeepsObjects count n (do
        let a ← atomOf id m.nodes[id]!
        let isNan ← isNan id m.nodes[id]!
        modify fun m => { m with
          objects := m.objects.set! id (some (.atom a))
          nans := if isNan then id :: m.nans else m.nans }) fun _ _ => True := by
      refine (keepsObjects_atomOf id _).bind fun a k _ _ => ?_
      refine (keepsObjects_isNan id _).bind fun isNan k _ _ => ?_
      exact Keeps.modify fun m hm _ =>
        ⟨closed_setObject (o := .atom a) hm (allBelow_nil _) id _ _, by simp⟩
    exact hatom m hm hn a m' heq

theorem pairsBelow_setEntry {m : Making} {key value : NodeId} {entries : List (NodeId × NodeId)}
    {k : Nat} (hkey : key < k) (hvalue : value < k) (h : PairsBelow entries k) :
    PairsBelow (setEntry m key value entries) k := by
  induction entries with
  | nil => exact .cons hkey hvalue (pairsBelow_nil k)
  | cons e entries ih =>
    obtain ⟨he, hentries⟩ := List.forall_mem_cons.1 h
    unfold setEntry
    split
    · exact .cons he.1 hvalue hentries
    · exact .cons he.1 he.2 (ih hentries)

theorem keepsObjects_mergeEntries (id : NodeId) :
    KeepsObjects count n (mergeEntries id) fun _ _ => True := by
  refine Keeps.get.bind fun m k _ _ => ?_
  dsimp only
  split
  · exact (keepMerges count _).merge k id
  · exact keepsObjects_plainKeys _

theorem keepsObjects_makeEntries (hn : count ≤ n) (id : NodeId) :
    KeepsObjects count n (makeEntries id) PairsBelow := by
  refine (keepsObjects_mergeEntries id).bind fun _ k hk _ => ?_
  refine (keepsObjects_nodeOf id).bind fun node k' hk' hnode => ?_
  split
  · next entries hcontent =>
    rw [hcontent] at hnode
    refine .foldlM (fun _ _ _ hle h => h.mono hle) (pairsBelow_nil _) fun e he made k _ hmade => ?_
    obtain ⟨hkey, hvalue⟩ := allBelow_flatMap_iff.1 hnode e he
    refine (keepsObjects_make e.1).bind fun _ k₁ hk₁ _ => Keeps.get.bind fun m k₂ hk₂ _ => ?_
    extract_lets rest
    have hrest : ∀ k, k₂ ≤ k → KeepsObjects count k (rest ()) PairsBelow := by
      intro k₃ hk₃
      refine (keepsObjects_make e.2).bind fun _ k₄ hk₄ _ => Keeps.get.bind fun m k₅ hk₅ _ => ?_
      refine .pure fun k₆ hk₆ => pairsBelow_setEntry ?_ ?_ (hmade.mono (by omega))
      · exact Nat.lt_of_lt_of_le hkey (by omega)
      · exact Nat.lt_of_lt_of_le hvalue (by omega)
    split
    · refine (keepsObjects_nodeOf e.1).bind fun _ k₃ hk₃ _ => ?_
      exact keepsObjects_failAt.bind fun _ k₄ hk₄ (_ : True) => hrest k₄ (by omega)
    · exact hrest k₂ (Nat.le_refl _)
  · exact keepsObjects_failAt

theorem keepsObjects_makeItems (hn : count ≤ n) (id : NodeId) :
    KeepsObjects count n (makeItems id) AllBelow := by
  refine (keepsObjects_nodeOf id).bind fun node k hk hnode => ?_
  split
  · next items hcontent =>
    rw [hcontent] at hnode
    refine (Keeps.forM fun item _ m _ => keepsObjects_make item).bind fun _ k' hk' _ => ?_
    exact .pure fun m hm => AllBelow.mono hnode (by omega)
  · exact keepsObjects_failAt

theorem keepsObjects_addPair {first second : NodeId} (hfirst : first < n) (hsecond : second < n) :
    KeepsObjects count n (addPair first second) LT.lt := by
  refine Keeps.get_bind fun m hm hn id m' heq => ?_
  obtain ⟨rfl, rfl⟩ := Prod.mk.inj (Except.ok.inj heq)
  have hlt : m.objects.size < (m.objects.push (some (.pair first second))).size := by simp
  refine ⟨⟨hm.size, hm.nodes, Nat.le_trans hm.enough (Nat.le_of_lt hlt), fun o ho => ?_⟩,
    Nat.le_of_lt hlt, hlt⟩
  rcases Array.mem_push.1 ho with ho | heq
  · exact (hm.objects o ho).mono (Nat.le_of_lt hlt)
  · obtain rfl := Option.some.inj heq
    have hle : n ≤ (m.objects.push (some (.pair first second))).size :=
      Nat.le_trans hn (Nat.le_of_lt hlt)
    simp only [AllBelow, Object.parts, List.forall_mem_cons]
    exact ⟨Nat.lt_of_lt_of_le hfirst hle, Nat.lt_of_lt_of_le hsecond hle, allBelow_nil _⟩

theorem keepsObjects_makePairs (hn : count ≤ n) (what : Text) (id : NodeId) :
    KeepsObjects count n (makePairs what id) AllBelow := by
  refine (keepsObjects_nodeOf id).bind fun node k hk hnode => ?_
  extract_lets context
  split
  · next items hcontent =>
    refine .mapM (fun _ _ _ hle h => Nat.lt_of_lt_of_le h hle) fun item _ m hm => ?_
    refine (keepsObjects_nodeOf item).bind fun sub k' hk' hsub => ?_
    split
    · next key value hsingle =>
      rw [hsingle] at hsub
      obtain ⟨hkey, hvalue⟩ := allBelow_flatMap_iff.1 hsub _ List.mem_cons_self
      refine (keepsObjects_make key).bind fun _ k₁ hk₁ _ => ?_
      refine (keepsObjects_make value).bind fun _ k₂ hk₂ _ => ?_
      exact keepsObjects_addPair (Nat.lt_of_lt_of_le hkey (by omega))
        (Nat.lt_of_lt_of_le hvalue (by omega))
    · exact keepsObjects_failAt
    · exact keepsObjects_failAt
  · exact keepsObjects_failAt

theorem keepsObjects_filled (hn : count ≤ n) (id : NodeId) :
    KeepsObjects count n (filled id) fun o m => AllBelow o.parts m := by
  refine (keepsObjects_nodeOf id).bind fun node k hk _ => ?_
  have hk : count ≤ k := Nat.le_trans hn hk
  split
  · exact .map (keepsObjects_makeItems hk id)
  · exact .map (keepsObjects_makePairs hk _ id)
  · exact .map (keepsObjects_makePairs hk _ id)
  · refine (keepsObjects_makeEntries hk id).bind fun entries m _ hentries => ?_
    refine .pure fun m' hm' member hmember => ?_
    obtain ⟨e, he, rfl⟩ := List.mem_map.1 hmember
    exact Nat.lt_of_lt_of_le (hentries e he).1 hm'
  · exact .map ((keepsObjects_makeEntries hk id).mono fun _ _ _ h => allBelow_flatMap_iff.2 h)

theorem keepsObjects_fillAll (hn : count ≤ n) (fuel : Nat) :
    KeepsObjects count n (fillAll fuel) fun _ _ => True := by
  induction fuel generalizing n with
  | zero => exact .pure fun _ _ => trivial
  | succ fuel ih =>
    refine Keeps.get_bind fun m hm hnm a m' heq => ?_
    split at heq
    · obtain ⟨-, rfl⟩ := Prod.mk.inj (Except.ok.inj heq)
      exact ⟨hm, Nat.le_refl _, trivial⟩
    · have hfill : KeepsObjects count n (do
          m.pending.reverse.forM fun id => do
            let o ← filled id
            modify fun m => { m with objects := m.objects.set! id (some o) }
          fillAll fuel) fun _ _ => True := by
        refine (Keeps.forM fun id _ k hk => ?_).bind fun _ k hk _ => ih (Nat.le_trans hn hk)
        refine (keepsObjects_filled (Nat.le_trans hn hk) id).bind fun o k' _ ho => ?_
        exact Keeps.modify fun m hm hle => ⟨closed_setObject hm (AllBelow.mono ho hle) id _ _, by simp⟩
      exact hfill { m with pending := [] } ⟨hm.size, hm.nodes, hm.enough, hm.objects⟩ hnm a m' heq

theorem keepsObjects_makeAll (hn : count ≤ n) (root : NodeId) :
    KeepsObjects count n (makeAll root) fun _ _ => True :=
  (keepsObjects_make root).bind fun _ _ hk _ => Keeps.get.bind fun _ _ hk' _ =>
    keepsObjects_fillAll (Nat.le_trans hn (Nat.le_trans hk hk')) _

end Make

/-- A graph is closed if its root is one of its objects and these consist of such objects. -/
theorem Graph.closed_of_mem {g : Graph} (hroot : g.root < g.objects.size)
    (h : ∀ o ∈ g.objects, AllBelow o.parts g.objects.size) : g.Closed := by
  refine ⟨hroot, fun id => ?_⟩
  unfold Graph.objectAt
  rw [Array.getD_eq_getD_getElem?]
  cases hget : g.objects[id]? with
  | none => exact allBelow_nil _
  | some o => exact h o (Array.mem_of_getElem? hget)

theorem closed_null : Graph.null.Closed :=
  Graph.closed_of_mem (by decide) fun o ho => by
    obtain rfl : o = .atom .null := by simpa [Graph.null] using ho
    exact allBelow_nil _

theorem Document.closed_of_graph {d : Document} {g : Graph} (hd : NodesClosed d.nodes)
    (hroot : ∀ id ∈ d.root, id < d.nodes.size) (h : d.graph = .ok g) : g.Closed := by
  unfold Document.graph at h
  split at h
  · obtain rfl := Except.ok.inj h
    exact closed_null
  · next root hsome =>
    dsimp only at h
    split at h
    · cases h
    · next m hrun =>
      obtain rfl := Except.ok.inj h
      have hstart : Making.Closed d.nodes.size
          ⟨d.nodes, Array.replicate d.nodes.size none, [], []⟩ :=
        ⟨rfl, hd, by simp, fun o ho => by simp at ho⟩
      obtain ⟨hm, hsize, -⟩ := Make.keepsObjects_makeAll (Nat.le_refl _) root _ hstart (by simp) _ _ hrun
      have hroot := hroot root hsome
      refine Graph.closed_of_mem ?_ fun o ho => ?_
      · simpa using Nat.lt_of_lt_of_le hroot hm.enough
      · obtain ⟨o', ho', rfl⟩ := Array.mem_map.1 ho
        rw [Array.size_map]
        cases o' with
        | none => exact allBelow_nil _
        | some o => exact hm.objects o ho'

/-- A document that is read from a text is closed. -/
theorem closed_of_load {source : Source} {t : Text} {g : Graph} (h : load source t = .ok g) :
    g.Closed := by
  unfold load at h
  split at h
  · cases h
  · next d hread =>
    obtain ⟨hnodes, hroot⟩ := Document.closed_of_read hread
    exact Document.closed_of_graph hnodes hroot h

end WorkflowLint.Yaml
