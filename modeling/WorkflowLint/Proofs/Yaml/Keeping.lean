import WorkflowLint.Yaml.Making

/-!
# Steps that keep an invariant

The nodes and the objects of a document are made by steps that can stop.  A step *keeps* an
invariant if it holds after the step whenever it held before.  What is counted in a state must not
become less, and what the step gives is described in terms of how much is counted then.

The lemmas of this module are about the ways in which steps are put together.
-/

namespace WorkflowLint.Yaml

variable {σ ε α β : Type}

/-- A step that starts when at least `n` things are counted keeps an invariant, and gives something
of which `post` holds with the number of those that are counted then. -/
def Keeps (inv : σ → Prop) (count : σ → Nat) (n : Nat) (step : StateT σ (Except ε) α)
    (post : α → Nat → Prop) : Prop :=
  ∀ s, inv s → n ≤ count s → ∀ a s', step s = .ok (a, s') →
    inv s' ∧ count s ≤ count s' ∧ post a (count s')

/-- What is said of something and a number holds of all greater numbers as well. -/
def Lasting (post : α → Nat → Prop) : Prop := ∀ a m m', m ≤ m' → post a m → post a m'

namespace Keeps

variable {inv : σ → Prop} {count : σ → Nat} {n : Nat} {post : α → Nat → Prop}
  {post' : β → Nat → Prop} {step : StateT σ (Except ε) α}

/-! ## Single steps -/

theorem pure {a : α} (h : ∀ m, n ≤ m → post a m) :
    Keeps inv count n (pure a : StateT σ (Except ε) α) post := by
  intro s hs hn b s' heq
  obtain ⟨rfl, rfl⟩ := Prod.mk.inj (Except.ok.inj heq)
  exact ⟨hs, Nat.le_refl _, h _ hn⟩

theorem throw (e : ε) : Keeps inv count n (throw e : StateT σ (Except ε) α) post := by
  intro s _ _ a s' heq
  exact absurd heq (by simp [MonadExcept.throw, throwThe, MonadExceptOf.throw, StateT.lift, Bind.bind,
    Except.bind])

theorem modify {f : σ → σ} (h : ∀ s, inv s → n ≤ count s → inv (f s) ∧ count s ≤ count (f s)) :
    Keeps inv count n (modify f : StateT σ (Except ε) Unit) fun _ _ => True := by
  intro s hs hn a s' heq
  obtain ⟨-, rfl⟩ := Prod.mk.inj (Except.ok.inj heq)
  exact ⟨(h s hs hn).1, (h s hs hn).2, trivial⟩

theorem get : Keeps inv count n (get : StateT σ (Except ε) σ) fun s m => inv s ∧ count s = m := by
  intro s hs _ a s' heq
  obtain ⟨rfl, rfl⟩ := Prod.mk.inj (Except.ok.inj heq)
  exact ⟨hs, Nat.le_refl _, hs, rfl⟩

/-! ## Putting steps together -/

theorem bind {next : α → StateT σ (Except ε) β} (hstep : Keeps inv count n step post)
    (hnext : ∀ a m, n ≤ m → post a m → Keeps inv count m (next a) post') :
    Keeps inv count n (step >>= next) post' := by
  intro s hs hn b s' heq
  cases hrun : step s with
  | error e => simp [Bind.bind, StateT.bind, Except.bind, hrun] at heq
  | ok r =>
    obtain ⟨a, u⟩ := r
    obtain ⟨hu, hle, ha⟩ := hstep s hs hn a u hrun
    have hrest : next a u = .ok (b, s') := by
      simpa [Bind.bind, StateT.bind, Except.bind, hrun] using heq
    obtain ⟨hs', hle', hb⟩ := hnext a _ (Nat.le_trans hn hle) ha u hu (Nat.le_refl _) b s' hrest
    exact ⟨hs', Nat.le_trans hle hle', hb⟩

/-- A step that looks at the whole state can do with it what it likes. -/
theorem get_bind {next : σ → StateT σ (Except ε) β}
    (h : ∀ s, inv s → n ≤ count s → ∀ b s', next s s = .ok (b, s') →
      inv s' ∧ count s ≤ count s' ∧ post' b (count s')) :
    Keeps inv count n (MonadState.get >>= next) post' :=
  fun s hs hn b s' heq => h s hs hn b s' heq

theorem mono {stronger : α → Nat → Prop} (h : Keeps inv count n step stronger)
    (hpost : ∀ a m, n ≤ m → stronger a m → post a m) : Keeps inv count n step post := by
  intro s hs hn a s' heq
  obtain ⟨hs', hle, ha⟩ := h s hs hn a s' heq
  exact ⟨hs', hle, hpost a _ (Nat.le_trans hn hle) ha⟩

theorem map {f : α → β} (h : Keeps inv count n step fun a m => post' (f a) m) :
    Keeps inv count n (f <$> step) post' := by
  intro s hs hn b s' heq
  cases hrun : step s with
  | error e => simp [Functor.map, StateT.map, Bind.bind, Except.bind, hrun] at heq
  | ok r =>
    obtain ⟨a, u⟩ := r
    obtain ⟨rfl, rfl⟩ : f a = b ∧ u = s' := by
      simpa [Functor.map, StateT.map, Bind.bind, Except.bind, Pure.pure, Except.pure, hrun] using heq
    exact h s hs hn a u hrun

theorem mapM {f : α → StateT σ (Except ε) β} {as : List α} (hlasting : Lasting post')
    (h : ∀ a ∈ as, ∀ m, n ≤ m → Keeps inv count m (f a) post') :
    Keeps inv count n (as.mapM f) fun bs m => ∀ b ∈ bs, post' b m := by
  induction as generalizing n with
  | nil => exact pure fun m _ b hb => absurd hb List.not_mem_nil
  | cons a as ih =>
    rw [List.mapM_cons]
    obtain ⟨ha, has⟩ := List.forall_mem_cons.1 h
    refine bind (ha n (Nat.le_refl n)) fun b m hm hb => ?_
    refine bind (ih fun a ha m' hm' => has a ha m' (Nat.le_trans hm hm')) fun bs m' hm' hbs => ?_
    refine pure fun m'' hm'' => List.forall_mem_cons.2 ⟨?_, fun b hb => ?_⟩
    · exact hlasting b m m'' (Nat.le_trans hm' hm'') hb
    · exact hlasting b m' m'' hm'' (hbs b hb)

theorem forM {f : α → StateT σ (Except ε) PUnit} {as : List α}
    (h : ∀ a ∈ as, ∀ m, n ≤ m → Keeps inv count m (f a) fun _ _ => True) :
    Keeps inv count n (as.forM f) fun _ _ => True := by
  induction as generalizing n with
  | nil => exact pure fun _ _ => trivial
  | cons a as ih =>
    obtain ⟨ha, has⟩ := List.forall_mem_cons.1 h
    exact bind (ha n (Nat.le_refl n)) fun _ m hm _ =>
      ih fun a ha m' hm' => has a ha m' (Nat.le_trans hm hm')

theorem foldlM {f : β → α → StateT σ (Except ε) β} {as : List α} {b : β} (hlasting : Lasting post')
    (hb : post' b n)
    (h : ∀ a ∈ as, ∀ b m, n ≤ m → post' b m → Keeps inv count m (f b a) post') :
    Keeps inv count n (as.foldlM f b) post' := by
  induction as generalizing n b with
  | nil => exact pure fun m hm => hlasting b n m hm hb
  | cons a as ih =>
    rw [List.foldlM_cons]
    obtain ⟨ha, has⟩ := List.forall_mem_cons.1 h
    exact bind (ha b n (Nat.le_refl n) hb) fun b m hm hb =>
      ih hb fun a ha b m' hm' => has a ha b m' (Nat.le_trans hm hm')

end Keeps

end WorkflowLint.Yaml
