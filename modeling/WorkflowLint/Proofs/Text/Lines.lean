import Mathlib.Data.List.Basic
import Mathlib.Tactic.ByContra
import WorkflowLint.Diff.Lines

/-!
# Lines and rows

A text is its lines one after the other (`flatten_lines`).  A line has no line end but the one that
closes it (`isLine_of_mem_lines`), and only the last line can be open (`isClosed_of_mem_dropLast`).

The rows of a text are what stands between its line feeds.  Texts that end in line feeds can be read
row by row again (`rows_flatten`); a text without one runs into what follows it (`rows_append`).
-/

namespace WorkflowLint.Text

variable {l t : Text} {c : CodePoint}

/-! ## Lines -/

/-- What can close a line: nothing at all, a line end, or a carriage return and a line feed. -/
def IsClosing (t : Text) : Prop := t = [] ∨ t = "\r\n" ∨ ∃ c, isLineEnd c = true ∧ t = [c]

/-- A text that no line end cuts before the end. -/
def IsLine (l : Text) : Prop :=
  ∃ body closing, l = body ++ closing ∧ (∀ c ∈ body, isLineEnd c = false) ∧ IsClosing closing

/-- Whether a line is closed by a line end. -/
def isClosed (l : Text) : Bool := l.getLast?.any isLineEnd

theorem flatten_linesFrom (line t : Text) : (linesFrom line t).flatten = line.reverse ++ t := by
  fun_induction linesFrom line t with
  | case1 line h => simp [List.isEmpty_iff.1 h]
  | case2 line h => simp
  | case3 line c t h ih => simp [ih]
  | case4 line c t h ih => simp [ih]

/-- The lines of a text make up the text. -/
theorem flatten_lines (t : Text) : t.lines.flatten = t := flatten_linesFrom [] t

/-- The part of a line that was read, in reverse order, before the rest of a text: it has no line end
yet, or is about to be closed by a carriage return and a line feed. -/
def IsOpenBefore (line t : Text) : Prop :=
  (∀ c ∈ line, isLineEnd c = false) ∨
    ∃ body, line = .char '\r' :: body ∧ (∀ c ∈ body, isLineEnd c = false) ∧
      t.head? = some (.char '\n')

theorem isLine_of_mem_linesFrom {line : Text} (h : IsOpenBefore line t) :
    ∀ l ∈ linesFrom line t, IsLine l := by
  fun_induction linesFrom line t with
  | case1 => exact List.forall_mem_nil _
  | case2 line =>
    obtain hline | ⟨_, _, _, hhead⟩ := h
    · refine List.forall_mem_singleton.2 ⟨line.reverse, [], by simp, fun c hc => ?_, .inl rfl⟩
      exact hline c (List.mem_reverse.1 hc)
    · cases hhead
  | case3 line c t hc ih =>
    refine List.forall_mem_cons.2 ⟨?_, ih (.inl (List.forall_mem_nil _))⟩
    obtain hline | ⟨body, rfl, hbody, hhead⟩ := h
    · exact ⟨line.reverse, [c], by simp, fun d hd => hline d (List.mem_reverse.1 hd),
        .inr (.inr ⟨c, hc.1, rfl⟩)⟩
    · obtain rfl := Option.some.inj hhead
      exact ⟨body.reverse, "\r\n", by simp [ofString], fun d hd => hbody d (List.mem_reverse.1 hd),
        .inr (.inl rfl)⟩
  | case4 line c t hc ih =>
    refine ih ?_
    obtain hline | ⟨body, rfl, -, hhead⟩ := h
    · cases hend : isLineEnd c with
      | false => exact .inl (List.forall_mem_cons.2 ⟨hend, hline⟩)
      | true =>
        -- a line end that does not close the line is the first half of one
        obtain ⟨rfl, hfeed⟩ : c = .char '\r' ∧ t.head? = some (.char '\n') := by
          simpa [hend] using hc
        exact .inr ⟨line, rfl, hline, hfeed⟩
    · obtain rfl := Option.some.inj hhead
      -- the line feed that is left of it does close the line
      exact absurd ⟨by decide, by simp⟩ hc

theorem isLine_of_mem_lines (h : l ∈ t.lines) : IsLine l :=
  isLine_of_mem_linesFrom (.inl (List.forall_mem_nil _)) l h

theorem isClosed_of_mem_linesFrom (line t : Text) :
    ∀ l ∈ (linesFrom line t).dropLast, isClosed l = true := by
  fun_induction linesFrom line t with
  | case1 => exact List.forall_mem_nil _
  | case2 line => exact List.forall_mem_nil _
  | case3 line c t hc ih =>
    intro l hl
    rcases hrest : linesFrom [] t with _ | ⟨next, rest⟩
    · rw [hrest] at hl
      exact absurd hl List.not_mem_nil
    · rw [hrest, List.dropLast_cons_cons, ← hrest] at hl
      obtain rfl | hl := List.mem_cons.1 hl
      · simp [isClosed, hc.1]
      · exact ih l hl
  | case4 line c t hc ih => exact ih

/-- No line but the last one is open. -/
theorem isClosed_of_mem_dropLast (h : l ∈ t.lines.dropLast) : isClosed l = true :=
  isClosed_of_mem_linesFrom [] t l h

/-! ## Rows -/

/-- The line feed, which is the line end between rows. -/
def feed : CodePoint := .char '\n'

/-- The rows of a text between its line feeds; nothing need follow the last one. -/
def rows : Text → List Text
  | [] => []
  | c :: t =>
    if c = feed then [] :: rows t
    else
      match rows t with
      | [] => [[c]]
      | r :: rs => (c :: r) :: rs

/-- Whether a text ends in a line feed. -/
def endsRow (l : Text) : Bool := l.getLast? == some feed

/-- A line without the line feed that closes it. -/
def bare (l : Text) : Text := if endsRow l then l.dropLast else l

theorem endsRow_iff : endsRow l = true ↔ l.getLast? = some feed := beq_iff_eq

theorem dropLast_append_feed (h : endsRow l = true) : l.dropLast ++ [feed] = l :=
  List.dropLast_append_getLast? feed (endsRow_iff.1 h)

theorem isClosed_of_endsRow (h : endsRow l = true) : isClosed l = true := by
  rw [isClosed, endsRow_iff.1 h]
  rfl

/-- A line that ends in something else has no line feed. -/
theorem feed_not_mem (h : feed ∉ l.dropLast) (hl : endsRow l = false) : feed ∉ l := by
  intro hmem
  have hne : l ≠ [] := List.ne_nil_of_mem hmem
  rw [← List.dropLast_append_getLast hne, List.mem_append, List.mem_singleton] at hmem
  refine absurd (endsRow_iff.2 ?_) (Bool.eq_false_iff.1 hl)
  rw [List.getLast?_eq_some_getLast hne, hmem.resolve_left h]

theorem isClosed_cons (hc : isLineEnd c = false) (l : Text) : isClosed (c :: l) = isClosed l := by
  cases l <;> simp [isClosed, hc]

theorem endsRow_cons (hc : c ≠ feed) (l : Text) : endsRow (c :: l) = endsRow l := by
  cases l <;> simp [endsRow, hc]

theorem bare_cons (hc : c ≠ feed) (l : Text) : bare (c :: l) = c :: bare l := by
  cases l with
  | nil => simp [bare, endsRow, hc]
  | cons d l => simp [bare, endsRow, apply_ite (List.cons c)]

theorem bare_of_endsRow (h : endsRow l = true) : bare l = l.dropLast := if_pos h

theorem bare_of_not_endsRow (h : endsRow l = false) : bare l = l := if_neg (by simp [h])

theorem rows_ne_nil (h : t ≠ []) : rows t ≠ [] := by
  cases t with
  | nil => exact absurd rfl h
  | cons c t =>
    rw [rows]
    split
    · exact List.cons_ne_nil _ _
    · split <;> exact List.cons_ne_nil _ _

theorem rows_cons (hc : c ≠ feed) {r : Text} {rs : List Text} (h : rows t = r :: rs) :
    rows (c :: t) = (c :: r) :: rs := by
  rw [rows, if_neg hc, h]

/-- A text without a line feed runs into the first row of what follows it. -/
theorem rows_append (h : feed ∉ l) {r : Text} {rs : List Text} (ht : rows t = r :: rs) :
    rows (l ++ t) = (l ++ r) :: rs := by
  induction l with
  | nil => exact ht
  | cons c l ih =>
    rw [List.mem_cons, not_or] at h
    exact rows_cons (Ne.symm h.1) (ih h.2)

theorem rows_of_not_mem (h : feed ∉ l) (hne : l ≠ []) : rows l = [l] := by
  rw [← List.dropLast_append_getLast hne] at h ⊢
  rw [List.mem_append, List.mem_singleton, not_or] at h
  refine rows_append h.1 ?_
  rw [rows, if_neg (Ne.symm h.2)]
  rfl

/-- What stands before a line feed is a row of its own. -/
theorem rows_append_feed (h : feed ∉ l) (t : Text) : rows (l ++ feed :: t) = l :: rows t := by
  have hrest : rows (feed :: t) = [] :: rows t := if_pos rfl
  rw [rows_append h hrest, List.append_nil]

/-- A text that ends in a line feed is a row of its own. -/
theorem rows_append_of_endsRow (h : feed ∉ l.dropLast) (hl : endsRow l = true) (t : Text) :
    rows (l ++ t) = bare l :: rows t := by
  have happend := rows_append_feed h t
  rwa [← List.singleton_append, ← List.append_assoc, dropLast_append_feed hl,
    ← bare_of_endsRow hl] at happend

/-- A line has a line feed at its end only. -/
theorem IsLine.feed_not_mem (h : IsLine l) : feed ∉ l.dropLast := by
  obtain ⟨body, closing, rfl, hbody, hclosing⟩ := h
  have hfeed : feed ∉ body := fun hmem => absurd (hbody feed hmem) (by decide)
  obtain rfl | rfl | ⟨c, -, rfl⟩ := hclosing
  · rw [List.append_nil]
    exact fun hmem => hfeed (List.dropLast_subset body hmem)
  · have hdrop : (body ++ ("\r\n" : Text)).dropLast = body ++ [.char '\r'] := by
      rw [List.dropLast_append_of_ne_nil (by decide)]
      rfl
    rw [hdrop, List.mem_append, List.mem_singleton, not_or]
    exact ⟨hfeed, by decide⟩
  · rwa [List.dropLast_concat]

/-- Without its line feed, a line has a line end at its end only. -/
theorem IsLine.isLineEnd_bare (h : IsLine l) : ∀ c ∈ (bare l).dropLast, isLineEnd c = false := by
  obtain ⟨body, closing, rfl, hbody, hclosing⟩ := h
  have hdrop : ∀ c ∈ body.dropLast, isLineEnd c = false :=
    fun c hc => hbody c (List.dropLast_subset body hc)
  obtain rfl | rfl | ⟨c, -, rfl⟩ := hclosing
  · rw [List.append_nil, bare]
    split
    · exact fun c hc => hdrop c (List.dropLast_subset _ hc)
    · exact hdrop
  · have hbare : bare (body ++ ("\r\n" : Text)) = body ++ [.char '\r'] := by
      rw [bare, if_pos (endsRow_iff.2 (by simp [ofString, feed])),
        List.dropLast_append_of_ne_nil (by decide)]
      rfl
    rwa [hbare, List.dropLast_concat]
  · rw [bare, List.dropLast_concat]
    split
    · exact hdrop
    · rwa [List.dropLast_concat]

/-- Texts of which all but the last end in line feeds are the rows of what they make up. -/
theorem rows_flatten {ls : List Text} (hne : ∀ l ∈ ls, l ≠ []) (hinner : ∀ l ∈ ls, feed ∉ l.dropLast)
    (hends : ∀ l ∈ ls.dropLast, endsRow l = true) : rows ls.flatten = ls.map bare := by
  induction ls with
  | nil => rfl
  | cons l ls ih =>
    obtain ⟨hl, hne⟩ := List.forall_mem_cons.1 hne
    obtain ⟨hinnerl, hinner⟩ := List.forall_mem_cons.1 hinner
    cases hlast : endsRow l with
    | true =>
      rw [List.flatten_cons, rows_append_of_endsRow hinnerl hlast, List.map_cons,
        ih hne hinner fun l' hl' => hends l' ?_]
      cases ls with
      | nil => exact absurd hl' List.not_mem_nil
      | cons => exact List.mem_cons_of_mem _ hl'
    | false =>
      -- only the last one need not end in a line feed
      obtain rfl : ls = [] := by
        cases ls with
        | nil => rfl
        | cons => exact absurd (hends l List.mem_cons_self) (Bool.eq_false_iff.1 hlast)
      simp [rows_of_not_mem (feed_not_mem hinnerl hlast) hl, bare_of_not_endsRow hlast]

/-- Where no row has a line end before its end, a line end is a line feed, or stands before one or at
the end. -/
theorem eq_feed_of_isLineEnd {p q : Text} {d : CodePoint}
    (h : ∀ r ∈ rows t, ∀ c ∈ r.dropLast, isLineEnd c = false) (ht : t = p ++ c :: d :: q)
    (hc : isLineEnd c = true) : c = feed ∨ d = feed := by
  induction p generalizing t with
  | nil =>
    subst ht
    by_contra hno
    rw [not_or] at hno
    obtain ⟨r, rs, hrows⟩ := List.exists_cons_of_ne_nil (rows_ne_nil (List.cons_ne_nil d q))
    obtain ⟨r', rfl⟩ : ∃ r', r = d :: r' := by
      rw [rows, if_neg hno.2] at hrows
      split at hrows <;> exact ⟨_, (List.cons.inj hrows).1.symm⟩
    rw [List.nil_append, rows_cons hno.1 hrows] at h
    have hplain := h _ List.mem_cons_self c (by simp)
    rw [hc] at hplain
    cases hplain
  | cons e p ih =>
    subst ht
    refine ih (fun r hr => ?_) rfl
    rw [List.cons_append] at h
    by_cases he : e = feed
    · rw [rows, if_pos he] at h
      exact h r (List.mem_cons_of_mem _ hr)
    · obtain ⟨first, rs, hrows⟩ := List.exists_cons_of_ne_nil
        (rows_ne_nil (t := p ++ c :: d :: q) (by simp))
      rw [hrows] at hr
      rw [rows_cons he hrows] at h
      obtain rfl | hr := List.mem_cons.1 hr
      · intro c' hc'
        refine h _ List.mem_cons_self c' ?_
        rw [List.dropLast_cons_of_ne_nil (List.ne_nil_of_mem (List.dropLast_subset _ hc'))]
        exact List.mem_cons_of_mem _ hc'
      · exact h r (List.mem_cons_of_mem _ hr)

end WorkflowLint.Text
