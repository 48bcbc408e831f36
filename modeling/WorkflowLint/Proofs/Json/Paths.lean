import WorkflowLint.Proofs.Json.Printed
import WorkflowLint.Text.Blank

/-!
# Where values and names are printed

A path leads from a value to one inside it, by the positions of items and the names of members (`at?`).
What is written before the value to which a path leads is `textBefore`, and that value is written next
(`exists_write_eq`).

A name between its quotes, with a colon behind it, is found in a printed document only where it is the
name of a member (`exists_member_of_print`).  In a string a quote is written behind a backslash, so that
what starts with a quote there ends at the end of the string, and no colon follows a string that is a
value.  A colon follows the name of a member; such a name must not have a quote itself.
-/

namespace WorkflowLint.Json

open Text

/-! ## Paths -/

/-- A step from a value to one that it holds. -/
inductive PathStep where
  | item (position : Nat)
  | member (name : Text)
deriving DecidableEq

/-- The value to which a step leads. -/
def PathStep.into? : PathStep → Json → Option Json
  | .item position, .array items => items[position]?
  | .member name, .object members => Members.get? members name
  | _, _ => none

/-- The value to which a path leads. -/
def at? : List PathStep → Json → Option Json
  | [], v => some v
  | step :: path, v => (step.into? v).bind (at? path)

mutual

/-- The objects inside a value, with the paths that lead to them. -/
def objects : Json → List (List PathStep × Members)
  | .array items => objectsOfItems 0 items
  | .object members => ([], members) :: objectsOfMembers members
  | _ => []

/-- The objects inside the items of an array from some position on. -/
def objectsOfItems (position : Nat) : List Json → List (List PathStep × Members)
  | [] => []
  | v :: items =>
    (objects v).map (fun found => (.item position :: found.1, found.2)) ++
      objectsOfItems (position + 1) items

/-- The objects inside the members of an object. -/
def objectsOfMembers : List (Text × Json) → List (List PathStep × Members)
  | [] => []
  | (name, v) :: members =>
    (objects v).map (fun found => (.member name :: found.1, found.2)) ++ objectsOfMembers members

end

/-- No member of an object inside a value has a name with a quote. -/
def HasPlainNames (v : Json) : Prop :=
  ∀ path members, at? path v = some (.object members) → ∀ m ∈ members, .char '"' ∉ m.1

/-- A written member. -/
def writeMember (level : Nat) (m : Text × Json) : Text := writeString m.1 ++ (": " ++ write level m.2)

/-- What stands between items and between members. -/
def separator (level : Nat) : Text := .char ',' :: newLine level

/-- What is written of a value before the one to which a step leads. -/
def PathStep.textBefore (level : Nat) : PathStep → Json → Text
  | .item position, .array items =>
    .char '[' :: newLine (level + 1) ++
      (items.take position).flatMap fun v => write (level + 1) v ++ separator (level + 1)
  | .member name, .object members =>
    .char '\x7b' :: newLine (level + 1) ++
      ((members.takeWhile fun m => m.1 != name).flatMap fun m =>
        writeMember (level + 1) m ++ separator (level + 1)) ++ (writeString name ++ ": ")
  | _, _ => []

/-- What is written of a value before the one to which a path leads. -/
def textBefore (level : Nat) : List PathStep → Json → Text
  | [], _ => []
  | step :: path, v =>
    step.textBefore level v ++ ((step.into? v).map (textBefore (level + 1) path)).getD []

variable {depth level : Nat} {v w : Json} {path : List PathStep} {step : PathStep}
  {items : List Json} {members : Members} {name s t rest pre : Text} {c : CodePoint}

theorem at?_cons (hinto : step.into? v = some w) (path : List PathStep) :
    at? (step :: path) v = at? path w := by rw [at?, hinto, Option.bind_some]

theorem textBefore_cons (hinto : step.into? v = some w) (level : Nat) (path : List PathStep) :
    textBefore level (step :: path) v = step.textBefore level v ++ textBefore (level + 1) path w := by
  rw [textBefore, hinto, Option.map_some, Option.getD_some]

theorem HasPlainNames.into (h : HasPlainNames v) (hinto : step.into? v = some w) : HasPlainNames w :=
  fun path members hat => h (step :: path) members (by rwa [at?_cons hinto])

theorem into?_item {before after : List Json} (h : items = before ++ w :: after) :
    (PathStep.item before.length).into? (.array items) = some w := by
  subst h
  simp [PathStep.into?]

theorem into?_member {before after : Members} (h : members = before ++ (name, w) :: after)
    (hbefore : name ∉ before.map (·.1)) : (PathStep.member name).into? (.object members) = some w :=
  Keyed.get?_eq_some_iff_append.2 ⟨before, after, h, hbefore⟩

theorem not_mem_of_nodup {before after : Members} {m : Text × Json}
    (hnodup : (members.map (·.1)).Nodup) (h : members = before ++ m :: after) :
    m.1 ∉ before.map (·.1) := by
  intro hmem
  rw [h, List.map_append, List.map_cons, List.nodup_middle, List.nodup_cons] at hnodup
  exact hnodup.1 (List.mem_append_left _ hmem)

theorem PathStep.textBefore_item {before after : List Json} (h : items = before ++ w :: after)
    (level : Nat) : (PathStep.item before.length).textBefore level (.array items) =
      .char '[' :: newLine (level + 1) ++
        before.flatMap fun v => write (level + 1) v ++ separator (level + 1) := by
  rw [textBefore, h, List.take_left]

theorem PathStep.textBefore_member {before after : Members} (h : members = before ++ (name, w) :: after)
    (hbefore : name ∉ before.map (·.1)) (level : Nat) :
    (PathStep.member name).textBefore level (.object members) =
      .char '\x7b' :: newLine (level + 1) ++
        (before.flatMap fun m => writeMember (level + 1) m ++ separator (level + 1)) ++
        (writeString name ++ ": ") := by
  have hothers : ∀ m ∈ before, (m.1 != name) = true := fun m hm =>
    bne_iff_ne.2 fun heq => hbefore (heq ▸ List.mem_map_of_mem hm)
  rw [textBefore, h, List.takeWhile_append_of_pos hothers, List.takeWhile_cons_of_neg (by simp),
    List.append_nil]

/-! ## Objects -/

theorem mem_objectsOfItems {position i : Nat} {found : List PathStep × Members}
    (hitem : items[i]? = some v) (h : found ∈ objects v) :
    (.item (position + i) :: found.1, found.2) ∈ objectsOfItems position items := by
  induction items generalizing position i with
  | nil => cases hitem
  | cons w items ih =>
    rw [objectsOfItems, List.mem_append]
    cases i with
    | zero =>
      obtain rfl := Option.some.inj hitem
      exact .inl (List.mem_map_of_mem h)
    | succ i =>
      have hrest : (.item (position + 1 + i) :: found.1, found.2) ∈
          objectsOfItems (position + 1) items := ih hitem
      rw [Nat.add_right_comm, Nat.add_assoc] at hrest
      exact .inr hrest

theorem mem_objectsOfMembers {found : List PathStep × Members} (hmember : (name, v) ∈ members)
    (h : found ∈ objects v) : (.member name :: found.1, found.2) ∈ objectsOfMembers members := by
  induction members with
  | nil => exact absurd hmember List.not_mem_nil
  | cons m members ih =>
    rw [objectsOfMembers, List.mem_append]
    obtain rfl | hmember := List.mem_cons.1 hmember
    · exact .inl (List.mem_map_of_mem h)
    · exact .inr (ih hmember)

/-- The objects to which paths lead are among those that are listed. -/
theorem mem_objects (h : at? path v = some (.object members)) : (path, members) ∈ objects v := by
  induction path generalizing v with
  | nil =>
    obtain rfl := Option.some.inj h
    rw [objects]
    exact List.mem_cons_self
  | cons step path ih =>
    obtain ⟨w, hinto, hat⟩ := Option.bind_eq_some_iff.1 h
    cases step with
    | item position =>
      cases v with
      | array items =>
        have hmem : (.item (0 + position) :: path, members) ∈ objectsOfItems 0 items :=
          mem_objectsOfItems hinto (ih hat)
        rwa [Nat.zero_add] at hmem
      | _ => cases hinto
    | member name =>
      cases v with
      | object others =>
        rw [objects]
        exact List.mem_cons_of_mem _ (mem_objectsOfMembers (Keyed.mem_of_get? hinto) (ih hat))
      | _ => cases hinto

theorem hasPlainNames_of_objects (h : ∀ found ∈ objects v, ∀ m ∈ found.2, .char '"' ∉ m.1) :
    HasPlainNames v :=
  fun _ _ hat => h _ (mem_objects hat)

/-! ## Series -/

theorem writeItems_eq (level : Nat) (items : List Json) :
    writeItems level items = items.flatMap fun v => separator level ++ write level v := by
  induction items with
  | nil => rfl
  | cons v items ih =>
    rw [writeItems, ih, List.flatMap_cons]
    rfl

theorem writeMembers_eq (level : Nat) (members : Members) :
    writeMembers level members = members.flatMap fun m => separator level ++ writeMember level m := by
  induction members with
  | nil => rfl
  | cons m members ih =>
    rw [writeMembers, ih, List.flatMap_cons]
    simp [separator, writeMember, Text.ofString]

/-- Some elements, each but the first behind a separator. -/
def series {α : Type} (level : Nat) (f : α → Text) (a : α) (as : List α) : Text :=
  f a ++ as.flatMap fun b => separator level ++ f b

/-- A written collection that has elements. -/
def enclose (level : Nat) (opening closing : CodePoint) (inner : Text) : Text :=
  opening :: newLine (level + 1) ++ (inner ++ (newLine level ++ [closing]))

theorem write_array (level : Nat) (item : Json) (items : List Json) :
    write level (.array (item :: items)) =
      enclose level (.char '[') (.char ']') (series (level + 1) (write (level + 1)) item items) := by
  simp [write, writeItems_eq, series, enclose, Text.ofString]

theorem write_object (level : Nat) (m : Text × Json) (members : Members) :
    write level (.object (m :: members)) =
      enclose level (.char '\x7b') (.char '\x7d')
        (series (level + 1) (writeMember (level + 1)) m members) := by
  simp [write, writeMembers_eq, series, writeMember, enclose, Text.ofString]

theorem series_cons {α : Type} (level : Nat) (f : α → Text) (a b : α) (as : List α) :
    series level f a (b :: as) = f a ++ (separator level ++ series level f b as) := by
  simp [series]

/-- What is written of a series around one of its elements. -/
theorem series_eq {α : Type} {f : α → Text} {a b : α} {as before after : List α}
    (h : a :: as = before ++ b :: after) :
    series level f a as = (before.flatMap fun c => f c ++ separator level) ++
      (f b ++ after.flatMap fun c => separator level ++ f c) := by
  induction before generalizing a as with
  | nil =>
    obtain ⟨rfl, rfl⟩ := List.cons.inj h
    rfl
  | cons c before ih =>
    rw [List.cons_append] at h
    obtain ⟨rfl, rfl⟩ := List.cons.inj h
    obtain ⟨d, ds, hds⟩ : ∃ d ds, before ++ b :: after = d :: ds :=
      List.exists_cons_of_ne_nil (by simp)
    rw [hds, series_cons, ih hds.symm]
    simp

/-! ## What is written around a value -/

theorem Follows.append (h : Follows s) (t : Text) : Follows (s ++ t) := by
  cases h with
  | comma s => exact .comma (s ++ t)
  | line s => exact .line (s ++ t)

theorem follows_newLine (level : Nat) (t : Text) : Follows (newLine level ++ t) := .line _

/-- Behind an element of a series stands another one, or what stands behind the series. -/
theorem exists_series_eq {α : Type} {f : α → Text} {a b : α} {as before after : List α}
    (h : a :: as = before ++ b :: after) (hrest : Follows rest) :
    ∃ behind, series level f a as ++ rest =
      (before.flatMap fun c => f c ++ separator level) ++ (f b ++ behind) ∧ Follows behind := by
  refine ⟨(after.flatMap fun c => separator level ++ f c) ++ rest, ?_, ?_⟩
  · rw [series_eq h, List.append_assoc, List.append_assoc]
  · cases after with
    | nil => exact hrest
    | cons c after => exact .comma _

/-- A value to which a step leads is written behind what is before it. -/
theorem PathStep.exists_write_eq (h : step.into? v = some w) (level : Nat) :
    ∃ behind, write level v = step.textBefore level v ++ (write (level + 1) w ++ behind) ∧
      Follows behind := by
  -- an empty collection holds no value, and no step leads into anything else
  cases step with
  | item position =>
    cases v with
    | array items =>
      obtain ⟨hlt, hitem⟩ := List.getElem?_eq_some_iff.1 h
      have hsplit : items = items.take position ++ w :: items.drop (position + 1) := by
        rw [← hitem, List.getElem_cons_drop, List.take_append_drop]
      cases items with
      | nil => cases h
      | cons item items =>
        obtain ⟨behind, hseries, hbehind⟩ :=
          exists_series_eq hsplit (follows_newLine level [.char ']'])
        refine ⟨behind, ?_, hbehind⟩
        rw [textBefore, write_array, enclose, hseries, List.append_assoc]
    | _ => cases h
  | member name =>
    cases v with
    | object members =>
      obtain ⟨before, after, hsplit, hbefore⟩ := Keyed.get?_eq_some_iff_append.1 h
      cases members with
      | nil => cases h
      | cons m members =>
        obtain ⟨behind, hseries, hbehind⟩ :=
          exists_series_eq hsplit (follows_newLine level [.char '\x7d'])
        refine ⟨behind, ?_, hbehind⟩
        rw [textBefore_member hsplit hbefore, write_object, enclose, hseries]
        simp [writeMember]
    | _ => cases h

/-- The value to which a path leads is written behind what is before it. -/
theorem exists_write_eq (h : at? path v = some w) (level : Nat) (hrest : Follows rest) :
    ∃ behind, write level v ++ rest =
      textBefore level path v ++ (write (level + path.length) w ++ behind) ∧ Follows behind := by
  induction path generalizing v level rest with
  | nil =>
    obtain rfl := Option.some.inj h
    exact ⟨rest, rfl, hrest⟩
  | cons step path ih =>
    obtain ⟨x, hinto, hat⟩ := Option.bind_eq_some_iff.1 h
    obtain ⟨behind, hwrite, hbehind⟩ := step.exists_write_eq hinto level
    obtain ⟨after, hinner, hafter⟩ := ih hat (level + 1) (hbehind.append rest)
    refine ⟨after, ?_, hafter⟩
    rw [hwrite, textBefore_cons hinto, List.append_assoc, List.append_assoc, hinner, List.length_cons,
      Nat.add_right_comm, Nat.add_assoc, List.append_assoc]

/-! ## What is not part of a name -/

/-- Behind blanks, if there are any, comes a colon. -/
def ColonAhead (t : Text) : Prop := (t.dropWhile CodePoint.isBlank).head? = some (.char ':')

/-- What stands behind a value: a comma or the start of a line, and no colon. -/
structure Closes (rest : Text) : Prop where
  follows : Follows rest
  noColon : ¬ ColonAhead rest

/-- A name does not start with what can stand behind a string. -/
def IsApart (name : Text) : Prop :=
  ∀ c ∈ (",:\n" : Text), (name.flatMap writtenUnit ++ [CodePoint.char '"']).head? ≠ some c

instance (name : Text) : Decidable (IsApart name) :=
  inferInstanceAs (Decidable (∀ c ∈ (",:\n" : Text), _))

theorem dropWhile_newLine (level : Nat) (t : Text) :
    (newLine level ++ t).dropWhile CodePoint.isBlank = t.dropWhile CodePoint.isBlank := by
  have hall : ∀ c ∈ newLine level, c.isBlank = true := by
    intro c hc
    rcases List.mem_cons.1 hc with rfl | hc
    · rfl
    · rw [List.eq_of_mem_replicate hc]
      rfl
  exact List.dropWhile_append_of_pos hall

theorem closes_separator (level : Nat) (t : Text) : Closes (separator level ++ t) :=
  ⟨.comma _, fun h => absurd (Option.some.inj h) (by decide)⟩

theorem closes_newLine (level : Nat) (hblank : c.isBlank = false) (hcolon : c ≠ .char ':') (t : Text) :
    Closes (newLine level ++ c :: t) := by
  refine ⟨.line _, fun h => hcolon ?_⟩
  rw [ColonAhead, dropWhile_newLine, List.dropWhile_cons_of_neg (by simp [hblank])] at h
  exact Option.some.inj h

theorem quote_not_mem_newLine (level : Nat) : CodePoint.char '"' ∉ newLine level := by
  intro h
  rcases List.mem_cons.1 h with h | h
  · exact absurd h (by decide)
  · exact absurd (List.eq_of_mem_replicate h) (by decide)

theorem quote_not_mem_separator (level : Nat) : CodePoint.char '"' ∉ separator level :=
  List.not_mem_cons_of_ne_of_not_mem (by decide) (quote_not_mem_newLine level)

/-! ## Occurrences -/

/-- Where a name in its quotes and then `t` stand and start inside a written text, what is before them
is as said. -/
def OccursAfter (name t written : Text) (before : Text → Prop) : Prop :=
  ∀ rest pre, Closes rest → written ++ rest = pre ++ (writeString name ++ t) →
    before pre ∨ ∃ pre', pre = written ++ pre' ∧ rest = pre' ++ (writeString name ++ t)

/-- What starts with a quote starts behind a text that has none. -/
theorem exists_of_quote_not_mem (hs : .char '"' ∉ s) (h : s ++ rest = pre ++ (writeString name ++ t)) :
    ∃ pre', pre = s ++ pre' ∧ rest = pre' ++ (writeString name ++ t) := by
  rw [writeString_append] at h ⊢
  rcases List.append_eq_append_iff.1 h with ⟨pre', rfl, hrest⟩ | ⟨u, rfl, hu⟩
  · exact ⟨pre', rfl, hrest⟩
  · cases u with
    | nil => exact ⟨[], by simp, hu.symm⟩
    | cons c u =>
      obtain ⟨rfl, -⟩ := List.cons.inj hu
      exact absurd (List.mem_append_right pre List.mem_cons_self) hs

section Occurrences

variable {written : Text} {before before' : Text → Prop}

theorem OccursAfter.mono (h : OccursAfter name t written before) (hsub : ∀ pre, before pre → before' pre) :
    OccursAfter name t written before' :=
  fun rest pre hrest heq => (h rest pre hrest heq).imp_left (hsub pre)

theorem occursAfter_of_quote_not_mem (hs : .char '"' ∉ s) : OccursAfter name t s before :=
  fun _ _ _ heq => .inr (exists_of_quote_not_mem hs heq)

theorem OccursAfter.skip (hs : .char '"' ∉ s) (h : OccursAfter name t written before) :
    OccursAfter name t (s ++ written) fun pre => ∃ pre', pre = s ++ pre' ∧ before pre' := by
  intro rest pre hrest heq
  rw [List.append_assoc] at heq
  obtain ⟨inner, rfl, hwritten⟩ := exists_of_quote_not_mem hs heq
  rcases h rest inner hrest hwritten with hbefore | ⟨outer, rfl, houter⟩
  · exact .inl ⟨inner, rfl, hbefore⟩
  · exact .inr ⟨outer, by rw [List.append_assoc], houter⟩

theorem OccursAfter.append (h : OccursAfter name t written before) (hs : .char '"' ∉ s)
    (hcloses : ∀ rest, Closes (s ++ rest)) : OccursAfter name t (written ++ s) before := by
  intro rest pre hrest heq
  rw [List.append_assoc] at heq
  rcases h (s ++ rest) pre (hcloses rest) heq with hbefore | ⟨outer, rfl, houter⟩
  · exact .inl hbefore
  · obtain ⟨behind, rfl, hbehind⟩ := exists_of_quote_not_mem hs houter
    exact .inr ⟨behind, by rw [List.append_assoc], hbehind⟩

/-- In a series a name stands in one of the elements. -/
theorem occursAfter_series {α : Type} {f : α → Text} {inside : α → Text → Prop} {a : α} {as : List α}
    (h : ∀ b ∈ a :: as, OccursAfter name t (f b) (inside b)) :
    OccursAfter name t (series level f a as) fun pre => ∃ front b back inner,
      a :: as = front ++ b :: back ∧
        pre = (front.flatMap fun c => f c ++ separator level) ++ inner ∧ inside b inner := by
  induction as generalizing a with
  | nil =>
    rw [series, List.flatMap_nil, List.append_nil]
    exact (h a List.mem_cons_self).mono fun pre hpre => ⟨[], a, [], pre, rfl, rfl, hpre⟩
  | cons b as ih =>
    intro rest pre hrest heq
    rw [series_cons, List.append_assoc, List.append_assoc] at heq
    obtain ⟨ha, has⟩ := List.forall_mem_cons.1 h
    rcases ha _ pre (closes_separator level _) heq with hinside | ⟨outer, rfl, houter⟩
    · exact .inl ⟨[], a, b :: as, pre, rfl, rfl, hinside⟩
    obtain ⟨pre, rfl, hseries⟩ := exists_of_quote_not_mem (quote_not_mem_separator level) houter
    rcases ih has rest pre hrest hseries with
      ⟨front, c, back, inner, hsplit, rfl, hinside⟩ | ⟨behind, rfl, hbehind⟩
    · exact .inl ⟨a :: front, c, back, inner, by rw [hsplit]; rfl, by simp, hinside⟩
    · exact .inr ⟨behind, by simp [series_cons], hbehind⟩

theorem OccursAfter.enclose {opening closing : CodePoint} (h : OccursAfter name t written before)
    (hopening : opening ≠ .char '"') (hclosing : closing ≠ .char '"') (hblank : closing.isBlank = false)
    (hcolon : closing ≠ .char ':') (level : Nat) :
    OccursAfter name t (Json.enclose level opening closing written) fun pre =>
      ∃ inner, pre = opening :: newLine (level + 1) ++ inner ∧ before inner := by
  have hcloses : ∀ rest, Closes (newLine level ++ [closing] ++ rest) := fun rest => by
    rw [List.append_assoc]
    exact closes_newLine level hblank hcolon rest
  refine (h.append ?_ hcloses).skip ?_
  · intro hmem
    rcases List.mem_append.1 hmem with hmem | hmem
    · exact quote_not_mem_newLine level hmem
    · exact hclosing (List.mem_singleton.1 hmem).symm
  · exact List.not_mem_cons_of_ne_of_not_mem hopening.symm (quote_not_mem_newLine (level + 1))

end Occurrences

/-! ## Names in strings -/

/-- What is written of a string, up to the quote that ends it, shows which one it is. -/
theorem written_inj
    (h : s.flatMap writtenUnit ++ .char '"' :: rest = name.flatMap writtenUnit ++ .char '"' :: t) :
    s = name ∧ rest = t := by
  have hread := readStringFrom_written [] s rest
  rw [h, readStringFrom_written] at hread
  obtain ⟨rfl, rfl⟩ := Prod.mk.inj (Except.ok.inj hread)
  exact ⟨rfl, rfl⟩

theorem quote_not_mem_writtenUnit (hc : c ≠ .char '"') : .char '"' ∉ writtenUnit c := by
  intro h
  rcases mem_writtenUnit h with ⟨rfl, -⟩ | h | ⟨-, rfl⟩
  · exact hc rfl
  · exact absurd h (by decide)
  · exact hc rfl

/-- Where a name starts inside a string, it does so with a quote of the string, and it ends with the
string. -/
theorem eq_of_body_eq (hname : IsApart name) (hrest : ∃ c ∈ (",:\n" : Text), rest.head? = some c)
    (h : s.flatMap writtenUnit ++ .char '"' :: rest = pre ++ (writeString name ++ t)) :
    (.char '"' ∈ s ∧ rest = t) ∨ ∃ pre', pre = s.flatMap writtenUnit ++ .char '"' :: pre' ∧
      rest = pre' ++ (writeString name ++ t) := by
  induction s generalizing pre with
  | nil =>
    rw [writeString_append] at h ⊢
    cases pre with
    | nil =>
      -- the name would follow the string
      obtain ⟨c, hc, hhead⟩ := hrest
      have hbody : rest = (name.flatMap writtenUnit ++ [.char '"']) ++ t := by
        rw [(List.cons.inj h).2, List.append_assoc]
        rfl
      rw [hbody, List.head?_append_of_ne_nil _ (by simp)] at hhead
      exact absurd hhead (hname c hc)
    | cons d pre =>
      obtain ⟨rfl, hbehind⟩ := List.cons.inj h
      exact .inr ⟨pre, rfl, hbehind⟩
  | cons c s ih =>
    have hbehind : ∀ inner, s.flatMap writtenUnit ++ .char '"' :: rest = inner ++ (writeString name ++ t) →
        (.char '"' ∈ c :: s ∧ rest = t) ∨ ∃ pre', writtenUnit c ++ inner =
          (c :: s).flatMap writtenUnit ++ .char '"' :: pre' ∧ rest = pre' ++ (writeString name ++ t) := by
      intro inner hinner
      rcases ih hinner with ⟨hmem, hrest⟩ | ⟨pre', rfl, hpre'⟩
      · exact .inl ⟨List.mem_cons_of_mem c hmem, hrest⟩
      · exact .inr ⟨pre', by simp, hpre'⟩
    rw [List.flatMap_cons, List.append_assoc] at h
    by_cases hc : c = .char '"'
    · subst hc
      have hwritten : writtenUnit (.char '"') = [.char '\\', .char '"'] := rfl
      match pre with
      | [] =>
        rw [hwritten, writeString_append] at h
        exact absurd (List.cons.inj h).1 (by decide)
      | [d] =>
        -- the quote is the first one of the name
        rw [hwritten, writeString_append] at h
        exact .inl ⟨List.mem_cons_self, (written_inj (List.cons.inj (List.cons.inj h).2).2).2⟩
      | d :: e :: inner =>
        rw [hwritten] at h hbehind
        obtain ⟨hd, hsecond⟩ := List.cons.inj h
        obtain ⟨he, hinner⟩ := List.cons.inj hsecond
        rw [← hd, ← he]
        exact hbehind inner hinner
    · obtain ⟨inner, rfl, hinner⟩ := exists_of_quote_not_mem (quote_not_mem_writtenUnit hc) h
      exact hbehind inner hinner

/-- Where a name starts in a string, it is the string, or the string has a quote and ends with the
name. -/
theorem eq_of_string_eq (hname : IsApart name) (hrest : ∃ c ∈ (",:\n" : Text), rest.head? = some c)
    (h : writeString s ++ rest = pre ++ (writeString name ++ t)) :
    (rest = t ∧ (pre = [] ∧ s = name ∨ .char '"' ∈ s)) ∨
      ∃ pre', pre = writeString s ++ pre' ∧ rest = pre' ++ (writeString name ++ t) := by
  rw [writeString_append s] at h
  cases pre with
  | nil =>
    rw [writeString_append] at h
    obtain ⟨rfl, rfl⟩ := written_inj (List.cons.inj h).2
    exact .inl ⟨rfl, .inl ⟨rfl, rfl⟩⟩
  | cons d pre =>
    obtain ⟨rfl, hbody⟩ := List.cons.inj h
    rcases eq_of_body_eq hname hrest hbody with ⟨hmem, rfl⟩ | ⟨pre', rfl, hpre'⟩
    · exact .inl ⟨rfl, .inr hmem⟩
    · exact .inr ⟨pre', by rw [writeString_append], hpre'⟩

/-! ## Names in values -/

/-- A member of an object inside a value has a name, which stands behind a text. -/
def StandsAfter (name : Text) (level : Nat) (v : Json) (pre : Text) : Prop :=
  ∃ path w, at? (path ++ [.member name]) v = some w ∧
    textBefore level (path ++ [.member name]) v = pre ++ (writeString name ++ ": ")

theorem StandsAfter.into (hinto : step.into? v = some w) (h : StandsAfter name (level + 1) w pre) :
    StandsAfter name level v (step.textBefore level v ++ pre) := by
  obtain ⟨path, x, hat, htext⟩ := h
  refine ⟨step :: path, x, ?_, ?_⟩
  · rwa [List.cons_append, at?_cons hinto]
  · rw [List.cons_append, textBefore_cons hinto, htext, List.append_assoc]

theorem standsAfter_of_into (hinto : (PathStep.member name).into? v = some w)
    (htext : (PathStep.member name).textBefore level v = pre ++ (writeString name ++ ": ")) :
    StandsAfter name level v pre := by
  refine ⟨[], w, at?_cons hinto [], ?_⟩
  rw [List.nil_append, textBefore_cons hinto, htext, textBefore, List.append_nil]

section Values

variable (hname : IsApart name) (hcolon : ColonAhead t)
include hname hcolon

/-- What is written of a string has no name in it: no colon comes behind it. -/
theorem occursAfter_string (s : Text) (before : Text → Prop) :
    OccursAfter name t (writeString s) before := by
  intro rest pre hrest heq
  have hhead : ∃ c ∈ (",:\n" : Text), rest.head? = some c := by
    cases hrest.follows with
    | comma rest => exact ⟨_, by decide, rfl⟩
    | line rest => exact ⟨_, by decide, rfl⟩
  rcases eq_of_string_eq hname hhead heq with ⟨rfl, -⟩ | hbehind
  · exact absurd hcolon hrest.noColon
  · exact .inr hbehind

omit hcolon in
/-- In what is written of a member a name is its own, or stands in its value. -/
theorem occursAfter_member {m : Text × Json} (hquote : .char '"' ∉ m.1) {inside : Text → Prop}
    (h : OccursAfter name t (write level m.2) inside) :
    OccursAfter name t (writeMember level m) fun pre =>
      (pre = [] ∧ m.1 = name) ∨ ∃ pre', pre = writeString m.1 ++ (": " ++ pre') ∧ inside pre' := by
  intro rest pre hrest heq
  rw [writeMember, List.append_assoc, List.append_assoc] at heq
  rcases eq_of_string_eq hname ⟨.char ':', by decide, rfl⟩ heq with
    ⟨-, ⟨rfl, hown⟩ | hmem⟩ | ⟨outer, rfl, houter⟩
  · exact .inl (.inl ⟨rfl, hown⟩)
  · exact absurd hmem hquote
  · have hskip : CodePoint.char '"' ∉ (": " : Text) := by decide
    obtain ⟨inner, rfl, hinner⟩ := exists_of_quote_not_mem hskip houter
    rcases h rest inner hrest hinner with hinside | ⟨behind, rfl, hbehind⟩
    · exact .inl (.inr ⟨inner, rfl, hinside⟩)
    · exact .inr ⟨behind, by simp [writeMember], hbehind⟩

omit hname hcolon in
theorem occursAfter_array (h : ∀ w ∈ items, OccursAfter name t (write (level + 1) w)
      (StandsAfter name (level + 1) w)) :
    OccursAfter name t (write level (.array items)) (StandsAfter name level (.array items)) := by
  cases items with
  | nil => exact occursAfter_of_quote_not_mem (by rw [write]; decide)
  | cons item items =>
    rw [write_array]
    refine ((occursAfter_series h).enclose (by decide) (by decide) rfl (by decide) level).mono ?_
    rintro _ ⟨_, rfl, before, w, after, inner, hsplit, rfl, hstands⟩
    rw [← List.append_assoc, ← PathStep.textBefore_item hsplit]
    exact hstands.into (into?_item hsplit)

omit hcolon in
theorem occursAfter_object (hnodup : (members.map (·.1)).Nodup) (hquotes : ∀ m ∈ members, .char '"' ∉ m.1)
    (h : ∀ m ∈ members, OccursAfter name t (write (level + 1) m.2) (StandsAfter name (level + 1) m.2)) :
    OccursAfter name t (write level (.object members)) (StandsAfter name level (.object members)) := by
  cases members with
  | nil => exact occursAfter_of_quote_not_mem (by rw [write]; decide)
  | cons m members =>
    have hmembers := fun other hother =>
      occursAfter_member hname (hquotes other hother) (h other hother)
    rw [write_object]
    refine ((occursAfter_series hmembers).enclose (by decide) (by decide) rfl (by decide) level).mono ?_
    rintro _ ⟨_, rfl, before, ⟨own, w⟩, after, inner, hsplit, rfl, hmember⟩
    have hnot := not_mem_of_nodup hnodup hsplit
    have hinto := into?_member hsplit hnot
    have htext := PathStep.textBefore_member hsplit hnot level
    rcases hmember with ⟨rfl, rfl⟩ | ⟨inner, rfl, hstands⟩
    · exact standsAfter_of_into hinto (by rw [htext, List.append_nil, List.append_assoc])
    · have hthere := hstands.into hinto
      rw [htext] at hthere
      simpa using hthere

/-- In what is written of a value a name is that of a member inside of it. -/
theorem occursAfter_write (hfits : Fits depth v) (hplain : HasPlainNames v) (level : Nat) :
    OccursAfter name t (write level v) (StandsAfter name level v) := by
  induction hfits generalizing level with
  | null => exact occursAfter_of_quote_not_mem (by rw [write]; decide)
  | bool b => exact occursAfter_of_quote_not_mem (by cases b <;> rw [write] <;> decide)
  | @integer _ n _ =>
    rw [write]
    exact occursAfter_of_quote_not_mem ((isNumeral_ofInt n).not_mem rfl (by decide))
  | real x =>
    rw [write]
    exact occursAfter_of_quote_not_mem ((RealLayout.isNumeral_render x).not_mem rfl (by decide))
  | string s =>
    rw [write]
    exact occursAfter_string hname hcolon s _
  | array _ ih =>
    refine occursAfter_array fun w hw => ?_
    obtain ⟨before, after, hsplit⟩ := List.append_of_mem hw
    exact ih w hw (hplain.into (into?_item hsplit)) (level + 1)
  | object hnodup _ ih =>
    refine occursAfter_object hname hnodup (hplain [] _ rfl) fun m hm => ?_
    obtain ⟨before, after, hsplit⟩ := List.append_of_mem hm
    exact ih m hm (hplain.into (into?_member hsplit (not_mem_of_nodup hnodup hsplit))) (level + 1)

end Values

/-! ## Names in documents -/

theorem closes_end : Closes ("\n" : Text) := ⟨.line [], by unfold ColonAhead; decide⟩

theorem isBlank_of_isDigit (h : c.isDigit = true) : c.isBlank = false := by
  cases c with
  | surrogate k => cases h
  | char ch =>
    have hbounds : 0x30 ≤ ch.toNat ∧ ch.toNat ≤ 0x39 := by
      simpa [CodePoint.isDigit, Char.isDigit, UInt32.le_iff_toNat_le] using h
    have hval : (CodePoint.char ch).val = ch.toNat := rfl
    rw [← Bool.not_eq_true, CodePoint.isBlank, List.contains_iff_mem]
    intro hmem
    simp only [hval, List.mem_cons, List.not_mem_nil, or_false] at hmem
    omega

theorem isBlank_of_isNumeral (h : IsNumeral s) (hc : c ∈ s) : c.isBlank = false := by
  have hothers : ∀ c ∈ (".+-eINafinty" : Text), c.isBlank = false := by decide
  exact (h c hc).elim isBlank_of_isDigit (hothers c)

/-- What a value is written as starts with no blank, and with a quote only if it is a string. -/
theorem exists_head_write (level : Nat) (v : Json) :
    ∃ c t, write level v = c :: t ∧ c.isBlank = false ∧ (c = .char '"' → ∃ s, v = .string s) := by
  have hnumeral : IsNumeral (write level v) → ∃ c t, write level v = c :: t ∧ c.isBlank = false ∧
      (c = .char '"' → ∃ s, v = .string s) := by
    intro h
    obtain ⟨c, t, hwrite, -⟩ := exists_starts_write level v
    have hmem : c ∈ write level v := hwrite ▸ List.mem_cons_self
    exact ⟨c, t, hwrite, isBlank_of_isNumeral h hmem,
      fun hquote => absurd (hquote ▸ hmem) (h.not_mem rfl (by decide))⟩
  cases v with
  | null => exact ⟨_, _, rfl, rfl, fun h => absurd h (by decide)⟩
  | bool b => cases b <;> exact ⟨_, _, rfl, rfl, fun h => absurd h (by decide)⟩
  | integer n =>
    refine hnumeral ?_
    rw [write]
    exact isNumeral_ofInt n
  | real x =>
    refine hnumeral ?_
    rw [write]
    exact RealLayout.isNumeral_render x
  | string s => exact ⟨_, _, rfl, rfl, fun _ => ⟨s, rfl⟩⟩
  | array items => cases items <;> exact ⟨_, _, rfl, rfl, fun h => absurd h (by decide)⟩
  | object members =>
    rcases members with _ | ⟨⟨own, w⟩, members⟩ <;>
      exact ⟨_, _, rfl, rfl, fun h => absurd h (by decide)⟩

/-- What starts like a written string is that string. -/
theorem eq_string_of_isPrefix (h : writeString s <+: write level w ++ rest) : w = .string s := by
  obtain ⟨u, hu⟩ := h
  obtain ⟨c, t, hwrite, -, hstring⟩ := exists_head_write level w
  rw [writeString_append, hwrite] at hu
  obtain ⟨s', rfl⟩ := hstring (List.cons.inj hu).1.symm
  rw [write] at hwrite
  rw [← hwrite, writeString_append] at hu
  rw [(written_inj (List.cons.inj hu).2).1]

theorem at?_append (path path' : List PathStep) (v : Json) :
    at? (path ++ path') v = (at? path v).bind (at? path') := by
  induction path generalizing v with
  | nil => rfl
  | cons step path ih =>
    rw [List.cons_append, at?, at?, Option.bind_assoc]
    congr 1
    funext w
    exact ih w

/-- A member to which a path leads has its name before it. -/
theorem exists_textBefore_eq (h : at? (path ++ [.member name]) v = some w) (level : Nat) :
    ∃ pre, textBefore level (path ++ [.member name]) v = pre ++ (writeString name ++ ": ") := by
  induction path generalizing v level with
  | nil =>
    obtain ⟨x, hinto, -⟩ := Option.bind_eq_some_iff.1 h
    cases v with
    | object members =>
      obtain ⟨before, after, hsplit, hbefore⟩ := Keyed.get?_eq_some_iff_append.1 hinto
      have htext := PathStep.textBefore_member hsplit hbefore level
      rw [List.nil_append, textBefore_cons hinto, htext]
      exact ⟨_, List.append_nil _⟩
    | _ => cases hinto
  | cons step path ih =>
    obtain ⟨x, hinto, hat⟩ := Option.bind_eq_some_iff.1 h
    obtain ⟨pre, htext⟩ := ih hat (level + 1)
    refine ⟨step.textBefore level v ++ pre, ?_⟩
    rw [List.cons_append, textBefore_cons hinto, htext, List.append_assoc]

/-- A value inside a document is printed behind what is before it. -/
theorem exists_print_eq (h : at? path v = some w) :
    ∃ behind, print v = textBefore 0 path v ++ (write path.length w ++ behind) := by
  obtain ⟨behind, hwrite, -⟩ := exists_write_eq h 0 closes_end.follows
  rw [Nat.zero_add] at hwrite
  exact ⟨behind, hwrite⟩

/-- A name in its quotes, with a colon behind it, is the name of a member in a printed document, and its
value is next. -/
theorem exists_member_of_print (hname : IsApart name) (hcolon : ColonAhead t) (hfits : Fits depth v)
    (hplain : HasPlainNames v) (h : print v = pre ++ (writeString name ++ t)) :
    ∃ path w behind, at? (path ++ [.member name]) v = some w ∧
      textBefore 0 (path ++ [.member name]) v = pre ++ (writeString name ++ ": ") ∧
      t = ": " ++ (write (path.length + 1) w ++ behind) := by
  rcases occursAfter_write hname hcolon hfits hplain 0 "\n" pre closes_end h with
    ⟨path, w, hat, htext⟩ | ⟨pre', -, hend⟩
  · obtain ⟨behind, hprint⟩ := exists_print_eq hat
    refine ⟨path, w, behind, hat, htext, ?_⟩
    rw [h, htext, List.length_append] at hprint
    simpa using hprint
  · have hquote : CodePoint.char '"' ∉ ("\n" : Text) := by decide
    rw [hend, writeString_append] at hquote
    exact absurd (List.mem_append_right pre' List.mem_cons_self) hquote

end WorkflowLint.Json
