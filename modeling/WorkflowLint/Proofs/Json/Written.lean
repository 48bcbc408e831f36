import WorkflowLint.Proofs.Json.Reading

/-!
# What is written in a document

The readers of values run on fuel and are told what to make of the members of an object.  Neither
matters for what a document says.  `Reads` gives the grammar of the readers without either: which part
of a document stands at the start of a text, with all members in the order in which they are written,
and what follows it.  The readers find exactly that, with any fuel that is as much as twice the text
that a part takes (`Reads.readWith`, `reads_of_read`).

So a document that one reader accepts is accepted by every other one, and what it reads is made of what
is written (`readWith_eq_ok_iff`).
-/

namespace WorkflowLint.Json

variable {gather : List (Text × Json) → Members} {depth fuel : Nat} {t t₁ t₂ rest : Text} {v : Json}

/-! ## Gathering the members of objects -/

mutual

/-- A value in which the members of each object have been gathered, from inside to outside. -/
def gathered (gather : List (Text × Json) → Members) : Json → Json
  | .array items => .array (gatheredItems gather items)
  | .object members => .object (gather (gatheredMembers gather members))
  | .null => .null
  | .bool b => .bool b
  | .integer n => .integer n
  | .real x => .real x
  | .string s => .string s

/-- The items of an array with their members gathered. -/
def gatheredItems (gather : List (Text × Json) → Members) : List Json → List Json
  | [] => []
  | item :: items => gathered gather item :: gatheredItems gather items

/-- The members of an object with those inside them gathered. -/
def gatheredMembers (gather : List (Text × Json) → Members) : List (Text × Json) → Members
  | [] => []
  | (name, value) :: members => (name, gathered gather value) :: gatheredMembers gather members

end

mutual

/-- A value stays as it is if all members are kept. -/
theorem gathered_id : (v : Json) → gathered id v = v
  | .array items => congrArg Json.array (gatheredItems_id items)
  | .object members => congrArg Json.object (gatheredMembers_id members)
  | .null | .bool _ | .integer _ | .real _ | .string _ => rfl

theorem gatheredItems_id : (items : List Json) → gatheredItems id items = items
  | [] => rfl
  | item :: items => by rw [gatheredItems, gathered_id item, gatheredItems_id items]

theorem gatheredMembers_id : (members : List (Text × Json)) → gatheredMembers id members = members
  | [] => rfl
  | (name, value) :: members => by
    rw [gatheredMembers, gathered_id value, gatheredMembers_id members]

end

/-! ## The grammar -/

/-- Reads a value that is a word or a number. -/
def readPlain (t : Text) : Except ReadError (Json × Text) :=
  match readWord? t with
  | some found => .ok found
  | none =>
    match t with
    | .char '-' :: rest => readNumber t true rest
    | _ => readNumber t false t

/-- What the readers of values look for. -/
inductive Part where
  | value (v : Json)
  | items (items : List Json)
  | members (members : List (Text × Json))

/-- A part of a document stands at the start of a text, inside which values may be nested to a depth,
and is followed by the rest of it. -/
inductive Reads : (depth : Nat) → Text → Part → (rest : Text) → Prop
  | string {depth : Nat} {t rest s : Text} :
      readString t = .ok (s, rest) → Reads depth (.char '"' :: t) (.value (.string s)) rest
  | plain {depth : Nat} {t rest : Text} {v : Json} :
      readPlain t = .ok (v, rest) → Reads depth t (.value v) rest
  | emptyArray {depth : Nat} {t rest : Text} :
      skipSpaces t = .char ']' :: rest →
      Reads (depth + 1) (.char '[' :: t) (.value (.array [])) rest
  | array {depth : Nat} {t rest : Text} {items : List Json} :
      (∀ r, skipSpaces t ≠ .char ']' :: r) → Reads depth (skipSpaces t) (.items items) rest →
      Reads (depth + 1) (.char '[' :: t) (.value (.array items)) rest
  | emptyObject {depth : Nat} {t rest : Text} :
      skipSpaces t = .char '\x7d' :: rest →
      Reads (depth + 1) (.char '\x7b' :: t) (.value (.object [])) rest
  | object {depth : Nat} {t rest : Text} {members : List (Text × Json)} :
      (∀ r, skipSpaces t ≠ .char '\x7d' :: r) → Reads depth (skipSpaces t) (.members members) rest →
      Reads (depth + 1) (.char '\x7b' :: t) (.value (.object members)) rest
  | lastItem {depth : Nat} {t t₁ rest : Text} {v : Json} :
      Reads depth t (.value v) t₁ → skipSpaces t₁ = .char ']' :: rest →
      Reads depth t (.items [v]) rest
  | item {depth : Nat} {t t₁ t₂ rest : Text} {v : Json} {items : List Json} :
      Reads depth t (.value v) t₁ → skipSpaces t₁ = .char ',' :: t₂ →
      Reads depth (skipSpaces t₂) (.items items) rest → Reads depth t (.items (v :: items)) rest
  | lastMember {depth : Nat} {t t₁ t₂ t₃ rest name : Text} {v : Json} :
      readString t = .ok (name, t₁) → skipSpaces t₁ = .char ':' :: t₂ →
      Reads depth (skipSpaces t₂) (.value v) t₃ → skipSpaces t₃ = .char '\x7d' :: rest →
      Reads depth (.char '"' :: t) (.members [(name, v)]) rest
  | member {depth : Nat} {t t₁ t₂ t₃ t₄ rest name : Text} {v : Json}
      {members : List (Text × Json)} :
      readString t = .ok (name, t₁) → skipSpaces t₁ = .char ':' :: t₂ →
      Reads depth (skipSpaces t₂) (.value v) t₃ → skipSpaces t₃ = .char ',' :: t₄ →
      Reads depth (skipSpaces t₄) (.members members) rest →
      Reads depth (.char '"' :: t) (.members ((name, v) :: members)) rest

/-! ## Words and numbers -/

/-- A value with neither texts nor other values inside. -/
def IsBare : Json → Prop
  | .null | .bool _ | .integer _ | .real _ => True
  | .string _ | .array _ | .object _ => False

theorem gathered_of_isBare (h : IsBare v) : gathered gather v = v := by
  cases v with
  | null | bool | integer | real => rfl
  | string | array | object => exact h.elim

theorem isBare_of_readNumber {start : Text} {negative : Bool}
    (h : readNumber start negative t = .ok (v, rest)) : IsBare v ∧ rest.length < t.length := by
  unfold readNumber at h
  simp only at h
  split at h
  · simp at h
  next hwhole =>
  have hpos : 0 < (whole t).length := by
    rw [List.length_pos_iff]
    simpa using hwhole
  have hle : (whole t).length ≤ t.length := (whole_isPrefix t).length_le
  split at h
  · split at h
    · simp at h
    · obtain ⟨rfl, rfl⟩ := Prod.mk.inj (Except.ok.inj h)
      exact ⟨trivial, by simp only [List.length_drop]; omega⟩
  · obtain ⟨rfl, rfl⟩ := Prod.mk.inj (Except.ok.inj h)
    refine ⟨trivial, ?_⟩
    split <;> simp only [List.length_drop] <;> omega
  · obtain ⟨rfl, rfl⟩ := Prod.mk.inj (Except.ok.inj h)
    refine ⟨trivial, ?_⟩
    split <;> simp only [List.length_drop] <;> omega

theorem isBare_of_readWord (h : readWord? t = some (v, rest)) :
    IsBare v ∧ rest.length < t.length := by
  obtain ⟨⟨word, value⟩, hmem, hword⟩ := List.exists_of_findSome?_eq_some h
  obtain ⟨rest', hafter, heq⟩ := Option.map_eq_some_iff.1 hword
  obtain ⟨rfl, rfl⟩ := Prod.mk.inj heq
  have hshorter : 0 < word.length → rest'.length < t.length := by
    intro hpos
    unfold Text.afterStart? at hafter
    split at hafter
    · next hstart =>
      obtain rfl := Option.some.inj hafter
      have hle := (List.isPrefixOf_iff_prefix.1 hstart).length_le
      simp only [List.length_drop]
      omega
    · simp at hafter
  simp only [List.mem_cons, Prod.mk.injEq, List.not_mem_nil, or_false] at hmem
  rcases hmem with ⟨rfl, rfl⟩ | ⟨rfl, rfl⟩ | ⟨rfl, rfl⟩ | ⟨rfl, rfl⟩ | ⟨rfl, rfl⟩ | ⟨rfl, rfl⟩ <;>
    exact ⟨trivial, hshorter (by decide)⟩

theorem isBare_of_readPlain (h : readPlain t = .ok (v, rest)) :
    IsBare v ∧ rest.length < t.length := by
  unfold readPlain at h
  split at h
  · next found hword =>
    obtain rfl := Except.ok.inj h
    exact isBare_of_readWord hword
  split at h
  · obtain ⟨hbare, hlt⟩ := isBare_of_readNumber h
    exact ⟨hbare, Nat.lt_succ_of_lt hlt⟩
  · exact isBare_of_readNumber h

/-! ## What is read is written -/

theorem length_skipSpaces_le (t : Text) : (skipSpaces t).length ≤ t.length :=
  (skipSpaces_suffix t).length_le

theorem length_lt_of_skipSpaces {c : CodePoint} (h : skipSpaces t = c :: rest) :
    rest.length < t.length := by
  have hle := length_skipSpaces_le t
  rw [h, List.length_cons] at hle
  exact hle

theorem length_le_of_readString {s : Text} (h : readString t = .ok (s, rest)) :
    rest.length ≤ t.length := by
  have hs := reading_readString t
  rw [h] at hs
  exact List.IsSuffix.length_le hs

/-- Reading a part takes some of the text. -/
theorem Reads.length_lt {part : Part} (h : Reads depth t part rest) : rest.length < t.length := by
  induction h with
  | string hs => exact Nat.lt_succ_of_le (length_le_of_readString hs)
  | plain hplain => exact (isBare_of_readPlain hplain).2
  | emptyArray hend | emptyObject hend => exact Nat.lt_succ_of_lt (length_lt_of_skipSpaces hend)
  | @array _ t _ _ _ _ ih | @object _ t _ _ _ _ ih =>
    exact Nat.lt_succ_of_lt (Nat.lt_of_lt_of_le ih (length_skipSpaces_le t))
  | lastItem _ hend ih => exact Nat.lt_trans (length_lt_of_skipSpaces hend) ih
  | @item _ _ _ t₂ _ _ _ _ hcomma _ ih ihs =>
    have hlt := length_lt_of_skipSpaces hcomma
    have hle := length_skipSpaces_le t₂
    omega
  | @lastMember _ _ _ t₂ _ _ _ _ hs hcolon _ hend ih =>
    have hle := length_le_of_readString hs
    have hlt := length_lt_of_skipSpaces hcolon
    have hskip := length_skipSpaces_le t₂
    have hlast := length_lt_of_skipSpaces hend
    simp only [List.length_cons]
    omega
  | @member _ _ _ t₂ _ t₄ _ _ _ _ hs hcolon _ hcomma _ ih ihs =>
    have hle := length_le_of_readString hs
    have hlt := length_lt_of_skipSpaces hcolon
    have hskip := length_skipSpaces_le t₂
    have hnext := length_lt_of_skipSpaces hcomma
    have hskip' := length_skipSpaces_le t₄
    simp only [List.length_cons]
    omega

/-- A reader with so much fuel finds a part and leaves the rest. -/
def Part.ReadWith (gather : List (Text × Json) → Members) (depth fuel : Nat) (t rest : Text) :
    Part → Prop
  | .value v => readValue gather depth fuel t = .ok (gathered gather v, rest)
  | .items vs => readItems gather depth fuel t = .ok (gatheredItems gather vs, rest)
  | .members ms => readMembers gather depth fuel t = .ok (gatheredMembers gather ms, rest)

/-- The fuel that a value can do without, as it does not start with one inside. -/
def Part.slack : Part → Nat
  | .value _ => 1
  | .items _ | .members _ => 0

theorem Part.exists_fuel {part : Part} (hfuel : 2 * t.length ≤ fuel + part.slack + 2 * rest.length)
    (hlt : rest.length < t.length) : ∃ n, fuel = n + 1 := by
  have hslack : part.slack ≤ 1 := by cases part <;> simp [Part.slack]
  exact Nat.exists_eq_succ_of_ne_zero (by omega)

theorem readValue_of_readPlain (h : readPlain t = .ok (v, rest)) :
    readValue gather depth (fuel + 1) t = .ok (v, rest) := by
  have hquote : ∀ r, readPlain (.char '"' :: r) = .error (.malformed .expectingValue _) := fun _ => rfl
  have hbracket : ∀ r, readPlain (.char '[' :: r) = .error (.malformed .expectingValue _) :=
    fun _ => rfl
  have hbrace : ∀ r, readPlain (.char '\x7b' :: r) = .error (.malformed .expectingValue _) :=
    fun _ => rfl
  rw [readValue.eq_def]
  simp only
  split
  · simp [hquote] at h
  · simp [hbracket] at h
  · simp [hbrace] at h
  · exact h

/-- Every reader finds the parts of a document, given fuel for them. -/
theorem Reads.readWith {part : Part} (h : Reads depth t part rest)
    (hfuel : 2 * t.length ≤ fuel + part.slack + 2 * rest.length) :
    part.ReadWith gather depth fuel t rest := by
  have hlt := h.length_lt
  -- each step of a reader leaves one less of the fuel, which is enough for the shorter texts inside
  induction h generalizing fuel with
  | string hs =>
    obtain ⟨n, rfl⟩ := Part.exists_fuel hfuel hlt
    simp only [Part.ReadWith, readValue, hs, gathered]
  | plain hplain =>
    obtain ⟨n, rfl⟩ := Part.exists_fuel hfuel hlt
    rw [Part.ReadWith, readValue_of_readPlain hplain, gathered_of_isBare (isBare_of_readPlain hplain).1]
  | emptyArray hend =>
    obtain ⟨n, rfl⟩ := Part.exists_fuel hfuel hlt
    simp only [Part.ReadWith, readValue, hend, gathered, gatheredItems]
  | emptyObject hend =>
    obtain ⟨n, rfl⟩ := Part.exists_fuel hfuel hlt
    simp only [Part.ReadWith, readValue, hend, gathered, gatheredMembers]
  | @array _ t _ _ hne hitems ih =>
    obtain ⟨n, rfl⟩ := Part.exists_fuel hfuel hlt
    have hle := length_skipSpaces_le t
    have hread := @ih n (by simp only [Part.slack, List.length_cons] at hfuel ⊢; omega)
      hitems.length_lt
    simp only [Part.ReadWith] at hread ⊢
    rw [readValue.eq_def]
    simp only [hread, gathered]
  | @object _ t _ _ hne hmembers ih =>
    obtain ⟨n, rfl⟩ := Part.exists_fuel hfuel hlt
    have hle := length_skipSpaces_le t
    have hread := @ih n (by simp only [Part.slack, List.length_cons] at hfuel ⊢; omega)
      hmembers.length_lt
    simp only [Part.ReadWith] at hread ⊢
    rw [readValue.eq_def]
    simp only [hread, gathered]
  | lastItem hv hend ih =>
    obtain ⟨n, rfl⟩ := Part.exists_fuel hfuel hlt
    have hend' := length_lt_of_skipSpaces hend
    have hread := @ih n (by simp only [Part.slack] at hfuel ⊢; omega) hv.length_lt
    simp only [Part.ReadWith] at hread ⊢
    simp only [readItems, hread, hend, gatheredItems]
  | @item _ _ _ t₂ _ _ _ hv hcomma hitems ih ihs =>
    obtain ⟨n, rfl⟩ := Part.exists_fuel hfuel hlt
    have hvalue := hv.length_lt
    have hnext := length_lt_of_skipSpaces hcomma
    have hle := length_skipSpaces_le t₂
    have hrest := hitems.length_lt
    have hread := @ih n (by simp only [Part.slack] at hfuel ⊢; omega) hvalue
    have hreads := @ihs n (by simp only [Part.slack] at hfuel ⊢; omega) hrest
    simp only [Part.ReadWith] at hread hreads ⊢
    simp only [readItems, hread, hcomma, hreads, gatheredItems]
  | @lastMember _ _ _ t₂ _ _ _ _ hs hcolon hv hend ih =>
    obtain ⟨n, rfl⟩ := Part.exists_fuel hfuel hlt
    have hname := length_le_of_readString hs
    have hnext := length_lt_of_skipSpaces hcolon
    have hle := length_skipSpaces_le t₂
    have hvalue := hv.length_lt
    have hend' := length_lt_of_skipSpaces hend
    have hread := @ih n
      (by simp only [Part.slack, List.length_cons] at hfuel ⊢; omega) hvalue
    simp only [Part.ReadWith] at hread ⊢
    simp only [readMembers, hs, hcolon, hread, hend, gatheredMembers]
  | @member _ _ _ t₂ _ t₄ _ _ _ _ hs hcolon hv hcomma hmembers ih ihs =>
    obtain ⟨n, rfl⟩ := Part.exists_fuel hfuel hlt
    have hname := length_le_of_readString hs
    have hnext := length_lt_of_skipSpaces hcolon
    have hle := length_skipSpaces_le t₂
    have hvalue := hv.length_lt
    have hnext' := length_lt_of_skipSpaces hcomma
    have hle' := length_skipSpaces_le t₄
    have hrest := hmembers.length_lt
    have hread := @ih n
      (by simp only [Part.slack, List.length_cons] at hfuel ⊢; omega) hvalue
    have hreads := @ihs n
      (by simp only [Part.slack, List.length_cons] at hfuel ⊢; omega) hrest
    simp only [Part.ReadWith] at hread hreads ⊢
    simp only [readMembers, hs, hcolon, hread, hcomma, hreads, gatheredMembers]

/-! ## What the readers find is written -/

/-- What the readers find with so much fuel is made of what is written. -/
structure FindsWritten (gather : List (Text × Json) → Members) (fuel : Nat) : Prop where
  value {depth : Nat} {t rest : Text} {v : Json} :
    readValue gather depth fuel t = .ok (v, rest) →
      ∃ w, Reads depth t (.value w) rest ∧ gathered gather w = v
  items {depth : Nat} {t rest : Text} {vs : List Json} :
    readItems gather depth fuel t = .ok (vs, rest) →
      ∃ ws, Reads depth t (.items ws) rest ∧ gatheredItems gather ws = vs
  members {depth : Nat} {t rest : Text} {vs : List (Text × Json)} :
    readMembers gather depth fuel t = .ok (vs, rest) →
      ∃ ws, Reads depth t (.members ws) rest ∧ gatheredMembers gather ws = vs

section

variable (ih : FindsWritten gather fuel)
include ih

theorem FindsWritten.value_succ (h : readValue gather depth (fuel + 1) t = .ok (v, rest)) :
    ∃ w, Reads depth t (.value w) rest ∧ gathered gather w = v := by
  rw [readValue.eq_def] at h
  simp only at h
  split at h
  · split at h
    · simp at h
    · next hs =>
      obtain ⟨rfl, rfl⟩ := Prod.mk.inj (Except.ok.inj h)
      exact ⟨_, .string hs, rfl⟩
  · split at h
    · simp at h
    split at h
    · next hend =>
      obtain ⟨rfl, rfl⟩ := Prod.mk.inj (Except.ok.inj h)
      exact ⟨_, .emptyArray hend, rfl⟩
    · next hne =>
      split at h
      · simp at h
      next hitems =>
      obtain ⟨rfl, rfl⟩ := Prod.mk.inj (Except.ok.inj h)
      obtain ⟨ws, hreads, rfl⟩ := ih.items hitems
      exact ⟨_, .array hne hreads, rfl⟩
  · split at h
    · simp at h
    split at h
    · next hend =>
      obtain ⟨rfl, rfl⟩ := Prod.mk.inj (Except.ok.inj h)
      exact ⟨_, .emptyObject hend, rfl⟩
    · next hne =>
      split at h
      · simp at h
      next hmembers =>
      obtain ⟨rfl, rfl⟩ := Prod.mk.inj (Except.ok.inj h)
      obtain ⟨ws, hreads, rfl⟩ := ih.members hmembers
      exact ⟨_, .object hne hreads, rfl⟩
  · have hplain : readPlain t = .ok (v, rest) := h
    exact ⟨v, .plain hplain, gathered_of_isBare (isBare_of_readPlain hplain).1⟩

theorem FindsWritten.items_succ {vs : List Json}
    (h : readItems gather depth (fuel + 1) t = .ok (vs, rest)) :
    ∃ ws, Reads depth t (.items ws) rest ∧ gatheredItems gather ws = vs := by
  rw [readItems.eq_def] at h
  simp only at h
  split at h
  · simp at h
  next hvalue =>
  obtain ⟨w, hw, rfl⟩ := ih.value hvalue
  split at h
  · next hend =>
    obtain ⟨rfl, rfl⟩ := Prod.mk.inj (Except.ok.inj h)
    exact ⟨_, .lastItem hw hend, rfl⟩
  · next hcomma =>
    split at h
    · simp at h
    next hitems =>
    obtain ⟨rfl, rfl⟩ := Prod.mk.inj (Except.ok.inj h)
    obtain ⟨ws, hws, rfl⟩ := ih.items hitems
    exact ⟨_, .item hw hcomma hws, rfl⟩
  · simp at h

theorem FindsWritten.members_succ {vs : List (Text × Json)}
    (h : readMembers gather depth (fuel + 1) t = .ok (vs, rest)) :
    ∃ ws, Reads depth t (.members ws) rest ∧ gatheredMembers gather ws = vs := by
  rw [readMembers.eq_def] at h
  simp only at h
  split at h
  · split at h
    · simp at h
    next hs =>
    split at h
    · next hcolon =>
      split at h
      · simp at h
      next hvalue =>
      obtain ⟨w, hw, rfl⟩ := ih.value hvalue
      split at h
      · next hend =>
        obtain ⟨rfl, rfl⟩ := Prod.mk.inj (Except.ok.inj h)
        exact ⟨_, .lastMember hs hcolon hw hend, rfl⟩
      · next hcomma =>
        split at h
        · simp at h
        next hmembers =>
        obtain ⟨rfl, rfl⟩ := Prod.mk.inj (Except.ok.inj h)
        obtain ⟨ws, hws, rfl⟩ := ih.members hmembers
        exact ⟨_, .member hs hcolon hw hcomma hws, rfl⟩
      · simp at h
    · simp at h
  · simp at h

end

theorem findsWritten (gather : List (Text × Json) → Members) (fuel : Nat) :
    FindsWritten gather fuel := by
  induction fuel with
  | zero =>
    -- without fuel the readers find nothing
    constructor
    · intro depth t rest v h
      rw [readValue.eq_def] at h
      simp at h
    · intro depth t rest vs h
      rw [readItems.eq_def] at h
      simp at h
    · intro depth t rest vs h
      rw [readMembers.eq_def] at h
      simp at h
  | succ fuel ih => exact ⟨ih.value_succ, ih.items_succ, ih.members_succ⟩

/-! ## Documents -/

/-- A value is written in a document, with blanks around it. -/
def Written (t : Text) (w : Json) : Prop :=
  (∀ r, t ≠ .char '\uFEFF' :: r) ∧
    ∃ rest, Reads depthLimit (skipSpaces t) (.value w) rest ∧ skipSpaces rest = []

/-- Every reader reads what is written, and makes of the members what it is told. -/
theorem readWith_eq_ok_iff : readWith gather t = .ok v ↔ ∃ w, Written t w ∧ gathered gather w = v := by
  constructor
  · intro h
    unfold readWith at h
    split at h
    · simp at h
    next hmark =>
    split at h
    · simp at h
    next value rest hvalue =>
    split at h
    · next hend =>
      obtain rfl := Except.ok.inj h
      obtain ⟨w, hw, hgathered⟩ := (findsWritten gather _).value hvalue
      exact ⟨w, ⟨hmark, rest, hw, hend⟩, hgathered⟩
    · simp at h
  · rintro ⟨w, ⟨hmark, rest, hw, hend⟩, rfl⟩
    have hle := length_skipSpaces_le t
    have hread : readValue gather depthLimit (2 * t.length + 2) (skipSpaces t) =
        .ok (gathered gather w, rest) :=
      hw.readWith (by simp only [Part.slack]; omega)
    unfold readWith
    simp only [hread, hend]

/-- The text of a document says which value is written in it. -/
theorem readWritten_eq_ok_iff : readWritten t = .ok v ↔ Written t v := by
  rw [readWritten, readWith_eq_ok_iff]
  constructor
  · rintro ⟨w, hw, rfl⟩
    rwa [gathered_id]
  · exact fun h => ⟨v, h, gathered_id v⟩

/-- A text is read exactly if a value is written in it, and what is read is that value with the last
members of their names. -/
theorem read_eq_ok_iff : read t = .ok v ↔
    ∃ w, readWritten t = .ok w ∧ gathered Members.ofPairs w = v := by
  simp only [read, readWith_eq_ok_iff, readWritten_eq_ok_iff]

end WorkflowLint.Json
