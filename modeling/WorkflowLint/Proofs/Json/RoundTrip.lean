import WorkflowLint.Proofs.Json.Fits
import WorkflowLint.Proofs.Json.Number
import WorkflowLint.Proofs.Json.String

/-!
# Documents read back

A value that fits is read back as it was written (`readsBack_of_fits`), by induction on how it
fits: a value is followed in its document by a comma or a new line, and every step of reading takes
a code point of the text, so that its length is fuel enough.  For a document this is `read_print`; as
a document that was read fits, it can be printed and read again without any loss (`reprinting_lossless`).
-/

namespace WorkflowLint.Json

/-- A value is read back from what it is written as. -/
def ReadsBack (depth : Nat) (v : Json) : Prop :=
  ∀ level fuel rest, (write level v).length < fuel → Follows rest →
    readValue Members.ofPairs depth fuel (write level v ++ rest) = .ok (v, rest)

variable {depth fuel level outer : Nat} {t rest : Text} {c : CodePoint} {v : Json}

/-! ## Blanks -/

theorem skipSpaces_cons (h : isSpace c = false) : skipSpaces (c :: t) = c :: t :=
  List.dropWhile_cons_of_neg (by simp [h])

theorem skipSpaces_newLine (level : Nat) (t : Text) :
    skipSpaces (newLine level ++ t) = skipSpaces t := by
  have hall : ∀ c ∈ newLine level, isSpace c = true := by
    intro c hc
    rcases List.mem_cons.1 hc with rfl | hc
    · rfl
    · rw [List.eq_of_mem_replicate hc]
      rfl
  exact List.dropWhile_append_of_pos hall

theorem isSpace_of_isDigit (h : c.isDigit = true) : isSpace c = false := by
  rw [← Bool.not_eq_true]
  intro hs
  simp only [isSpace, Bool.or_eq_true, beq_iff_eq] at hs
  rcases hs with ((rfl | rfl) | rfl) | rfl <;> exact absurd h (by decide)

/-! ## Where values start -/

/-- A code point with which a value can start: no blank, no bracket that closes an array, and no
mark of the byte order. -/
def Starts (c : CodePoint) : Prop :=
  isSpace c = false ∧ c ≠ .char ']' ∧ c ≠ .char '\uFEFF'

theorem starts_of_isDigit (h : c.isDigit = true) : Starts c := by
  refine ⟨isSpace_of_isDigit h, ?_, ?_⟩
  · rintro rfl
    exact absurd h (by decide)
  · rintro rfl
    exact absurd h (by decide)

theorem starts_minus : Starts (.char '-') := ⟨by decide, by decide, by decide⟩

/-- A number that is read starts with a digit. -/
theorem exists_digit_of_readNumber {start : Text} {negative : Bool} {found : Json × Text}
    (h : readNumber start negative t = .ok found) : ∃ c t', t = c :: t' ∧ c.isDigit = true := by
  cases t with
  | nil => simp [readNumber, whole, digits] at h
  | cons c t =>
    refine ⟨c, t, rfl, ?_⟩
    by_contra hc
    rw [Bool.not_eq_true] at hc
    have hwhole : whole (c :: t) = [] := by
      unfold whole
      split
      · next heq =>
        obtain ⟨rfl, -⟩ := List.cons.inj heq
        exact absurd hc (by decide)
      · exact List.takeWhile_cons_of_neg (by simp [hc])
    simp [readNumber, hwhole] at h

/-! ## Scalars -/

theorem ne_of_isDigit (h : c.isDigit = true) {d : Char} (hd : d.isDigit = false) :
    .char d ≠ c := by
  rintro rfl
  exact Bool.false_ne_true (hd.symm.trans h)

theorem readWord_of_isDigit (h : c.isDigit = true) : readWord? (c :: t) = none := by
  have hne : ∀ d : Char, d.isDigit = false → CodePoint.char d ≠ c := fun _ => ne_of_isDigit h
  simp [readWord?, Text.afterStart?, Text.ofString, hne 'n' rfl, hne 't' rfl, hne 'f' rfl,
    hne 'N' rfl, hne 'I' rfl, hne '-' rfl]

theorem readWord_negative (h : c.isDigit = true) : readWord? (.char '-' :: c :: t) = none := by
  simp [readWord?, Text.afterStart?, Text.ofString, ne_of_isDigit h (d := 'I') rfl]

/-- Where a digit lies ahead, a number is read. -/
theorem readValue_of_isDigit (h : c.isDigit = true) :
    readValue Members.ofPairs depth (fuel + 1) (c :: t) = readNumber (c :: t) false (c :: t) := by
  have hne : ∀ d : Char, d.isDigit = false → c ≠ .char d := fun _ hd => (ne_of_isDigit h hd).symm
  rw [readValue.eq_def]
  simp only
  split
  · next heq => exact absurd (List.cons.inj heq).1 (hne _ (by decide))
  · next heq => exact absurd (List.cons.inj heq).1 (hne _ (by decide))
  · next heq => exact absurd (List.cons.inj heq).1 (hne _ (by decide))
  · rw [readWord_of_isDigit h]
    simp only
    split
    · next heq => exact absurd (List.cons.inj heq).1 (hne _ (by decide))
    · rfl

/-- Where a sign and a digit lie ahead, a negative number is read. -/
theorem readValue_negative (h : c.isDigit = true) :
    readValue Members.ofPairs depth (fuel + 1) (.char '-' :: c :: t) =
      readNumber (.char '-' :: c :: t) true (c :: t) := by
  have hword := readWord_negative (t := t) h
  rw [readValue.eq_def]
  simp only
  generalize readWord? (.char '-' :: c :: t) = found at hword
  subst hword
  rfl

/-- A number is read with the sign before it. -/
theorem readValue_signed (depth : Nat) {found : Bool → Json} (hfuel : 0 < fuel) (hne : t ≠ [])
    (negative : Bool)
    (h : ∀ start negative, readNumber start negative (t ++ rest) = .ok (found negative, rest)) :
    readValue Members.ofPairs depth fuel (RealLayout.sign negative ++ t ++ rest) =
      .ok (found negative, rest) := by
  obtain ⟨n, rfl⟩ := Nat.exists_eq_succ_of_ne_zero hfuel.ne'
  obtain ⟨c, t', rfl⟩ := List.exists_cons_of_ne_nil hne
  obtain ⟨d, t'', heq, hd⟩ := exists_digit_of_readNumber (h [] negative)
  obtain ⟨rfl, -⟩ := List.cons.inj heq
  cases negative with
  | false => exact (readValue_of_isDigit hd).trans (h _ _)
  | true => exact (readValue_negative hd).trans (h _ _)

theorem ofInt_eq (n : Int) :
    Text.ofInt n = RealLayout.sign (decide (n < 0)) ++ Text.ofNat n.natAbs := by
  cases n with
  | ofNat n => rfl
  | negSucc n =>
    rw [decide_eq_true (Int.negSucc_lt_zero n)]
    rfl

theorem exists_digit_renderMagnitude (m : Magnitude) :
    ∃ c t, RealLayout.json.renderMagnitude m = c :: t ∧ c.isDigit = true := by
  have hread := readNumber_renderMagnitude [] false m (.line [])
  obtain ⟨c, t, heq, hc⟩ := exists_digit_of_readNumber hread
  cases hr : RealLayout.json.renderMagnitude m with
  | nil =>
    rw [hr] at heq
    obtain ⟨rfl, -⟩ := List.cons.inj heq
    exact absurd hc (by decide)
  | cons d t' =>
    rw [hr] at heq
    obtain ⟨rfl, -⟩ := List.cons.inj heq
    exact ⟨d, t', rfl, hc⟩

theorem renderMagnitude_ne_nil (m : Magnitude) : RealLayout.json.renderMagnitude m ≠ [] := by
  obtain ⟨c, t, heq, -⟩ := exists_digit_renderMagnitude m
  rw [heq]
  exact List.cons_ne_nil c t

theorem readsBack_null : ReadsBack depth .null := by
  rintro level (_ | fuel) rest hfuel -
  · exact absurd hfuel (Nat.not_lt_zero _)
  · rfl

theorem readsBack_bool (b : Bool) : ReadsBack depth (.bool b) := by
  rintro level (_ | fuel) rest hfuel -
  · exact absurd hfuel (Nat.not_lt_zero _)
  · cases b <;> rfl

theorem readsBack_integer {n : Int} (hn : n.natAbs < 10 ^ digitLimit) :
    ReadsBack depth (.integer n) := by
  intro level fuel rest hfuel hrest
  have hlen : (Text.ofNat n.natAbs).length ≤ digitLimit :=
    (Text.length_ofNat_le_iff (by decide)).2 hn
  have hread := readValue_signed depth (Nat.zero_lt_of_lt hfuel)
    (Text.ofNat_ne_nil n.natAbs) (decide (n < 0)) fun start negative =>
      readNumber_integer start negative (isWhole_ofNat n.natAbs) hlen hrest
  rw [write, ofInt_eq, hread, Text.toNat_ofNat]
  congr 3
  by_cases hneg : n < 0
  · rw [decide_eq_true hneg, if_pos rfl]
    omega
  · rw [decide_eq_false hneg, if_neg Bool.false_ne_true]
    omega

theorem readsBack_real (x : Binary64) : ReadsBack depth (.real x) := by
  rintro level (_ | fuel) rest hfuel hrest
  · exact absurd hfuel (Nat.not_lt_zero _)
  cases x with
  | nan => rfl
  | infinite negative => cases negative <;> rfl
  | finite negative m =>
    exact readValue_signed depth (Nat.zero_lt_of_lt hfuel) (renderMagnitude_ne_nil m) negative
      fun start negative => readNumber_renderMagnitude start negative m hrest

theorem readsBack_string (s : Text) : ReadsBack depth (.string s) := by
  rintro level (_ | fuel) rest hfuel -
  · exact absurd hfuel (Nat.not_lt_zero _)
  · rw [write, writeString_append, readValue.eq_def]
    simp only [readString_written]

/-! ## Collections -/

theorem exists_starts_signed (negative : Bool) (h : c.isDigit = true) (t : Text) :
    ∃ d t', RealLayout.sign negative ++ c :: t = d :: t' ∧ Starts d := by
  cases negative with
  | false => exact ⟨c, t, rfl, starts_of_isDigit h⟩
  | true => exact ⟨.char '-', c :: t, rfl, starts_minus⟩

/-- What a value is written as starts with neither a blank nor a closing bracket. -/
theorem exists_starts_write (level : Nat) (v : Json) :
    ∃ c t, write level v = c :: t ∧ Starts c := by
  cases v with
  | null => exact ⟨_, _, rfl, by decide, by decide, by decide⟩
  | bool b => cases b <;> exact ⟨_, _, rfl, by decide, by decide, by decide⟩
  | string s => exact ⟨_, _, rfl, by decide, by decide, by decide⟩
  | integer n =>
    obtain ⟨c, t, heq⟩ := List.exists_cons_of_ne_nil (Text.ofNat_ne_nil n.natAbs)
    have hall := Text.allDigits_ofNat n.natAbs
    rw [heq] at hall
    rw [write, ofInt_eq, heq]
    exact exists_starts_signed _ (Text.allDigits_cons.1 hall).1 t
  | real x =>
    cases x with
    | nan => exact ⟨_, _, rfl, by decide, by decide, by decide⟩
    | infinite negative =>
      cases negative <;> exact ⟨_, _, rfl, by decide, by decide, by decide⟩
    | finite negative m =>
      obtain ⟨c, t, heq, hc⟩ := exists_digit_renderMagnitude m
      rw [write, RealLayout.render, heq]
      exact exists_starts_signed negative hc t
  | array items => cases items <;> exact ⟨_, _, rfl, by decide, by decide, by decide⟩
  | object members =>
    rcases members with _ | ⟨⟨name, value⟩, members⟩ <;>
      exact ⟨_, _, rfl, by decide, by decide, by decide⟩

theorem skipSpaces_write (level : Nat) (v : Json) (t : Text) :
    skipSpaces (write level v ++ t) = write level v ++ t := by
  obtain ⟨c, t', heq, hc⟩ := exists_starts_write level v
  rw [heq]
  exact skipSpaces_cons hc.1

theorem skipSpaces_writeString (s t : Text) :
    skipSpaces (writeString s ++ t) = writeString s ++ t := by
  rw [writeString_append]
  exact skipSpaces_cons rfl

theorem skipSpaces_space (t : Text) : skipSpaces (.char ' ' :: t) = skipSpaces t := rfl

/-- The items of an array are read back, up to its closing bracket. -/
theorem readItems_write (level outer fuel : Nat) (rest : Text) {item : Json} {items : List Json}
    (h : ∀ v ∈ item :: items, ReadsBack depth v)
    (hfuel : (write level item).length + (writeItems level items).length + 1 < fuel) :
    readItems Members.ofPairs depth fuel (write level item ++
        (writeItems level items ++ (newLine outer ++ .char ']' :: rest))) =
      .ok (item :: items, rest) := by
  induction items generalizing item fuel with
  | nil =>
    obtain ⟨n, rfl⟩ := Nat.exists_eq_succ_of_ne_zero (Nat.zero_lt_of_lt hfuel).ne'
    have hread := h item List.mem_cons_self level n (newLine outer ++ .char ']' :: rest)
      (by omega) (.line _)
    rw [writeItems, List.nil_append, readItems, hread]
    simp only [skipSpaces_newLine]
    rfl
  | cons next items ih =>
    obtain ⟨n, rfl⟩ := Nat.exists_eq_succ_of_ne_zero (Nat.zero_lt_of_lt hfuel).ne'
    have hitems : writeItems level (next :: items) ++ (newLine outer ++ .char ']' :: rest) =
        .char ',' :: (newLine level ++ (write level next ++
          (writeItems level items ++ (newLine outer ++ .char ']' :: rest)))) := by
      simp [writeItems, Text.ofString]
    have hlen : (writeItems level (next :: items)).length =
        1 + (newLine level).length + (write level next).length +
          (writeItems level items).length := by
      simp [writeItems, Text.ofString]
      omega
    rw [hlen] at hfuel
    -- the item is read up to its comma, and the others from behind the line end
    have hread := h item List.mem_cons_self level n _ (by omega) (.comma (newLine level ++
      (write level next ++ (writeItems level items ++ (newLine outer ++ .char ']' :: rest)))))
    have hnext := ih n (fun v hv => h v (List.mem_cons_of_mem item hv)) (by omega)
    rw [hitems, readItems, hread]
    simp only [skipSpaces_cons (c := .char ',') rfl, skipSpaces_newLine, skipSpaces_write, hnext]

/-- The members of an object are read back, up to its closing brace. -/
theorem readMembers_write (level outer fuel : Nat) (rest name : Text) (value : Json)
    {members : Members} (h : ∀ m ∈ (name, value) :: members, ReadsBack depth m.2)
    (hfuel : (write level value).length + (writeMembers level members).length + 1 < fuel) :
    readMembers Members.ofPairs depth fuel (writeString name ++ (.char ':' :: .char ' ' ::
        (write level value ++
          (writeMembers level members ++ (newLine outer ++ .char '\x7d' :: rest))))) =
      .ok ((name, value) :: members, rest) := by
  induction members generalizing name value fuel with
  | nil =>
    obtain ⟨n, rfl⟩ := Nat.exists_eq_succ_of_ne_zero (Nat.zero_lt_of_lt hfuel).ne'
    have hvalue : ReadsBack depth value := h (name, value) List.mem_cons_self
    have hread := hvalue level n (newLine outer ++ .char '\x7d' :: rest) (by omega) (.line _)
    rw [writeMembers, List.nil_append, writeString_append, readMembers]
    simp only [readString_written, skipSpaces_cons (c := .char ':') rfl, skipSpaces_space,
      skipSpaces_write, hread, skipSpaces_newLine]
    rfl
  | cons next members ih =>
    obtain ⟨nextName, nextValue⟩ := next
    obtain ⟨n, rfl⟩ := Nat.exists_eq_succ_of_ne_zero (Nat.zero_lt_of_lt hfuel).ne'
    have hmembers : writeMembers level ((nextName, nextValue) :: members) ++
          (newLine outer ++ .char '\x7d' :: rest) =
        .char ',' :: (newLine level ++ (writeString nextName ++ (.char ':' :: .char ' ' ::
          (write level nextValue ++
            (writeMembers level members ++ (newLine outer ++ .char '\x7d' :: rest)))))) := by
      simp [writeMembers, Text.ofString]
    have hlen : (write level nextValue).length + (writeMembers level members).length + 1 <
        (writeMembers level ((nextName, nextValue) :: members)).length := by
      simp [writeMembers, Text.ofString]
      omega
    have hvalue : ReadsBack depth value := h (name, value) List.mem_cons_self
    have hread := hvalue level n _ (by omega) (.comma (newLine level ++
      (writeString nextName ++ (.char ':' :: .char ' ' :: (write level nextValue ++
        (writeMembers level members ++ (newLine outer ++ .char '\x7d' :: rest)))))))
    have hnext := ih n nextName nextValue (fun m hm => h m (List.mem_cons_of_mem _ hm)) (by omega)
    rw [hmembers, writeString_append name, readMembers]
    simp only [readString_written, skipSpaces_cons (c := .char ':') rfl, skipSpaces_space,
      skipSpaces_write, hread, skipSpaces_cons (c := .char ',') rfl, skipSpaces_newLine,
      skipSpaces_writeString, hnext]

theorem readsBack_array {items : List Json} (h : ∀ v ∈ items, ReadsBack depth v) :
    ReadsBack (depth + 1) (.array items) := by
  rintro level (_ | fuel) rest hfuel -
  · exact absurd hfuel (Nat.not_lt_zero _)
  cases items with
  | nil => rfl
  | cons item items =>
    have hwrite : write level (.array (item :: items)) ++ rest =
        .char '[' :: (newLine (level + 1) ++ (write (level + 1) item ++
          (writeItems (level + 1) items ++ (newLine level ++ .char ']' :: rest)))) := by
      simp [write, Text.ofString]
    have hlen : (write (level + 1) item).length + (writeItems (level + 1) items).length + 2 <
        (write level (.array (item :: items))).length := by
      simp [write, Text.ofString, newLine]
      omega
    have hread := readItems_write (level + 1) level fuel rest h (by omega)
    obtain ⟨c, t, hstart, hspace, hc, -⟩ := exists_starts_write (level + 1) item
    have hskip := skipSpaces_write (level + 1) item
      (writeItems (level + 1) items ++ (newLine level ++ .char ']' :: rest))
    rw [hwrite, readValue.eq_def]
    simp only [skipSpaces_newLine, hskip]
    rw [hstart, List.cons_append] at hread ⊢
    split
    · next heq => exact absurd (List.cons.inj heq).1 hc
    · rw [hread]

theorem readsBack_object {members : Members} (hnodup : (members.map (·.1)).Nodup)
    (h : ∀ m ∈ members, ReadsBack depth m.2) : ReadsBack (depth + 1) (.object members) := by
  rintro level (_ | fuel) rest hfuel -
  · exact absurd hfuel (Nat.not_lt_zero _)
  rcases members with _ | ⟨⟨name, value⟩, members⟩
  · rfl
  · have hwrite : write level (.object ((name, value) :: members)) ++ rest =
        .char '\x7b' :: (newLine (level + 1) ++ (writeString name ++ (.char ':' :: .char ' ' ::
          (write (level + 1) value ++ (writeMembers (level + 1) members ++
            (newLine level ++ .char '\x7d' :: rest)))))) := by
      simp [write, Text.ofString]
    have hlen : (write (level + 1) value).length + (writeMembers (level + 1) members).length + 2 <
        (write level (.object ((name, value) :: members))).length := by
      simp [write, Text.ofString, newLine]
      omega
    have hread := readMembers_write (level + 1) level fuel rest name value h (by omega)
    have hpairs : Members.ofPairs ((name, value) :: members) = (name, value) :: members :=
      Keyed.ofPairs_of_nodup hnodup
    rw [hwrite, readValue.eq_def]
    simp only [skipSpaces_newLine, skipSpaces_writeString]
    rw [writeString_append] at hread ⊢
    split
    · next heq => exact absurd (List.cons.inj heq).1 (by decide)
    · simp only [hread, hpairs]

/-- A value that fits is read back. -/
theorem readsBack_of_fits (h : Fits depth v) : ReadsBack depth v := by
  -- by the values inside; in each collection the hypothesis is for the level of its items
  induction h with
  | null => exact readsBack_null
  | bool b => exact readsBack_bool b
  | integer hn => exact readsBack_integer hn
  | real x => exact readsBack_real x
  | string s => exact readsBack_string s
  | array _ ih => exact readsBack_array ih
  | object hnodup _ ih => exact readsBack_object hnodup ih

/-- A document that fits is read back from what it is printed as. -/
theorem read_print (h : Fits depthLimit v) : read (print v) = .ok v := by
  have hprint : print v = write 0 v ++ [.char '\n'] := rfl
  have hread : readValue Members.ofPairs depthLimit (2 * (print v).length + 2) (print v) =
      .ok (v, [.char '\n']) := by
    refine readsBack_of_fits h 0 _ [.char '\n'] ?_ (.line [])
    rw [hprint, List.length_append]
    omega
  have hskip : skipSpaces (print v) = print v := skipSpaces_write 0 v _
  obtain ⟨c, t, hstart, -, -, hmark⟩ := exists_starts_write 0 v
  unfold read readWith
  split
  · next heq =>
    rw [hprint, hstart] at heq
    exact absurd (List.cons.inj heq).1 hmark
  · rw [hskip, hread]
    rfl

theorem readObject_print {document : Members} (h : Fits depthLimit (.object document)) :
    readObject (print (.object document)) = .ok (some document) :=
  readObject_eq_ok_iff.2 (read_print h)

/-- A document that is an object is read back from what it is printed as, whatever text it was read from, and
whatever is read back is printed as the same text. -/
theorem reprinting_lossless {document : Members} (h : readObject t = .ok (some document)) :
    readObject (print (.object document)) = .ok (some document) ∧
      ∀ again, readObject (print (.object document)) = .ok (some again) →
        print (.object again) = print (.object document) := by
  have hback := readObject_print (fits_of_read (readObject_eq_ok_iff.1 h))
  refine ⟨hback, fun again hagain => ?_⟩
  rw [hback] at hagain
  obtain rfl := Option.some.inj (Except.ok.inj hagain)
  rfl

/-- A document with a name that stands twice, numbers that are none, a lone surrogate, and what else is
written in another way than it was read. -/
def unevenText : Text :=
  "\x7b\"a\":\x7b\x7d, \"b\":[true,1, 1.0,-0.0,NaN,-Infinity,1E400,123456789012345678901234567890],\r"
    ++ " \"a\":[ ], \"c\":\"\\u0001\\ud800\\u2028\\ud83d\\ude00\\/\" \x7d"

theorem reprinting_lossless_unevenText :
    ∃ document, readObject unevenText = .ok (some document) ∧
      document.map (·.1) = ["a", "b", "c"] ∧ print (.object document) ≠ unevenText ∧
      readObject (print (.object document)) = .ok (some document) ∧
      ∀ again, readObject (print (.object document)) = .ok (some again) →
        print (.object again) = print (.object document) := by
  have hany : (readObject unevenText).toOption.any (fun found => found.any fun (document : Members) =>
      document.map (·.1) = ["a", "b", "c"] ∧ print (.object document) ≠ unevenText) = true := by
    decide +kernel
  obtain ⟨document, hread, htest⟩ := exists_read_of_any hany
  obtain ⟨hnames, hdiffers⟩ := of_decide_eq_true htest
  have hobject := readObject_eq_ok_iff.2 hread
  exact ⟨document, hobject, hnames, hdiffers, reprinting_lossless hobject⟩

end WorkflowLint.Json
