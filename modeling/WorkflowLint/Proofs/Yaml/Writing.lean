import WorkflowLint.Proofs.Text.LineEnds
import WorkflowLint.Yaml.Printer

/-!
# The line ends of documents

A document is written without carriage returns, whatever its texts are (`noReturn_of_print?`): a text
with one of them is written between double quotes, and there it is an escape.  So a document that was
written to a file is read from it as it is.
-/

namespace WorkflowLint.Yaml

open Text (NoReturn noReturn_append noReturn_cons noReturn_replicate)

/-! ## Scalars -/

namespace Writer

variable {w : Writer} {t run : Text} {c : CodePoint} {column fuel : Nat} {split : Bool}

/-- Nothing that has been written is a carriage return. -/
def Clean (w : Writer) : Prop := NoReturn w.reversed

theorem Clean.put (h : w.Clean) (ht : NoReturn t) : (w.put t).Clean := by
  show NoReturn (t.reverseAux w.reversed)
  rw [List.reverseAux_eq, noReturn_append]
  exact ⟨fun hmem => ht (List.mem_reverse.1 hmem), h⟩

theorem Clean.endLineWith (h : w.Clean) (hc : c ≠ .char '\r') : (w.endLineWith c).Clean :=
  noReturn_cons.2 ⟨hc, h⟩

theorem Clean.endLine (h : w.Clean) : w.endLine.Clean := h.endLineWith (by decide)

theorem Clean.indentTo (h : w.Clean) (column : Nat) : (w.indentTo column).Clean := by
  unfold Writer.indentTo
  extract_lets line
  have hline : line.Clean := by
    unfold line
    split
    · exact h.endLine
    · exact h
  split
  · have hspace : CodePoint.char ' ' ≠ .char '\r' := by decide
    exact hline.put (noReturn_replicate hspace)
  · exact hline

theorem Clean.sign (h : w.Clean) (ht : NoReturn t) : (w.sign t).Clean := by
  refine Clean.put h ?_
  split
  · exact ht
  · exact noReturn_cons.2 ⟨by decide, ht⟩

theorem Clean.entrySign (h : w.Clean) (ht : NoReturn t) : (w.entrySign t).Clean := h.sign ht

theorem Clean.closing (h : w.Clean) (ht : NoReturn t) : (w.closing t).Clean := h.put ht

theorem Clean.within (h : w.Clean) : w.within.Clean := h

theorem Clean.putBreaks (h : w.Clean) (hrun : NoReturn run) : (w.putBreaks run).Clean := by
  have hfold : ∀ w : Writer, w.Clean →
      (run.foldl (fun w c => w.endLineWith c) w).Clean := by
    induction run with
    | nil => exact fun w hw => hw
    | cons c run ih =>
      intro w hw
      obtain ⟨hc, hrun⟩ := noReturn_cons.1 hrun
      exact ih hrun _ (hw.endLineWith hc)
  unfold Writer.putBreaks
  refine hfold _ ?_
  split
  · exact h.endLine
  · exact h

theorem noReturn_run (ht : NoReturn t) (p : CodePoint → Bool) (n : Nat) :
    NoReturn (t.takeWhile p) ∧ NoReturn (t.drop n) :=
  ⟨ht.sublist (List.takeWhile_sublist p), ht.sublist (List.drop_sublist n t)⟩

theorem Clean.putPlain (h : w.Clean) (ht : NoReturn t) :
    (w.putPlain split column fuel t).Clean := by
  induction fuel generalizing t w with
  | zero => exact h
  | succ fuel ih =>
    cases t with
    | nil => exact h
    | cons c t =>
      unfold Writer.putPlain
      obtain ⟨hrun, hrest⟩ := noReturn_run ht (fun d => Scalar.isSpace d == Scalar.isSpace c)
        ((c :: t).takeWhile fun d => Scalar.isSpace d == Scalar.isSpace c).length
      refine ih ?_ hrest
      split
      · exact (h.indentTo column).within
      · exact h.put hrun

theorem Clean.plain (h : w.Clean) (ht : NoReturn t) : (w.plain split column t).Clean := by
  unfold Writer.plain
  split
  · exact h
  · refine Clean.putPlain (Clean.within ?_) ht
    split
    · exact h
    · exact h.put (by decide)

theorem Clean.putSingleQuoted {first : Bool} (h : w.Clean) (ht : NoReturn t) :
    (w.putSingleQuoted split column fuel first t).Clean := by
  induction fuel generalizing t w first with
  | zero => exact h
  | succ fuel ih =>
    cases t with
    | nil => exact h
    | cons c t =>
      unfold Writer.putSingleQuoted
      split
      · exact ih (h.put (by decide)) (noReturn_cons.1 ht).2
      · extract_lets kind taken rest line
        obtain ⟨htaken, hrest⟩ := noReturn_run ht (fun d => kind d == kind c) taken.length
        refine ih ?_ hrest
        unfold line
        split
        · exact (h.putBreaks htaken).indentTo column
        · split
          · exact h.indentTo column
          · exact h.put htaken

theorem Clean.singleQuoted (h : w.Clean) (ht : NoReturn t) :
    (w.singleQuoted split column t).Clean :=
  (Clean.putSingleQuoted (h.sign (by decide)) ht).closing (by decide)

theorem exists_digit_of_mem_toDigits {d : Char} (n : Nat) (h : d ∈ Nat.toDigits 16 n) :
    ∃ k < 16, d = Nat.digitChar k := by
  induction n using Nat.strongRecOn with
  | ind n ih =>
    by_cases hlt : n < 16
    · rw [Nat.toDigits_of_lt_base hlt, List.mem_singleton] at h
      exact ⟨n, hlt, h⟩
    · rw [Nat.toDigits_of_base_le (by decide) (by omega), List.mem_append, List.mem_singleton] at h
      obtain h | h := h
      · exact ih (n / 16) (by omega) h
      · exact ⟨n % 16, by omega, h⟩

/-- The digits of a hexadecimal numeral are no carriage returns. -/
theorem noReturn_hexNumeral (digits n : Nat) : NoReturn (hexNumeral digits n) := by
  have hdigit : ∀ k < 16, (if (CodePoint.char (Nat.digitChar k)).isLower then
      CodePoint.ofNat ((CodePoint.char (Nat.digitChar k)).val - 0x20)
        else .char (Nat.digitChar k)) ≠ .char '\r' := by decide
  intro hmem
  obtain ⟨c, hc, heq⟩ := List.mem_map.1 hmem
  obtain hc | hc := List.mem_append.1 hc
  · rw [List.eq_of_mem_replicate hc] at heq
    revert heq
    decide
  · obtain ⟨d, hd, rfl⟩ := List.mem_map.1 hc
    obtain ⟨k, hk, rfl⟩ := exists_digit_of_mem_toDigits n hd
    exact hdigit k hk heq

theorem noReturn_escape (h : escape? c = some t) : NoReturn t := by
  unfold escape? at h
  simp only at h
  split at h
  · cases h
  · obtain rfl := Option.some.inj h
    split
    · next letter hletter =>
      have hne : letter ≠ '\r' := by
        unfold escapeLetter? at hletter
        split at hletter <;> cases hletter <;> decide
      simp [hne]
    · have hstart : NoReturn "\\x" ∧ NoReturn "\\u" ∧ NoReturn "\\U" := by decide
      split
      · exact noReturn_append.2 ⟨hstart.1, noReturn_hexNumeral 2 _⟩
      · split
        · exact noReturn_append.2 ⟨hstart.2.1, noReturn_hexNumeral 4 _⟩
        · exact noReturn_append.2 ⟨hstart.2.2, noReturn_hexNumeral 8 _⟩

theorem ne_of_escape_eq_none (h : escape? c = none) : c ≠ .char '\r' := by
  rintro rfl
  revert h
  decide

theorem Clean.putDoubleQuoted {first : Bool} (h : w.Clean) (hrun : NoReturn run) :
    (w.putDoubleQuoted split column first run t).Clean := by
  induction t generalizing w run first with
  | nil => exact h.put hrun
  | cons c t ih =>
    unfold Writer.putDoubleQuoted
    extract_lets escape start left reached mayBreak keep broken next line
    have hstart : start.Clean := by
      unfold start
      cases hescape : escape with
      | some e => exact (h.put hrun).put (noReturn_escape hescape)
      | none => exact h
    have hleft : NoReturn left := by
      unfold left
      split
      · exact Text.noReturn_nil
      · exact hrun
    have hkeep : NoReturn keep := by
      unfold keep
      split
      · exact Text.noReturn_nil
      · next he =>
        have hc := ne_of_escape_eq_none (Option.not_isSome_iff_eq_none.1 he)
        exact noReturn_cons.2 ⟨hc, Text.noReturn_nil⟩
    have hslash : NoReturn "\\" := by decide
    split
    · have hbroken : broken.Clean :=
        ((hstart.put (noReturn_append.2 ⟨hleft, hslash⟩)).indentTo column).within
      refine ih ?_ hkeep
      unfold line
      split
      · exact hbroken.put hslash
      · exact hbroken
    · exact ih hstart (noReturn_append.2 ⟨hleft, hkeep⟩)

theorem Clean.doubleQuoted (h : w.Clean) : (w.doubleQuoted split column t).Clean :=
  (Clean.putDoubleQuoted (h.sign (by decide)) Text.noReturn_nil).closing (by decide)

theorem noReturn_of_mem_parts {sep : CodePoint} {part : Text} (ht : NoReturn t)
    (hpart : part ∈ t.parts sep) : NoReturn part := by
  induction t generalizing part with
  | nil =>
    rw [Text.parts, List.mem_singleton] at hpart
    exact hpart ▸ Text.noReturn_nil
  | cons c t ih =>
    obtain ⟨hc, ht⟩ := noReturn_cons.1 ht
    unfold Text.parts at hpart
    split at hpart
    · rw [List.mem_singleton.1 hpart]
      exact noReturn_cons.2 ⟨hc, Text.noReturn_nil⟩
    · next p ps hparts =>
      have hall : ∀ q ∈ p :: ps, NoReturn q := fun q hq => ih ht (hparts ▸ hq)
      obtain ⟨hp, hps⟩ := List.forall_mem_cons.1 hall
      split at hpart
      · obtain rfl | hpart := List.mem_cons.1 hpart
        · exact Text.noReturn_nil
        · exact hall part hpart
      · obtain rfl | hpart := List.mem_cons.1 hpart
        · exact noReturn_cons.2 ⟨hc, hp⟩
        · exact hps part hpart

theorem Clean.block (h : w.Clean) (ht : NoReturn t) : (w.block column t).Clean := by
  unfold Writer.block
  extract_lets lines
  have hlines : ∀ line ∈ lines, NoReturn line := fun line hline =>
    noReturn_of_mem_parts ht (List.dropLast_subset _ hline)
  have hstart : ((w.sign "|").endLine).Clean := (h.sign (by decide)).endLine
  generalize (w.sign "|").endLine = start at hstart ⊢
  clear_value lines
  induction lines generalizing start with
  | nil => exact hstart
  | cons line lines ih =>
    obtain ⟨hline, hlines⟩ := List.forall_mem_cons.1 hlines
    exact ih hlines _ ((hstart.indentTo column).put hline).endLine

/-- A text that does not need escapes has no carriage return. -/
theorem noReturn_of_needsEscapes (h : Scalar.needsEscapes t = false) : NoReturn t := by
  intro hmem
  have hspecial : t.any Scalar.isSpecial = true := List.any_eq_true.2 ⟨_, hmem, by decide⟩
  simp [Scalar.needsEscapes, hspecial] at h

/-- Only between double quotes there can be a text with a carriage return. -/
theorem noReturn_of_style {s : Scalar} {isKey : Bool} (h : s.style isKey ≠ .doubleQuoted) :
    NoReturn s.text := by
  refine noReturn_of_needsEscapes ?_
  cases hneeds : Scalar.needsEscapes s.text with
  | false => rfl
  | true =>
    refine absurd ?_ h
    simp [Scalar.style, Scalar.allowsLines, Scalar.allowsPlain, Scalar.allowsSingleQuotes, hneeds]

theorem Clean.scalar (h : w.Clean) (a : Atom) (isKey : Bool) (column : Nat) :
    (w.scalar (Scalar.ofAtom a) isKey column).Clean := by
  have htag : NoReturn (Scalar.shortTag (Scalar.ofAtom a).tag) := by
    have htags : ∀ tag ∈ [Tag.null, .bool, .integer, .real, .string, .binary, .timestamp],
        NoReturn (Scalar.shortTag tag) := by decide
    cases a <;> exact htags _ (by simp [Scalar.ofAtom])
  unfold Writer.scalar
  extract_lets style start
  have hstart : start.Clean := by
    unfold start
    split
    · exact h.sign htag
    · exact h
  have htext : style ≠ .doubleQuoted → NoReturn (Scalar.ofAtom a).text := noReturn_of_style
  clear_value style
  cases style with
  | plain => exact hstart.plain (htext (by decide))
  | singleQuoted => exact hstart.singleQuoted (htext (by decide))
  | doubleQuoted => exact hstart.doubleQuoted
  | lines => exact hstart.block (htext (by decide))

end Writer

/-! ## Documents -/

namespace Printing

variable {g : Graph} {shared : List ObjectId} {p : Printing} {id : ObjectId} {column : Nat}

/-- Nothing that has been written is a carriage return. -/
def Clean (p : Printing) : Prop := p.writer.Clean

/-- Writing on keeps what is written without carriage returns. -/
def KeepsClean (content : Printing → Printing) : Prop := ∀ p, p.Clean → (content p).Clean

theorem noReturn_anchorName (position : Nat) : NoReturn (anchorName position) := by
  intro hmem
  unfold anchorName Text.ofNatPadded at hmem
  simp only [List.mem_append, List.mem_map] at hmem
  obtain hmem | hmem | ⟨d, hd, heq⟩ := hmem
  · revert hmem
    decide
  · have hne : CodePoint.char '\r' ≠ .char '0' := by decide
    exact hne (List.eq_of_mem_replicate hmem)
  · obtain rfl := CodePoint.char.inj heq
    have hdigit := Nat.isDigit_of_mem_toDigits (by decide) (by decide) hd
    revert hdigit
    decide

theorem noReturn_of_anchorOf? {name : Text} (h : anchorOf? shared id = some name) :
    NoReturn name := by
  obtain ⟨position, -, rfl⟩ := Option.map_eq_some_iff.1 h
  exact noReturn_anchorName position

theorem KeepsClean.object {content : Printing → Printing} (h : KeepsClean content) :
    KeepsClean (object shared id content) := by
  intro p hp
  unfold Printing.object
  split
  · exact h p hp
  · next name hname =>
    have hanchor : ∀ c : CodePoint, c ≠ .char '\r' → NoReturn (c :: name) := fun c hc =>
      noReturn_cons.2 ⟨hc, noReturn_of_anchorOf? hname⟩
    split
    · exact Writer.Clean.sign hp (hanchor _ (by decide))
    · exact h _ (Writer.Clean.sign hp (hanchor _ (by decide)))

theorem keepsClean_scalar (column : Option Nat) (isKey : Bool) (a : Atom) :
    KeepsClean fun p => p.scalar column isKey (Scalar.ofAtom a) :=
  fun _ hp => Writer.Clean.scalar hp a isKey _

theorem keepsClean_itemSign (column : Nat) : KeepsClean (itemSign column) :=
  fun _ hp => (Writer.Clean.indentTo hp column).entrySign (by decide)

theorem keepsClean_key (column : Nat) (id : ObjectId) : KeepsClean (key g shared column id) := by
  intro p hp
  have hcontent : ∀ isKey, KeepsClean (Printing.object shared id fun p =>
      p.scalar (some column) isKey (Scalar.ofAtom (g.atomAt id))) := fun isKey =>
    (keepsClean_scalar (some column) isKey (g.atomAt id)).object
  have hline : (p.write (·.indentTo column)).Clean := Writer.Clean.indentTo hp column
  unfold Printing.key
  extract_lets line content
  split
  · exact Writer.Clean.closing (hcontent true _ hline) (by decide)
  · have hsign : (line.write (·.entrySign "?")).Clean := Writer.Clean.entrySign hline (by decide)
    exact (Writer.Clean.indentTo (hcontent false _ hsign) column).entrySign (by decide)

theorem keepsClean_foldl {α : Type} {part : Printing → α → Printing}
    (hpart : ∀ a, KeepsClean fun p => part p a) (parts : List α) :
    KeepsClean fun p => parts.foldl part p := by
  intro p hp
  induction parts generalizing p with
  | nil => exact hp
  | cons a parts ih => exact ih _ (hpart a p hp)

theorem keepsClean_collection {α : Type} {brackets : Text} {part : Printing → α → Printing}
    (hbrackets : NoReturn brackets) (hpart : ∀ a, KeepsClean fun p => part p a) (parts : List α) :
    KeepsClean (collection brackets parts part) := by
  intro p hp
  unfold collection
  split
  · exact Writer.Clean.sign hp hbrackets
  · exact keepsClean_foldl hpart parts p hp

theorem keepsClean_value (fuel : Nat) (column : Option Nat) (inMapping : Bool) (id : ObjectId) :
    KeepsClean (value g shared fuel column inMapping id) := by
  induction fuel generalizing column inMapping id with
  | zero => exact fun p hp => hp
  | succ fuel ih =>
    have hitem : ∀ column id, KeepsClean fun p =>
        value g shared fuel (some column) false id (p.itemSign column) :=
      fun column id p hp => ih _ _ _ _ (keepsClean_itemSign column p hp)
    refine KeepsClean.object fun p hp => ?_
    split
    · next a _ => exact keepsClean_scalar column false a p hp
    · next items _ => exact keepsClean_collection (by decide) (hitem _) items p hp
    · next first second _ => exact keepsClean_foldl (hitem _) [first, second] p hp
    · next members _ =>
      have htag : NoReturn (Scalar.shortTag .set) := by decide
      refine keepsClean_collection (by decide) (fun id p hp => ?_) members _
        (Writer.Clean.sign hp htag)
      exact keepsClean_scalar (some (deeper column)) false .null _ (keepsClean_key _ id p hp)
    · next entries _ =>
      refine keepsClean_collection (by decide) (fun e p hp => ?_) entries p hp
      exact ih _ _ _ _ (keepsClean_key _ e.1 p hp)

end Printing

/-- A document is written without carriage returns. -/
theorem noReturn_of_print? {g : Graph} {t : Text} (h : print? g = .ok t) : NoReturn t := by
  unfold print? at h
  extract_lets o p at h
  split at h
  · cases h
  · obtain rfl := Except.ok.inj h
    have hempty : Printing.Clean ⟨.empty, []⟩ := Text.noReturn_nil
    have hp : p.Clean := Printing.keepsClean_value _ none false g.root _ hempty
    intro hmem
    exact Writer.Clean.indentTo hp 0 (List.mem_reverse.1 hmem)

end WorkflowLint.Yaml
