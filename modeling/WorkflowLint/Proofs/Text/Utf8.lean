import Mathlib.Tactic.SplitIfs
import WorkflowLint.Text.Utf8

/-!
# Stored texts

A text can be stored exactly when none of its code points is a surrogate (`exists_encode_iff`), and
the bytes of a stored text are read as that text again (`decode_encode`).  For the second statement
the bytes of one character are taken apart by their number: each of the four lengths has a lemma on
the bytes that can stand first and second, checked over the few values their payloads can have.
-/

namespace WorkflowLint

/-- A text that can be stored in a file: none of its code points is a surrogate. -/
def Text.Storable (t : Text) : Prop := ∀ c ∈ t, c.isSurrogate = false

namespace CodePoint

/-- The numbers of characters leave out those of the surrogates. -/
theorem toNat_valid (c : Char) : c.toNat < 0xD800 ∨ 0xDFFF < c.toNat ∧ c.toNat < 0x110000 := by
  have h := c.valid
  simp only [UInt32.isValidChar, Nat.isValidChar] at h
  exact h

/-- The number of a character is the number of nothing else. -/
theorem ofNat_toNat (c : Char) : ofNat c.toNat = .char c := by
  have hv := toNat_valid c
  rw [ofNat, dif_neg (by omega), Char.ofNat_toNat]

end CodePoint

namespace Utf8

/-! ## What can be stored -/

theorem exists_encodeFrom_iff (offset : Nat) (t : Text) :
    (∃ bytes, encodeFrom offset t = .ok bytes) ↔ t.Storable := by
  induction t generalizing offset with
  | nil => simp [encodeFrom, Text.Storable]
  | cons c t ih =>
    cases c with
    | surrogate k => simp [encodeFrom, Text.Storable, CodePoint.isSurrogate]
    | char c =>
      have hc : Text.Storable (.char c :: t) ↔ Text.Storable t := by
        simp [Text.Storable, CodePoint.isSurrogate]
      rw [hc, ← ih (offset + 1), encodeFrom]
      cases encodeFrom (offset + 1) t <;> simp

/-- A text can be stored exactly when none of its code points is a surrogate. -/
theorem exists_encode_iff (t : Text) : (∃ bytes, encode t = .ok bytes) ↔ t.Storable :=
  exists_encodeFrom_iff 0 t

/-- A text that cannot be stored gives an error. -/
theorem exists_encode_error_iff (t : Text) : (∃ e, encode t = .error e) ↔ ¬ t.Storable := by
  rw [← exists_encode_iff]
  cases encode t <;> simp

/-! ## The bytes of one character -/

/-- A byte with the payload `y` behind the mark of a continuation. -/
theorem continuation {y : Nat} (hy : y < 64) :
    isContinuation (0x80 + y).toUInt8 = true ∧ payload (0x80 + y).toUInt8 = y := by
  have h : ∀ y ∈ List.range 64,
      isContinuation (0x80 + y).toUInt8 = true ∧ payload (0x80 + y).toUInt8 = y := by decide
  exact h y (List.mem_range.2 hy)

theorem first_of_one {x : Nat} (hx : x < 128) :
    sequenceLength? x.toUInt8 = some 1 ∧ x.toUInt8.toNat = x := by
  have h : ∀ x ∈ List.range 128,
      sequenceLength? x.toUInt8 = some 1 ∧ x.toUInt8.toNat = x := by decide +kernel
  exact h x (List.mem_range.2 hx)

/-- The first byte of two is not one that a shorter sequence could replace. -/
theorem first_of_two {x : Nat} (hx : x < 32) (hmin : 2 ≤ x) :
    sequenceLength? (0xC0 + x).toUInt8 = some 2 ∧
      (0xC0 + x).toUInt8.toNat % Nat.pow 2 (7 - 2) = x := by
  have h : ∀ x ∈ List.range 32, 2 ≤ x → sequenceLength? (0xC0 + x).toUInt8 = some 2 ∧
      (0xC0 + x).toUInt8.toNat % Nat.pow 2 (7 - 2) = x := by decide
  exact h x (List.mem_range.2 hx) hmin

theorem first_of_three {x : Nat} (hx : x < 16) :
    sequenceLength? (0xE0 + x).toUInt8 = some 3 ∧
      (0xE0 + x).toUInt8.toNat % Nat.pow 2 (7 - 3) = x := by
  have h : ∀ x ∈ List.range 16, sequenceLength? (0xE0 + x).toUInt8 = some 3 ∧
      (0xE0 + x).toUInt8.toNat % Nat.pow 2 (7 - 3) = x := by decide
  exact h x (List.mem_range.2 hx)

/-- The second byte of three, after which the number is neither overlong nor a surrogate. -/
theorem second_of_three_iff {x y : Nat} (hx : x < 16) (hy : y < 64) :
    maySecond (0xE0 + x).toUInt8 (0x80 + y).toUInt8 = true ↔ (x = 0 → 32 ≤ y) ∧ (x = 13 → y < 32) := by
  have h : ∀ x ∈ List.range 16, ∀ y ∈ List.range 64,
      (maySecond (0xE0 + x).toUInt8 (0x80 + y).toUInt8 = true ↔
        (x = 0 → 32 ≤ y) ∧ (x = 13 → y < 32)) := by decide +kernel
  exact h x (List.mem_range.2 hx) y (List.mem_range.2 hy)

theorem first_of_four {x : Nat} (hx : x < 5) :
    sequenceLength? (0xF0 + x).toUInt8 = some 4 ∧
      (0xF0 + x).toUInt8.toNat % Nat.pow 2 (7 - 4) = x := by
  have h : ∀ x ∈ List.range 5, sequenceLength? (0xF0 + x).toUInt8 = some 4 ∧
      (0xF0 + x).toUInt8.toNat % Nat.pow 2 (7 - 4) = x := by decide
  exact h x (List.mem_range.2 hx)

/-- The second byte of four, after which the number is neither overlong nor beyond the last one. -/
theorem second_of_four_iff {x y : Nat} (hx : x < 5) (hy : y < 64) :
    maySecond (0xF0 + x).toUInt8 (0x80 + y).toUInt8 = true ↔ (x = 0 → 16 ≤ y) ∧ (x = 4 → y < 16) := by
  have h : ∀ x ∈ List.range 5, ∀ y ∈ List.range 64,
      (maySecond (0xF0 + x).toUInt8 (0x80 + y).toUInt8 = true ↔
        (x = 0 → 16 ≤ y) ∧ (x = 4 → y < 16)) := by decide +kernel
  exact h x (List.mem_range.2 hx) y (List.mem_range.2 hy)

/-! ## Reading back -/

theorem readSequence_two {lead b : UInt8} (rest : List UInt8) (hb : isContinuation b = true) :
    readSequence lead 2 (b :: rest) =
      .ok (.ofNat (lead.toNat % Nat.pow 2 (7 - 2) * 64 + payload b)) := by
  simp only [readSequence, hb, if_true]

theorem readSequence_three {lead b c : UInt8} (rest : List UInt8) (hb : maySecond lead b = true)
    (hc : isContinuation c = true) :
    readSequence lead 3 (b :: c :: rest) =
      .ok (.ofNat ((lead.toNat % Nat.pow 2 (7 - 3) * 64 + payload b) * 64 + payload c)) := by
  simp only [readSequence, hb, hc, Bool.not_true, Bool.false_eq_true, if_false]

theorem readSequence_four {lead b c d : UInt8} (rest : List UInt8) (hb : maySecond lead b = true)
    (hc : isContinuation c = true) (hd : isContinuation d = true) :
    readSequence lead 4 (b :: c :: d :: rest) =
      .ok (.ofNat (((lead.toNat % Nat.pow 2 (7 - 4) * 64 + payload b) * 64 + payload c) * 64
        + payload d)) := by
  simp only [readSequence, hb, hc, hd, Bool.not_true, Bool.false_eq_true, if_false]

/-- Skipped bytes only move the offset. -/
theorem decodeFrom_skip (offset : Nat) (skipped rest : List UInt8) :
    decodeFrom offset skipped.length (skipped ++ rest) =
      decodeFrom (offset + skipped.length) 0 rest := by
  induction skipped generalizing offset with
  | nil => rfl
  | cons b skipped ih =>
    rw [List.length_cons, List.cons_append, decodeFrom, ih]
    congr 1
    omega

/-- A sequence that is read as a code point is read as that before whatever follows. -/
theorem decodeFrom_sequence (offset : Nat) (tail : List UInt8) {lead : UInt8} {rest : List UInt8}
    {c : CodePoint}
    (hlen : sequenceLength? lead = some (tail.length + 1))
    (hread : readSequence lead (tail.length + 1) (tail ++ rest) = .ok c) {t : Text}
    (hrest : decodeFrom (offset + 1 + tail.length) 0 rest = .ok t) :
    decodeFrom offset 0 (lead :: tail ++ rest) = .ok (c :: t) := by
  simp only [List.cons_append, decodeFrom, hlen, hread, Nat.add_sub_cancel, decodeFrom_skip, hrest]

/-- The bytes of a character are read as that character. -/
theorem decodeFrom_encodeNat (offset : Nat) (c : Char) {rest : List UInt8} {t : Text}
    (hrest : ∀ offset, decodeFrom offset 0 rest = .ok t) :
    decodeFrom offset 0 (encodeNat c.toNat ++ rest) = .ok (.char c :: t) := by
  have hv := CodePoint.toNat_valid c
  rw [← CodePoint.ofNat_toNat c]
  generalize c.toNat = n at hv ⊢
  rw [encodeNat]
  split_ifs with h₁ h₂ h₃
  · obtain ⟨hlen, hval⟩ := first_of_one h₁
    exact decodeFrom_sequence offset [] hlen (by simp [readSequence, hval]) (hrest _)
  · obtain ⟨hlen, hval⟩ := first_of_two (x := n / 64) (by omega) (by omega)
    obtain ⟨hb, pb⟩ := continuation (y := n % 64) (by omega)
    refine decodeFrom_sequence offset [_] hlen ?_ (hrest _)
    have hn : n / 64 * 64 + n % 64 = n := by omega
    rw [List.singleton_append, List.length_singleton, readSequence_two rest hb, hval, pb, hn]
  · obtain ⟨hlen, hval⟩ := first_of_three (x := n / 4096) (by omega)
    have hs := (second_of_three_iff (x := n / 4096) (y := n / 64 % 64) (by omega) (by omega)).2
      ⟨by omega, by omega⟩
    obtain ⟨-, pb⟩ := continuation (y := n / 64 % 64) (by omega)
    obtain ⟨hc, pc⟩ := continuation (y := n % 64) (by omega)
    refine decodeFrom_sequence offset [_, _] hlen ?_ (hrest _)
    have hn : (n / 4096 * 64 + n / 64 % 64) * 64 + n % 64 = n := by omega
    show readSequence _ 3 (_ :: _ :: rest) = _
    rw [readSequence_three rest hs hc, hval, pb, pc, hn]
  · obtain ⟨hlen, hval⟩ := first_of_four (x := n / 262144) (by omega)
    have hs := (second_of_four_iff (x := n / 262144) (y := n / 4096 % 64) (by omega) (by omega)).2
      ⟨by omega, by omega⟩
    obtain ⟨-, pb⟩ := continuation (y := n / 4096 % 64) (by omega)
    obtain ⟨hc, pc⟩ := continuation (y := n / 64 % 64) (by omega)
    obtain ⟨hd, pd⟩ := continuation (y := n % 64) (by omega)
    refine decodeFrom_sequence offset [_, _, _] hlen ?_ (hrest _)
    have hn : ((n / 262144 * 64 + n / 4096 % 64) * 64 + n / 64 % 64) * 64 + n % 64 = n := by omega
    show readSequence _ 4 (_ :: _ :: _ :: rest) = _
    rw [readSequence_four rest hs hc hd, hval, pb, pc, pd, hn]

theorem decodeFrom_encodeFrom {offset : Nat} {t : Text} {bytes : List UInt8}
    (h : encodeFrom offset t = .ok bytes) (start : Nat) : decodeFrom start 0 bytes = .ok t := by
  induction t generalizing offset bytes start with
  | nil =>
    obtain rfl : [] = bytes := by simpa [encodeFrom] using h
    rfl
  | cons c t ih =>
    cases c with
    | surrogate k => simp [encodeFrom] at h
    | char c =>
      rw [encodeFrom] at h
      cases ht : encodeFrom (offset + 1) t with
      | error e => simp [ht] at h
      | ok rest =>
        obtain rfl : encodeNat c.toNat ++ rest = bytes := by simpa [ht] using h
        exact decodeFrom_encodeNat start c (ih ht)

/-- The bytes of a stored text are read as that text. -/
theorem decode_encode {t : Text} {bytes : List UInt8} (h : encode t = .ok bytes) :
    decode bytes = .ok t :=
  decodeFrom_encodeFrom h 0

end Utf8
end WorkflowLint
