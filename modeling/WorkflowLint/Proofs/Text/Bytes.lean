import Mathlib.Data.Nat.Init
import WorkflowLint.Proofs.Text.LineEnds
import WorkflowLint.Proofs.Text.Utf8

/-!
# The bytes of texts

Bytes that are read as a text are the bytes of that text (`encode_decode`), so that no two sequences
of bytes are read as the same one.  The bytes of a text are those of its code points one after the
other (`encode_eq_ok_iff`), and it has a carriage return exactly if its bytes have one
(`return_mem_bytes_iff`).
-/

namespace WorkflowLint

namespace CodePoint

/-- The number of a character is read as one. -/
theorem exists_ofNat_eq_char {n : Nat} (h : n < 0xD800 ∨ 0xDFFF < n ∧ n < 0x110000) :
    ∃ c : Char, ofNat n = .char c ∧ c.toNat = n := by
  refine ⟨Char.ofNat n, by rw [ofNat, dif_neg (by omega)], ?_⟩
  have hvalid : n.isValidChar := by
    unfold Nat.isValidChar
    omega
  rw [Char.ofNat, dif_pos hvalid]
  rfl

/-- The bytes of a code point. -/
def bytes : CodePoint → List UInt8
  | .char c => Utf8.encodeNat c.toNat
  | .surrogate _ => []

end CodePoint

/-- The bytes of a text, if it can be stored. -/
def Text.bytes (t : Text) : List UInt8 := t.flatMap CodePoint.bytes

namespace Utf8

/-! ## Writing code point by code point -/

theorem encodeFrom_eq_ok_iff (offset : Nat) (t : Text) (bytes : List UInt8) :
    encodeFrom offset t = .ok bytes ↔ t.Storable ∧ t.bytes = bytes := by
  induction t generalizing offset bytes with
  | nil => simp [encodeFrom, Text.Storable, Text.bytes]
  | cons c t ih =>
    cases c with
    | surrogate k => simp [encodeFrom, Text.Storable, CodePoint.isSurrogate]
    | char c =>
      have hstorable : Text.Storable (.char c :: t) ↔ Text.Storable t := by
        simp [Text.Storable, CodePoint.isSurrogate]
      have hbytes : Text.bytes (.char c :: t) = encodeNat c.toNat ++ Text.bytes t := rfl
      rw [hstorable, hbytes, encodeFrom]
      cases hrest : encodeFrom (offset + 1) t with
      | error e =>
        refine iff_of_false (by simp) fun h => ?_
        rw [(ih (offset + 1) (Text.bytes t)).2 ⟨h.1, rfl⟩] at hrest
        cases hrest
      | ok rest =>
        obtain ⟨ht, rfl⟩ := (ih (offset + 1) rest).1 hrest
        simp [ht]

/-- The bytes of a text are those of its code points. -/
theorem encode_eq_ok_iff {t : Text} {bytes : List UInt8} :
    encode t = .ok bytes ↔ t.Storable ∧ t.bytes = bytes := encodeFrom_eq_ok_iff 0 t bytes

/-! ## The bytes of one code point -/

section

variable {x y z u : Nat}

theorem bytes_ofNat_one (hx : x < 128) :
    (CodePoint.ofNat x).isSurrogate = false ∧ (CodePoint.ofNat x).bytes = [x.toUInt8] := by
  obtain ⟨c, hc, hnat⟩ := CodePoint.exists_ofNat_eq_char (n := x) (by omega)
  rw [hc, CodePoint.bytes, hnat, encodeNat, if_pos hx]
  exact ⟨rfl, rfl⟩

theorem bytes_ofNat_two (hx : x < 32) (hmin : 2 ≤ x) (hy : y < 64) :
    (CodePoint.ofNat (x * 64 + y)).isSurrogate = false ∧
      (CodePoint.ofNat (x * 64 + y)).bytes = [(0xC0 + x).toUInt8, (0x80 + y).toUInt8] := by
  obtain ⟨c, hc, hnat⟩ := CodePoint.exists_ofNat_eq_char (n := x * 64 + y) (by omega)
  have hfirst : (x * 64 + y) / 64 = x := by omega
  have hlast : (x * 64 + y) % 64 = y := by omega
  rw [hc, CodePoint.bytes, hnat, encodeNat, if_neg (by omega), if_pos (by omega), hfirst, hlast]
  exact ⟨rfl, rfl⟩

theorem bytes_ofNat_three (hx : x < 16) (hy : y < 64) (hz : z < 64)
    (hsecond : (x = 0 → 32 ≤ y) ∧ (x = 13 → y < 32)) :
    (CodePoint.ofNat ((x * 64 + y) * 64 + z)).isSurrogate = false ∧
      (CodePoint.ofNat ((x * 64 + y) * 64 + z)).bytes =
        [(0xE0 + x).toUInt8, (0x80 + y).toUInt8, (0x80 + z).toUInt8] := by
  obtain ⟨c, hc, hnat⟩ := CodePoint.exists_ofNat_eq_char (n := (x * 64 + y) * 64 + z) (by omega)
  have hfirst : ((x * 64 + y) * 64 + z) / 4096 = x := by omega
  have hmiddle : ((x * 64 + y) * 64 + z) / 64 % 64 = y := by omega
  have hlast : ((x * 64 + y) * 64 + z) % 64 = z := by omega
  rw [hc, CodePoint.bytes, hnat, encodeNat, if_neg (by omega), if_neg (by omega), if_pos (by omega),
    hfirst, hmiddle, hlast]
  exact ⟨rfl, rfl⟩

theorem bytes_ofNat_four (hx : x < 5) (hy : y < 64) (hz : z < 64) (hu : u < 64)
    (hsecond : (x = 0 → 16 ≤ y) ∧ (x = 4 → y < 16)) :
    (CodePoint.ofNat (((x * 64 + y) * 64 + z) * 64 + u)).isSurrogate = false ∧
      (CodePoint.ofNat (((x * 64 + y) * 64 + z) * 64 + u)).bytes =
        [(0xF0 + x).toUInt8, (0x80 + y).toUInt8, (0x80 + z).toUInt8, (0x80 + u).toUInt8] := by
  obtain ⟨c, hc, hnat⟩ :=
    CodePoint.exists_ofNat_eq_char (n := ((x * 64 + y) * 64 + z) * 64 + u) (by omega)
  have hfirst : (((x * 64 + y) * 64 + z) * 64 + u) / 262144 = x := by omega
  have hsecond' : (((x * 64 + y) * 64 + z) * 64 + u) / 4096 % 64 = y := by omega
  have hthird : (((x * 64 + y) * 64 + z) * 64 + u) / 64 % 64 = z := by omega
  have hlast : (((x * 64 + y) * 64 + z) * 64 + u) % 64 = u := by omega
  rw [hc, CodePoint.bytes, hnat, encodeNat, if_neg (by omega), if_neg (by omega),
    if_neg (by omega), hfirst, hsecond', hthird, hlast]
  exact ⟨rfl, rfl⟩

end

/-! ## Bytes that are read -/

/-- What holds of the first 256 numbers as bytes holds of all bytes. -/
theorem forall_byte {P : UInt8 → Prop} (h : ∀ n ∈ List.range 256, P n.toUInt8) (b : UInt8) :
    P b := by
  have hb : b.toNat.toUInt8 = b := UInt8.ofNat_toNat
  rw [← hb]
  exact h _ (List.mem_range.2 b.toNat_lt)

theorem of_isContinuation (b : UInt8) (h : isContinuation b = true) :
    payload b < 64 ∧ b = (0x80 + payload b).toUInt8 := by
  revert h
  refine forall_byte (P := fun b => isContinuation b = true →
    payload b < 64 ∧ b = (0x80 + payload b).toUInt8) ?_ b
  decide +kernel

theorem of_first_one (b : UInt8) (h : sequenceLength? b = some 1) : b.toNat < 128 := by
  revert h
  refine forall_byte (P := fun b => sequenceLength? b = some 1 → b.toNat < 128) ?_ b
  decide +kernel

theorem of_first_two (b : UInt8) (h : sequenceLength? b = some 2) :
    2 ≤ b.toNat % 32 ∧ b = (0xC0 + b.toNat % 32).toUInt8 := by
  revert h
  refine forall_byte (P := fun b => sequenceLength? b = some 2 →
    2 ≤ b.toNat % 32 ∧ b = (0xC0 + b.toNat % 32).toUInt8) ?_ b
  decide +kernel

theorem of_first_three (b : UInt8) (h : sequenceLength? b = some 3) :
    b = (0xE0 + b.toNat % 16).toUInt8 := by
  revert h
  refine forall_byte (P := fun b => sequenceLength? b = some 3 →
    b = (0xE0 + b.toNat % 16).toUInt8) ?_ b
  decide +kernel

theorem of_first_four (b : UInt8) (h : sequenceLength? b = some 4) :
    b.toNat % 8 < 5 ∧ b = (0xF0 + b.toNat % 8).toUInt8 := by
  revert h
  refine forall_byte (P := fun b => sequenceLength? b = some 4 →
    b.toNat % 8 < 5 ∧ b = (0xF0 + b.toNat % 8).toUInt8) ?_ b
  decide +kernel

theorem sequenceLength?_cases {b : UInt8} {length : Nat} (h : sequenceLength? b = some length) :
    length = 1 ∨ length = 2 ∨ length = 3 ∨ length = 4 := by
  unfold sequenceLength? at h
  split at h
  · exact .inl (Option.some.inj h).symm
  split at h
  · simp at h
  split at h
  · exact .inr (.inl (Option.some.inj h).symm)
  split at h
  · exact .inr (.inr (.inl (Option.some.inj h).symm))
  split at h
  · exact .inr (.inr (.inr (Option.some.inj h).symm))
  · simp at h

variable {lead : UInt8} {rest : List UInt8} {c : CodePoint} {t : Text} {bytes : List UInt8}

theorem isContinuation_of_maySecond {b : UInt8} (h : maySecond lead b = true) :
    isContinuation b = true := by
  rw [maySecond, Bool.and_eq_true] at h
  exact h.1

theorem of_readSequence_two (h : readSequence lead 2 rest = .ok c) :
    ∃ b rest', rest = b :: rest' ∧ isContinuation b = true ∧
      c = .ofNat (lead.toNat % 32 * 64 + payload b) := by
  cases rest with
  | nil => simp [readSequence] at h
  | cons b rest =>
    simp only [readSequence] at h
    split at h
    · next hb => exact ⟨b, rest, rfl, hb, (Except.ok.inj h).symm⟩
    · simp at h

theorem of_readSequence_three (h : readSequence lead 3 rest = .ok c) :
    ∃ b b' rest', rest = b :: b' :: rest' ∧ maySecond lead b = true ∧ isContinuation b' = true ∧
      c = .ofNat ((lead.toNat % 16 * 64 + payload b) * 64 + payload b') := by
  rcases rest with _ | ⟨b, _ | ⟨b', rest⟩⟩
  · simp [readSequence] at h
  · simp only [readSequence] at h
    split at h <;> simp at h
  · simp only [readSequence] at h
    split at h
    · simp at h
    · next hb =>
      split at h
      · simp at h
      · next hb' =>
        exact ⟨b, b', rest, rfl, by simpa using hb, by simpa using hb', (Except.ok.inj h).symm⟩

theorem of_readSequence_four (h : readSequence lead 4 rest = .ok c) :
    ∃ b b' b'' rest', rest = b :: b' :: b'' :: rest' ∧ maySecond lead b = true ∧
      isContinuation b' = true ∧ isContinuation b'' = true ∧
      c = .ofNat (((lead.toNat % 8 * 64 + payload b) * 64 + payload b') * 64 + payload b'') := by
  rcases rest with _ | ⟨b, _ | ⟨b', _ | ⟨b'', rest⟩⟩⟩
  · simp [readSequence] at h
  · simp only [readSequence] at h
    split at h <;> simp at h
  · simp only [readSequence] at h
    split at h
    · simp at h
    · split at h <;> simp at h
  · simp only [readSequence] at h
    split at h
    · simp at h
    · next hb =>
      split at h
      · simp at h
      · next hb' =>
        split at h
        · simp at h
        · next hb'' =>
          exact ⟨b, b', b'', rest, rfl, by simpa using hb, by simpa using hb', by simpa using hb'',
            (Except.ok.inj h).symm⟩

/-- A sequence that is read as a code point has the bytes of that code point, which is a
character. -/
theorem bytes_of_readSequence {length : Nat} (hlen : sequenceLength? lead = some length)
    (h : readSequence lead length rest = .ok c) :
    c.isSurrogate = false ∧
      ∃ tail rest', rest = tail ++ rest' ∧ length = tail.length + 1 ∧ c.bytes = lead :: tail := by
  obtain rfl | rfl | rfl | rfl := sequenceLength?_cases hlen
  · obtain ⟨hchar, hbytes⟩ := bytes_ofNat_one (of_first_one lead hlen)
    obtain rfl : CodePoint.ofNat lead.toNat = c := by simpa [readSequence] using h
    refine ⟨hchar, [], rest, rfl, rfl, ?_⟩
    rw [hbytes, Nat.toUInt8, UInt8.ofNat_toNat]
  · obtain ⟨b, rest', rfl, hb, rfl⟩ := of_readSequence_two h
    obtain ⟨hmin, hlead⟩ := of_first_two lead hlen
    obtain ⟨hy, hb⟩ := of_isContinuation b hb
    obtain ⟨hchar, hbytes⟩ := bytes_ofNat_two (Nat.mod_lt _ (by decide)) hmin hy
    refine ⟨hchar, [b], rest', rfl, rfl, ?_⟩
    rw [hbytes, ← hlead, ← hb]
  · obtain ⟨b, b', rest', rfl, hb, hb', rfl⟩ := of_readSequence_three h
    have hlead := of_first_three lead hlen
    obtain ⟨hy, hy'⟩ := of_isContinuation b (isContinuation_of_maySecond hb)
    obtain ⟨hz, hz'⟩ := of_isContinuation b' hb'
    have hsecond := (second_of_three_iff (Nat.mod_lt lead.toNat (by decide)) hy).1
      (by rw [← hlead, ← hy']; exact hb)
    obtain ⟨hchar, hbytes⟩ := bytes_ofNat_three (Nat.mod_lt _ (by decide)) hy hz hsecond
    refine ⟨hchar, [b, b'], rest', rfl, rfl, ?_⟩
    rw [hbytes, ← hlead, ← hy', ← hz']
  · obtain ⟨b, b', b'', rest', rfl, hb, hb', hb'', rfl⟩ := of_readSequence_four h
    obtain ⟨hx, hlead⟩ := of_first_four lead hlen
    obtain ⟨hy, hy'⟩ := of_isContinuation b (isContinuation_of_maySecond hb)
    obtain ⟨hz, hz'⟩ := of_isContinuation b' hb'
    obtain ⟨hu, hu'⟩ := of_isContinuation b'' hb''
    have hsecond := (second_of_four_iff hx hy).1 (by rw [← hlead, ← hy']; exact hb)
    obtain ⟨hchar, hbytes⟩ := bytes_ofNat_four hx hy hz hu hsecond
    refine ⟨hchar, [b, b', b''], rest', rfl, rfl, ?_⟩
    rw [hbytes, ← hlead, ← hy', ← hz', ← hu']

theorem bytes_of_decodeFrom {offset : Nat} (h : decodeFrom offset 0 bytes = .ok t) :
    t.Storable ∧ Text.bytes t = bytes := by
  induction hn : bytes.length using Nat.strong_induction_on generalizing offset bytes t with
  | _ n ih =>
    subst hn
    cases bytes with
    | nil =>
      obtain rfl : [] = t := by simpa [decodeFrom] using h
      exact ⟨fun _ hc => absurd hc List.not_mem_nil, rfl⟩
    | cons lead rest =>
      rw [decodeFrom] at h
      split at h
      · simp at h
      next length hlen =>
      split at h
      · simp at h
      next c hread =>
      obtain ⟨hchar, tail, rest', rfl, rfl, hbytes⟩ := bytes_of_readSequence hlen hread
      rw [Nat.add_sub_cancel, decodeFrom_skip] at h
      split at h
      · simp at h
      next t' hrest =>
      obtain rfl := Except.ok.inj h
      have hshort : rest'.length < (lead :: (tail ++ rest')).length := by
        simp only [List.length_cons, List.length_append]
        omega
      obtain ⟨hstorable, rfl⟩ := ih _ hshort hrest rfl
      refine ⟨List.forall_mem_cons.2 ⟨hchar, hstorable⟩, ?_⟩
      rw [Text.bytes, List.flatMap_cons, hbytes]
      rfl

/-- Bytes that are read as a text are the bytes of that text. -/
theorem encode_decode (h : decode bytes = .ok t) : encode t = .ok bytes :=
  encode_eq_ok_iff.2 (bytes_of_decodeFrom h)

/-! ## Line ends -/

/-- A text that can be stored can be stored with other line ends. -/
theorem storable_normaliseLineEnds (h : t.Storable) : t.normaliseLineEnds.Storable := by
  fun_induction Text.normaliseLineEnds t with
  | case1 => exact h
  | case2 t ih =>
    obtain ⟨-, -, h⟩ := by simpa only [Text.Storable, List.forall_mem_cons] using h
    exact List.forall_mem_cons.2 ⟨rfl, ih h⟩
  | case3 t _ ih =>
    obtain ⟨-, h⟩ := List.forall_mem_cons.1 h
    exact List.forall_mem_cons.2 ⟨rfl, ih h⟩
  | case4 c t _ _ ih =>
    obtain ⟨hc, h⟩ := List.forall_mem_cons.1 h
    exact List.forall_mem_cons.2 ⟨hc, ih h⟩

/-- Only a character with one byte can have a byte below those of continuations. -/
theorem ne_toUInt8 {m : Nat} (hmin : 128 ≤ m) (hmax : m < 256) : (13 : UInt8) ≠ m.toUInt8 := by
  intro h
  have hnat := congrArg UInt8.toNat h
  rw [UInt8.toNat_ofNat', Nat.mod_eq_of_lt hmax] at hnat
  have hreturn : (13 : UInt8).toNat = 13 := rfl
  omega

theorem return_mem_encodeNat_iff {n : Nat} (hn : n < 0x110000) : 13 ∈ encodeNat n ↔ n = 13 := by
  rw [encodeNat]
  split_ifs with h₁ h₂ h₃
  · have hone : (13 : UInt8) = n.toUInt8 ↔ n = 13 := by
      constructor
      · intro h
        have hnat := congrArg UInt8.toNat h
        rw [UInt8.toNat_ofNat', Nat.mod_eq_of_lt (by omega)] at hnat
        exact hnat.symm
      · rintro rfl
        rfl
    rw [List.mem_singleton, hone]
  all_goals
    refine iff_of_false ?_ (by omega)
    simp only [List.mem_cons, List.not_mem_nil, or_false, not_or]
  · exact ⟨ne_toUInt8 (by omega) (by omega), ne_toUInt8 (by omega) (by omega)⟩
  · exact ⟨ne_toUInt8 (by omega) (by omega), ne_toUInt8 (by omega) (by omega),
      ne_toUInt8 (by omega) (by omega)⟩
  · exact ⟨ne_toUInt8 (by omega) (by omega), ne_toUInt8 (by omega) (by omega),
      ne_toUInt8 (by omega) (by omega), ne_toUInt8 (by omega) (by omega)⟩

theorem return_mem_codePoint_iff (c : CodePoint) : 13 ∈ c.bytes ↔ c = .char '\r' := by
  cases c with
  | surrogate k => exact iff_of_false List.not_mem_nil (by simp)
  | char c =>
    rw [CodePoint.bytes, return_mem_encodeNat_iff (by have := CodePoint.toNat_valid c; omega)]
    constructor
    · intro h
      rw [← CodePoint.ofNat_toNat c, h]
      rfl
    · rintro ⟨⟩
      rfl

/-- The bytes of a text have a carriage return exactly if the text has one. -/
theorem return_mem_bytes_iff (t : Text) : 13 ∈ Text.bytes t ↔ ¬ t.NoReturn := by
  rw [Text.bytes, List.mem_flatMap, Text.NoReturn, Classical.not_not]
  constructor
  · rintro ⟨c, hc, hbyte⟩
    rwa [← (return_mem_codePoint_iff c).1 hbyte]
  · intro h
    exact ⟨_, h, (return_mem_codePoint_iff _).2 rfl⟩

end Utf8

end WorkflowLint
