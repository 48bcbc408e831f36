import WorkflowLint.Proofs.Fault
import WorkflowLint.Proofs.Json.Reading
import WorkflowLint.Proofs.Keyed
import WorkflowLint.Proofs.Text.Numeral

/-!
# What documents can hold

A value that was read is nested no deeper than the limit, its whole numbers have no more digits than
the limit, and in its objects no name stands twice (`Fits`).
-/

namespace WorkflowLint.Json

/-- The values inside which others are nested to a depth, as a reader of documents gives them. -/
inductive Fits : (depth : Nat) → Json → Prop
  | null {depth : Nat} : Fits depth .null
  | bool {depth : Nat} (b : Bool) : Fits depth (.bool b)
  | integer {depth : Nat} {n : Int} : n.natAbs < 10 ^ digitLimit → Fits depth (.integer n)
  | real {depth : Nat} (x : Binary64) : Fits depth (.real x)
  | string {depth : Nat} (s : Text) : Fits depth (.string s)
  | array {depth : Nat} {items : List Json} :
      (∀ v ∈ items, Fits depth v) → Fits (depth + 1) (.array items)
  | object {depth : Nat} {members : Members} :
      (members.map (·.1)).Nodup → (∀ m ∈ members, Fits depth m.2) →
      Fits (depth + 1) (.object members)

/-- What a reader gives, if it gives something, has a property. -/
def Gives {α : Type} (p : α → Prop) (r : Except ReadError (α × Text)) : Prop :=
  ∀ a rest, r = .ok (a, rest) → p a

variable {α : Type} {p : α → Prop} {depth : Nat}

theorem gives_error (e : ReadError) : Gives p (.error e) := fun _ _ h => nomatch h

theorem gives_ok {a : α} (h : p a) (rest : Text) : Gives p (.ok (a, rest)) := by
  rintro _ _ ⟨⟩
  exact h

/-! ## Scalars -/

theorem fits_readNumber (start : Text) (negative : Bool) (t : Text) :
    Gives (Fits depth) (readNumber start negative t) := by
  unfold readNumber
  simp only
  split
  · exact gives_error _
  split
  · split
    · exact gives_error _
    · next hlen =>
      have hdigits : Text.AllDigits (whole t) := fun c hc => isDigit_of_mem_whole hc
      have hlt : Text.toNat (whole t) < 10 ^ digitLimit :=
        Nat.lt_of_lt_of_le (Text.toNat_lt hdigits)
          (Nat.pow_le_pow_right (by decide) (Nat.not_lt.1 hlen))
      refine gives_ok (.integer ?_) _
      generalize Text.toNat (whole t) = n at hlt
      cases negative with
      | false => exact hlt
      | true => rwa [if_pos rfl, Int.natAbs_neg, Int.natAbs_natCast]
  · exact gives_ok (.real _) _
  · exact gives_ok (.real _) _

theorem fits_readWord {t rest : Text} {v : Json} (h : readWord? t = some (v, rest)) :
    Fits depth v := by
  obtain ⟨⟨word, value⟩, hmem, hword⟩ := List.exists_of_findSome?_eq_some h
  obtain rfl : value = v := by
    simp only [Text.afterStart?] at hword
    split at hword
    · exact (by simpa using hword : value = v ∧ _).1
    · simp at hword
  -- the words for null, for the two Booleans, and for the three numbers that have no digits
  simp only [List.mem_cons, Prod.mk.injEq, List.not_mem_nil, or_false] at hmem
  rcases hmem with ⟨-, rfl⟩ | ⟨-, rfl⟩ | ⟨-, rfl⟩ | ⟨-, rfl⟩ | ⟨-, rfl⟩ | ⟨-, rfl⟩
  · exact .null
  · exact .bool _
  · exact .bool _
  · exact .real _
  · exact .real _
  · exact .real _

/-! ## Values -/

/-- What the readers give with so much fuel fits. -/
def FitsWith (fuel : Nat) : Prop :=
  ∀ depth t, Gives (Fits depth) (readValue Members.ofPairs depth fuel t) ∧
    Gives (fun items => ∀ v ∈ items, Fits depth v) (readItems Members.ofPairs depth fuel t) ∧
    Gives (fun pairs => ∀ m ∈ pairs, Fits depth m.2) (readMembers Members.ofPairs depth fuel t)

section

variable {fuel : Nat} (ih : FitsWith fuel)
include ih

theorem FitsWith.value (depth : Nat) (t : Text) :
    Gives (Fits depth) (readValue Members.ofPairs depth (fuel + 1) t) := by
  rw [readValue.eq_def]
  simp only
  split
  · split
    · exact gives_error _
    · exact gives_ok (.string _) _
  · split
    · exact gives_error _
    · next depth =>
      split
      · exact gives_ok (.array fun _ h => absurd h List.not_mem_nil) _
      · split
        · exact gives_error _
        · next items rest hr => exact gives_ok (.array ((ih depth _).2.1 items rest hr)) _
  · split
    · exact gives_error _
    · next depth =>
      split
      · exact gives_ok (.object List.nodup_nil fun _ h => absurd h List.not_mem_nil) _
      · split
        · exact gives_error _
        · next pairs rest hr =>
          -- a later pair replaces an earlier one of its name, so no name stands twice
          have hpairs := (ih depth _).2.2 pairs rest hr
          exact gives_ok (.object (Keyed.nodup_ofPairs pairs)
            fun m hm => hpairs m (Keyed.mem_of_mem_ofPairs hm)) _
  · split
    · next found hword => exact gives_ok (fits_readWord hword) found.2
    · split
      · exact fits_readNumber _ _ _
      · exact fits_readNumber _ _ _

theorem FitsWith.items (depth : Nat) (t : Text) :
    Gives (fun items => ∀ v ∈ items, Fits depth v)
      (readItems Members.ofPairs depth (fuel + 1) t) := by
  rw [readItems.eq_def]
  simp only
  split
  · exact gives_error _
  · next item rest hr =>
    have hitem := (ih depth t).1 item rest hr
    split
    · exact gives_ok (fun v hv => List.mem_singleton.1 hv ▸ hitem) _
    · split
      · exact gives_error _
      · next items rest' hr' =>
        have hitems := (ih depth _).2.1 items rest' hr'
        exact gives_ok (List.forall_mem_cons.2 ⟨hitem, hitems⟩) _
    · exact gives_error _

theorem FitsWith.members (depth : Nat) (t : Text) :
    Gives (fun pairs => ∀ m ∈ pairs, Fits depth m.2)
      (readMembers Members.ofPairs depth (fuel + 1) t) := by
  rw [readMembers.eq_def]
  simp only
  split
  · split
    · exact gives_error _
    · split
      · split
        · exact gives_error _
        · next value rest hr =>
          have hvalue := (ih depth _).1 value rest hr
          split
          · refine gives_ok (fun m hm => ?_) _
            rw [List.mem_singleton.1 hm]
            exact hvalue
          · split
            · exact gives_error _
            · next pairs rest' hr' =>
              have hpairs := (ih depth _).2.2 pairs rest' hr'
              refine gives_ok (fun m hm => ?_) _
              rcases List.mem_cons.1 hm with rfl | hm
              · exact hvalue
              · exact hpairs m hm
          · exact gives_error _
      · exact gives_error _
  · exact gives_error _

end

theorem fitsWith (fuel : Nat) : FitsWith fuel := by
  induction fuel with
  | zero =>
    intro depth t
    rw [readValue.eq_def, readItems.eq_def, readMembers.eq_def]
    exact ⟨gives_error _, gives_error _, gives_error _⟩
  | succ fuel ih =>
    intro depth t
    exact ⟨ih.value depth t, ih.items depth t, ih.members depth t⟩

/-- A document that was read fits. -/
theorem fits_of_read {t : Text} {v : Json} (h : read t = .ok v) : Fits depthLimit v := by
  unfold read readWith at h
  split at h
  · simp at h
  · split at h
    · simp at h
    · next value rest hr =>
      have hfits := (fitsWith _ depthLimit _).1 value rest hr
      split at h
      · obtain rfl : value = v := by simpa using h
        exact hfits
      · simp at h

/-- A text is read as an object by either reader. -/
theorem readObject_eq_ok_iff {t : Text} {document : Members} :
    readObject t = .ok (some document) ↔ read t = .ok (.object document) := by
  unfold readObject
  constructor
  · intro h
    split at h
    · next v hread =>
      cases v with
      | object ms =>
        obtain rfl : ms = document := by simpa [members?] using h
        exact hread
      | _ => simp [members?] at h
    · simp at h
    · simp at h
  · intro h
    rw [h]
    rfl

/-- A text that is read as an object which passes a test is a document that does. -/
theorem exists_read_of_any {t : Text} {test : Members → Bool}
    (h : (readObject t).toOption.any (fun found => found.any test) = true) :
    ∃ document, read t = .ok (.object document) ∧ test document = true := by
  obtain ⟨found, hread, hfound⟩ := exists_ok_of_any h
  obtain ⟨document, rfl, htest⟩ := (Option.any_eq_true _ _).1 hfound
  exact ⟨document, readObject_eq_ok_iff.1 hread, htest⟩

end WorkflowLint.Json
