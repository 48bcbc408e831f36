import WorkflowLint.Diff.Unified
import WorkflowLint.Proofs.Diff.Matching

/-!
# Hunks cover the differences

The steps from one list of lines to another lead from the start of both to their ends
(`leads_steps`).  What the hunks leave out of them is common to both lists, and between two hunks
something is left out (`covers_hunks`).  So lists that differ have a hunk (`hunks_ne_nil`), and every
hunk changes something (`exists_change`).
-/

namespace WorkflowLint.Diff

variable {a b : List Text} {i i' i'' j j' j'' k least stop otherStop : Nat} {s : Step}
  {all rest hunk : List Step} {parts : List (List Step)}

/-! ## Steps -/

/-- Whether a step lies inside both lists and has equal lines there if it is said to. -/
structure Step.Sound (a b : List Text) (s : Step) : Prop where
  le : s.start ≤ s.stop
  otherLe : s.otherStart ≤ s.otherStop
  stop_le : s.stop ≤ a.length
  otherStop_le : s.otherStop ≤ b.length
  otherStop_eq : s.equal = true → s.otherStop = s.otherStart + s.size
  common : s.equal = true → Common a b s.start s.otherStart s.size

/-- Steps from two positions to two others, each of which starts where the one before it stops. -/
inductive Leads (a b : List Text) : Nat → Nat → List Step → Nat → Nat → Prop
  | nil {i j : Nat} : Leads a b i j [] i j
  | cons {i j stop otherStop : Nat} {s : Step} {rest : List Step} (hs : s.Sound a b)
      (hi : s.start = i) (hj : s.otherStart = j)
      (hrest : Leads a b s.stop s.otherStop rest stop otherStop) :
      Leads a b i j (s :: rest) stop otherStop

theorem Leads.singleton (hs : s.Sound a b) : Leads a b s.start s.otherStart [s] s.stop s.otherStop :=
  .cons hs rfl rfl .nil

theorem Leads.append (h : Leads a b i j all i' j') (hrest : Leads a b i' j' rest i'' j'') :
    Leads a b i j (all ++ rest) i'' j'' := by
  induction h with
  | nil => exact hrest
  | cons hs hi hj _ ih => exact .cons hs hi hj (ih hrest)

theorem Leads.filter_isProper (h : Leads a b i j all i' j') :
    Leads a b i j (all.filter Step.isProper) i' j' := by
  induction h with
  | nil => exact .nil
  | @cons _ _ _ _ s _ hs hi hj _ ih =>
    rw [List.filter_cons]
    split
    · exact .cons hs hi hj ih
    · rename_i himproper
      -- a step that does nothing stops where it starts
      simp only [Step.isProper, Bool.or_eq_true, decide_eq_true_eq, not_or, Nat.not_lt] at himproper
      rwa [Nat.le_antisymm himproper.1 hs.le, Nat.le_antisymm himproper.2 hs.otherLe, hi, hj] at ih

/-- Steps of equal lines only leave both positions equally far behind. -/
theorem Leads.common (h : Leads a b i j all i' j') (hequal : ∀ s ∈ all, s.equal = true) :
    ∃ k, Common a b i j k ∧ i + k = i' ∧ j + k = j' := by
  induction h with
  | nil => exact ⟨0, common_zero a b _ _, rfl, rfl⟩
  | @cons _ _ _ _ s _ hs hi hj _ ih =>
    obtain ⟨hsequal, hrest⟩ := List.forall_mem_cons.1 hequal
    obtain ⟨k, hcommon, hstop, hotherStop⟩ := ih hrest
    have hle := hs.le
    have heq := hs.otherStop_eq hsequal
    have hstart := hs.common hsequal
    subst hi hj
    have hsize : s.start + s.size = s.stop := by rw [Step.size]; omega
    refine ⟨s.size + k, hstart.append (by rwa [hsize, ← heq]), by omega, by omega⟩

theorem Leads.sound (h : Leads a b i j all i' j') : ∀ s ∈ all, s.Sound a b := by
  induction h with
  | nil => exact List.forall_mem_nil _
  | cons hs _ _ _ ih => exact List.forall_mem_cons.2 ⟨hs, ih⟩

theorem leads_stepsFrom {blocks : List Block} (h : Matching a b i j blocks stop otherStop)
    (hstop : stop ≤ a.length) (hotherStop : otherStop ≤ b.length) :
    Leads a b i j (stepsFrom stop otherStop i j blocks) stop otherStop := by
  induction h with
  | nil hi hj => exact .cons ⟨hi, hj, hstop, hotherStop, nofun, nofun⟩ rfl rfl .nil
  | cons hi hj hsame hrest ih =>
    have hle := hrest.le
    have hsize : ∀ start size : Nat, start + size - start = size := Nat.add_sub_cancel_left
    rw [stepsFrom]
    refine .cons ⟨hi, hj, by simp only; omega, by simp only; omega, nofun, nofun⟩ rfl rfl ?_
    refine .cons ⟨?_, ?_, ?_, ?_, fun _ => ?_, fun _ => ?_⟩ rfl rfl (ih hstop hotherStop)
    · exact Nat.le_add_right _ _
    · exact Nat.le_add_right _ _
    · exact Nat.le_trans hle.1 hstop
    · exact Nat.le_trans hle.2 hotherStop
    · rw [Step.size, hsize]
    · rwa [Step.size, hsize]

/-- The steps from one list to another lead from the start of both to their ends. -/
theorem leads_steps (a b : List Text) : Leads a b 0 0 (steps a b) a.length b.length :=
  (leads_stepsFrom (matching_blocks a b) (Nat.le_refl _) (Nat.le_refl _)).filter_isProper

/-! ## Equal lines that are left out -/

theorem Step.Sound.from_start (h : s.Sound a b) (hequal : s.equal = true) (hk : k ≤ s.size) :
    Step.Sound a b { s with stop := s.start + k, otherStop := s.otherStart + k } := by
  have hle := h.le
  have hstop := h.stop_le
  have hotherStop := h.otherStop_le
  have heq := h.otherStop_eq hequal
  have hsize : s.size = s.stop - s.start := rfl
  have hk' : s.start + k - s.start = k := Nat.add_sub_cancel_left _ _
  refine ⟨Nat.le_add_right _ _, Nat.le_add_right _ _, ?_, ?_, fun _ => ?_, fun _ => ?_⟩
  · show s.start + k ≤ a.length
    omega
  · show s.otherStart + k ≤ b.length
    omega
  · rw [Step.size, hk']
  · rw [Step.size, hk']
    exact (h.common hequal).take hk

theorem Step.Sound.from_end (h : s.Sound a b) (hequal : s.equal = true) (hk : k ≤ s.size) :
    Step.Sound a b { s with start := s.start + k, otherStart := s.otherStart + k } := by
  have hle := h.le
  have heq := h.otherStop_eq hequal
  have hsize : s.size = s.stop - s.start := rfl
  have hrest : s.size = k + (s.stop - (s.start + k)) := by omega
  refine ⟨?_, ?_, h.stop_le, h.otherStop_le, fun _ => ?_, fun _ => ?_⟩
  · show s.start + k ≤ s.stop
    omega
  · show s.otherStart + k ≤ s.otherStop
    omega
  · show s.otherStop = s.otherStart + k + (s.stop - (s.start + k))
    omega
  · exact Common.drop (hrest ▸ h.common hequal)

theorem keepStart_eq (h : s.Sound a b) (hequal : s.equal = true) :
    s.keepStart =
      { s with
        stop := s.start + min s.size contextSize
        otherStop := s.otherStart + min s.size contextSize } := by
  have hle := h.le
  have heq := h.otherStop_eq hequal
  have hsize : s.size = s.stop - s.start := rfl
  rw [Step.keepStart, Step.mk.injEq]
  exact ⟨rfl, rfl, by omega, rfl, by omega⟩

theorem keepEnd_eq (h : s.Sound a b) (hequal : s.equal = true) :
    s.keepEnd =
      { s with
        start := s.start + (s.size - contextSize)
        otherStart := s.otherStart + (s.size - contextSize) } := by
  have hle := h.le
  have heq := h.otherStop_eq hequal
  have hsize : s.size = s.stop - s.start := rfl
  rw [Step.keepEnd, Step.mk.injEq]
  exact ⟨rfl, by omega, rfl, by omega, rfl⟩

theorem Leads.trimStart (h : Leads a b i j all i' j') :
    ∃ k, Common a b i j k ∧ Leads a b (i + k) (j + k) (Diff.trimStart all) i' j' := by
  cases h with
  | nil => exact ⟨0, common_zero a b _ _, .nil⟩
  | @cons _ _ _ _ s _ hs hi hj hrest =>
    subst hi hj
    rw [Diff.trimStart]
    split
    · rename_i hequal
      have hk : s.size - contextSize ≤ s.size := Nat.sub_le _ _
      refine ⟨s.size - contextSize, (hs.common hequal).take hk, ?_⟩
      rw [keepEnd_eq hs hequal]
      exact .cons (hs.from_end hequal hk) rfl rfl hrest
    · exact ⟨0, common_zero a b _ _, .cons hs rfl rfl hrest⟩

theorem Leads.trimEnd (h : Leads a b i j all i' j') :
    ∃ stop otherStop k, Leads a b i j (Diff.trimEnd all) stop otherStop ∧
      Common a b stop otherStop k ∧ stop + k = i' ∧ otherStop + k = j' := by
  induction h with
  | nil => exact ⟨_, _, 0, .nil, common_zero a b _ _, rfl, rfl⟩
  | @cons i j _ _ s rest hs hi hj hrest ih =>
    cases rest with
    | cons next rest =>
      obtain ⟨stop, otherStop, k, hleads, htail⟩ := ih
      exact ⟨stop, otherStop, k, .cons hs hi hj hleads, htail⟩
    | nil =>
      cases hrest
      subst hi hj
      rw [Diff.trimEnd]
      split
      · rename_i hequal
        have hle := hs.le
        have heq := hs.otherStop_eq hequal
        have hsize : s.size = s.stop - s.start := rfl
        have hk : min s.size contextSize ≤ s.size := Nat.min_le_left _ _
        have hcut : min s.size contextSize + (s.size - min s.size contextSize) = s.size :=
          Nat.add_sub_cancel' hk
        rw [keepStart_eq hs hequal]
        exact ⟨_, _, s.size - min s.size contextSize, .singleton (hs.from_start hequal hk),
          Common.drop (hcut.symm ▸ hs.common hequal), by simp only; omega, by simp only; omega⟩
      · exact ⟨_, _, 0, .singleton hs, common_zero a b _ _, rfl, rfl⟩

/-! ## Hunks -/

/-- Hunks with common lines before each of them and behind the last one; there are at least `least`
before the first, and some between any two. -/
inductive Covers (a b : List Text) : (least : Nat) → Nat → Nat → List (List Step) → Prop
  | nil {least i j k : Nat} (hcommon : Common a b i j k) (hi : i + k = a.length)
      (hj : j + k = b.length) : Covers a b least i j []
  | cons {least i j stop otherStop gap : Nat} {hunk : List Step} {parts : List (List Step)}
      (hleast : least ≤ gap) (hcommon : Common a b i j gap)
      (hhunk : Leads a b (i + gap) (j + gap) hunk stop otherStop)
      (hrest : Covers a b 1 stop otherStop parts) : Covers a b least i j (hunk :: parts)

theorem Covers.after_common {least' : Nat} (h : Covers a b least' (i + k) (j + k) parts)
    (hcommon : Common a b i j k) (hk : least ≤ k) : Covers a b least i j parts := by
  cases h with
  | nil hcommon' hi hj =>
    rw [Nat.add_assoc] at hi hj
    exact .nil (hcommon.append hcommon') hi hj
  | cons _ hcommon' hhunk hrest =>
    rw [Nat.add_assoc, Nat.add_assoc] at hhunk
    exact .cons (Nat.le_trans hk (Nat.le_add_right _ _)) (hcommon.append hcommon') hhunk hrest

theorem Covers.filter (h : Covers a b least i j parts) :
    Covers a b least i j (parts.filter fun hunk => hunk.any fun s => !s.equal) := by
  induction h with
  | nil hcommon hi hj => exact .nil hcommon hi hj
  | @cons least i j _ _ gap hunk _ hleast hcommon hhunk _ ih =>
    rw [List.filter_cons]
    split
    · exact .cons hleast hcommon hhunk ih
    · rename_i hequal
      obtain ⟨k, hcommon', rfl, rfl⟩ := hhunk.common (by simpa using hequal)
      rw [Nat.add_assoc, Nat.add_assoc] at ih
      exact ih.after_common (hcommon.append hcommon') (Nat.le_trans hleast (Nat.le_add_right _ _))

theorem Covers.sound (h : Covers a b least i j parts) : ∀ hunk ∈ parts, ∀ s ∈ hunk, s.Sound a b := by
  induction h with
  | nil => exact List.forall_mem_nil _
  | cons _ _ hhunk _ ih => exact List.forall_mem_cons.2 ⟨hhunk.sound, ih⟩

/-- Hunks cover what their steps lead through. -/
theorem covers_hunksFrom {gap : Nat} (hleast : least ≤ gap) (hcommon : Common a b i j gap)
    (hhunk : Leads a b (i + gap) (j + gap) hunk i' j') (hall : Leads a b i' j' all stop otherStop)
    (htail : Common a b stop otherStop k) (hi : stop + k = a.length) (hj : otherStop + k = b.length) :
    Covers a b least i j (hunksFrom hunk all) := by
  induction all generalizing least i j gap hunk i' j' with
  | nil =>
    cases hall
    exact .cons hleast hcommon hhunk (.nil htail hi hj)
  | cons s rest ih =>
    obtain _ | ⟨hs, rfl, rfl, hrest⟩ := hall
    rw [hunksFrom]
    split
    · rename_i hlong
      obtain ⟨hequal, hlong⟩ := hlong
      have hlong : 2 < s.size := hlong
      have hstart : min s.size contextSize = 1 := Nat.min_eq_right (by show 1 ≤ s.size; omega)
      have hsplit : 1 + (s.size - 2) = s.size - 1 := by omega
      have hmiddle : Common a b (s.start + 1) (s.otherStart + 1) (s.size - 2) := by
        refine Common.drop ?_
        rw [hsplit]
        exact (hs.common hequal).take (Nat.sub_le _ _)
      have hfirst := Leads.singleton (hs.from_start (k := 1) hequal (by omega))
      have hlast := Leads.singleton (hs.from_end (k := s.size - 1) hequal (by omega))
      rw [keepStart_eq hs hequal, hstart, keepEnd_eq hs hequal]
      refine .cons hleast hcommon (hhunk.append hfirst) (ih (by omega) hmiddle ?_ hrest)
      rw [Nat.add_assoc, Nat.add_assoc, hsplit]
      exact hlast
    · exact ih hleast hcommon (hhunk.append (.singleton hs)) hrest

/-- The hunks of the steps between two lists cover both lists. -/
theorem covers_hunks (a b : List Text) : Covers a b 0 0 0 (hunks (steps a b)) := by
  obtain ⟨k, hcommon, hleads⟩ := (leads_steps a b).trimStart
  obtain ⟨stop, otherStop, k', hleads', htail, hstop, hotherStop⟩ := hleads.trimEnd
  exact (covers_hunksFrom (Nat.zero_le k) hcommon .nil hleads' htail hstop hotherStop).filter

theorem hunks_ne_nil (h : a ≠ b) : hunks (steps a b) ≠ [] := by
  intro hnone
  have hcovers := covers_hunks a b
  rw [hnone] at hcovers
  obtain @⟨_, _, _, k, hcommon, hi, hj⟩ | _ := hcovers
  rw [Nat.zero_add] at hi hj
  refine h (List.ext_getElem? fun n => ?_)
  by_cases hn : n < k
  · simpa using hcommon n hn
  · rw [List.getElem?_eq_none (by omega), List.getElem?_eq_none (by omega)]

/-- Lists without a line in common have one hunk, which replaces all lines. -/
theorem hunks_of_disjoint (h : ∀ l ∈ a, l ∉ b) (hne : a ≠ [] ∨ b ≠ []) :
    hunks (steps a b) = [[⟨false, 0, a.length, 0, b.length⟩]] := by
  have hproper : Step.isProper ⟨false, 0, a.length, 0, b.length⟩ = true := by
    simpa only [Step.isProper, Bool.or_eq_true, decide_eq_true_eq, List.length_pos_iff] using hne
  rw [steps, blocks_eq_nil h, stepsFrom, List.filter_cons, if_pos hproper]
  rfl

/-! ## Changes -/

theorem mem_of_mem_trimStart (h : s ∈ trimStart all) (hs : s.equal = false) : s ∈ all := by
  cases all with
  | nil => exact h
  | cons first rest =>
    rw [trimStart, List.mem_cons] at h
    obtain rfl | h := h
    · split
      · rename_i hequal
        rw [if_pos hequal] at hs
        exact absurd (hequal.symm.trans hs) Bool.noConfusion
      · exact List.mem_cons_self
    · exact List.mem_cons_of_mem _ h

theorem mem_of_mem_trimEnd (h : s ∈ trimEnd all) (hs : s.equal = false) : s ∈ all := by
  fun_induction trimEnd all with
  | case1 => exact h
  | case2 last =>
    obtain rfl := List.mem_singleton.1 h
    split
    · rename_i hequal
      rw [if_pos hequal] at hs
      exact absurd (hequal.symm.trans hs) Bool.noConfusion
    · exact List.mem_cons_self
  | case3 first rest hrest ih =>
    obtain rfl | h := List.mem_cons.1 h
    · exact List.mem_cons_self
    · exact List.mem_cons_of_mem _ (ih h)

theorem mem_of_mem_hunksFrom (hpart : rest ∈ hunksFrom hunk all) (h : s ∈ rest)
    (hs : s.equal = false) : s ∈ hunk ++ all := by
  induction all generalizing hunk with
  | nil =>
    obtain rfl := List.mem_singleton.1 hpart
    rwa [List.append_nil]
  | cons next all ih =>
    rw [hunksFrom] at hpart
    split at hpart
    · rename_i hequal
      have hne : s.equal ≠ next.equal := by simp [hs, hequal.1]
      obtain rfl | hpart := List.mem_cons.1 hpart
      · obtain h | h := List.mem_append.1 h
        · exact List.mem_append_left _ h
        · exact absurd (congrArg Step.equal (List.mem_singleton.1 h)) hne
      · obtain h | h := List.mem_append.1 (ih hpart)
        · exact absurd (congrArg Step.equal (List.mem_singleton.1 h)) hne
        · exact List.mem_append_right _ (List.mem_cons_of_mem _ h)
    · have hmem := ih hpart
      rwa [List.append_assoc] at hmem

/-- Every hunk has a step that changes something. -/
theorem exists_change (h : hunk ∈ hunks (steps a b)) :
    ∃ s ∈ hunk, s.equal = false ∧ s.isProper = true := by
  obtain ⟨hmem, hany⟩ := List.mem_filter.1 h
  obtain ⟨s, hs, hequal⟩ := List.any_eq_true.1 hany
  have hequal : s.equal = false := by simpa using hequal
  have hall := mem_of_mem_hunksFrom hmem hs hequal
  rw [List.nil_append] at hall
  have hsteps := mem_of_mem_trimStart (mem_of_mem_trimEnd hall hequal) hequal
  exact ⟨s, hs, hequal, (List.mem_filter.1 hsteps).2⟩

end WorkflowLint.Diff
