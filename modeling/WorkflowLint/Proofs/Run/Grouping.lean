import WorkflowLint.Proofs.Run.Storing
import WorkflowLint.Proofs.Run.Touching

/-!
# Files are fixed independently

Findings are grouped by the files that they name, and the files are fixed one after the other.  Fixing
a file reads and writes that file only, so that files at different locations do not see each other
(`outcome_applyAll_put`): each is left, and each result is, as if the file had been fixed alone.  The
order of the files shows nowhere but in the order of the results (`fixing_independent`).
-/

namespace WorkflowLint

open Job

/-! ## Writing several files -/

namespace Store

variable {s : Store} {pairs pairs' : List (Location × List UInt8)}

/-- A store with other bytes at some locations. -/
def put (s : Store) (pairs : List (Location × List UInt8)) : Store :=
  { s with files := pairs.foldl (fun files p => Keyed.set p.1 p.2 files) s.files }

theorem put_append : s.put (pairs ++ pairs') = (s.put pairs).put pairs' := by
  rw [put, List.foldl_append]
  rfl

/-- Bytes at locations where files are change nothing else. -/
theorem sameBut_put (h : ∀ p ∈ pairs, p.1 ∈ s.files.map (·.1)) :
    SameBut (fun l => l ∈ pairs.map (·.1)) s (s.put pairs) :=
  ⟨Keyed.map_fst_foldl_set h, fun _ hl => Keyed.get?_foldl_set_of_not_mem hl, rfl, rfl, rfl, rfl⟩

theorem put_perm (hperm : pairs.Perm pairs') (hpairs : (pairs.map (·.1)).Nodup)
    (h : ∀ p ∈ pairs, p.1 ∈ s.files.map (·.1)) : s.put pairs = s.put pairs' := by
  rw [put, Keyed.foldl_set_perm hperm hpairs h]
  rfl

theorem setBytes_eq_put {p : Text} {l : Location} (h : s.locate p = .ok l) (bytes : List UInt8) :
    s.setBytes p bytes = s.put [(l, bytes)] := setBytes_of_locate h

/-- The location of a file that is read. -/
theorem exists_locate_of_read {p t : Text} (h : s.read p = .ok t) :
    ∃ l, s.locate p = .ok l ∧ l ∈ s.files.map (·.1) := by
  obtain ⟨bytes, u, hfile, -⟩ := read_eq_ok_iff.1 h
  obtain ⟨l, hl, hbytes⟩ := file?_eq_some_iff.1 hfile
  exact ⟨l, hl, Keyed.isSome_get?_iff.1 (by rw [hbytes, Option.isSome_some])⟩

end Store

namespace Fixing

variable {w u : Workspace} {s s' : Store} {path t : Text} {fs : List Finding}
  {groups : List (Text × List Finding)} {pairs : List (Location × List UInt8)}

/-! ## One file -/

/-- What fixing the file at a path for some findings writes, and where. -/
def plan (s : Store) (path : Text) (fs : List Finding) : Option (Location × List UInt8) :=
  match s.locate path, s.read path with
  | .ok l, .ok t =>
    if mended t fs = t ∨ s.refusesWrites = true then none
    else (Utf8.encode (mended t fs)).toOption.map fun bytes => (l, bytes)
  | _, _ => none

theorem plan_of_read {l : Location} (hl : s.locate path = .ok l) (hread : s.read path = .ok t) :
    plan s path fs =
      if mended t fs = t ∨ s.refusesWrites = true then none
      else (Utf8.encode (mended t fs)).toOption.map fun bytes => (l, bytes) := by
  rw [plan, hl, hread]

theorem plan_of_error {e : Store.ReadError} (hread : s.read path = .error e) :
    plan s path fs = none := by
  rw [plan, hread]
  cases s.locate path <;> rfl

theorem plan_eq_none (h : ∀ t, s.read path = .ok t → mended t fs = t ∨ s.refusesWrites = true) :
    plan s path fs = none := by
  cases hread : s.read path with
  | error e => exact plan_of_error hread
  | ok t =>
    obtain ⟨l, hl, -⟩ := Store.exists_locate_of_read hread
    rw [plan_of_read hl hread, if_pos (h t hread)]

/-- What is written is written where the path leads, and there is a file. -/
theorem locate_of_plan {p : Location × List UInt8} (h : plan s path fs = some p) :
    s.locate path = .ok p.1 ∧ p.1 ∈ s.files.map (·.1) := by
  cases hread : s.read path with
  | error e =>
    rw [plan_of_error hread] at h
    cases h
  | ok t =>
    obtain ⟨l, hl, hmem⟩ := Store.exists_locate_of_read hread
    rw [plan_of_read hl hread] at h
    split at h
    · cases h
    · obtain ⟨bytes, -, rfl⟩ := Option.map_eq_some_iff.1 h
      exact ⟨hl, hmem⟩

/-- Fixing a file whose text can be stored has a result, and leaves the workspace with what it writes. -/
theorem outcome_apply_plan (hpath : Store.pathFault? (Path.clean path) = none)
    (hstore : CanStore w.store (Path.clean path) fs) :
    ∃ r, outcome (apply path fs false) w =
      (.ok r, { w with store := w.store.put (plan w.store (Path.clean path) fs).toList }) := by
  have hnone : (∀ t, w.store.read (Path.clean path) = .ok t →
      mended t fs = t ∨ w.store.refusesWrites = true) →
      w = { w with store := w.store.put (plan w.store (Path.clean path) fs).toList } := by
    intro h
    rw [plan_eq_none h]
    rfl
  have hend := apply_ending w path fs
  generalize outcome (apply path fs false) w = out at hend ⊢
  cases hend with
  | idle hc =>
    refine ⟨_, congrArg _ (hnone fun t _ => .inl (mended_of_candidates_nil hc))⟩
  | noPath hc hread => exact absurd hread (Store.read_ne_fault hpath _)
  | unreadable hc hf hread =>
    refine ⟨_, congrArg _ (hnone fun t hread' => ?_)⟩
    cases hread.symm.trans hread'
  | unchanged hc hread hm =>
    refine ⟨_, congrArg _ (hnone fun t hread' => .inl ?_)⟩
    obtain rfl := Except.ok.inj (hread.symm.trans hread')
    exact hm
  | refused hc hread hm hr => exact ⟨_, congrArg _ (hnone fun t _ => .inr hr)⟩
  | @written t bytes hc hread hm hr he =>
    obtain ⟨l, hl, -⟩ := Store.exists_locate_of_read hread
    have hplan : plan w.store (Path.clean path) fs = some (l, bytes) := by
      rw [plan_of_read hl hread, if_neg (by simp [hm, hr]), he]
      rfl
    rw [hplan, Store.setBytes_eq_put hl]
    exact ⟨_, rfl⟩
  | @emptied t e hc hread hm hr he =>
    have hstorable := hstore.resolve_left (by simp [hr]) _ ⟨t, hread, rfl, hm⟩
    exact absurd hstorable ((Utf8.exists_encode_error_iff _).1 ⟨e, he⟩)

/-- What comes of fixing a file depends on its text and on whether it can be written. -/
theorem fst_outcome_apply_congr (hread : u.store.read (Path.clean path) = w.store.read (Path.clean path))
    (hwrites : u.store.refusesWrites = w.store.refusesWrites) (fs : List Finding) :
    (outcome (apply path fs false) u).1 = (outcome (apply path fs false) w).1 := by
  rw [outcome_apply, outcome_apply, hread]
  split
  · rfl
  cases w.store.read (Path.clean path) with
  | error e => cases e <;> rfl
  | ok t =>
    by_cases hsame : changes t fs = 0 ∨ mended t fs = t
    · simp only [outcome_write_same hsame]
    · cases hr : w.store.refusesWrites with
      | true => simp only [outcome_write_refused hsame hr, outcome_write_refused hsame (hwrites.trans hr)]
      | false =>
        cases he : Utf8.encode (mended t fs) with
        | ok bytes =>
          simp only [outcome_write_done hsame hr he, outcome_write_done hsame (hwrites.trans hr) he]
        | error e =>
          simp only [outcome_write_fault hsame hr he, outcome_write_fault hsame (hwrites.trans hr) he]

theorem plan_congr (hlocate : s'.locate path = s.locate path) (hread : s'.read path = s.read path)
    (hwrites : s'.refusesWrites = s.refusesWrites) : plan s' path fs = plan s path fs := by
  simp only [plan, hlocate, hread, hwrites]

theorem canStore_congr (hread : s'.read path = s.read path)
    (hwrites : s'.refusesWrites = s.refusesWrites) : CanStore s' path fs ↔ CanStore s path fs := by
  simp only [CanStore, SetsOutToWrite, hread, hwrites]

theorem canStore_of_read (hread : s.read path = .ok t) (h : (mended t fs).Storable) :
    CanStore s path fs := by
  refine .inr ?_
  rintro _ ⟨before, hbefore, rfl, -⟩
  obtain rfl := Except.ok.inj (hread.symm.trans hbefore)
  exact h

/-! ## File by file -/

/-- What comes of fixing a file for its findings if nothing else is fixed. -/
def fixedAlone (w : Workspace) (group : Text × List Finding) : FixResult :=
  (outcome (apply group.1 group.2 false) w).1.toOption.getD ⟨Path.clean group.1, 0, [], none⟩

/-- What fixing some files writes. -/
def plans (s : Store) (groups : List (Text × List Finding)) : List (Location × List UInt8) :=
  groups.filterMap fun group => plan s (Path.clean group.1) group.2

/-- Whether two paths lead to different locations, if they lead to any. -/
def Apart (s : Store) (path path' : Text) : Prop :=
  ∀ l, s.locate (Path.clean path) = .ok l → s.locate (Path.clean path') ≠ .ok l

/-- After other files have been written, a file is fixed as if it were the only one. -/
theorem outcome_apply_put (hpath : Store.pathFault? (Path.clean path) = none)
    (hstore : CanStore w.store (Path.clean path) fs) (hpairs : ∀ p ∈ pairs, p.1 ∈ w.store.files.map (·.1))
    (hother : ∀ p ∈ pairs, w.store.locate (Path.clean path) ≠ .ok p.1) :
    outcome (apply path fs false) { w with store := w.store.put pairs } =
      (.ok (fixedAlone w (path, fs)),
        { w with store := w.store.put (pairs ++ (plan w.store (Path.clean path) fs).toList) }) := by
  have hsame := Store.sameBut_put hpairs
  have hread : (w.store.put pairs).read (Path.clean path) = w.store.read (Path.clean path) := by
    refine hsame.read fun l hl hmem => ?_
    obtain ⟨p, hp, rfl⟩ := List.mem_map.1 hmem
    exact hother p hp hl
  obtain ⟨r, hr⟩ := outcome_apply_plan (w := { w with store := w.store.put pairs }) hpath
    ((canStore_congr hread hsame.refusesWrites).2 hstore)
  have halone : (outcome (apply path fs false) w).1 = .ok r := by
    rw [← fst_outcome_apply_congr (u := { w with store := w.store.put pairs }) hread hsame.refusesWrites,
      hr]
  rw [hr, fixedAlone, halone, plan_congr hsame.locate hread hsame.refusesWrites, Store.put_append]
  rfl

/-- Files at different locations are fixed as if each were the only one, and what is written is what
fixing each would write. -/
theorem outcome_applyAll_put
    (hpath : ∀ group ∈ groups, Store.pathFault? (Path.clean group.1) = none)
    (hstore : ∀ group ∈ groups, CanStore w.store (Path.clean group.1) group.2)
    (hapart : groups.Pairwise fun group group' => Apart w.store group.1 group'.1)
    (hpairs : ∀ p ∈ pairs, p.1 ∈ w.store.files.map (·.1))
    (hother : ∀ group ∈ groups, ∀ p ∈ pairs, w.store.locate (Path.clean group.1) ≠ .ok p.1) :
    outcome (applyAll groups false) { w with store := w.store.put pairs } =
      (.ok (groups.map (fixedAlone w)),
        { w with store := w.store.put (pairs ++ plans w.store groups) }) := by
  induction groups generalizing pairs with
  | nil =>
    rw [plans, List.filterMap_nil, List.append_nil]
    rfl
  | cons group groups ih =>
    obtain ⟨hpathg, hpath⟩ := List.forall_mem_cons.1 hpath
    obtain ⟨hstoreg, hstore⟩ := List.forall_mem_cons.1 hstore
    obtain ⟨hotherg, hother⟩ := List.forall_mem_cons.1 hother
    obtain ⟨hapartg, hapart⟩ := List.pairwise_cons.1 hapart
    have hplan : ∀ p ∈ (plan w.store (Path.clean group.1) group.2).toList,
        w.store.locate (Path.clean group.1) = .ok p.1 ∧ p.1 ∈ w.store.files.map (·.1) :=
      fun p hp => locate_of_plan (Option.mem_toList.1 hp)
    have hmem : ∀ p ∈ pairs ++ (plan w.store (Path.clean group.1) group.2).toList,
        p.1 ∈ w.store.files.map (·.1) :=
      List.forall_mem_append.2 ⟨hpairs, fun p hp => (hplan p hp).2⟩
    have hrest : outcome (applyAll groups false) _ = _ := ih hpath hstore hapart hmem
      fun group' hgroup' => List.forall_mem_append.2
        ⟨hother group' hgroup', fun p hp => hapartg group' hgroup' p.1 (hplan p hp).1⟩
    have hplans : plans w.store (group :: groups)
        = (plan w.store (Path.clean group.1) group.2).toList ++ plans w.store groups := by
      rw [plans, plans, List.filterMap_cons]
      cases plan w.store (Path.clean group.1) group.2 <;> rfl
    rw [applyAll] at hrest ⊢
    rw [outcome_mapM_cons, outcome_bind_ok (outcome_apply_put hpathg hstoreg hpairs hotherg),
      outcome_bind_ok hrest, hplans, List.append_assoc]
    rfl

end Fixing

/-! ## Findings and the files they name -/

namespace Finding

/-- The findings that name a file. -/
def naming (path : Text) (findings : List Finding) : List Finding :=
  findings.filter fun f => f.path = path

/-- The files that findings name. -/
def named (findings : List Finding) : List Text := findings.map (·.path)

theorem byFile_eq (findings : List Finding) :
    byFile findings = (Keyed.distinct (named findings)).map fun path => (path, naming path findings) :=
  Keyed.groupBy_eq _ findings

theorem mem_byFile {findings : List Finding} {group : Text × List Finding} :
    group ∈ byFile findings ↔ group.1 ∈ named findings ∧ group.2 = naming group.1 findings := by
  rw [byFile_eq, List.mem_map]
  constructor
  · rintro ⟨path, hpath, rfl⟩
    exact ⟨Keyed.mem_distinct.1 hpath, rfl⟩
  · rintro ⟨hnamed, hgroup⟩
    exact ⟨group.1, Keyed.mem_distinct.2 hnamed, Prod.ext rfl hgroup.symm⟩

theorem mem_named_iff {path : Text} {findings : List Finding} :
    path ∈ named findings ↔ naming path findings ≠ [] := by
  simp [named, naming, List.filter_eq_nil_iff]

end Finding

namespace Fixing

open Finding

/-- Whether some findings name files that differ and can be given the texts that the fixes of the
findings make. -/
structure Independent (w : Workspace) (findings : List Finding) : Prop where
  isPath : ∀ path ∈ named findings, Store.pathFault? (Path.clean path) = none
  apart : ∀ path ∈ named findings, ∀ path' ∈ named findings, path ≠ path' → Apart w.store path path'
  canStore : ∀ path ∈ named findings, CanStore w.store (Path.clean path) (naming path findings)

variable {w : Workspace} {s : Store} {groups : List (Text × List Finding)}
  {findings findings' : List Finding}

theorem pairwise_apart (h : Independent w findings) :
    (byFile findings).Pairwise fun group group' => Apart w.store group.1 group'.1 := by
  rw [byFile_eq, List.pairwise_map]
  refine (Keyed.nodup_distinct (named findings)).imp_of_mem fun hpath hpath' hne => ?_
  exact h.apart _ (Keyed.mem_distinct.1 hpath) _ (Keyed.mem_distinct.1 hpath') hne

/-- The files that findings name are fixed as if each were the only one. -/
theorem outcome_applyAll_byFile (h : Independent w findings) :
    outcome (applyAll (byFile findings) false) w =
      (.ok ((byFile findings).map (fixedAlone w)),
        { w with store := w.store.put (plans w.store (byFile findings)) }) := by
  refine @outcome_applyAll_put w (byFile findings) [] (fun group hgroup => ?_) (fun group hgroup => ?_)
    (pairwise_apart h) (List.forall_mem_nil _) fun _ _ => List.forall_mem_nil _
  · exact h.isPath _ (mem_byFile.1 hgroup).1
  · obtain ⟨hnamed, hgroup⟩ := mem_byFile.1 hgroup
    rw [hgroup]
    exact h.canStore _ hnamed

theorem mem_files_of_mem_plans {p : Location × List UInt8} (hp : p ∈ plans s groups) :
    ∃ group ∈ groups, s.locate (Path.clean group.1) = .ok p.1 ∧ p.1 ∈ s.files.map (·.1) := by
  obtain ⟨group, hgroup, hplan⟩ := List.mem_filterMap.1 hp
  exact ⟨group, hgroup, locate_of_plan hplan⟩

theorem nodup_plans (h : groups.Pairwise fun group group' => Apart s group.1 group'.1) :
    ((plans s groups).map (·.1)).Nodup := by
  rw [List.Nodup, List.pairwise_map, plans, List.pairwise_filterMap]
  refine h.imp fun hapart p hp p' hp' heq => ?_
  exact hapart p.1 (locate_of_plan hp).1 (heq ▸ (locate_of_plan hp').1)

theorem sameBut_put_plans (s : Store) (groups : List (Text × List Finding)) :
    Store.SameBut (fun l => l ∈ (plans s groups).map (·.1)) s (s.put (plans s groups)) := by
  refine Store.sameBut_put fun p hp => ?_
  obtain ⟨_, _, _, hmem⟩ := mem_files_of_mem_plans hp
  exact hmem

/-- What the writing of all files leaves at the path of one. -/
theorem file?_put_plans (h : groups.Pairwise fun group group' => Apart s group.1 group'.1)
    {group : Text × List Finding} (hgroup : group ∈ groups) :
    (s.put (plans s groups)).file? (Path.clean group.1) =
      match plan s (Path.clean group.1) group.2 with
      | some p => some p.2
      | none => s.file? (Path.clean group.1) := by
  have hsame := sameBut_put_plans s groups
  cases hplan : plan s (Path.clean group.1) group.2 with
  | some p =>
    have hmem : p ∈ plans s groups := List.mem_filterMap.2 ⟨group, hgroup, hplan⟩
    refine Store.file?_eq_some_iff.2 ⟨p.1, ?_, ?_⟩
    · rw [hsame.locate, (locate_of_plan hplan).1]
    · rw [Store.put, Keyed.get?_foldl_set (nodup_plans h), Keyed.get?_of_mem (nodup_plans h) hmem,
        Option.some_or]
  | none =>
    refine hsame.file? fun l hl hmem => ?_
    obtain ⟨p, hp, rfl⟩ := List.mem_map.1 hmem
    obtain ⟨group', hgroup', hplan'⟩ := List.mem_filterMap.1 hp
    have hne : group ≠ group' := by
      rintro rfl
      cases hplan.symm.trans hplan'
    have : Std.Symm fun group group' : Text × List Finding => Apart s group.1 group'.1 :=
      ⟨fun _ _ hapart l hl hl' => hapart l hl' hl⟩
    exact h.forall hgroup hgroup' hne p.1 hl (locate_of_plan hplan').1

/-- Findings that are reordered, but not those that name the same file, name files that differ as well. -/
theorem Independent.reorder (h : Independent w findings)
    (hsame : ∀ path, naming path findings' = naming path findings) : Independent w findings' := by
  have hnamed : ∀ path, path ∈ named findings' ↔ path ∈ named findings := by
    intro path
    rw [mem_named_iff, mem_named_iff, hsame]
  refine ⟨fun path hpath => h.isPath path ((hnamed path).1 hpath), fun path hpath path' hpath' => ?_,
    fun path hpath => ?_⟩
  · exact h.apart path ((hnamed path).1 hpath) path' ((hnamed path').1 hpath')
  · rw [hsame]
    exact h.canStore path ((hnamed path).1 hpath)

theorem put_plans_perm {groups' : List (Text × List Finding)} (hperm : groups'.Perm groups)
    (h : groups.Pairwise fun group group' => Apart s group.1 group'.1) :
    s.put (plans s groups') = s.put (plans s groups) := by
  refine (Store.put_perm (hperm.filterMap _).symm (nodup_plans h) fun p hp => ?_).symm
  obtain ⟨_, _, _, hmem⟩ := mem_files_of_mem_plans hp
  exact hmem

/-- Findings are grouped by the files that they name, none is lost or doubled, and those on one file keep
their order.  Where the files differ and their texts can be stored, each result is that of fixing the file
alone, and each file has the text that the fixes of its findings make one after the other; no other
file is touched.  If the findings are reordered, but not those on the same file, the files and the results
are the same. -/
theorem fixing_independent (h : Independent w findings) :
    byFile findings =
      ((Keyed.distinct (named findings)).map fun path => (path, naming path findings)) ∧
    ((byFile findings).flatMap (·.2)).Perm findings ∧
    ∃ v, outcome (applyAll (byFile findings) false) w = (.ok ((byFile findings).map (fixedAlone w)), v) ∧
      (∀ group ∈ byFile findings,
        ∃ u, outcome (apply group.1 group.2 false) w = (.ok (fixedAlone w group), u)) ∧
      w.SameBut (fun l => ∃ path ∈ named findings, w.store.locate (Path.clean path) = .ok l) v ∧
      (∀ path ∈ named findings,
        (∀ t, w.store.read (Path.clean path) = .ok t → mended t (naming path findings) ≠ t →
          w.store.refusesWrites = false → ∃ bytes,
            Utf8.encode (mended t (naming path findings)) = .ok bytes ∧
            v.store.file? (Path.clean path) = some bytes) ∧
        ((∀ t, w.store.read (Path.clean path) = .ok t →
            mended t (naming path findings) = t ∨ w.store.refusesWrites = true) →
          v.store.file? (Path.clean path) = w.store.file? (Path.clean path))) ∧
      ∀ findings', (∀ path, naming path findings' = naming path findings) →
        outcome (applyAll (byFile findings') false) w =
          (.ok ((byFile findings').map (fixedAlone w)), v) ∧
        (byFile findings').Perm (byFile findings) := by
  have hapart := pairwise_apart h
  refine ⟨byFile_eq findings, Keyed.flatMap_groupBy_perm _ findings, _, outcome_applyAll_byFile h,
    fun group hgroup => ?alone, ⟨rfl, ?touched⟩, fun path hpath => ⟨?written, ?kept⟩,
    fun findings' hsame => ?reordered⟩
  case alone =>
    obtain ⟨hnamed, hgroup⟩ := mem_byFile.1 hgroup
    have hstore := h.canStore group.1 hnamed
    rw [← hgroup] at hstore
    exact ⟨_, @outcome_apply_put w group.1 group.2 [] (h.isPath group.1 hnamed) hstore
      (List.forall_mem_nil _) (List.forall_mem_nil _)⟩
  case touched =>
    refine (sameBut_put_plans w.store (byFile findings)).mono fun l hl => ?_
    obtain ⟨p, hp, rfl⟩ := List.mem_map.1 hl
    obtain ⟨group, hgroup, hlocate, -⟩ := mem_files_of_mem_plans hp
    exact ⟨group.1, (mem_byFile.1 hgroup).1, hlocate⟩
  case written =>
    intro t hread hchanges hwrites
    obtain ⟨l, hl, -⟩ := Store.exists_locate_of_read hread
    have hstorable := (h.canStore path hpath).resolve_left (by simp [hwrites]) _ ⟨t, hread, rfl, hchanges⟩
    obtain ⟨bytes, hbytes⟩ := (Utf8.exists_encode_iff _).2 hstorable
    have hplan : plan w.store (Path.clean path) (naming path findings) = some (l, bytes) := by
      rw [plan_of_read hl hread, if_neg (by simp [hchanges, hwrites]), hbytes]
      rfl
    have hgroup : (path, naming path findings) ∈ byFile findings := mem_byFile.2 ⟨hpath, rfl⟩
    refine ⟨bytes, hbytes, (file?_put_plans hapart hgroup).trans ?_⟩
    rw [hplan]
  case kept =>
    intro hsame
    have hgroup : (path, naming path findings) ∈ byFile findings := mem_byFile.2 ⟨hpath, rfl⟩
    refine (file?_put_plans hapart hgroup).trans ?_
    rw [plan_eq_none hsame]
  case reordered =>
    have hperm : (byFile findings').Perm (byFile findings) := Keyed.groupBy_perm hsame
    refine ⟨?_, hperm⟩
    rw [outcome_applyAll_byFile (h.reorder hsame), put_plans_perm hperm hapart]

/-- Two files, in the current folder. -/
def twoFiles : Workspace where
  settings := {}
  store :=
    { files := [(["ROOT", "a.json"], [91, 93]), (["ROOT", "b.json"], [123, 125])]
      folders := [["ROOT"]]
      current := ["ROOT"] }

/-- Findings that append something to two files, by turns. -/
def appendings : List Finding :=
  [("a.json", "1"), ("b.json", "2"), ("a.json", "3")].map fun p =>
    { rule := "END", severity := .nit, path := Text.ofString p.1, message := []
      fix := some (.appending [] (Text.ofString p.2)) }

theorem read_twoFiles :
    twoFiles.store.read (Path.clean "a.json") = .ok "[]" ∧
      twoFiles.store.read (Path.clean "b.json") = .ok "\x7b\x7d" := by
  have hread : ∀ (name : Text) (t : Text) (bytes : List UInt8),
      twoFiles.store.file? (Path.clean name) = some bytes → Utf8.decode bytes = .ok t →
        twoFiles.store.read (Path.clean name) = .ok t.normaliseLineEnds := by
    intro name t bytes hfile hdecode
    rw [Store.read_of_file? hfile, hdecode]
  exact ⟨hread "a.json" "[]" [91, 93] (by decide +kernel) (by rfl),
    hread "b.json" "\x7b\x7d" [123, 125] (by decide +kernel) (by rfl)⟩

theorem independent_appendings : Independent twoFiles appendings := by
  have hnamed : ∀ path ∈ named appendings, path = "a.json" ∨ path = "b.json" := by decide
  have hlocate : twoFiles.store.locate? (Path.clean "a.json")
      ≠ twoFiles.store.locate? (Path.clean "b.json") := by decide +kernel
  refine ⟨by decide, fun path hpath path' hpath' hne l hl hl' => ?_, fun path hpath => ?_⟩
  · have hsame : twoFiles.store.locate? (Path.clean path) = twoFiles.store.locate? (Path.clean path') := by
      rw [Store.locate?, Store.locate?, hl, hl']
    obtain rfl | rfl := hnamed path hpath <;> obtain rfl | rfl := hnamed path' hpath'
    · exact hne rfl
    · exact hlocate hsame
    · exact hlocate hsame.symm
    · exact hne rfl
  · obtain rfl | rfl := hnamed path hpath
    · refine canStore_of_read read_twoFiles.1 ?_
      show ∀ c ∈ _, _
      decide +kernel
    · refine canStore_of_read read_twoFiles.2 ?_
      show ∀ c ∈ _, _
      decide +kernel

/-- Each of two files has what is appended to it. -/
theorem fixing_independent_appendings :
    ∃ v, outcome (applyAll (byFile appendings) false) twoFiles =
        (.ok ((byFile appendings).map (fixedAlone twoFiles)), v) ∧
      v.store.file? (Path.clean "a.json") = some [91, 93, 49, 51] ∧
      v.store.file? (Path.clean "b.json") = some [123, 125, 50] := by
  obtain ⟨-, -, v, hout, -, -, hfiles, -⟩ := fixing_independent independent_appendings
  obtain ⟨bytes, hbytes, hfile⟩ :=
    (hfiles "a.json" (by decide)).1 "[]" read_twoFiles.1 (by decide +kernel) rfl
  obtain ⟨bytes', hbytes', hfile'⟩ :=
    (hfiles "b.json" (by decide)).1 "\x7b\x7d" read_twoFiles.2 (by decide +kernel) rfl
  obtain rfl := Except.ok.inj ((show _ = .ok [91, 93, 49, 51] by rfl).symm.trans hbytes)
  obtain rfl := Except.ok.inj ((show _ = .ok [123, 125, 50] by rfl).symm.trans hbytes')
  exact ⟨v, hout, hfile, hfile'⟩

end Fixing

end WorkflowLint
