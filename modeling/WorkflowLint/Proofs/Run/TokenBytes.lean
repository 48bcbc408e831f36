import Mathlib.Logic.Relation
import WorkflowLint.Proofs.Check.Retouching
import WorkflowLint.Proofs.Run.Repair
import WorkflowLint.Proofs.Run.Touching
import WorkflowLint.Proofs.Text.Bytes

/-!
# The bytes of files whose placeholders are mended

A run that is restricted to the rules of placeholders makes of the text of a file the one in which
the offending tokens are replaced (`exists_outcome_replacing`).  That is the text with every line
end as a line feed, and it is written as it is.  So of the bytes of the file only those of the
tokens are replaced exactly if there was no carriage return among them, or if the file stays as it
is (`keepsBytes_iff`).
-/

namespace WorkflowLint

open Check Placeholder Job

/-! ## Replacing a part of a list -/

section

variable {α β : Type} {old new s t : List α}

/-- A part of a list is replaced by another one. -/
def Spliced (old new s t : List α) : Prop :=
  ∃ before after, s = before ++ old ++ after ∧ t = before ++ new ++ after

theorem Spliced.append_left (h : Spliced old new s t) (before : List α) :
    Spliced old new (before ++ s) (before ++ t) := by
  obtain ⟨before', after, rfl, rfl⟩ := h
  exact ⟨before ++ before', after, by simp, by simp⟩

theorem Spliced.flatMap (h : Spliced old new s t) (f : α → List β) :
    Spliced (old.flatMap f) (new.flatMap f) (s.flatMap f) (t.flatMap f) := by
  obtain ⟨before, after, rfl, rfl⟩ := h
  exact ⟨before.flatMap f, after.flatMap f, by simp, by simp⟩

theorem Spliced.mem_iff (h : Spliced old new s t) {a : α} (hold : a ∉ old) (hnew : a ∉ new) :
    a ∈ s ↔ a ∈ t := by
  obtain ⟨before, after, rfl, rfl⟩ := h
  simp [hold, hnew]

end

/-- Replacing all occurrences of a text is replacing some of them one after the other. -/
theorem reflTransGen_replaceFrom {old : Text} (new : Text) (hold : old ≠ []) (t : Text) :
    Relation.ReflTransGen (Spliced old new) t (Text.replaceFrom old new 0 t) := by
  induction hn : t.length using Nat.strong_induction_on generalizing t with
  | _ n ih =>
    subst hn
    by_cases hstart : old <+: t
    · obtain ⟨t, rfl⟩ := hstart
      have hshort : t.length < (old ++ t).length := by
        have hpos := List.length_pos_of_ne_nil hold
        rw [List.length_append]
        omega
      rw [Text.replaceFrom_append hold]
      refine .head (b := new ++ t) ⟨[], t, by simp, by simp⟩ ?_
      exact (ih _ hshort t rfl).lift (new ++ ·) fun _ _ h => h.append_left new
    · cases t with
      | nil => rw [Text.replaceFrom_nil]
      | cons c t =>
        rw [Text.replaceFrom_cons hstart]
        exact (ih _ (Nat.lt_succ_self _) t rfl).lift ([c] ++ ·) fun _ _ h => h.append_left [c]

/-! ## Offending tokens -/

/-- The rules of a run are restricted to those of placeholders. -/
def Options.OnlyPlaceholders (o : Options) : Prop :=
  o.rules ≠ [] ∧ ∀ rule ∈ o.rules,
    rule.upper = InstparmQuote.info.id ∨ rule.upper = PlaceholderSyntax.info.id

/-- The offending tokens of a text, each with the one by which it is to be replaced: placeholders
between quotes, and placeholders with a wrong ending. -/
def offending (o : Options) (t : Text) : List (Text × Text) :=
  o.ifSelected InstparmQuote.info.id
      ((InstparmQuote.scan t).map fun found => (found.2.text, found.2.token.text)) ++
    o.ifSelected PlaceholderSyntax.info.id
      ((PlaceholderSyntax.scan t).map fun found =>
        (found.2.text, (PlaceholderSyntax.corrected found.2).text))

/-- A text in which some tokens are replaced, all occurrences of the one before the next one. -/
def replacedIn (tokens : List (Text × Text)) (t : Text) : Text :=
  tokens.foldl (fun t token => t.replaceAll token.1 token.2) t

/-- Of some bytes those of a token are replaced, at one place. -/
def TokenReplaced (tokens : List (Text × Text)) (bytes bytes' : List UInt8) : Prop :=
  ∃ token ∈ tokens, ∃ old new, Utf8.encode token.1 = .ok old ∧ Utf8.encode token.2 = .ok new ∧
    Spliced old new bytes bytes'

/-- Nothing but tokens is replaced, one after the other. -/
def TokensReplaced (tokens : List (Text × Text)) : List UInt8 → List UInt8 → Prop :=
  Relation.ReflTransGen (TokenReplaced tokens)

/-! ## What tokens consist of -/

/-- A code point that can be stored, and is no carriage return. -/
def Ordinary (c : CodePoint) : Prop := c.isSurrogate = false ∧ c ≠ .char '\r'

instance : DecidablePred Ordinary := fun _ => inferInstanceAs (Decidable (_ ∧ _))

theorem ordinary_of_isNameUnit {c : CodePoint} (h : isNameUnit c = true) : Ordinary c := by
  constructor
  · cases c with
    | char c => rfl
    | surrogate k => exact absurd h (by simp [isNameUnit, CodePoint.isUpper, CodePoint.isDigit])
  · rintro rfl
    revert h
    decide

theorem Placeholder.Token.Plain.ordinary_text {p : Token} (h : p.Plain) :
    ∀ c ∈ p.text, Ordinary c := by
  have hopening : ∀ c ∈ opening, Ordinary c := by decide
  have hbar : ∀ c ∈ ("_" : Text), Ordinary c := by decide
  have hclosing : ∀ c ∈ closing, Ordinary c := by decide
  have hunits : ∀ {t : Text}, (∀ c ∈ t, isNameUnit c = true) → ∀ c ∈ t, Ordinary c :=
    fun hunit c hc => ordinary_of_isNameUnit (hunit c hc)
  simp only [Token.text, List.forall_mem_append]
  exact ⟨⟨⟨⟨⟨⟨hopening, hunits h.1⟩, hbar⟩, hunits h.2.1⟩, hbar⟩, hunits h.2.2⟩, hclosing⟩

theorem Check.InstparmQuote.ordinary_text {q : Quoted} {t : Text} {n : Nat}
    (h : read? t = some (q, n)) : ∀ c ∈ q.text, Ordinary c := by
  obtain ⟨hquote, hplain⟩ := quote_of_read? h
  have hquotes : ∀ c ∈ q.quote, Ordinary c := by
    rcases hquote with hquote | hquote <;> rw [hquote] <;> decide
  simp only [Quoted.text, List.forall_mem_append]
  exact ⟨⟨hquotes, hplain.ordinary_text⟩, hquotes⟩

/-- Offending tokens, and those by which they are replaced, consist of ordinary code points. -/
def OrdinaryTokens (tokens : List (Text × Text)) : Prop :=
  ∀ token ∈ tokens, token.1 ≠ [] ∧ (∀ c ∈ token.1, Ordinary c) ∧ ∀ c ∈ token.2, Ordinary c

theorem ordinaryTokens_offending (o : Options) (t : Text) : OrdinaryTokens (offending o t) := by
  intro token htoken
  rcases List.mem_append.1 htoken with htoken | htoken
  · obtain ⟨found, hfound, rfl⟩ := List.mem_map.1 (o.mem_ifSelected_iff.1 htoken).2
    obtain ⟨s, n, -, hread⟩ := Text.exists_suffix_of_mem_occurrences hfound
    refine ⟨?_, InstparmQuote.ordinary_text hread,
      (InstparmQuote.quote_of_read? hread).2.ordinary_text⟩
    exact List.append_ne_nil_of_left_ne_nil
      (List.append_ne_nil_of_left_ne_nil (InstparmQuote.of_read? hread).1 _) _
  · obtain ⟨found, hfound, rfl⟩ := List.mem_map.1 (o.mem_ifSelected_iff.1 htoken).2
    obtain ⟨s, n, -, hread⟩ := Text.exists_suffix_of_mem_occurrences (List.mem_filter.1 hfound).1
    obtain ⟨hplain, hcorrected⟩ := PlaceholderSyntax.plain_of_read? hread
    refine ⟨?_, hplain.ordinary_text, hcorrected.ordinary_text⟩
    rw [Token.text_eq]
    exact List.cons_ne_nil _ _

section

variable {tokens : List (Text × Text)} {t : Text} {bytes bytes' : List UInt8}

theorem encode_of_ordinary (h : ∀ c ∈ t, Ordinary c) : Utf8.encode t = .ok (Text.bytes t) :=
  Utf8.encode_eq_ok_iff.2 ⟨fun c hc => (h c hc).1, rfl⟩

theorem return_not_mem_of_ordinary (h : ∀ c ∈ t, Ordinary c) : 13 ∉ Text.bytes t := by
  rw [Utf8.return_mem_bytes_iff, Classical.not_not]
  exact fun hreturn => (h _ hreturn).2 rfl

variable (htokens : OrdinaryTokens tokens)
include htokens

theorem mem_replacedIn {c : CodePoint} (h : c ∈ replacedIn tokens t) : c ∈ t ∨ Ordinary c := by
  induction tokens generalizing t with
  | nil => exact .inl h
  | cons token tokens ih =>
    obtain ⟨⟨-, -, hnew⟩, htokens⟩ := List.forall_mem_cons.1 htokens
    rcases ih htokens h with h | h
    · exact (Text.mem_replaceAll h).imp_right (hnew c)
    · exact .inr h

theorem storable_replacedIn (ht : t.Storable) : (replacedIn tokens t).Storable := by
  intro c hc
  rcases mem_replacedIn htokens hc with hc | hordinary
  · exact ht c hc
  · exact hordinary.1

theorem noReturn_replacedIn (ht : t.NoReturn) : (replacedIn tokens t).NoReturn := by
  intro hreturn
  rcases mem_replacedIn htokens hreturn with hreturn | hordinary
  · exact ht hreturn
  · exact hordinary.2 rfl

/-- Of the bytes of a text in which some tokens are replaced nothing but these is. -/
theorem tokensReplaced_bytes {part : List (Text × Text)} (hpart : ∀ token ∈ part, token ∈ tokens) :
    TokensReplaced tokens (Text.bytes t) (Text.bytes (replacedIn part t)) := by
  induction part generalizing t with
  | nil => exact .refl
  | cons token part ih =>
    obtain ⟨hmem, hpart⟩ := List.forall_mem_cons.1 hpart
    obtain ⟨hne, hold, hnew⟩ := htokens token hmem
    have hstep : TokensReplaced tokens (Text.bytes t)
        (Text.bytes (t.replaceAll token.1 token.2)) := by
      rw [Text.replaceAll_eq hne]
      refine (reflTransGen_replaceFrom token.2 hne t).lift Text.bytes fun _ _ h => ?_
      exact ⟨token, hmem, _, _, encode_of_ordinary hold, encode_of_ordinary hnew, h.flatMap _⟩
    exact hstep.trans (ih hpart)

/-- Replacing tokens neither makes a carriage return nor removes one. -/
theorem return_mem_iff_of_tokensReplaced (h : TokensReplaced tokens bytes bytes') :
    13 ∈ bytes ↔ 13 ∈ bytes' := by
  induction h with
  | refl => rfl
  | tail _ hstep ih =>
    obtain ⟨token, hmem, old, new, hold, hnew, hspliced⟩ := hstep
    obtain ⟨-, hordinary, hordinary'⟩ := htokens token hmem
    obtain rfl := Except.ok.inj ((encode_of_ordinary hordinary).symm.trans hold)
    obtain rfl := Except.ok.inj ((encode_of_ordinary hordinary').symm.trans hnew)
    rw [ih]
    exact hspliced.mem_iff (return_not_mem_of_ordinary hordinary)
      (return_not_mem_of_ordinary hordinary')

/-- Of the bytes of a text nothing but tokens is replaced when these are replaced behind line feeds
exactly if the text has no carriage return, or if its bytes come out. -/
theorem tokensReplaced_iff {u : Text} :
    TokensReplaced tokens (Text.bytes u) (Text.bytes (replacedIn tokens u.normaliseLineEnds)) ↔
      u.NoReturn ∨ Text.bytes (replacedIn tokens u.normaliseLineEnds) = Text.bytes u := by
  constructor
  · -- what comes out has no carriage return, and replacing tokens removes none
    intro hreplaced
    refine .inl (Classical.byContradiction fun hreturn => ?_)
    have hbytes := (return_mem_iff_of_tokensReplaced htokens hreplaced).1
      ((Utf8.return_mem_bytes_iff u).2 hreturn)
    exact (Utf8.return_mem_bytes_iff _).1 hbytes
      (noReturn_replacedIn htokens (Text.normaliseLineEnds_noReturn u))
  · rintro (hreturn | hsame)
    · rw [Text.normaliseLineEnds_eq_self hreturn]
      exact tokensReplaced_bytes htokens fun _ => id
    · rw [hsame]
      exact .refl

end

/-! ## Runs -/

namespace Options.OnlyPlaceholders

variable {o : Options} (h : o.OnlyPlaceholders)
include h

theorem selects_eq_false {rule : Text} (hquote : rule.upper ≠ InstparmQuote.info.id)
    (hspelling : rule.upper ≠ PlaceholderSyntax.info.id) : o.selects rule = false := by
  have hempty : o.rules.isEmpty = false := by simpa using h.1
  have hany : (o.rules.any fun n => n.upper == rule.upper) = false := by
    rw [List.any_eq_false]
    intro n hn heq
    rw [beq_iff_eq] at heq
    rcases h.2 n hn with hn | hn
    · exact hquote (heq ▸ hn)
    · exact hspelling (heq ▸ hn)
  simp only [Options.selects, Finding.selected, hempty, hany, Bool.false_or, Bool.false_and]

theorem editFixes_eq_nil (path t : Text) (document : Json.Members) :
    editFixes o path t document = [] := by
  rw [editFixes, Options.ifSelected, Options.ifSelected, Options.ifSelected,
    h.selects_eq_false (by decide) (by decide), h.selects_eq_false (by decide) (by decide),
    h.selects_eq_false (by decide) (by decide)]
  rfl

end Options.OnlyPlaceholders

/-- The fixes of placeholders replace the offending tokens. -/
theorem respelled_eq (o : Options) (path t : Text) :
    respelled o path t = replacedIn (offending o t) t := by
  have hquotes : (InstparmQuote.run t path).filterMap (·.fix) =
      (InstparmQuote.scan t).map fun found => InstparmQuote.fix found.2 :=
    filterMap_fix_map (fun _ => rfl) _
  have hspelling : (PlaceholderSyntax.run t path).filterMap (·.fix) =
      (PlaceholderSyntax.scan t).map fun found => PlaceholderSyntax.fix found.2 :=
    filterMap_fix_map (fun _ => rfl) _
  rw [respelled, Fixing.mended, Fixing.map_snd_candidates, placeholderFindings,
    Options.choose_append, List.filterMap_append,
    o.filterMap_fix_choose (fixableOn_instparmQuote path t),
    o.filterMap_fix_choose (fixableOn_placeholderSyntax path t), hquotes, hspelling, offending,
    ifSelected_map, ifSelected_map, ifSelected_map, ifSelected_map, Fix.applyAll, replacedIn,
    List.foldl_append, List.foldl_append, List.foldl_map, List.foldl_map, List.foldl_map,
    List.foldl_map]
  rfl

section

variable {o : Options} {w : Workspace} {path : Text} {bytes : List UInt8} {u : Text}
  {g : Workflow.Graph}

/-- A run that is restricted to the rules of placeholders has a result.  It leaves the file with its
bytes if it only tries the fixes, if writing is refused, or if replacing the offending tokens leaves
the text of the file as it is, and else with the bytes of the text that this gives. -/
theorem exists_outcome_replacing (hfix : o.fix = true) (hrules : o.OnlyPlaceholders)
    (hfile : w.store.file? (w.store.absolute path) = some bytes)
    (hdecode : Utf8.decode bytes = .ok u)
    (hparse : Workflow.Graph.parse u.normaliseLineEnds = .ok g) {after : Text}
    (hafter : after = replacedIn (offending o u.normaliseLineEnds) u.normaliseLineEnds) :
    ∃ result v bytes',
      outcome (validateWorkflow Registry.builtIn o path) w = (.ok result, v) ∧
      v.store.file? (w.store.absolute path) = some bytes' ∧
      (o.dryRun = true ∨ w.store.refusesWrites = true ∨ after = u.normaliseLineEnds →
        bytes' = bytes) ∧
      (o.dryRun = false → w.store.refusesWrites = false → after ≠ u.normaliseLineEnds →
        Utf8.encode after = .ok bytes') := by
  have hw : o.wantsFixes = true := by rw [Options.wantsFixes, hfix, Bool.true_or]
  have hread : w.store.read (w.store.absolute path) = .ok u.normaliseLineEnds :=
    Store.read_eq_ok_iff.2 ⟨bytes, u, hfile, hdecode, rfl⟩
  have hreads := readWorkflow_eq_ok_iff.2 ⟨hread, hparse⟩
  cases hdry : o.dryRun with
  | true =>
    exact ⟨_, w, bytes, outcome_validateWorkflow_plain hreads (.inr hdry), hfile, fun _ => rfl,
      fun h => absurd h (by simp)⟩
  | false =>
    obtain ⟨document, hdocument⟩ := exists_read_of_parse hparse
    have hmended : Fixing.mended u.normaliseLineEnds
        (chosenFindings Registry.builtIn o (w.store.absolute path) u.normaliseLineEnds g) =
          after := by
      rw [chosenFindings, mended_examine o _ _ g hdocument, hrules.editFixes_eq_nil, respelled_eq,
        hafter]
      rfl
    have hstorable : after.Storable := by
      rw [hafter]
      exact storable_replacedIn (ordinaryTokens_offending o _)
        (Utf8.storable_normaliseLineEnds (Utf8.encode_eq_ok_iff.1 (Utf8.encode_decode hdecode)).1)
    have hclean : Path.clean (w.store.absolute path) = w.store.absolute path :=
      Store.clean_absolute ..
    obtain ⟨fixed, v, hout, hstays, hchanges⟩ := Fixing.exists_outcome_apply
      (chosenFindings Registry.builtIn o (w.store.absolute path) u.normaliseLineEnds g)
      (hclean ▸ hread) fun _ => hmended ▸ hstorable
    rw [hmended, hclean] at *
    rw [outcome_validateWorkflow_fixing hreads hw hdry, hout]
    by_cases hsame : after = u.normaliseLineEnds ∨ w.store.refusesWrites = true
    · obtain rfl := hstays hsame
      refine ⟨_, v, bytes, rfl, hfile, fun _ => rfl, fun _ hwrites hne => ?_⟩
      rcases hsame with hsame | hrefuses
      · exact absurd hsame hne
      · rw [hwrites] at hrefuses
        cases hrefuses
    · obtain ⟨hne, hwrites⟩ := not_or.1 hsame
      obtain ⟨bytes', hencode, hbytes'⟩ := hchanges hne (Bool.eq_false_iff.2 hwrites)
      refine ⟨_, v, bytes', rfl, hbytes', fun h => ?_, fun _ _ _ => hencode⟩
      rcases h with h | h | h
      · cases h
      · exact absurd h hwrites
      · exact absurd h hne

/-- A run that is restricted to the rules of placeholders has a result.  It leaves the file with its
bytes, or gives it those of its text, each line end being a line feed, in which the offending tokens
are replaced.  Of the bytes of the file nothing but those of offending tokens is replaced exactly if
its text has no carriage return, or if it is left as it was. -/
theorem keepsBytes_iff (hfix : o.fix = true) (hrules : o.OnlyPlaceholders)
    (hfile : w.store.file? (w.store.absolute path) = some bytes)
    (hdecode : Utf8.decode bytes = .ok u)
    (hparse : Workflow.Graph.parse u.normaliseLineEnds = .ok g) {after : Text}
    (hafter : after = replacedIn (offending o u.normaliseLineEnds) u.normaliseLineEnds) :
    ∃ result v bytes',
      outcome (validateWorkflow Registry.builtIn o path) w = (.ok result, v) ∧
      v.store.file? (w.store.absolute path) = some bytes' ∧
      (o.dryRun = true ∨ w.store.refusesWrites = true ∨ after = u.normaliseLineEnds →
        bytes' = bytes) ∧
      (o.dryRun = false → w.store.refusesWrites = false → after ≠ u.normaliseLineEnds →
        Utf8.encode after = .ok bytes') ∧
      (TokensReplaced (offending o u.normaliseLineEnds) bytes bytes' ↔
        u.NoReturn ∨ bytes' = bytes) := by
  obtain ⟨result, v, bytes', hrun, hfile', hstays, hchanges⟩ :=
    exists_outcome_replacing hfix hrules hfile hdecode hparse hafter
  refine ⟨result, v, bytes', hrun, hfile', hstays, hchanges, ?_⟩
  by_cases hidle : o.dryRun = true ∨ w.store.refusesWrites = true ∨ after = u.normaliseLineEnds
  · rw [hstays hidle]
    exact iff_of_true .refl (.inr rfl)
  · obtain ⟨hdry, hrest⟩ := not_or.1 hidle
    obtain ⟨hwrites, hne⟩ := not_or.1 hrest
    have hencode := hchanges (Bool.eq_false_iff.2 hdry) (Bool.eq_false_iff.2 hwrites) hne
    obtain ⟨-, rfl⟩ := Utf8.encode_eq_ok_iff.1 (Utf8.encode_decode hdecode)
    obtain ⟨-, rfl⟩ := Utf8.encode_eq_ok_iff.1 hencode
    rw [hafter]
    exact tokensReplaced_iff (ordinaryTokens_offending o _)

end

/-- A workflow with a misspelt placeholder in its second line. -/
def misspeltLine (lineEnd : Text) : Workspace :=
  .single "w.json" <|
    "\x7b\"nodes\":[]," ++ lineEnd ++ "\"x\":\"\x7b\x7bORGSECRET_A_WRONG\x7d\x7d\"\x7d"

/-- The path of that file. -/
def misspeltLinePath (lineEnd : Text) : Text := (misspeltLine lineEnd).store.absolute "w.json"

/-- The options of a run that fixes nothing but placeholders. -/
def placeholdersOnly : Options :=
  { rules := ["INSTPARM-QUOTE", "PLACEHOLDER-SYNTAX"], fix := true }

theorem onlyPlaceholders_placeholdersOnly : placeholdersOnly.OnlyPlaceholders := by
  refine ⟨List.cons_ne_nil _ _, ?_⟩
  decide

/-- In a file with line feeds the run replaces nothing but the placeholder. -/
theorem keepsBytes_misspeltLine :
    ∃ bytes u result v bytes',
      (misspeltLine "\n").store.file? (misspeltLinePath "\n") = some bytes ∧
      Utf8.decode bytes = .ok u ∧
      outcome (validateWorkflow Registry.builtIn placeholdersOnly "w.json") (misspeltLine "\n") =
        (.ok result, v) ∧
      v.store.file? (misspeltLinePath "\n") = some bytes' ∧
      Utf8.encode (replacedIn (offending placeholdersOnly u.normaliseLineEnds)
        u.normaliseLineEnds) = .ok bytes' ∧
      TokensReplaced (offending placeholdersOnly u.normaliseLineEnds) bytes bytes' := by
  have hreads : ((misspeltLine "\n").store.file? (misspeltLinePath "\n")).any (fun bytes =>
      (Utf8.decode bytes).toOption.any fun u => decide u.NoReturn &&
        (Workflow.Graph.parse u.normaliseLineEnds).toOption.isSome &&
        decide (replacedIn (offending placeholdersOnly u.normaliseLineEnds) u.normaliseLineEnds ≠
          u.normaliseLineEnds)) = true := by decide +kernel
  obtain ⟨bytes, hfile, hreads⟩ := (Option.any_eq_true _ _).1 hreads
  obtain ⟨u, hdecode, hreads⟩ := exists_ok_of_any hreads
  simp only [Bool.and_eq_true, decide_eq_true_eq] at hreads
  obtain ⟨⟨hreturn, hparses⟩, hne⟩ := hreads
  obtain ⟨g, hparse⟩ := Option.isSome_iff_exists.1 hparses
  obtain ⟨result, v, bytes', hrun, hfile', -, hchanges, hiff⟩ := keepsBytes_iff rfl
    onlyPlaceholders_placeholdersOnly hfile hdecode (eq_ok_of_toOption hparse) rfl
  exact ⟨bytes, u, result, v, bytes', hfile, hdecode, hrun, hfile', hchanges rfl rfl hne,
    hiff.2 (.inl hreturn)⟩

/-- In a file with carriage returns the run replaces these too. -/
theorem not_keepsBytes_misspeltLine :
    ∃ bytes u g result v bytes',
      (misspeltLine "\r\n").store.file? (misspeltLinePath "\r\n") = some bytes ∧
      Utf8.decode bytes = .ok u ∧ Workflow.Graph.parse u.normaliseLineEnds = .ok g ∧
      outcome (validateWorkflow Registry.builtIn placeholdersOnly "w.json") (misspeltLine "\r\n") =
        (.ok result, v) ∧
      v.store.file? (misspeltLinePath "\r\n") = some bytes' ∧
      ¬ TokensReplaced (offending placeholdersOnly u.normaliseLineEnds) bytes bytes' := by
  have hreads : ((misspeltLine "\r\n").store.file? (misspeltLinePath "\r\n")).any (fun bytes =>
      decide (13 ∈ bytes) && (Utf8.decode bytes).toOption.any fun u =>
        (Workflow.Graph.parse u.normaliseLineEnds).toOption.isSome) = true := by decide +kernel
  have hwrites : passes (fun _ v => (v.store.file? (misspeltLinePath "\r\n")).any fun bytes' =>
      decide (13 ∉ bytes')) (validateWorkflow Registry.builtIn placeholdersOnly "w.json")
      (misspeltLine "\r\n") = true := by decide +kernel
  obtain ⟨bytes, hfile, hreads⟩ := (Option.any_eq_true _ _).1 hreads
  rw [Bool.and_eq_true, decide_eq_true_eq] at hreads
  obtain ⟨u, hdecode, hparses⟩ := exists_ok_of_any hreads.2
  obtain ⟨g, hparse⟩ := Option.isSome_iff_exists.1 hparses
  obtain ⟨result, v, hrun, hwrites⟩ := exists_outcome_of_passes hwrites
  obtain ⟨bytes', hfile', hnot⟩ := (Option.any_eq_true _ _).1 hwrites
  rw [decide_eq_true_eq] at hnot
  refine ⟨bytes, u, g, result, v, bytes', hfile, hdecode, eq_ok_of_toOption hparse, hrun, hfile',
    fun hreplaced => hnot ?_⟩
  exact (return_mem_iff_of_tokensReplaced (ordinaryTokens_offending _ _) hreplaced).1 hreads.1

end WorkflowLint
