import WorkflowLint.Proofs.Check.BuiltIn
import WorkflowLint.Proofs.Check.Mending
import WorkflowLint.Proofs.Check.Placeholder
import WorkflowLint.Proofs.Check.Projects
import WorkflowLint.Proofs.Fault
import WorkflowLint.Proofs.Project.Caller
import WorkflowLint.Proofs.Text.Replacing

/-!
# What the built-in fixes do to any text

A fix is made for the text on which something was found, but it can be run on any other.  The fixes
of the built-in checks make repairs of six kinds (`exists_repair_of_isBuiltIn`): two replace a
placeholder, three edit the document, and one adds a caller to the configuration of a project.

The main result (`repairs_total_and_stable_iff`) says of every such fix and every text when the fix
gives a text, that it leaves a text of another kind alone, and when running it again changes nothing.
The fixes of endings and of documents never change what they have written; dropping quotes does where
there were two pairs of them, and adding a caller where the configuration is not read as it was
written.
-/

namespace WorkflowLint

open Check Placeholder

/-! ## Repairs -/

/-- What a fix of the built-in checks does. -/
inductive Repair where
  /-- Drops the quotes around a placeholder. -/
  | unquote (q : InstparmQuote.Quoted)
  /-- Gives a placeholder the ending that belongs to it. -/
  | respell (p : Token)
  /-- Sets a setting of the document. -/
  | settle (key value : Text)
  /-- Drops a property of the document. -/
  | sanitise (key : Text)
  /-- Gives the webhooks of a name an id. -/
  | identify (name : Json)
  /-- Adds a caller to the list of a sub-workflow. -/
  | addCaller (subworkflow caller : Text)

namespace Repair

/-- What a repair makes of a text. -/
def run : Repair → Text → Fix.Outcome
  | unquote q, t => .text (t.replaceAll q.text q.token.text)
  | respell p, t => .text (t.replaceAll p.text (PlaceholderSyntax.corrected p).text)
  | settle key value, t => Fix.editText (RequiredSettings.setSetting key (.string value)) t
  | sanitise key, t => Fix.editText (ForbiddenProperties.dropProperty key) t
  | identify name, t => Fix.editText (WebhookId.addId name) t
  | addCaller subworkflow caller, t => Caller.addToText subworkflow caller t

/-- A text is nested too deeply, or has too long a number, to be read as JSON or not. -/
def Unreadable (t : Text) : Prop :=
  (∃ bracket, Json.read t = .error (.tooDeep bracket)) ∨
    ∃ n, Json.read t = .error (.tooManyDigits n)

/-- Adding a caller stops at a text: reading it as YAML does, or writing it with the caller. -/
def CannotAdd (subworkflow caller t : Text) : Prop :=
  (∃ f, Yaml.load .given t = .error (.fault f)) ∨
    ∃ g added f, Yaml.load .given t = .ok g ∧ Caller.add? subworkflow caller g = some added ∧
      Yaml.print? added = .error f

/-- A repair stops at a text with a fault. -/
def StopsOn : Repair → Text → Prop
  | unquote _, _ | respell _, _ => False
  | settle _ _, t | sanitise _, t | identify _, t => Unreadable t
  | addCaller subworkflow caller, t => CannotAdd subworkflow caller t

/-- A text that can be read, or is not JSON, is no object. -/
def NoObject (t : Text) : Prop :=
  (∃ problem ahead, Json.read t = .error (.malformed problem ahead)) ∨
    ∃ v, Json.read t = .ok v ∧ ∀ members, v ≠ .object members

/-- A text is not YAML, or no mapping. -/
def NoMapping (t : Text) : Prop :=
  (∃ e, Yaml.load .given t = .error e ∧ ∀ f, e ≠ .fault f) ∨
    ∃ g, Yaml.load .given t = .ok g ∧ g.object.isMapping = false

/-- A text is none of those that a repair edits. -/
def Foreign : Repair → Text → Prop
  | unquote _, _ | respell _, _ => False
  | settle _ _, t | sanitise _, t | identify _, t => NoObject t
  | addCaller _ _, t => NoMapping t

/-- What has been written with a caller does not say that it calls: it stops who reads it, or what is
read lacks the caller, so that adding it writes something else. -/
def StillLacks (subworkflow caller written : Text) : Prop :=
  (∃ f, Yaml.load .given written = .error (.fault f)) ∨
    ∃ g added, Yaml.load .given written = .ok g ∧ Caller.add? subworkflow caller g = some added ∧
      Yaml.print? added ≠ .ok written

/-- A repair has more to do on what it makes of a text. -/
def UnsettledOn : Repair → Text → Prop
  | unquote q, t => q.text <:+: t.replaceAll q.text q.token.text
  | addCaller subworkflow caller, t =>
    ∃ g added written, Yaml.load .given t = .ok g ∧
      Caller.add? subworkflow caller g = some added ∧ Yaml.print? added = .ok written ∧
      StillLacks subworkflow caller written
  | _, _ => False

/-- A repair is of something that a check has found. -/
def Proper : Repair → Prop
  | unquote q => ∃ t n, InstparmQuote.read? t = some (q, n)
  | respell p => (∃ t n, PlaceholderSyntax.read? t = some (p, n)) ∧
      p.ending ≠ PlaceholderSyntax.expected p
  | _ => True

end Repair

/-! ## Placeholders -/

namespace Placeholder.Token

variable {p : Token}

/-- A placeholder after its stem has been opened. -/
def core (p : Token) : Text := p.stem ++ "_" ++ p.name ++ "_" ++ p.ending ++ closing

theorem text_eq (p : Token) : p.text = Text.brace :: Text.brace :: p.core := by
  simp only [text, core, opening, List.append_assoc]
  rfl

theorem core_ne_nil (p : Token) : p.core ≠ [] :=
  List.append_ne_nil_of_right_ne_nil _ (by decide)

/-- The parts of a placeholder consist of the code points of names. -/
def Plain (p : Token) : Prop :=
  (∀ c ∈ p.stem, isNameUnit c = true) ∧ (∀ c ∈ p.name, isNameUnit c = true) ∧
    ∀ c ∈ p.ending, isNameUnit c = true

/-- A placeholder whose parts consist of code points of a kind has no others before the closing braces. -/
theorem not_mem_of_units {unit : CodePoint → Bool} (hbar : unit (.char '_') = true)
    (hstem : ∀ c ∈ p.stem, unit c = true) (hname : ∀ c ∈ p.name, unit c = true)
    (hending : ∀ c ∈ p.ending, unit c = true) {c : CodePoint} (hc : unit c = false) :
    c ∉ p.stem ++ "_" ++ p.name ++ "_" ++ p.ending := by
  have hbars : ∀ c ∈ ("_" : Text), unit c = true := fun c hmem => (List.mem_singleton.1 hmem) ▸ hbar
  intro hmem
  have hunit : unit c = true := by
    simp only [List.mem_append] at hmem
    obtain (((hmem | hmem) | hmem) | hmem) | hmem := hmem
    · exact hstem c hmem
    · exact hbars c hmem
    · exact hname c hmem
    · exact hbars c hmem
    · exact hending c hmem
  rw [hc] at hunit
  exact Bool.false_ne_true hunit

/-- Besides what stands between them a placeholder has braces. -/
theorem not_mem_text {c : CodePoint} (hc : c ≠ Text.brace) (hcore : c ∉ p.core) : c ∉ p.text := by
  rw [text_eq, List.mem_cons, List.mem_cons]
  exact not_or.2 ⟨hc, not_or.2 ⟨hc, hcore⟩⟩

theorem Plain.not_mem (h : p.Plain) {c : CodePoint} (hc : isNameUnit c = false) :
    c ∉ p.stem ++ "_" ++ p.name ++ "_" ++ p.ending :=
  not_mem_of_units (by decide) h.1 h.2.1 h.2.2 hc

theorem Plain.not_mem_core (h : p.Plain) {c : CodePoint} (hc : isNameUnit c = false)
    (hclosing : c ∉ closing) : c ∉ p.core :=
  fun hmem => (List.mem_append.1 hmem).elim (h.not_mem hc) hclosing

end Placeholder.Token

namespace Check

/-- The stems and the endings of placeholders consist of the code points of names. -/
theorem isNameUnit_of_mem_endings {e : Text × Text} (he : e ∈ endings) :
    (∀ c ∈ e.1, isNameUnit c = true) ∧ ∀ c ∈ e.2, isNameUnit c = true := by
  have hall : ∀ e ∈ endings, (∀ c ∈ e.1, isNameUnit c = true) ∧ ∀ c ∈ e.2, isNameUnit c = true := by
    decide +kernel
  exact hall e he

namespace PlaceholderSyntax

variable {p : Token} {t : Text} {n : Nat}

/-- A placeholder that was read is plain, and so is the one with the ending that belongs to it. -/
theorem plain_of_read? (h : read? t = some (p, n)) : p.Plain ∧ (corrected p).Plain := by
  obtain ⟨p', hp, heq⟩ := Option.map_eq_some_iff.1 h
  obtain rfl : p' = p := (Prod.mk.inj heq).1
  obtain ⟨e, he, hany⟩ := List.exists_of_findSome?_eq_some hp
  obtain ⟨hstem, hname, hending⟩ := Token.parts_of_readAny? hany
  have hstem' : ∀ c ∈ p'.stem, isNameUnit c = true := by
    rw [hstem]
    exact (isNameUnit_of_mem_endings he).1
  refine ⟨⟨hstem', hname, hending⟩, hstem', hname, ?_⟩
  show ∀ c ∈ expected p', isNameUnit c = true
  unfold expected
  cases hget : Keyed.get? p'.stem endings with
  | none => exact hending
  | some ending => exact (isNameUnit_of_mem_endings (Keyed.mem_of_get? hget)).2

/-- A placeholder that has been given another ending is gone. -/
theorem not_isInfix_replaceAll (hread : read? t = some (p, n)) (hne : p.ending ≠ expected p)
    (s : Text) : ¬ p.text <:+: s.replaceAll p.text (corrected p).text := by
  obtain ⟨hplain, hplain'⟩ := plain_of_read? hread
  have hbrace : isNameUnit Text.brace = false := by decide
  have hstop : isNameUnit (.char '\x7d') = false := by decide
  rw [Text.replaceAll_eq (by rw [Token.text_eq]; exact List.cons_ne_nil _ _), Token.text_eq,
    Token.text_eq]
  refine Text.not_isInfix_replace_braced (hplain.not_mem_core hbrace (by decide)) p.core_ne_nil
    (hplain'.not_mem_core hbrace (by decide)) (corrected p).core_ne_nil (fun rest => ?_) s
  -- the two differ before the braces that close them
  have hdiff : p.stem ++ "_" ++ p.name ++ "_" ++ p.ending ≠
      (corrected p).stem ++ "_" ++ (corrected p).name ++ "_" ++ (corrected p).ending :=
    fun heq => hne (List.append_cancel_left heq)
  have hclosing : closing = .char '\x7d' :: Text.ofChar '\x7d' := by decide
  have hnot := Text.not_isPrefix_of_ne (hplain.not_mem hstop) (hplain'.not_mem hstop) hdiff
    (Text.ofChar '\x7d') (Text.ofChar '\x7d' ++ rest)
  simpa only [Token.core, hclosing, List.append_assoc, List.cons_append] using hnot

theorem replaceAll_replaceAll (hread : read? t = some (p, n)) (hne : p.ending ≠ expected p)
    (s : Text) :
    (s.replaceAll p.text (corrected p).text).replaceAll p.text (corrected p).text =
      s.replaceAll p.text (corrected p).text := by
  have hold : p.text ≠ [] := by
    rw [Token.text_eq]
    exact List.cons_ne_nil _ _
  rw [Text.replaceAll_eq hold (s.replaceAll p.text (corrected p).text)]
  exact Text.replaceFrom_eq_self (not_isInfix_replaceAll hread hne s)

end PlaceholderSyntax

namespace InstparmQuote

variable {q : Quoted} {t : Text} {n : Nat}

theorem of_readBetween? {quote : Text} (h : readBetween? quote t = some q) :
    q.quote = quote ∧ q.token.Plain := by
  unfold readBetween? at h
  split at h
  · simp at h
  split at h
  · simp at h
  next token htoken =>
  split at h
  · obtain rfl := Option.some.inj h
    obtain ⟨hstem, hname, hending⟩ := Token.parts_of_read? htoken
    exact ⟨rfl, by rw [hstem]; decide, hname, by rw [hending]; decide⟩
  · simp at h

/-- What stands between quotes is a plain placeholder, which has none of their code points. -/
theorem of_read? (h : read? t = some (q, n)) :
    q.quote ≠ [] ∧ q.token.Plain ∧ ∀ c ∈ q.quote, isNameUnit c = false ∧ c ∉ closing ∧
      c ≠ Text.brace := by
  obtain ⟨q', hq, heq⟩ := Option.map_eq_some_iff.1 h
  obtain rfl : q' = q := (Prod.mk.inj heq).1
  rcases Option.or_eq_some_iff.1 hq with hq | ⟨-, hq⟩
  · obtain ⟨hquote, hplain⟩ := of_readBetween? hq
    rw [hquote]
    exact ⟨by decide, hplain, by decide⟩
  · obtain ⟨hquote, hplain⟩ := of_readBetween? hq
    rw [hquote]
    exact ⟨by decide, hplain, by decide⟩

theorem length_lt_length (h : q.quote ≠ []) : q.token.text.length < q.text.length := by
  have hpos := List.length_pos_of_ne_nil h
  simp only [Quoted.text, List.length_append]
  omega

/-- A quoted placeholder is left after its quotes have been dropped only where there were two pairs
of quotes. -/
theorem isInfix_of_replaceAll (hread : read? t = some (q, n)) {s : Text}
    (h : q.text <:+: s.replaceAll q.text q.token.text) : q.quote ++ q.text ++ q.quote <:+: s := by
  obtain ⟨hquote, hplain, hunits⟩ := of_read? hread
  rw [Text.replaceAll_eq (List.ne_nil_of_length_pos (Nat.zero_lt_of_lt (length_lt_length hquote)))]
    at h
  unfold Quoted.text at h ⊢
  rw [Token.text_eq] at h ⊢
  refine Text.isInfix_of_replace_quoted hquote (hplain.not_mem_core (by decide) (by decide))
    q.token.core_ne_nil (fun c hc hmem => ?_) h
  obtain ⟨hname, hclosing, hbrace⟩ := hunits c hc
  rcases List.mem_cons.1 hmem with rfl | hmem
  · exact hbrace rfl
  rcases List.mem_cons.1 hmem with rfl | hmem
  · exact hbrace rfl
  · exact hplain.not_mem_core hname hclosing hmem

end InstparmQuote

end Check

/-! ## Running a repair -/

namespace Repair

variable {repair : Repair} {x : Text}

theorem exists_readObject_error_iff :
    (∃ e, Json.readObject x = .error e) ↔ Unreadable x := by
  unfold Json.readObject Unreadable
  cases hread : Json.read x with
  | ok v => simp
  | error e =>
    cases e with
    | malformed problem ahead => simp
    | tooDeep bracket => simp
    | tooManyDigits n => simp

theorem readObject_of_noObject (h : NoObject x) : Json.readObject x = .ok none := by
  unfold Json.readObject
  obtain ⟨problem, ahead, hread⟩ | ⟨v, hread, hv⟩ := h
  · rw [hread]
  · rw [hread]
    cases v with
    | object members => exact absurd rfl (hv members)
    | _ => rfl

/-- Editing a document gives a text unless the text cannot be read. -/
theorem exists_editText_iff (edit : Json.Members → Json.Members) (x : Text) :
    (∃ after, Fix.editText edit x = .text after) ↔ ¬ Unreadable x := by
  rw [← exists_readObject_error_iff]
  rcases hread : Json.readObject x with e | _ | document
  · simp [Fix.editText_of_error edit hread]
  · simp [Fix.editText_of_none edit hread]
  · simp [Fix.editText_of_read edit hread]

theorem editText_ne_noText (edit : Json.Members → Json.Members) (x : Text) :
    Fix.editText edit x ≠ .noText := by
  rcases hread : Json.readObject x with e | _ | document
  · simp [Fix.editText_of_error edit hread]
  · simp [Fix.editText_of_none edit hread]
  · simp [Fix.editText_of_read edit hread]

/-- What adding a caller makes of a text, case by case. -/
theorem addToText_cases (subworkflow caller x : Text) :
    (CannotAdd subworkflow caller x ∧ ∃ f, Caller.addToText subworkflow caller x = .fault f) ∨
      (¬ CannotAdd subworkflow caller x ∧ Caller.addToText subworkflow caller x = .text x ∧
        ∀ g, Yaml.load .given x = .ok g → Caller.add? subworkflow caller g = none) ∨
      ∃ g added written, Yaml.load .given x = .ok g ∧
        Caller.add? subworkflow caller g = some added ∧ Yaml.print? added = .ok written ∧
        ¬ CannotAdd subworkflow caller x ∧ Caller.addToText subworkflow caller x = .text written := by
  unfold Caller.addToText CannotAdd
  cases hload : Yaml.load .given x with
  | error e => cases e <;> simp
  | ok g =>
    cases hadd : Caller.add? subworkflow caller g with
    | none => simp [hadd]
    | some added => cases hprint : Yaml.print? added <;> simp [hadd, hprint]

/-- A repair always gives a text or stops. -/
theorem run_ne_noText (repair : Repair) (x : Text) : repair.run x ≠ .noText := by
  cases repair with
  | unquote q => exact Fix.Outcome.noConfusion
  | respell p => exact Fix.Outcome.noConfusion
  | settle key value => exact editText_ne_noText _ x
  | sanitise key => exact editText_ne_noText _ x
  | identify name => exact editText_ne_noText _ x
  | addCaller subworkflow caller =>
    show Caller.addToText subworkflow caller x ≠ .noText
    obtain ⟨-, f, h⟩ | ⟨-, h, -⟩ | ⟨g, added, written, -, -, -, -, h⟩ :=
      addToText_cases subworkflow caller x
    · simp [h]
    · simp [h]
    · simp [h]

theorem exists_run_iff (repair : Repair) (x : Text) :
    (∃ after, repair.run x = .text after) ↔ ¬ repair.StopsOn x := by
  cases repair with
  | unquote q => exact iff_of_true ⟨_, rfl⟩ not_false
  | respell p => exact iff_of_true ⟨_, rfl⟩ not_false
  | settle key value => exact exists_editText_iff _ x
  | sanitise key => exact exists_editText_iff _ x
  | identify name => exact exists_editText_iff _ x
  | addCaller subworkflow caller =>
    show (∃ after, Caller.addToText subworkflow caller x = .text after) ↔
      ¬ CannotAdd subworkflow caller x
    obtain ⟨hstops, f, h⟩ | ⟨hstops, h, -⟩ | ⟨g, added, written, -, -, -, hstops, h⟩ :=
      addToText_cases subworkflow caller x
    · simp [h, hstops]
    · simp [h, hstops]
    · simp [h, hstops]

/-- A text of another kind stays as it is. -/
theorem run_of_foreign (h : repair.Foreign x) : repair.run x = .text x := by
  cases repair with
  | unquote q => exact h.elim
  | respell p => exact h.elim
  | settle key value => exact Fix.editText_of_none _ (readObject_of_noObject h)
  | sanitise key => exact Fix.editText_of_none _ (readObject_of_noObject h)
  | identify name => exact Fix.editText_of_none _ (readObject_of_noObject h)
  | addCaller subworkflow caller =>
    show Caller.addToText subworkflow caller x = .text x
    unfold Caller.addToText
    obtain ⟨e, hload, he⟩ | ⟨g, hload, hg⟩ := h
    · rw [hload]
      cases e with
      | fault f => exact absurd rfl (he f)
      | _ => rfl
    · simp only [hload, Caller.add?_of_not_mapping hg]

/-- Adding a caller leaves a text as it is unless the text still lacks the caller. -/
theorem addToText_eq_self_iff (subworkflow caller x : Text) :
    Caller.addToText subworkflow caller x = .text x ↔ ¬ StillLacks subworkflow caller x := by
  unfold Caller.addToText StillLacks
  cases hload : Yaml.load .given x with
  | error e => cases e <;> simp
  | ok g =>
    cases hadd : Caller.add? subworkflow caller g with
    | none => simp [hadd]
    | some added => cases hprint : Yaml.print? added <;> simp [hadd, hprint]

/-- A caller that was added is not added again unless what was written is read back without it. -/
theorem addToText_addToText_iff {subworkflow caller after : Text}
    (h : Caller.addToText subworkflow caller x = .text after) :
    Caller.addToText subworkflow caller after = .text after ↔
      ¬ (addCaller subworkflow caller).UnsettledOn x := by
  obtain ⟨-, f, hrun⟩ | ⟨-, hrun, hnone⟩ | ⟨g, added, written, hload, hadd, hprint, -, hrun⟩ :=
    addToText_cases subworkflow caller x
  · cases hrun.symm.trans h
  · obtain rfl := Fix.Outcome.text.inj (hrun.symm.trans h)
    refine iff_of_true h ?_
    rintro ⟨g, added, -, hload, hadd, -⟩
    cases hadd.symm.trans (hnone g hload)
  · obtain rfl := Fix.Outcome.text.inj (hrun.symm.trans h)
    refine (addToText_eq_self_iff subworkflow caller written).trans (not_congr ⟨?_, ?_⟩)
    · exact fun hlacks => ⟨g, added, written, hload, hadd, hprint, hlacks⟩
    · rintro ⟨g', added', written', hload', hadd', hprint', hlacks⟩
      obtain rfl := Except.ok.inj (hload.symm.trans hload')
      obtain rfl := Option.some.inj (hadd.symm.trans hadd')
      obtain rfl := Except.ok.inj (hprint.symm.trans hprint')
      exact hlacks

/-- What a repair has made of a text stays as it is unless the repair has more to do on it. -/
theorem run_run_iff (hproper : repair.Proper) {after : Text} (h : repair.run x = .text after) :
    repair.run after = .text after ↔ ¬ repair.UnsettledOn x := by
  cases repair with
  | unquote q =>
    obtain ⟨t, n, hread⟩ := hproper
    obtain rfl := Fix.Outcome.text.inj h
    show Fix.Outcome.text _ = .text _ ↔ _
    rw [Fix.Outcome.text.injEq]
    exact Text.replaceAll_eq_self_iff (InstparmQuote.length_lt_length (InstparmQuote.of_read? hread).1)
  | respell p =>
    obtain ⟨⟨t, n, hread⟩, hne⟩ := hproper
    obtain rfl := Fix.Outcome.text.inj h
    refine iff_of_true ?_ not_false
    exact congrArg Fix.Outcome.text (PlaceholderSyntax.replaceAll_replaceAll hread hne x)
  | settle key value =>
    refine iff_of_true (Fix.editText_editText ?_ ?_ h) not_false
    · exact RequiredSettings.gentle_setSetting key value
    · exact fun _ => RequiredSettings.setSetting_setSetting key _
  | sanitise key =>
    refine iff_of_true (Fix.editText_editText ?_ ?_ h) not_false
    · exact ForbiddenProperties.gentle_dropProperty key
    · exact fun _ => ForbiddenProperties.dropProperty_dropProperty key
  | identify name =>
    refine iff_of_true (Fix.editText_editText ?_ ?_ h) not_false
    · exact WebhookId.gentle_addId name
    · exact fun _ => WebhookId.addId_addId name
  | addCaller subworkflow caller => exact addToText_addToText_iff h

end Repair

/-! ## The fixes of the built-in checks -/

section BuiltIn

variable {fix : Fix} {f : Finding} {t path : Text}

/-- A fix that one of the built-in checks gives for some text or project. -/
def Fix.IsBuiltIn (fix : Fix) : Prop :=
  (∃ c ∈ Registry.builtIn.content, ∃ t path, ∃ f ∈ c.runIsolated t path, f.fix = some fix) ∨
    ∃ c ∈ Registry.builtIn.project, ∃ w folder, ∃ f ∈ c.runIsolated w folder, f.fix = some fix

/-- What a check of documents has found that can be mended is found on a document. -/
theorem exists_document_of_mem_isolated {id : Text} {findings : Json.Members → List Finding}
    (hf : f ∈ isolated .content id path (onDocument t findings)) (hfix : f.fix = some fix) :
    ∃ document, f ∈ findings document := by
  obtain ⟨found, hrun, hmem⟩ := exists_of_mem_isolated hf (by simp [hfix])
  unfold onDocument at hrun
  split at hrun
  · exact absurd hrun (by simp)
  · obtain rfl := Except.ok.inj hrun
    exact absurd hmem List.not_mem_nil
  · next document _ =>
    obtain rfl := Except.ok.inj hrun
    exact ⟨document, hmem⟩

theorem exists_repair_of_instparmQuote (hf : f ∈ InstparmQuote.run t path) (hfix : f.fix = some fix) :
    ∃ repair : Repair, repair.Proper ∧ fix.run = repair.run := by
  obtain ⟨found, hfound, rfl⟩ := List.mem_map.1 hf
  obtain ⟨s, n, -, hread⟩ := Text.exists_suffix_of_mem_occurrences hfound
  obtain rfl := Option.some.inj hfix
  exact ⟨.unquote found.2, ⟨s, n, hread⟩, rfl⟩

theorem exists_repair_of_placeholderSyntax (hf : f ∈ PlaceholderSyntax.run t path)
    (hfix : f.fix = some fix) : ∃ repair : Repair, repair.Proper ∧ fix.run = repair.run := by
  obtain ⟨found, hfound, rfl⟩ := List.mem_map.1 hf
  obtain ⟨hocc, hne⟩ := List.mem_filter.1 hfound
  obtain ⟨s, n, -, hread⟩ := Text.exists_suffix_of_mem_occurrences hocc
  obtain rfl := Option.some.inj hfix
  exact ⟨.respell found.2, ⟨⟨s, n, hread⟩, by simpa using hne⟩, rfl⟩

/-- What has been found on a text can be mended by a repair, if it can. -/
theorem exists_repair_of_mem_content {c : ContentCheck} (hc : c ∈ Registry.builtIn.content)
    (hf : f ∈ c.runIsolated t path) (hfix : f.fix = some fix) :
    ∃ repair : Repair, repair.Proper ∧ fix.run = repair.run := by
  simp only [Registry.builtIn, List.mem_cons, List.not_mem_nil, or_false] at hc
  obtain rfl | rfl | rfl | rfl | rfl | rfl := hc
  · exact exists_repair_of_instparmQuote hf hfix
  · exact exists_repair_of_placeholderSyntax hf hfix
  · obtain ⟨document, hmem⟩ := exists_document_of_mem_isolated hf hfix
    rw [(fixlessOn_credentialFindings path t document f hmem).2] at hfix
    exact absurd hfix.symm (Option.some_ne_none fix)
  · obtain ⟨document, hmem⟩ := exists_document_of_mem_isolated hf hfix
    obtain ⟨r, -, hr⟩ := List.mem_filterMap.1 hmem
    obtain ⟨-, description, heq⟩ := exists_of_check?_eq_some path document hr
    obtain rfl := Option.some.inj (hfix.symm.trans heq)
    exact ⟨.settle r.1 r.2, trivial, rfl⟩
  · obtain ⟨document, hmem⟩ := exists_document_of_mem_isolated hf hfix
    obtain ⟨forbidden, -, rfl⟩ := List.mem_map.1 hmem
    obtain rfl := Option.some.inj hfix
    exact ⟨.sanitise forbidden.1, trivial, rfl⟩
  · obtain ⟨document, hmem⟩ := exists_document_of_mem_isolated hf hfix
    obtain ⟨node, -, rfl⟩ := List.mem_map.1 hmem
    obtain rfl := Option.some.inj hfix
    exact ⟨.identify (WebhookId.nameOf node), trivial, rfl⟩

theorem exists_repair_of_isBuiltIn (h : fix.IsBuiltIn) :
    ∃ repair : Repair, repair.Proper ∧ fix.run = repair.run := by
  obtain ⟨c, hc, t, path, f, hf, hfix⟩ | ⟨c, hc, w, folder, f, hf, hfix⟩ := h
  · exact exists_repair_of_mem_content hc hf hfix
  · obtain ⟨description, subworkflow, caller, rfl⟩ := exists_caller_of_mem_runIsolated hc hf hfix
    exact ⟨.addCaller subworkflow caller, trivial, rfl⟩

/-- A placeholder between single quotes. -/
def quotedParameter : InstparmQuote.Quoted := ⟨"'", ⟨"INSTPARM", "A", "MRAPTSNI"⟩⟩

theorem isBuiltIn_quotedParameter : (InstparmQuote.fix quotedParameter).IsBuiltIn := by
  have hscan : InstparmQuote.scan quotedParameter.text = [(0, quotedParameter)] := by rfl
  refine .inl ⟨_, List.mem_cons_self, quotedParameter.text, [],
    InstparmQuote.finding quotedParameter.text [] (0, quotedParameter), ?_, rfl⟩
  refine List.mem_map.2 ⟨(0, quotedParameter), ?_, rfl⟩
  rw [hscan]
  exact List.mem_cons_self

/-- The fix of a property that a document has is that of a check. -/
theorem exists_isBuiltIn_dropProperty {document : Json.Members}
    (h : Json.read t = .ok (.object document)) {r : Text × Text}
    (hr : r ∈ ForbiddenProperties.forbidden) (hget : (document.get? r.1).isSome = true) :
    ∃ fix : Fix, fix.IsBuiltIn ∧ fix.run = Fix.editText (ForbiddenProperties.dropProperty r.1) := by
  refine ⟨_, .inl ⟨⟨ForbiddenProperties.info, ForbiddenProperties.run⟩, ?_, t, [],
    ForbiddenProperties.finding [] r.1 r.2, ?_, rfl⟩, rfl⟩
  · simp [Registry.builtIn]
  · rw [runIsolated_onDocument h _ rfl]
    exact List.mem_map.2 ⟨r, List.mem_filter.2 ⟨hr, hget⟩, rfl⟩

/-- A number with one digit more than can be read. -/
def longNumeral : Text := List.replicate 4301 (.char '1')

end BuiltIn

end WorkflowLint
