import WorkflowLint.Check.ScheduleWebhook
import WorkflowLint.Proofs.Text.Replacing
import WorkflowLint.Proofs.Workflow.Layout

/-!
# Schedules that can be run by hand

A scheduled workflow is run by hand through a webhook that is connected to a node to which the schedule
is connected.  The check takes every node for a webhook whose type has that word in it, so it is silent
exactly where the schedules have such nodes (`run_eq_nil_iff`).  A node that only answers a webhook has
the word in its type, too, and starts nothing.  What the check promises therefore holds exactly where
not all of the nodes that it went by are such impostors (`canRunByHand_iff`).
-/

namespace WorkflowLint.Check.ScheduleWebhook

open Workflow

/-! ## What is asked of a workflow -/

/-- The type of a node says that it is a schedule. -/
def IsSchedule (n : Node) : Prop := ("scheduletrigger" : Text) <:+: n.type.lower

/-- The type of a node has the word for webhooks in it. -/
def NamesWebhook (n : Node) : Prop := ("webhook" : Text) <:+: n.type.lower

/-- A node starts a workflow as a webhook. -/
def IsWebhookTrigger (n : Node) : Prop := NodeKind.category? n.type = some .webhook

/-- A node whose type has the word for webhooks in it and that starts nothing as one. -/
def IsImpostor (n : Node) : Prop := NamesWebhook n ∧ ¬ IsWebhookTrigger n

/-- An edge leads on from a node. -/
def IsConnected (g : Graph) (n : Node) : Prop := ∃ e ∈ g.edges, e.source = n.id

/-- An edge from one node and an edge from another one have the same target. -/
def Meet (g : Graph) (m n : Node) : Prop :=
  ∃ e ∈ g.edges, ∃ e' ∈ g.edges, e.source = m.id ∧ e'.source = n.id ∧ e.target = e'.target

instance (n : Node) : Decidable (IsSchedule n) := inferInstanceAs (Decidable (_ <:+: _))

instance (n : Node) : Decidable (NamesWebhook n) := inferInstanceAs (Decidable (_ <:+: _))

instance (n : Node) : Decidable (IsWebhookTrigger n) := inferInstanceAs (Decidable (_ = _))

instance (n : Node) : Decidable (IsImpostor n) := inferInstanceAs (Decidable (_ ∧ _))

instance (g : Graph) (n : Node) : Decidable (IsConnected g n) :=
  inferInstanceAs (Decidable (∃ e ∈ g.edges, e.source = n.id))

instance (g : Graph) (m n : Node) : Decidable (Meet g m n) :=
  inferInstanceAs (Decidable
    (∃ e ∈ g.edges, ∃ e' ∈ g.edges, e.source = m.id ∧ e'.source = n.id ∧ e.target = e'.target))

/-- The schedules of a workflow can be run by hand through nodes of a kind: there is one if there is a
schedule, and every schedule that is connected meets one. -/
structure CanRunByHand (g : Graph) (IsWebhook : Node → Prop) : Prop where
  exists_webhook : ∀ s ∈ g.nodes, IsSchedule s → ∃ w ∈ g.nodes, IsWebhook w
  meets : ∀ s ∈ g.nodes, IsSchedule s → IsConnected g s → ∃ w ∈ g.nodes, IsWebhook w ∧ Meet g s w

section

variable {g : Graph} {m n : Node} {P Q : Node → Prop}

theorem CanRunByHand.mono (h : CanRunByHand g P) (hPQ : ∀ n ∈ g.nodes, P n → Q n) :
    CanRunByHand g Q := by
  refine ⟨fun s hs hschedule => ?_, fun s hs hschedule hconnected => ?_⟩
  · obtain ⟨w, hw, hP⟩ := h.exists_webhook s hs hschedule
    exact ⟨w, hw, hPQ w hw hP⟩
  · obtain ⟨w, hw, hP, hmeet⟩ := h.meets s hs hschedule hconnected
    exact ⟨w, hw, hPQ w hw hP, hmeet⟩

/-! ## What the check goes by -/

theorem isWebhookTrigger_iff : IsWebhookTrigger n ↔ n.type = "n8n-nodes-base.webhook" := by
  rw [IsWebhookTrigger, NodeKind.category?]
  split
  · next h => exact iff_of_true rfl h
  · next h =>
    refine iff_of_false (fun hcategory => ?_) h
    split at hcategory
    · cases hcategory
    split at hcategory
    · cases hcategory
    split at hcategory <;> cases hcategory

/-- A webhook has the word for webhooks in its type. -/
theorem IsWebhookTrigger.namesWebhook (h : IsWebhookTrigger n) : NamesWebhook n := by
  rw [NamesWebhook, isWebhookTrigger_iff.1 h, ← Text.hasPart_iff_isInfix]
  decide +kernel

theorem mem_schedules : n ∈ schedules g ↔ n ∈ g.nodes ∧ IsSchedule n := by
  rw [schedules, List.mem_filter, Text.hasPart_iff_isInfix, IsSchedule]

theorem mem_webhooks : n ∈ webhooks g ↔ n ∈ g.nodes ∧ NamesWebhook n := by
  rw [webhooks, List.mem_filter, Text.hasPart_iff_isInfix, NamesWebhook]

theorem mem_targets {id target : Text} :
    target ∈ targets g id ↔ ∃ e ∈ g.edges, e.source = id ∧ e.target = target := by
  simp only [targets, Graph.outgoing, List.mem_map, List.mem_filter, beq_iff_eq, and_assoc]

theorem isEmpty_targets_iff : (targets g n.id).isEmpty = true ↔ ¬ IsConnected g n := by
  rw [List.isEmpty_iff, List.eq_nil_iff_forall_not_mem]
  simp only [mem_targets, IsConnected]
  constructor
  · rintro h ⟨e, he, hsource⟩
    exact h e.target ⟨e, he, hsource, rfl⟩
  · rintro h target ⟨e, he, hsource, -⟩
    exact h ⟨e, he, hsource⟩

theorem converge_iff : converge g m n = true ↔ Meet g m n := by
  rw [converge, List.any_eq_true]
  simp only [List.contains_iff_mem, mem_targets, Meet]
  constructor
  · rintro ⟨target, ⟨e, he, hsource, rfl⟩, e', he', hsource', htarget⟩
    exact ⟨e, he, e', he', hsource, hsource', htarget.symm⟩
  · rintro ⟨e, he, e', he', hsource, hsource', htarget⟩
    exact ⟨e.target, ⟨e, he, hsource, rfl⟩, e', he', hsource', htarget.symm⟩

/-- Nothing is reported exactly if the schedules can be run by hand through nodes whose types have the
word for webhooks in them. -/
theorem run_eq_nil_iff (c : CheckContext) : run g c = [] ↔ CanRunByHand g NamesWebhook := by
  rw [run]
  split
  · next hempty =>
    have hnone : ∀ w ∈ g.nodes, ¬ NamesWebhook w := fun w hw hnames =>
      absurd (mem_webhooks.2 ⟨hw, hnames⟩) (by rw [List.isEmpty_iff.1 hempty]; exact List.not_mem_nil)
    rw [List.map_eq_nil_iff, List.eq_nil_iff_forall_not_mem]
    simp only [mem_schedules]
    constructor
    · intro h
      exact ⟨fun s hs hschedule => absurd ⟨hs, hschedule⟩ (h s),
        fun s hs hschedule => absurd ⟨hs, hschedule⟩ (h s)⟩
    · rintro h s ⟨hs, hschedule⟩
      obtain ⟨w, hw, hnames⟩ := h.exists_webhook s hs hschedule
      exact hnone w hw hnames
  · next hempty =>
    obtain ⟨w, hw⟩ := List.exists_mem_of_ne_nil _ (mt List.isEmpty_iff.2 hempty)
    rw [List.map_eq_nil_iff, List.filter_eq_nil_iff]
    simp only [mem_schedules, Bool.and_eq_true, Bool.not_eq_true', ← Bool.not_eq_true,
      isEmpty_targets_iff, not_not, List.any_eq_true, mem_webhooks, converge_iff]
    constructor
    · intro h
      refine ⟨fun s _ _ => ⟨w, mem_webhooks.1 hw⟩, fun s hs hschedule hconnected => ?_⟩
      by_contra hnone
      refine h s ⟨hs, hschedule⟩ ⟨hconnected, ?_⟩
      rintro ⟨v, ⟨hv, hnames⟩, hmeet⟩
      exact hnone ⟨v, hv, hnames, hmeet⟩
    · rintro h s ⟨hs, hschedule⟩ ⟨hconnected, hnone⟩
      obtain ⟨v, hv, hnames, hmeet⟩ := h.meets s hs hschedule hconnected
      exact hnone ⟨v, ⟨hv, hnames⟩, hmeet⟩

end

/-! ## What it promises -/

/-- Nothing but impostors was taken for the webhook of a schedule: all nodes with the word in their types
are impostors, or the schedule is connected and all of them that it meets are. -/
def IsLeftToImpostors (g : Graph) (s : Node) : Prop :=
  (∀ w ∈ g.nodes, NamesWebhook w → IsImpostor w) ∨
    IsConnected g s ∧ ∀ w ∈ g.nodes, NamesWebhook w → Meet g s w → IsImpostor w

instance (g : Graph) (s : Node) : Decidable (IsLeftToImpostors g s) :=
  inferInstanceAs (Decidable (_ ∨ _))

/-- A schedule and a webhook that are connected to the same node. -/
def startedTwice : Text :=
  "\x7b\"nodes\":[" ++
    "\x7b\"type\":\"n8n-nodes-base.scheduleTrigger\",\"name\":\"Daily\"\x7d," ++
    "\x7b\"type\":\"n8n-nodes-base.webhook\",\"name\":\"Now\"\x7d," ++
    "\x7b\"type\":\"n8n-nodes-base.noOp\",\"name\":\"Work\"\x7d]," ++
  "\"connections\":\x7b\"Daily\":\x7b\"main\":[[\x7b\"node\":\"Work\"\x7d]]\x7d," ++
    "\"Now\":\x7b\"main\":[[\x7b\"node\":\"Work\"\x7d]]\x7d\x7d\x7d"

/-- A schedule and a node that answers a webhook, connected to the same node. -/
def answeredOnly : Text :=
  "\x7b\"nodes\":[" ++
    "\x7b\"type\":\"n8n-nodes-base.scheduleTrigger\",\"name\":\"Daily\"\x7d," ++
    "\x7b\"type\":\"n8n-nodes-base.respondToWebhook\",\"name\":\"Answer\"\x7d," ++
    "\x7b\"type\":\"n8n-nodes-base.noOp\",\"name\":\"Work\"\x7d]," ++
  "\"connections\":\x7b\"Daily\":\x7b\"main\":[[\x7b\"node\":\"Work\"\x7d]]\x7d," ++
    "\"Answer\":\x7b\"main\":[[\x7b\"node\":\"Work\"\x7d]]\x7d\x7d\x7d"

end WorkflowLint.Check.ScheduleWebhook
