import WorkflowLint.Proofs.Check.Renaming
import WorkflowLint.Proofs.Workflow.Unplaced

/-!
# Findings without their lines

The built-in checks of graphs decide on nothing that has to do with lines: they find the same in graphs
whose nodes are on other lines, and so without its lines the list of their findings is the same for
graphs that are equal but for the lines of their nodes (`IgnoresIds.map_unlined`).  The check of
credentials looks at no part of a node that an id for a webhook concerns.
-/

namespace WorkflowLint

/-- A finding without its line. -/
def Finding.unlined (f : Finding) : Finding := { f with line := none }

/-- The nodes are put on no line, and keep their ids. -/
theorem Workflow.Graph.unplaced_eq_refile (g : Graph) : g.unplaced = g.refile id fun _ => none := by
  have hedges : g.edges.map (Edge.rename id) = g.edges := List.map_id g.edges
  rw [unplaced, refile, hedges]
  rfl

namespace Check

open Workflow

/-! ## Checks of graphs -/

/-- A check that does not depend on ids finds the same, but for lines, in graphs that are equal but for
lines. -/
theorem IgnoresIds.map_unlined {run : Graph → CheckContext → List Finding} (h : IgnoresIds run)
    {g g' : Graph} {c c' : CheckContext} (hg : g'.unplaced = g.unplaced) (hpath : c'.path = c.path) :
    (run g' c').map Finding.unlined = (run g c).map Finding.unlined := by
  have hunplaced : ∀ (g : Graph) {c c' : CheckContext}, c'.path = c.path →
      (run g.unplaced c').map Finding.unlined = (run g c).map Finding.unlined := by
    intro g c c' hpath
    rw [g.unplaced_eq_refile, h (Set.injOn_id _) hpath, List.map_map]
    refine List.map_congr_left fun x _ => ?_
    simp only [Function.comp_apply, Finding.rename, Finding.unlined, Option.map_id_fun, id_eq]
  rw [← hunplaced g' hpath.symm, hg, hunplaced g rfl]

/-! ## Credentials -/

/-- The check of credentials finds the same in nodes of which only the ids of webhooks differ. -/
theorem unlined_credential {change : Json.Members → Json.Members} (h : KeepsParts change)
    (places places' : Places) (path : Text) (nodes : List Json.Members) :
    (((nodes.map change).flatMap fun node =>
        (Credential.hardcoded node).map (Credential.finding places' path node)).map
          Finding.unlined) =
      ((nodes.flatMap fun node =>
        (Credential.hardcoded node).map (Credential.finding places path node)).map
          Finding.unlined) := by
  have hhard : ∀ node, Credential.hardcoded (change node) = Credential.hardcoded node := by
    intro node
    rw [Credential.hardcoded, h node _ (by decide), Credential.hardcoded]
  have hlabel : ∀ node, Credential.label (change node) = Credential.label node := by
    intro node
    rw [Credential.label, h node _ (by decide), memberShown, h node _ (by decide),
      Credential.label, memberShown]
  have hid : ∀ node, (change node).text? "id" = Json.Members.text? node "id" := fun node =>
    h.text? node (by decide)
  rw [List.flatMap_map, List.map_flatMap, List.map_flatMap]
  congr 1
  funext node
  simp only [hhard, List.map_map]
  congr 1
  funext credential
  simp only [Function.comp_apply, Credential.finding, Finding.unlined, hlabel, hid]

end Check

end WorkflowLint
