import Switchyard.Proofs.Graph.Reachable
import Switchyard.Proofs.Graph.Recount

namespace Switchyard.Graph

variable {g : Graph}

/-- A change that no table makes may part the counts from the tables, and nothing more. -/
theorem Sound.report (sound : g.Sound) (change : Change) :
    (Step.after (onPredecessors (Predecessors.observer change)) g).Sound := by
  rcases heard : Predecessors.observer change g.predecessors with ⟨_, p⟩ | ⟨fault, p⟩
  · simp only [Step.after, onPredecessors, heard]
    have sameWired := Predecessors.isWired_observer heard
    exact {
      labelled := sound.labelled
      wired := fun b => (sameWired b).symm ▸ sound.wired b
      owned := sound.owned
      closed := sound.closed }
  · simp only [Step.after, onPredecessors, heard]
    rw [Predecessors.observer_of_refused heard]
    exact sound

/-- A disturbed graph is sound, however far its counts have drifted. -/
theorem Disturbed.sound (reached : g.Disturbed) : g.Sound := by
  induction reached with
  | initial start => exact start.keeps.sound
  | request request _ ih => exact (ih.keeps_request request).sound
  | report change _ ih => exact ih.report change

/-- An update keeps the imbalance of every edge, however far counts and tables are apart, and
wherever the counts refuse. -/
theorem imbalance_after_demand (reached : g.Disturbed) (b : Label) (demand : Demand) (e : Edge) :
    (Step.after (onTable b (demand.perform Predecessors.observer)) g).imbalance e =
      g.imbalance e :=
  (reached.sound.keeps_demand b demand).imbalance e

/-- Three targets are to be cleared, and the edge to the second one is no longer counted. -/
theorem imbalance_after_refused_clear :
    let g := Step.after (onPredecessors (Predecessors.observer ⟨0, some 1, none⟩))
      (Request.after (.attachSwitch 0 (.ofList [0, 1, 0])) (ofSize 2))
    let clear := onTable 0 (Demand.perform (.act .clear) Predecessors.observer)
    Step.outcome clear g = .error (.illegal (.edgeMissing 0 1)) ∧
      (Step.after clear g).targets 0 = [1, 0] ∧ g.imbalance ⟨0, 1⟩ = -1 ∧
      ∀ e, (Step.after clear g).imbalance e = g.imbalance e := by
  refine ⟨by decide, by decide, by decide, fun e => ?_⟩
  apply imbalance_after_demand _ 0 (.act .clear) e
  exact .report _ (.request _ (.initial (.ofSize 2)))

/-- The audit passes exactly when tables and counts agree about all edges. It fails with the first
miscount, and the numbers that it names are those of the table and of the counts. The counts may list
their edges in any order. -/
theorem Disturbed.audit_exact (reached : g.Disturbed) :
    (∀ entries, entries.Perm g.predecessors.edges → g.auditAgainst entries = g.audit) ∧
    (g.audit = .ok () ↔ ∀ source target,
        (g.targets source).count target = g.predecessors.multiplicity target source) ∧
      ∀ fault, g.audit = .error fault ↔ ∃ source target, g.FirstMiscount source target ∧
        fault = .illegal (.miscounted source target ((g.targets source).count target)
          (g.predecessors.multiplicity target source)) :=
  ⟨fun _ listing => reached.sound.auditAgainst_eq_audit listing,
    reached.sound.auditAgainst_eq_ok (List.Perm.refl _),
    fun _ => reached.sound.auditAgainst_eq_error (List.Perm.refl _)⟩

/-- One of two listed edges is not counted any more, and an edge of a plain block is counted. The
plain block comes first. -/
theorem audit_of_drifted_graph :
    let listed := Request.after (.attachSwitch 1 (.ofList [2, 2])) (ofSize 3)
    let lost := Step.after (onPredecessors (Predecessors.observer ⟨1, some 2, none⟩)) listed
    let g := Step.after (onPredecessors (Predecessors.observer ⟨0, none, some 1⟩)) lost
    (g.targets 1).count 2 = 2 ∧ g.predecessors.multiplicity 2 1 = 1 ∧
      g.audit = .error (.illegal (.miscounted 0 1 0 1)) := by
  intro listed lost g
  refine ⟨by decide, by decide, ?_⟩
  have reached : g.Disturbed := .report _ (.report _ (.request _ (.initial (.ofSize 3))))
  refine (reached.audit_exact.2.2 _).mpr ⟨0, 1, ⟨by decide, fun p t other => ?_⟩, by decide⟩
  -- Only the edge from the plain block to itself would come before.
  by_contra before
  obtain ⟨rfl, rfl⟩ : p = 0 ∧ t = 0 := by
    simp only [Label] at *
    omega
  exact other (by decide)

end Switchyard.Graph
