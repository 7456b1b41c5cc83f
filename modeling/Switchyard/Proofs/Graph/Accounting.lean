import Switchyard.Proofs.Graph.Reachable
import Switchyard.Proofs.Graph.Recount

namespace Switchyard.Graph

/-- Blocks, tables and counts of the graph fit together. -/
structure Accounted (g : Graph) : Prop where
  labelled : ∀ (b : Label) (block : Block), g.blocks[b]? = some block → block.label = b
  wired : ∀ b, g.predecessors.isWired b = true ↔ b < g.size
  owned : ∀ b table, g.table b = .ok table → table.owner = some b
  closed : ∀ b, ∀ t ∈ g.targets b, t < g.size
  counted : ∀ source target,
    g.predecessors.multiplicity target source = (g.targets source).count target
  /-- No count of zero is stored. -/
  stored : ∀ (target : Label) (row : Tally) (source : Label) (count : Nat),
    g.predecessors.rows[target]? = some row → row.counts[source]? = some count → 0 < count
  audited : g.audit = .ok ()

variable {g : Graph}

/-- An edge is recorded as often as it is listed, for nothing else was ever counted. -/
theorem Reachable.recorded_eq (reached : g.Reachable) (e : Edge) :
    g.recorded e = g.occurrences e := by
  have balanced := reached.imbalance_eq_zero e
  unfold imbalance at balanced
  omega

/-- Tables and counts of a reachable graph say the same about every edge. -/
theorem Reachable.accounted (reached : g.Reachable) : g.Accounted where
  labelled := reached.keeps.sound.labelled
  wired := reached.keeps.sound.wired
  owned := reached.keeps.sound.owned
  closed := reached.keeps.sound.closed
  counted source target := reached.recorded_eq ⟨source, target⟩
  stored _ row _ _ _ found := row.positive found
  audited := by
    rw [audit, reached.keeps.sound.auditAgainst_eq_ok (List.Perm.refl _)]
    exact fun source target => (reached.recorded_eq ⟨source, target⟩).symm

end Switchyard.Graph
