import Switchyard.Script

namespace Switchyard

/-- A report lists what a run did and where it left the graph. -/
structure Report where
  edits : List Applied
  switches : List (Label × List Label)
  predecessors : List (Label × List (Label × Nat))
deriving DecidableEq, Repr

/-- Both tables are in block order. Blocks without predecessors are left out of the second one. -/
def Report.ofGraph (g : Graph) (edits : List Applied) : Report where
  edits := edits
  switches := g.switches
  predecessors :=
    (g.labels.map fun b => (b, g.predecessors.into b)).filter (!·.2.isEmpty)

end Switchyard
