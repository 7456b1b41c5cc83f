import Switchyard.Census
import Switchyard.Graph.Basic

namespace Switchyard.Graph

/-- The edges that the tables name. An edge with several cases is listed several times. -/
def listedEdges (g : Graph) : List Edge :=
  g.switches.flatMap fun (source, targets) => targets.map (⟨source, ·⟩)

/-- The recorded edges may come in any order. -/
def auditAgainst (g : Graph) (entries : List (Edge × Nat)) : Except Fault Unit :=
  let listed := Census.take g.listedEdges
  let recorded := Census.ofList entries
  match listed.firstDifference? recorded with
  | none => .ok ()
  | some e =>
      .error (.illegal (.miscounted e.source e.target (listed.count e) (recorded.count e)))

/-- The tables are gone through once more, and the first edge on which they and the counts disagree
is named. -/
def audit (g : Graph) : Except Fault Unit := g.auditAgainst g.predecessors.edges

end Switchyard.Graph
