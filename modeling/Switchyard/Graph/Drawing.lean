import Switchyard.Graph.Basic

namespace Switchyard.Graph

/-- A node shows its label and its in-degree. -/
def nodeLine (g : Graph) (name : String) (b : Label) : String :=
  name ++ "_n" ++ toString b ++ "[label=\"" ++ toString b ++ " (" ++
    toString (g.predecessors.inDegree b) ++ ")\"];"

/-- A switch edge is dashed and shows its case. -/
def caseLine (name : String) (source target : Label) (case : Nat) : String :=
  name ++ "_n" ++ toString source ++ " -> " ++ name ++ "_n" ++ toString target ++
    "[style=\"dashed\",label=\"" ++ toString case ++ "\"];"

/-- A plain block leads to the end of its cluster. -/
def endLine (name : String) (source : Label) : String :=
  name ++ "_n" ++ toString source ++ " -> " ++ name ++ "_nend;"

/-- A switch has one edge line for each case. -/
def edgeLines (name : String) (block : Block) : List String :=
  match block.table with
  | none => [endLine name block.label]
  | some table => table.targets.zipIdx.map fun (target, case) =>
      caseLine name block.label target case

/-- A drawing is one cluster. Its node lines come first, then its edge lines, both in block order.
-/
def drawingLines (g : Graph) (name : String) : List String :=
  ["subgraph cluster_" ++ name ++ " \x7b label=\"" ++ name ++ "\";",
    name ++ "_nend[label=\"end\"]"] ++
  g.labels.map (g.nodeLine name) ++
  g.blocks.toList.flatMap (edgeLines name) ++
  ["\x7d"]

def drawing (g : Graph) (name : String) : String :=
  "\n".intercalate (g.drawingLines name)

end Switchyard.Graph
