import Switchyard.Graph.Basic
import Switchyard.JumpTable.Update

namespace Switchyard.Graph

/-- The label of the new block is returned. -/
def addBlock : Step Graph Label := fun g => .ok g.size g.grow

/-- Runs a step on the predecessor counts alone. -/
def onPredecessors {α : Type} (step : Step Predecessors α) : Step Graph α := fun g =>
  match step g.predecessors with
  | .ok a predecessors => .ok a { g with predecessors }
  | .error fault predecessors => .error fault { g with predecessors }

/-- A target that is no block of the graph. -/
def stray? (g : Graph) (table : JumpTable) : Option Label :=
  table.targets.find? (!g.predecessors.isWired ·)

/-- A table fits a plain block when all its targets are blocks and no block owns it yet. -/
def fitted (g : Graph) (b : Label) (table : JumpTable) : Except Fault JumpTable := do
  if (← g.block b).isSwitch then
    throw (.illegal (.alreadyAttached b))
  match g.stray? table with
  | some stray => throw (.illegal (.notWired stray))
  | none => table.attach b

/-- A plain block becomes a switch, and each target of its table counts as one edge. -/
def attachSwitch (b : Label) (table : JumpTable) : Step Graph Unit := do
  let table ← Step.ofExcept ((← get).fitted b table)
  onPredecessors (table.targets.forM fun target => Predecessors.observer ⟨b, none, some target⟩)
  modify (·.store b table)

/-- A table with an owner is refused at once. A stray target is found after the block was added, so
the graph keeps a plain block then. -/
def addSwitch (table : JumpTable) : Step Graph Label := do
  if let some owner := table.owner then
    throw (.illegal (.alreadyAttached owner))
  let b ← addBlock
  attachSwitch b table
  return b

/-- Runs an update on the table of a switch. The predecessor counts hear of its changes. -/
def onTable {α : Type} (b : Label) (update : Step (Observed Predecessors) α) : Step Graph α :=
  fun g =>
    match g.table b with
    | .error fault => .error fault g
    | .ok table =>
        match update ⟨table, g.predecessors⟩ with
        | .ok a ⟨table, predecessors⟩ => .ok a { g.store b table with predecessors }
        | .error fault ⟨table, predecessors⟩ => .error fault { g.store b table with predecessors }

end Switchyard.Graph
