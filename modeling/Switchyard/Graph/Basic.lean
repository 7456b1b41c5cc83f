import Switchyard.JumpTable.Basic
import Switchyard.Predecessors

namespace Switchyard

/-- A block ends in a switch over a jump table or is plain. -/
structure Block where
  label : Label
  table : Option JumpTable
deriving DecidableEq, Repr

namespace Block

def isSwitch (block : Block) : Bool := block.table.isSome

def debug (block : Block) : String :=
  let table := match block.table with
    | none => "None"
    | some table => "Some(" ++ table.debug ++ ")"
  "BasicBlock \x7b id: " ++ Label.tag block.label ++ ", targets: " ++ table ++ " \x7d"

end Block

/-- A graph is an array of blocks and the predecessor counts that their jump tables report to. -/
structure Graph where
  blocks : Array Block
  predecessors : Predecessors

namespace Graph

def empty : Graph := ⟨#[], .empty⟩

def size (g : Graph) : Nat := g.blocks.size

def isEmpty (g : Graph) : Bool := g.blocks.isEmpty

/-- A new block is plain and takes the next label. -/
def grow (g : Graph) : Graph where
  blocks := g.blocks.push ⟨g.size, none⟩
  predecessors := g.predecessors.wire g.size

/-- So many plain blocks. -/
def ofSize (count : Nat) : Graph := count.repeat grow empty

def labels (g : Graph) : List Label := g.blocks.toList.map Block.label

/-- A label beyond the blocks is a stranger. -/
def block (g : Graph) (b : Label) : Except Fault Block :=
  match g.blocks[b]? with
  | none => .error (.illegal (.notWired b))
  | some block => .ok block

/-- Only a switch has a table. -/
def table (g : Graph) (b : Label) : Except Fault JumpTable :=
  match g.block b with
  | .error fault => .error fault
  | .ok block =>
      match block.table with
      | none => .error (.illegal (.notSwitch b))
      | some table => .ok table

/-- A plain block and a stranger have no targets. -/
def targets (g : Graph) (b : Label) : List Label :=
  match g.table b with
  | .error _ => []
  | .ok table => table.targets

/-- Only a block of the graph can be asked for its predecessors. -/
def predecessorsOf (g : Graph) (b : Label) : Except Fault (List (Label × Nat)) :=
  match g.block b with
  | .error fault => .error fault
  | .ok _ => .ok (g.predecessors.into b)

/-- The switches in block order, each with its targets. -/
def switches (g : Graph) : List (Label × List Label) :=
  g.blocks.toList.filterMap fun block =>
    block.table.map fun table => (block.label, table.targets)

/-- A block gets a table in the place of whatever it had. -/
def store (g : Graph) (b : Label) (table : JumpTable) : Graph :=
  { g with blocks := g.blocks.modify b ({ · with table := some table }) }

end Graph

end Switchyard
