import Switchyard.Buffer
import Switchyard.Change
import Switchyard.Numeral

namespace Switchyard

/-- The targets of a switch in the order of its cases, and the block that the switch ends. A target
may occur more than once. -/
structure JumpTable where
  owner : Option Label
  targets : List Label
  /-- So many targets fit into the table before it grows. -/
  room : Nat
  fits : targets.length ≤ room
deriving DecidableEq, Repr

namespace JumpTable

/-- A table that is made from a sequence has room for exactly these targets. -/
def ofList (targets : List Label) : JumpTable := ⟨none, targets, targets.length, Nat.le_refl _⟩

/-- An empty table with room for so many targets. -/
def withRoom (room : Nat) : JumpTable := ⟨none, [], room, Nat.zero_le _⟩

def empty : JumpTable := withRoom 0

/-- A source that is absent differs from one without targets. -/
def ofSource : Option (List Label) → Except Fault JumpTable
  | none => .error .sourceAbsent
  | some targets => .ok (ofList targets)

/-- A table is attached once. -/
def attach (table : JumpTable) (owner : Label) : Except Fault JumpTable :=
  match table.owner with
  | some current => .error (.illegal (.alreadyAttached current))
  | none => .ok { table with owner := some owner }

def length (table : JumpTable) : Nat := table.targets.length

def isEmpty (table : JumpTable) : Bool := table.targets.isEmpty

/-- A table that is too small grows to twice its room at least, and to four targets at least. -/
def grownRoom (room wanted : Nat) : Nat :=
  if wanted ≤ room then room else max wanted (max 4 (2 * room))

/-- There is room for what was wanted. -/
theorem le_grownRoom (room wanted : Nat) : wanted ≤ grownRoom room wanted := by
  unfold grownRoom
  split <;> omega

/-- The table with other targets in it. -/
def hold (table : JumpTable) (targets : List Label) : JumpTable where
  owner := table.owner
  targets := targets
  room := grownRoom table.room targets.length
  fits := le_grownRoom table.room targets.length

@[simp] theorem owner_hold (table : JumpTable) (targets : List Label) :
    (table.hold targets).owner = table.owner := rfl

@[simp] theorem targets_hold (table : JumpTable) (targets : List Label) :
    (table.hold targets).targets = targets := rfl

/-- Room that is enough does not grow. -/
theorem grownRoom_of_le {room wanted : Nat} (enough : wanted ≤ room) :
    grownRoom room wanted = room := if_pos enough

/-- A table that holds what it held is the same table. -/
@[simp] theorem hold_targets (table : JumpTable) : table.hold table.targets = table := by
  simp only [hold, grownRoom_of_le table.fits]

/-- Targets for which there is room leave no trace when others replace them. -/
theorem hold_hold {table : JumpTable} {targets : List Label} (enough : targets.length ≤ table.room)
    (others : List Label) : (table.hold targets).hold others = table.hold others := by
  simp only [hold, grownRoom_of_le enough]

/-- The room of a table that takes so many targets one by one. -/
def gatheredRoom (count : Nat) : Nat :=
  count.fold (fun taken _ room => grownRoom room (taken + 1)) 0

/-- The room grows as it would with each target alone. -/
theorem gatheredRoom_succ (count : Nat) :
    gatheredRoom (count + 1) = grownRoom (gatheredRoom count) (count + 1) := by
  simp [gatheredRoom]

/-- There is room for all targets that were taken. -/
theorem le_gatheredRoom : (count : Nat) → count ≤ gatheredRoom count
  | 0 => Nat.zero_le _
  | count + 1 => gatheredRoom_succ count ▸ le_grownRoom _ _

/-- A table that takes its targets one by one, so it may have more room than it needs. -/
def gather (targets : List Label) : JumpTable :=
  ⟨none, targets, gatheredRoom targets.length, le_gatheredRoom targets.length⟩

@[simp] theorem gather_nil : gather [] = empty := rfl

/-- One target more is taken as it would be pushed. -/
@[simp] theorem gather_concat (targets : List Label) (target : Label) :
    gather (targets ++ [target]) = (gather targets).hold (targets ++ [target]) := by
  simp [gather, hold, gatheredRoom_succ]

/-- So many targets fit without growing. -/
def hasRoom (table : JumpTable) (wanted : Nat) : Bool := wanted ≤ table.room

/-- Tables are alike when they have the same owner and the same targets. Room does not count. -/
def alike (left right : JumpTable) : Bool :=
  left.owner == right.owner && left.targets == right.targets

/-- An index has to be below the length. -/
def get (table : JumpTable) (index : Nat) : Except Fault Label :=
  match table.targets[index]? with
  | none => .error (.outOfRange index table.length)
  | some target => .ok target

/-- An index is good when it is in range, and then the target there is read. -/
theorem get_eq_ok {table : JumpTable} {index : Nat} {old : Label} :
    table.get index = .ok old ↔
      ∃ inRange : index < table.targets.length, table.targets[index] = old := by
  rw [← List.getElem?_eq_some_iff]
  unfold get
  cases table.targets[index]? <;> simp

/-- Diagnostics of a reference beyond the table name the length first. -/
def boundsMessage (table : JumpTable) (index : Nat) : String :=
  "index out of bounds: the len is " ++ toString table.length ++ " but the index is " ++
    toString index

def contains (table : JumpTable) (target : Label) : Bool := table.targets.contains target

/-- The first occurrence counts. -/
def indexOf? (table : JumpTable) (target : Label) : Option Nat := table.targets.idxOf? target

/-- The end of the window that starts at the offset, unless it is behind the end of the buffer or no
machine word. -/
def windowEnd? (table : JumpTable) (offset length : Nat) : Option Nat :=
  (Numeral.sum? offset table.length).filter (· ≤ length)

/-- The targets replace a window of the buffer that starts at the offset. A window that does not fit
leaves the buffer alone. An access outside of the buffer would have no result. -/
def copyInto (table : JumpTable) (offset : Nat) (buffer : List Label) :
    Option (EStateM.Result Fault (List Label) Unit) :=
  match table.windowEnd? offset buffer.length with
  | none => some (.error (.outOfRange offset buffer.length) buffer)
  | some stop => (Buffer.overwrite? buffer offset stop table.targets).map (.ok ())

def debug (table : JumpTable) : String :=
  "TargetList \x7b owner: " ++ Label.tagOption table.owner ++ ", targets: " ++
    Label.tagList table.targets ++ " \x7d"

end JumpTable

end Switchyard
