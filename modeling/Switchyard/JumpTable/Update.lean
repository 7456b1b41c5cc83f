import Switchyard.JumpTable.Basic

namespace Switchyard

/-- A table together with the state of the observer that hears of its changes. -/
structure Observed (σ : Type) where
  table : JumpTable
  heard : σ

namespace JumpTable

variable {σ : Type}

/-- The table as it is now. -/
def current : Step (Observed σ) JumpTable := fun s => .ok s.table s

/-- Only an attached table can report a change. -/
def requireOwner : Step (Observed σ) Label := do
  match (← current).owner with
  | none => throw (.illegal .unattached)
  | some owner => return owner

/-- Only an entry of the table can be replaced or removed. -/
def requireEntry (index : Nat) : Step (Observed σ) Label := do
  Step.ofExcept ((← current).get index)

/-- A target may be inserted before each entry and after the last one. -/
def requirePlace (index : Nat) : Step (Observed σ) Unit := do
  let length := (← current).length
  unless index ≤ length do
    throw (.outOfRange index length)

/-- The targets change before the observer hears of it, and a refusal undoes the change. The room that
was made for it stays. -/
def report (observer : Observer σ) (change : Change) (update undo : List Label → List Label) :
    Step (Observed σ) Unit := fun ⟨table, heard⟩ =>
  let changed := table.hold (update table.targets)
  match observer change heard with
  | .ok _ heard => .ok () ⟨changed, heard⟩
  | .error fault heard => .error fault ⟨changed.hold (undo changed.targets), heard⟩

/-- The displaced target is returned. -/
def set (observer : Observer σ) (index : Nat) (target : Label) : Step (Observed σ) Label := do
  let owner ← requireOwner
  let old ← requireEntry index
  report observer ⟨owner, some old, some target⟩ (·.set index target) (·.set index old)
  return old

/-- The entries from the index on move up by one. -/
def insert (observer : Observer σ) (index : Nat) (target : Label) : Step (Observed σ) Unit := do
  let owner ← requireOwner
  requirePlace index
  report observer ⟨owner, none, some target⟩ (·.insertIdx index target) (·.eraseIdx index)

/-- The removed target is returned. -/
def removeAt (observer : Observer σ) (index : Nat) : Step (Observed σ) Label := do
  let owner ← requireOwner
  let old ← requireEntry index
  report observer ⟨owner, some old, none⟩ (·.eraseIdx index) (·.insertIdx index old)
  return old

/-- The new target comes last. -/
def push (observer : Observer σ) (target : Label) : Step (Observed σ) Unit := do
  let owner ← requireOwner
  report observer ⟨owner, none, some target⟩ (· ++ [target]) List.dropLast

/-- Each target is a change of its own. A refusal keeps the targets accepted before it, and without
targets not even an owner is asked for. -/
def extend (observer : Observer σ) (targets : List Label) : Step (Observed σ) Unit :=
  targets.forM (push observer)

/-- The first occurrence is removed. The observer hears nothing when there is none. -/
def remove (observer : Observer σ) (target : Label) : Step (Observed σ) Bool := do
  let _ ← requireOwner
  match (← current).indexOf? target with
  | none => return false
  | some index =>
      let _ ← removeAt observer index
      return true

/-- The observer hears of each target in order while the table still holds them all. Then they leave
together. After a refusal only those accepted before it leave. -/
def clear (observer : Observer σ) : Step (Observed σ) Unit := do
  let owner ← requireOwner
  fun ⟨table, heard⟩ =>
    let walk := table.targets.forM fun target => observer.counting ⟨owner, some target, none⟩
    match walk (heard, 0) with
    | .ok _ (heard, _) => .ok () ⟨table.hold [], heard⟩
    | .error fault (heard, done) => .error fault ⟨table.hold (table.targets.drop done), heard⟩

/-- Runs an update and returns the changes that were accepted along with its result. -/
def logged {α : Type}
    (update : Observer (σ × Array Change) → Step (Observed (σ × Array Change)) α)
    (observer : Observer σ) : Step (Observed σ) (α × List Change) := fun ⟨table, heard⟩ =>
  match update observer.logging ⟨table, heard, #[]⟩ with
  | .ok result ⟨table, heard, log⟩ => .ok (result, log.toList) ⟨table, heard⟩
  | .error fault ⟨table, heard, _⟩ => .error fault ⟨table, heard⟩

end JumpTable

end Switchyard
