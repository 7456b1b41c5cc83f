import Switchyard.Change
import Switchyard.Edge
import Switchyard.Tally

namespace Switchyard

/-- A wired block has a row, and the row counts how many edges each predecessor has into it. -/
structure Predecessors where
  rows : Std.ExtTreeMap Label Tally

namespace Predecessors

def empty : Predecessors := ⟨∅⟩

/-- A block that is wired already keeps its row. -/
def wire (p : Predecessors) (b : Label) : Predecessors := ⟨p.rows.insertIfNew b .empty⟩

/-- A block without a row is not wired. -/
def isWired (p : Predecessors) (b : Label) : Bool := p.rows.contains b

/-- A block that is not wired has no predecessors. -/
def row (p : Predecessors) (target : Label) : Tally := p.rows.getD target .empty

/-- This many edges lead from the predecessor to the target. -/
def multiplicity (p : Predecessors) (target predecessor : Label) : Nat :=
  (p.row target).count predecessor

/-- The predecessors of a block in increasing order, each with its number of edges. -/
def into (p : Predecessors) (target : Label) : List (Label × Nat) := (p.row target).toList

/-- All edges into the block, whatever their sources. -/
def inDegree (p : Predecessors) (target : Label) : Nat := (p.row target).total

/-- The wired blocks that have predecessors, in increasing order. -/
def table (p : Predecessors) : List (Label × List (Label × Nat)) :=
  (p.rows.toList.map fun (target, row) => (target, row.toList)).filter (!·.2.isEmpty)

/-- Every recorded edge with its multiplicity, in the order of edges. -/
def edges (p : Predecessors) : List (Edge × Nat) :=
  (p.table.flatMap fun (target, sources) =>
    sources.map fun (source, n) => (⟨source, target⟩, n)).mergeSort fun a b => a.1.le b.1

/-- An edge is gained by counting its source once more. -/
def gain (p : Predecessors) (source : Label) : Option Label → Predecessors
  | none => p
  | some target => ⟨p.rows.insert target ((p.row target).add source)⟩

/-- Only a recorded edge can be lost. -/
def lose (source : Label) : Option Label → Step Predecessors Unit
  | none => pure ()
  | some target => fun p =>
      match (p.row target).remove? source with
      | none => .error (.illegal (.edgeMissing source target)) p
      | some row => .ok () ⟨p.rows.insert target row⟩

/-- A block that is not wired ends the step. -/
def requireWired (b : Label) : Step Predecessors Unit := fun p =>
  if p.isWired b then .ok () p else .error (.illegal (.notWired b)) p

/-- The counts themselves are an observer. All blocks of a change have to be wired, and the edge that
it takes away has to be recorded. -/
def observer : Observer Predecessors := fun change => do
  change.blocks.forM requireWired
  lose change.owner change.old
  modify (·.gain change.owner change.new)

@[simp] theorem isWired_empty (b : Label) : empty.isWired b = false := by
  simp [empty, isWired]

/-- One block more is wired, and none is lost. -/
@[simp] theorem isWired_wire (p : Predecessors) (b c : Label) :
    (p.wire b).isWired c = (b == c || p.isWired c) := by
  rw [Bool.eq_iff_iff]
  simp [wire, isWired, Std.ExtTreeMap.contains_insertIfNew]

/-- A block that was not wired starts without predecessors. -/
@[simp] theorem row_wire (p : Predecessors) (b c : Label) : (p.wire b).row c = p.row c := by
  simp only [wire, row, Std.ExtTreeMap.getD_insertIfNew, Nat.compare_eq_eq]
  split
  · next fresh => rw [← fresh.1, Std.ExtTreeMap.getD_eq_fallback fresh.2]
  · rfl

@[simp] theorem multiplicity_empty (target predecessor : Label) :
    empty.multiplicity target predecessor = 0 := by
  simp [empty, multiplicity, row]

/-- A block comes without edges. -/
@[simp] theorem multiplicity_wire (p : Predecessors) (b target predecessor : Label) :
    (p.wire b).multiplicity target predecessor = p.multiplicity target predecessor := by
  simp [multiplicity]

/-- A gained edge counts once, and no other edge is touched. -/
theorem multiplicity_gain (p : Predecessors) (source target t q : Label) :
    (p.gain source (some target)).multiplicity t q =
      p.multiplicity t q + if target = t ∧ source = q then 1 else 0 := by
  simp only [gain, multiplicity, row, Std.ExtTreeMap.getD_insert, Nat.compare_eq_eq]
  by_cases same : target = t
  · subst same
    simp [Tally.count_add]
  · simp [same]

/-- A lost edge counts once less, and no other edge is touched. -/
theorem multiplicity_lose {p r : Predecessors} {source target : Label}
    (lost : lose source (some target) p = .ok () r) (t q : Label) :
    p.multiplicity t q = r.multiplicity t q + if target = t ∧ source = q then 1 else 0 := by
  simp only [lose] at lost
  split at lost
  · cases lost
  · next row found =>
    cases lost
    have counted := Tally.count_of_remove? found q
    simp only [multiplicity, Predecessors.row, Std.ExtTreeMap.getD_insert, Nat.compare_eq_eq] at *
    by_cases same : target = t
    · subst same
      simpa using counted
    · simp [same]

/-- Only an edge that is not recorded cannot be lost, and then nothing is. -/
theorem lose_eq_error {p r : Predecessors} {source target : Label} {fault : Fault} :
    lose source (some target) p = .error fault r ↔
      p.multiplicity target source = 0 ∧ fault = .illegal (.edgeMissing source target) ∧ r = p := by
  simp only [lose]
  split
  · next gone => simp [multiplicity, Tally.remove?_eq_none.1 gone, eq_comm]
  · next found =>
    have counted : (p.row target).count source ≠ 0 := fun zero => by
      simp [Tally.remove?_eq_none.2 zero] at found
    simp [multiplicity, counted]

end Predecessors

end Switchyard
