import Switchyard.Graph.Update
import Switchyard.Proofs.Step

namespace Switchyard.Graph

variable {g : Graph} {b p : Label} {table : JumpTable}

/-- A block has a table when it ends in a switch. -/
theorem table_eq_ok :
    g.table b = .ok table ↔ ∃ block, g.blocks[b]? = some block ∧ block.table = some table := by
  unfold Graph.table Graph.block
  cases g.blocks[b]? with
  | none => simp
  | some block => cases found : block.table <;> simp [found]

/-- A plain block is told apart from a stranger by the fault that its missing table has. -/
theorem table_eq_notSwitch :
    g.table b = .error (.illegal (.notSwitch b)) ↔
      ∃ block, g.blocks[b]? = some block ∧ block.table = none := by
  unfold Graph.table Graph.block
  cases g.blocks[b]? with
  | none => simp
  | some block => cases found : block.table <;> simp [found]

theorem lt_size_of_plain (plain : g.table b = .error (.illegal (.notSwitch b))) : b < g.size := by
  obtain ⟨block, here, _⟩ := table_eq_notSwitch.mp plain
  exact (Array.getElem?_eq_some_iff.mp here).1

theorem lt_size_of_table (found : g.table b = .ok table) : b < g.size := by
  obtain ⟨block, here, _⟩ := table_eq_ok.mp found
  exact (Array.getElem?_eq_some_iff.mp here).1

/-- The table of a block is there, or the fault says what the block is. -/
theorem table_cases (g : Graph) (b : Label) :
    g.size ≤ b ∨ (∃ current, g.table b = .ok current) ∨
      g.table b = .error (.illegal (.notSwitch b)) := by
  rcases Nat.lt_or_ge b g.size with inside | outside
  · have here : g.blocks[b]? = some g.blocks[b] := Array.getElem?_eq_getElem inside
    cases switch : g.blocks[b].table with
    | none => exact .inr (.inr (table_eq_notSwitch.mpr ⟨_, here, switch⟩))
    | some current => exact .inr (.inl ⟨current, table_eq_ok.mpr ⟨_, here, switch⟩⟩)
  · exact .inl outside

/-- A switch leads to the targets of its table. -/
theorem targets_of_table (found : g.table b = .ok table) : g.targets b = table.targets := by
  simp only [targets, found]

/-- A block without a table leads nowhere. -/
theorem targets_of_error {fault : Fault} (missing : g.table b = .error fault) :
    g.targets b = [] := by
  simp only [targets, missing]

theorem lt_size_of_mem_targets {t : Label} (listed : t ∈ g.targets b) : b < g.size := by
  rcases found : g.table b with fault | table
  · rw [targets_of_error found] at listed
    cases listed
  · exact lt_size_of_table found

@[simp] theorem size_store (g : Graph) (b : Label) (table : JumpTable) :
    (g.store b table).size = g.size := by
  simp [store, size]

/-- Storing a table changes one block, and of this block the table alone. -/
theorem getElem?_blocks_store (g : Graph) (b p : Label) (table : JumpTable) :
    (g.store b table).blocks[p]? =
      if b = p then g.blocks[p]?.map ({ · with table := some table }) else g.blocks[p]? := by
  simp [store, Array.getElem?_modify]

/-- The stored table is found again. -/
theorem table_store_self (inside : b < g.size) : (g.store b table).table b = .ok table := by
  rw [table_eq_ok, getElem?_blocks_store]
  obtain ⟨block, here⟩ : ∃ block, g.blocks[b]? = some block :=
    ⟨g.blocks[b], Array.getElem?_eq_getElem inside⟩
  simp [here]

/-- The other tables stay. -/
theorem table_store_ne (g : Graph) (table : JumpTable) (other : p ≠ b) :
    (g.store b table).table p = g.table p := by
  simp only [Graph.table, Graph.block, getElem?_blocks_store, Ne.symm other, ↓reduceIte]

/-- An observed table goes back to its block, and the counts to the graph. -/
def put (g : Graph) (b : Label) (s : Observed Predecessors) : Graph :=
  { g.store b s.table with predecessors := s.heard }

@[simp] theorem predecessors_put (g : Graph) (b : Label) (s : Observed Predecessors) :
    (g.put b s).predecessors = s.heard := rfl

@[simp] theorem size_put (g : Graph) (b : Label) (s : Observed Predecessors) :
    (g.put b s).size = g.size := size_store g b s.table

theorem table_put_self (inside : b < g.size) (s : Observed Predecessors) :
    (g.put b s).table b = .ok s.table := table_store_self inside

theorem table_put_ne (g : Graph) (s : Observed Predecessors) (other : p ≠ b) :
    (g.put b s).table p = g.table p := table_store_ne g s.table other

variable {α : Type}

/-- An update of a graph answers what the update of the table answers. -/
theorem outcome_onTable (update : Step (Observed Predecessors) α) (g : Graph) (b : Label) :
    Step.outcome (onTable b update) g =
      match g.table b with
      | .error fault => .error fault
      | .ok table => Step.outcome update ⟨table, g.predecessors⟩ := by
  simp only [Step.outcome, onTable]
  cases g.table b with
  | error fault => rfl
  | ok table =>
      dsimp only
      cases update ⟨table, g.predecessors⟩ <;> rfl

/-- Table and counts are put back together, whether the update succeeds or fails. -/
theorem after_onTable (update : Step (Observed Predecessors) α) (g : Graph) (b : Label) :
    Step.after (onTable b update) g =
      match g.table b with
      | .error _ => g
      | .ok table => g.put b (Step.after update ⟨table, g.predecessors⟩) := by
  simp only [Step.after, onTable]
  cases g.table b with
  | error fault => rfl
  | ok table =>
      dsimp only
      cases update ⟨table, g.predecessors⟩ <;> rfl

end Switchyard.Graph
