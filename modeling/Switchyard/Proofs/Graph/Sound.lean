import Switchyard.Proofs.Graph.Table
import Switchyard.Proofs.Predecessors.Conservation
import Switchyard.Proofs.Predecessors.Queries

namespace Switchyard.Graph

/-- Blocks are numbered by position, exactly these blocks are wired, every table belongs to its
block, and every target is a block. The counts may still differ from the tables. -/
structure Sound (g : Graph) : Prop where
  labelled : ∀ (b : Label) (block : Block), g.blocks[b]? = some block → block.label = b
  wired : ∀ b, g.predecessors.isWired b = true ↔ b < g.size
  owned : ∀ b table, g.table b = .ok table → table.owner = some b
  closed : ∀ b, ∀ t ∈ g.targets b, t < g.size

/-- The table of the source names the target this many times. -/
def occurrences (g : Graph) (e : Edge) : Nat := (g.targets e.source).count e.target

/-- So often the edge is counted. -/
def recorded (g : Graph) (e : Edge) : Nat := g.predecessors.multiplicity e.target e.source

/-- So many edges are counted beyond those that the tables list. -/
def imbalance (g : Graph) (e : Edge) : Int := (g.recorded e : Int) - (g.occurrences e : Int)

/-- The later graph is sound, and its counts are as far from its tables as they were. -/
structure Keeps (g h : Graph) : Prop where
  sound : h.Sound
  imbalance : ∀ e, h.imbalance e = g.imbalance e

theorem Keeps.refl {g : Graph} (sound : g.Sound) : g.Keeps g where
  sound := sound
  imbalance _ := rfl

theorem Keeps.trans {g h k : Graph} (first : g.Keeps h) (second : h.Keeps k) : g.Keeps k where
  sound := second.sound
  imbalance e := (second.imbalance e).trans (first.imbalance e)

variable {g : Graph} {b p : Label} {table : JumpTable} {s : Observed Predecessors}

/-- A block is known by its place. -/
theorem Sound.map_blocks {α : Type} {f : Block → α} {place : Label → α} (sound : g.Sound)
    (same : ∀ b block, g.blocks[b]? = some block → block.label = b → f block = place b) :
    g.blocks.toList.map f = (List.range g.size).map place := by
  apply List.ext_getElem
  · simp [size]
  · intro b inside _
    rw [List.length_map, Array.length_toList] at inside
    have here : g.blocks[b]? = some g.blocks[b] := Array.getElem?_eq_getElem inside
    simpa using same b g.blocks[b] here (sound.labelled b _ here)

/-- The labels are the positions. -/
theorem Sound.labels_eq (sound : g.Sound) : g.labels = List.range g.size := by
  rw [labels, sound.map_blocks fun _ _ _ label => label, List.map_id']

/-- Beyond the blocks there are no predecessors. -/
theorem Sound.into_of_le (sound : g.Sound) (outside : g.size ≤ b) :
    g.predecessors.into b = [] := by
  apply Predecessors.into_of_unwired
  rw [Bool.eq_false_iff]
  exact fun wired => Nat.not_lt.mpr outside ((sound.wired b).mp wired)

theorem targets_put_self (inside : b < g.size) (s : Observed Predecessors) :
    (g.put b s).targets b = s.table.targets :=
  targets_of_table (table_put_self inside s)

theorem targets_put_ne (g : Graph) (s : Observed Predecessors) (other : p ≠ b) :
    (g.put b s).targets p = g.targets p := by
  simp only [targets, table_put_ne g s other]

/-- A table with known targets can be put back. -/
theorem Sound.put (sound : g.Sound) (inside : b < g.size) (owned : s.table.owner = some b)
    (sameWired : ∀ p, s.heard.isWired p = g.predecessors.isWired p)
    (closed : ∀ t ∈ s.table.targets, t < g.size) : (g.put b s).Sound where
  labelled p block here := by
    have stored : (g.store b s.table).blocks[p]? = some block := here
    rw [getElem?_blocks_store] at stored
    split at stored
    · obtain ⟨old, there, rfl⟩ := Option.map_eq_some_iff.mp stored
      exact sound.labelled p old there
    · exact sound.labelled p block stored
  wired p := by
    rw [predecessors_put, sameWired, size_put]
    exact sound.wired p
  owned p other there := by
    by_cases same : p = b
    · subst same
      rw [table_put_self inside] at there
      cases there
      exact owned
    · rw [table_put_ne g s same] at there
      exact sound.owned p other there
  closed p t present := by
    rw [size_put]
    by_cases same : p = b
    · subst same
      rw [targets_put_self inside] at present
      exact closed t present
    · rw [targets_put_ne g s same] at present
      exact sound.closed p t present

/-- What a block counts more has to be what its table lists more. -/
theorem imbalance_put (inside : b < g.size)
    (othersKept : ∀ t q, q ≠ b →
      s.heard.multiplicity t q = g.predecessors.multiplicity t q)
    (balance : ∀ t, s.heard.multiplicity t b + (g.targets b).count t =
      g.predecessors.multiplicity t b + s.table.targets.count t) (e : Edge) :
    (g.put b s).imbalance e = g.imbalance e := by
  unfold imbalance recorded occurrences
  rw [predecessors_put]
  by_cases same : e.source = b
  · have balanced := balance e.target
    rw [same, targets_put_self inside]
    omega
  · rw [targets_put_ne g s same, othersKept e.target e.source same]

/-- An update that conserves keeps the balance of the whole graph. -/
theorem Sound.keeps_put (sound : g.Sound) (found : g.table b = .ok table)
    (conserved : Observed.Conserves b ⟨table, g.predecessors⟩ s) : g.Keeps (g.put b s) where
  sound := by
    apply sound.put (lt_size_of_table found) _ conserved.sameWired
    · intro t present
      rcases conserved.targetsKnown t present with listed | wired
      · exact sound.closed b t (targets_of_table found ▸ listed)
      · exact (sound.wired t).mp wired
    · exact conserved.sameOwner.trans (sound.owned b table found)
  imbalance := by
    apply imbalance_put (lt_size_of_table found) conserved.othersKept
    rw [targets_of_table found]
    exact conserved.balance

/-- A faithful plan keeps the graph sound and its imbalance as it is, however it ends. -/
theorem Sound.keeps_onTable {α : Type} {plan : Plan α} (sound : g.Sound) (faithful : plan.Faithful)
    (b : Label) :
    g.Keeps (Step.after (onTable b (plan.carryOut Predecessors.observer)) g) := by
  rw [after_onTable]
  cases found : g.table b with
  | error fault => exact Keeps.refl sound
  | ok table =>
      have conserved := Plan.carryOut_conserves (s := ⟨table, g.predecessors⟩) faithful
        (sound.owned b table found)
      exact sound.keeps_put found conserved

/-- Every edit keeps the balance. -/
theorem Sound.keeps_edit (sound : g.Sound) (edit : Edit) : g.Keeps (Step.after edit.apply g) := by
  rw [Edit.apply_eq]
  exact sound.keeps_onTable edit.faithful_plan edit.owner

end Switchyard.Graph
