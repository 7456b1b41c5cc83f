import Switchyard.Proofs.Graph.Growth

namespace Switchyard.Graph

/-- The owner of a switch and its targets in order. -/
abbrev Declared := Label × List Label

/-- The blocks that the switches end. -/
def owners (switches : List Declared) : List Label := switches.map Prod.fst

/-- The table of a declared switch belongs to the owner and holds nothing but the targets. -/
def declaredTable (switch : Declared) : JumpTable :=
  { JumpTable.gather switch.2 with owner := some switch.1 }

/-- The switch ends a plain block, and all its targets are blocks. -/
structure Fits (g : Graph) (switch : Declared) : Prop where
  plain : g.table switch.1 = .error (.illegal (.notSwitch switch.1))
  closed : ∀ t ∈ switch.2, t < g.size

/-- All the switches fit, and no two of them end the same block. -/
structure Admits (g : Graph) (switches : List Declared) : Prop where
  fits : ∀ switch ∈ switches, g.Fits switch
  distinct : (owners switches).Nodup

/-- The later graph has these switches in addition, and its other blocks are as they were. -/
structure Gains (g : Graph) (switches : List Declared) (h : Graph) : Prop where
  sizes : h.size = g.size
  gained : ∀ switch ∈ switches, h.table switch.1 = .ok (declaredTable switch)
  kept : ∀ b, b ∉ owners switches → h.table b = g.table b

/-- The graph with one switch more, whatever is counted then. -/
def extend (g : Graph) (switch : Declared) (counts : Predecessors) : Graph :=
  g.put switch.1 ⟨declaredTable switch, counts⟩

variable {g h : Graph} {switch other : Declared} {rest switches others : List Declared}
  {counts : Predecessors} {b : Label}

theorem owner_mem_owners (present : switch ∈ switches) : switch.1 ∈ owners switches :=
  List.mem_map_of_mem present

@[simp] theorem size_extend (g : Graph) (switch : Declared) (counts : Predecessors) :
    (g.extend switch counts).size = g.size := size_put g switch.1 _

theorem table_extend_ne (g : Graph) (counts : Predecessors) (apart : b ≠ switch.1) :
    (g.extend switch counts).table b = g.table b := table_put_ne g _ apart

theorem Fits.inside (fits : g.Fits switch) : switch.1 < g.size := lt_size_of_plain fits.plain

/-- The block has the declared table then. -/
theorem Fits.table_extend (fits : g.Fits switch) (counts : Predecessors) :
    (g.extend switch counts).table switch.1 = .ok (declaredTable switch) :=
  table_put_self fits.inside _

/-- A switch does not stand in the way of a switch of another block. -/
theorem fits_extend (apart : other.1 ≠ switch.1) :
    (g.extend switch counts).Fits other ↔ g.Fits other := by
  constructor
  · intro fits
    exact ⟨table_extend_ne g counts apart ▸ fits.plain, size_extend g switch counts ▸ fits.closed⟩
  · intro fits
    exact ⟨(table_extend_ne g counts apart).trans fits.plain,
      (size_extend g switch counts).symm ▸ fits.closed⟩

/-- A block that is a switch already cannot end in another one. -/
theorem Fits.fresh (fits : g.Fits switch) (admitted : (g.extend switch counts).Admits rest) :
    switch.1 ∉ owners rest := by
  intro again
  obtain ⟨other, present, same⟩ := List.mem_map.mp again
  have plain := (admitted.fits other present).plain
  rw [same, fits.table_extend] at plain
  cases plain

theorem admits_nil (g : Graph) : g.Admits [] where
  fits _ present := absurd present List.not_mem_nil
  distinct := List.nodup_nil

/-- Switches are admitted together when the first one fits and leaves the others admitted. -/
theorem admits_cons (counts : Predecessors) :
    g.Admits (switch :: rest) ↔ g.Fits switch ∧ (g.extend switch counts).Admits rest := by
  have apart (fresh : switch.1 ∉ owners rest) {other : Declared} (present : other ∈ rest) :
      other.1 ≠ switch.1 := by
    intro same
    exact fresh (same ▸ owner_mem_owners present)
  constructor
  · intro admitted
    obtain ⟨fresh, distinct⟩ := List.nodup_cons.mp admitted.distinct
    obtain ⟨first, later⟩ := List.forall_mem_cons.mp admitted.fits
    exact ⟨first, fun other present => (fits_extend (apart fresh present)).mpr
      (later other present), distinct⟩
  · rintro ⟨first, later⟩
    have fresh := first.fresh later
    refine ⟨List.forall_mem_cons.mpr ⟨first, ?_⟩, List.nodup_cons.mpr ⟨fresh, later.distinct⟩⟩
    intro other present
    exact (fits_extend (apart fresh present)).mp (later.fits other present)

theorem Gains.refl (g : Graph) : g.Gains [] g where
  sizes := rfl
  gained _ present := absurd present List.not_mem_nil
  kept _ _ := rfl

/-- A switch more is gained when the others are gained behind it. -/
theorem Gains.cons (fits : g.Fits switch) (fresh : switch.1 ∉ owners rest)
    (later : (g.extend switch counts).Gains rest h) : g.Gains (switch :: rest) h where
  sizes := later.sizes.trans (size_extend g switch counts)
  gained other present := by
    rcases List.mem_cons.mp present with rfl | behind
    · rw [later.kept other.1 fresh]
      exact fits.table_extend counts
    · exact later.gained other behind
  kept b absent := by
    rw [owners, List.map_cons, List.mem_cons, not_or] at absent
    rw [later.kept b absent.2]
    exact table_extend_ne g counts absent.1

/-- The order in which the switches are gained leaves no trace. -/
theorem Gains.perm (gained : g.Gains switches h) (same : switches.Perm others) :
    g.Gains others h where
  sizes := gained.sizes
  gained switch present := gained.gained switch (same.mem_iff.mpr present)
  kept b absent := gained.kept b fun present => absent ((same.map Prod.fst).mem_iff.mp present)

/-- A switch that fits is owned by its block. -/
theorem Sound.fitted_gather (sound : g.Sound) {owned : JumpTable} :
    g.fitted switch.1 (.gather switch.2) = .ok owned ↔
      g.Fits switch ∧ owned = declaredTable switch := by
  have known : (∀ t ∈ switch.2, g.predecessors.isWired t = true) ↔ ∀ t ∈ switch.2, t < g.size := by
    simp only [sound.wired]
  rw [fitted_iff]
  constructor
  · rintro ⟨plain, targetsWired, _, same⟩
    exact ⟨⟨plain, known.mp targetsWired⟩, same⟩
  · rintro ⟨fits, same⟩
    exact ⟨fits.plain, known.mpr fits.closed, rfl, same⟩

/-- A switch that fits is attached. -/
theorem Sound.attachSwitch_of_fits (sound : g.Sound) (fits : g.Fits switch) :
    ∃ counts, attachSwitch switch.1 (.gather switch.2) g = .ok () (g.extend switch counts) := by
  obtain ⟨counts, run, _⟩ := sound.attachSwitch_of_fitted (sound.fitted_gather.mpr ⟨fits, rfl⟩)
  exact ⟨counts, run⟩

/-- Only a switch that fits is attached. -/
theorem Sound.fits_of_attachSwitch (sound : g.Sound)
    (attached : attachSwitch switch.1 (.gather switch.2) g = .ok () h) :
    g.Fits switch ∧ ∃ counts, h = g.extend switch counts := by
  rcases fitted : g.fitted switch.1 (.gather switch.2) with fault | owned
  · rw [attachSwitch_of_error fitted] at attached
    cases attached
  · have fits := (sound.fitted_gather.mp fitted).1
    obtain ⟨counts, run⟩ := sound.attachSwitch_of_fits fits
    rw [run] at attached
    cases attached
    exact ⟨fits, counts, rfl⟩

end Switchyard.Graph
