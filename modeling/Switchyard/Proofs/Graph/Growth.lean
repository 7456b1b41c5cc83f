import Switchyard.Proofs.Graph.Sound

namespace Switchyard

namespace Predecessors

/-- Edges between wired blocks are all accepted, and they count as often as they are listed. -/
theorem forM_gain {p : Predecessors} {source : Label} {targets : List Label}
    (sourceWired : p.isWired source = true) (targetsWired : ∀ t ∈ targets, p.isWired t = true) :
    ∃ r, targets.forM (fun target => observer ⟨source, none, some target⟩) p = .ok () r ∧
      (∀ b, r.isWired b = p.isWired b) ∧
      ∀ t q, r.multiplicity t q =
        p.multiplicity t q + if source = q then targets.count t else 0 := by
  induction targets generalizing p with
  | nil => exact ⟨p, rfl, fun _ => rfl, by simp⟩
  | cons target rest ih =>
      -- Nothing is lost by such a change, so the wired blocks are all that it needs.
      have allWired : ([source, target].find? (!p.isWired ·)) = none := by
        simp [sourceWired, targetsWired target]
      obtain ⟨m, accepted⟩ : ∃ m, observer ⟨source, none, some target⟩ p = .ok () m := by
        simp only [observer_eq, Change.blocks, Option.toList, List.nil_append, allWired]
        exact ⟨_, rfl⟩
      have sameWired := isWired_observer accepted
      obtain ⟨r, run, wired, counted⟩ := ih (p := m) (by rw [sameWired, sourceWired])
        (fun t member => by rw [sameWired, targetsWired t (List.mem_cons_of_mem _ member)])
      refine ⟨r, ?_, fun b => (wired b).trans (sameWired b), ?_⟩
      · rw [List.forM_eq_forM, List.forM_cons]
        simp only [bind, EStateM.bind, accepted]
        exact run
      · intro t q
        have first := multiplicity_observer accepted t q
        rw [counted, List.count_cons]
        simp only [Option.toList, List.count_nil, List.count_singleton, ite_self] at first
        by_cases same : source = q
        · simp only [same, ↓reduceIte] at first ⊢
          omega
        · simp only [same, ↓reduceIte] at first ⊢
          omega

end Predecessors

namespace Graph

variable {g : Graph} {b : Label} {table : JumpTable}

@[simp] theorem size_grow (g : Graph) : g.grow.size = g.size + 1 := by
  simp [grow, size]

/-- The new block comes last and is plain. -/
theorem getElem?_blocks_grow (g : Graph) (p : Label) :
    g.grow.blocks[p]? = if p = g.size then some ⟨g.size, none⟩ else g.blocks[p]? :=
  Array.getElem?_push

/-- The other blocks keep their tables. -/
theorem table_grow (other : b ≠ g.size) : g.grow.table b = g.table b := by
  simp only [Graph.table, Graph.block, getElem?_blocks_grow, other, ↓reduceIte]

/-- The new block is no switch. -/
theorem table_grow_self (g : Graph) :
    g.grow.table g.size = .error (.illegal (.notSwitch g.size)) := by
  rw [table_eq_notSwitch, getElem?_blocks_grow]
  exact ⟨⟨g.size, none⟩, if_pos rfl, rfl⟩

/-- The label of the new block is the number of blocks before it. -/
theorem labels_grow (g : Graph) : g.grow.labels = g.labels ++ [g.size] := by
  simp [labels, grow]

/-- The new block has no table, so every table is an old one. -/
theorem table_grow_eq_ok (g : Graph) (b : Label) (table : JumpTable) :
    g.grow.table b = .ok table ↔ g.table b = .ok table := by
  rw [table_eq_ok, table_eq_ok, getElem?_blocks_grow]
  split
  · next new =>
    subst new
    have none : g.blocks[g.size]? = none := Array.getElem?_eq_none (Nat.le_refl _)
    simp [none]
  · rfl

theorem targets_grow (g : Graph) (b : Label) : g.grow.targets b = g.targets b := by
  cases found : g.table b with
  | ok table =>
      rw [targets_of_table found, targets_of_table ((table_grow_eq_ok g b table).mpr found)]
  | error fault =>
      rw [targets_of_error found]
      cases new : g.grow.table b with
      | error other => exact targets_of_error new
      | ok table => simp [(table_grow_eq_ok g b table).mp new] at found

@[simp] theorem size_ofSize (count : Nat) : (ofSize count).size = count := by
  induction count with
  | zero => rfl
  | succ count ih =>
      show (ofSize count).grow.size = count + 1
      rw [size_grow, ih]

/-- The first blocks are all plain, and each of them carries its own label. -/
theorem getElem?_blocks_ofSize (count : Nat) (b : Label) :
    (ofSize count).blocks[b]? = if b < count then some ⟨b, none⟩ else none := by
  induction count with
  | zero => rfl
  | succ count ih =>
      show (ofSize count).grow.blocks[b]? = _
      rw [getElem?_blocks_grow, size_ofSize, ih]
      by_cases new : b = count
      · simp [new]
      · have old : b < count + 1 ↔ b < count := by rw [Nat.lt_succ_iff_lt_or_eq, or_iff_left new]
        simp only [new, old, ↓reduceIte]

theorem targets_ofSize (count : Nat) (b : Label) : (ofSize count).targets b = [] := by
  rcases found : (ofSize count).table b with fault | table
  · exact targets_of_error found
  · obtain ⟨block, here, owned⟩ := table_eq_ok.mp found
    rw [getElem?_blocks_ofSize] at here
    split at here
    · cases here
      cases owned
    · cases here

/-- So many blocks are there, and all of them are plain. -/
theorem table_ofSize_eq_notSwitch {count : Nat} :
    (ofSize count).table b = .error (.illegal (.notSwitch b)) ↔ b < count := by
  rw [table_eq_notSwitch, getElem?_blocks_ofSize]
  by_cases inside : b < count <;> simp [inside]

/-- A new block has neither entries nor counts. -/
theorem Sound.keeps_grow (sound : g.Sound) : g.Keeps g.grow where
  sound := {
    labelled := by
      intro p block here
      rw [getElem?_blocks_grow] at here
      split at here
      · cases here
        exact Eq.symm ‹_›
      · exact sound.labelled p block here
    wired := by
      intro p
      rw [size_grow, Nat.lt_succ_iff_lt_or_eq]
      simp only [grow, Predecessors.isWired_wire, Bool.or_eq_true, beq_iff_eq, sound.wired]
      rw [or_comm, eq_comm]
    owned := by
      intro p table there
      exact sound.owned p table ((table_grow_eq_ok g p table).mp there)
    closed := by
      intro p t present
      rw [targets_grow] at present
      rw [size_grow]
      exact Nat.lt_succ_of_lt (sound.closed p t present) }
  imbalance e := by
    simp only [imbalance, recorded, occurrences, targets_grow]
    simp only [grow, Predecessors.multiplicity_wire]

/-- A table fits a plain block when it has no owner yet and all its targets are wired. -/
theorem fitted_iff {owned : JumpTable} :
    g.fitted b table = .ok owned ↔
      g.table b = .error (.illegal (.notSwitch b)) ∧
        (∀ t ∈ table.targets, g.predecessors.isWired t = true) ∧ table.owner = none ∧
          owned = { table with owner := some b } := by
  have targetsWired : table.targets.find? (!g.predecessors.isWired ·) = none ↔
      ∀ t ∈ table.targets, g.predecessors.isWired t = true := by simp
  rw [table_eq_notSwitch, ← targetsWired]
  unfold fitted stray? Graph.block JumpTable.attach
  rcases g.blocks[b]? with _ | block
  · simp [bind, Except.bind]
  rcases switch : block.table with _ | current
  · rcases table.targets.find? (!g.predecessors.isWired ·) with _ | stray
    · rcases table.owner with _ | owner <;>
        simp [bind, Except.bind, Block.isSwitch, switch, eq_comm]
    · simp [bind, Except.bind, Block.isSwitch, switch, throw, throwThe, MonadExceptOf.throw]
  · simp [bind, Except.bind, Block.isSwitch, switch, throw, throwThe, MonadExceptOf.throw]

/-- A table that fits ends a plain block and leads to blocks. -/
theorem fitted_eq_ok {owned : JumpTable} (fits : g.fitted b table = .ok owned) :
    b < g.size ∧ g.targets b = [] ∧ (∀ t ∈ table.targets, g.predecessors.isWired t = true) ∧
      owned = { table with owner := some b } := by
  obtain ⟨plain, targetsWired, _, rfl⟩ := fitted_iff.mp fits
  exact ⟨lt_size_of_plain plain, targets_of_error plain, targetsWired, rfl⟩

/-- A table that fits is attached without refusal. -/
theorem Sound.attachSwitch_of_fitted (sound : g.Sound) {owned : JumpTable}
    (fits : g.fitted b table = .ok owned) :
    ∃ r, attachSwitch b table g = .ok () (g.put b ⟨owned, r⟩) ∧
      (∀ p, r.isWired p = g.predecessors.isWired p) ∧
      ∀ t q, r.multiplicity t q =
        g.predecessors.multiplicity t q + if b = q then owned.targets.count t else 0 := by
  obtain ⟨inside, _, targetsWired, rfl⟩ := fitted_eq_ok fits
  obtain ⟨r, run, wired, counted⟩ :=
    Predecessors.forM_gain ((sound.wired b).mpr inside) targetsWired
  refine ⟨r, ?_, wired, counted⟩
  have seen : (get : Step Graph Graph) g = .ok g g := rfl
  simp only [attachSwitch, bind, EStateM.bind, seen, fits, Step.ofExcept, pure, EStateM.pure,
    onPredecessors, run]
  rfl

/-- What does not fit is found before anything is counted. -/
theorem attachSwitch_of_error {fault : Fault} (misfit : g.fitted b table = .error fault) :
    attachSwitch b table g = .error fault g := by
  have seen : (get : Step Graph Graph) g = .ok g g := rfl
  simp only [attachSwitch, bind, EStateM.bind, seen, misfit, Step.ofExcept]
  rfl

/-- A switch counts as it lists, or it is refused. -/
theorem Sound.keeps_attachSwitch (sound : g.Sound) (b : Label) (table : JumpTable) :
    g.Keeps (Step.after (attachSwitch b table) g) := by
  cases fits : g.fitted b table with
  | error fault =>
      rw [Step.after_of_error (attachSwitch_of_error fits)]
      exact Keeps.refl sound
  | ok owned =>
      obtain ⟨r, run, sameWired, counted⟩ := sound.attachSwitch_of_fitted fits
      obtain ⟨inside, plain, targetsWired, rfl⟩ := fitted_eq_ok fits
      rw [Step.after_of_ok run]
      constructor
      · apply sound.put inside rfl sameWired
        intro t present
        exact (sound.wired t).mp (targetsWired t present)
      · apply imbalance_put inside
        · intro t q other
          simp [counted, Ne.symm other]
        · intro t
          simp [counted, plain]

/-- The block stays behind when its switch is refused. -/
theorem Sound.keeps_addSwitch (sound : g.Sound) (table : JumpTable) :
    g.Keeps (Step.after (addSwitch table) g) := by
  unfold addSwitch
  cases table.owner with
  | some owner => exact Keeps.refl sound
  | none =>
      have grown := sound.keeps_grow
      have attached := grown.sound.keeps_attachSwitch g.size table
      have left : Step.after (do let b ← addBlock; attachSwitch b table; return b) g =
          Step.after (attachSwitch g.size table) g.grow := by
        simp only [Step.after, addBlock, bind, EStateM.bind]
        cases attachSwitch g.size table g.grow <;> rfl
      exact left ▸ grown.trans attached

end Graph

end Switchyard
