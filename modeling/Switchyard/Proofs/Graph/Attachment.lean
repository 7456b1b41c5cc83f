import Switchyard.Proofs.Graph.Drift

namespace Switchyard.Graph

/-- What keeps a table from being attached to a block. Each cause counts only if none of those before
it applies. -/
inductive Misfit (g : Graph) (b : Label) (table : JumpTable) : Violation → Prop where
  | stranger (outside : g.size ≤ b) : Misfit g b table (.notWired b)
  | switched {current : JumpTable} (found : g.table b = .ok current) :
      Misfit g b table (.alreadyAttached b)
  /-- The first target that is no block is named. -/
  | stray {stray : Label} (plain : g.table b = .error (.illegal (.notSwitch b)))
      (first : table.targets.find? (g.size ≤ ·) = some stray) : Misfit g b table (.notWired stray)
  | owned {owner : Label} (plain : g.table b = .error (.illegal (.notSwitch b)))
      (inside : ∀ t ∈ table.targets, t < g.size) (taken : table.owner = some owner) :
      Misfit g b table (.alreadyAttached owner)

/-- The later graph has the table at this block, its edges are counted in addition, and nothing else
is different. -/
structure Attaches (g : Graph) (b : Label) (table : JumpTable) (h : Graph) : Prop where
  labels : h.labels = g.labels
  switched : h.table b = .ok { table with owner := some b }
  others : ∀ p, p ≠ b → h.table p = g.table p
  sameWired : ∀ p, h.predecessors.isWired p = g.predecessors.isWired p
  counted : ∀ target p, h.predecessors.multiplicity target p =
    g.predecessors.multiplicity target p + if p = b then table.targets.count target else 0

/-- The later graph has one block more, which is a switch over these targets and has its edges
counted. -/
structure Opens (g : Graph) (table : JumpTable) (h : Graph) : Prop where
  labels : h.labels = g.labels ++ [g.size]
  switched : h.table g.size = .ok { table with owner := some g.size }
  others : ∀ p, p ≠ g.size → h.table p = g.table p
  wired : ∀ p, h.predecessors.isWired p = (g.size == p || g.predecessors.isWired p)
  counted : ∀ target p, h.predecessors.multiplicity target p =
    g.predecessors.multiplicity target p + if p = g.size then table.targets.count target else 0

variable {g h : Graph} {b p : Label} {table : JumpTable} {violation : Violation}

/-- A stray target is one that is no position of a block. -/
theorem Sound.stray?_eq (sound : g.Sound) (table : JumpTable) :
    g.stray? table = table.targets.find? (g.size ≤ ·) := by
  rw [stray?]
  congr 1
  funext t
  rw [Bool.eq_iff_iff, decide_eq_true_iff, Bool.not_eq_true', ← Bool.not_eq_true, sound.wired]
  exact Nat.not_lt

/-- No target is stray when all of them are blocks. -/
theorem Sound.stray?_eq_none (sound : g.Sound) :
    g.stray? table = none ↔ ∀ t ∈ table.targets, t < g.size := by
  simp [sound.stray?_eq]

/-- A plain block is looked at for strays first and for an owner of the table then. -/
theorem fitted_of_plain (plain : g.table b = .error (.illegal (.notSwitch b))) :
    g.fitted b table =
      match g.stray? table with
      | some stray => .error (.illegal (.notWired stray))
      | none => table.attach b := by
  obtain ⟨block, here, bare⟩ := table_eq_notSwitch.mp plain
  simp only [fitted, Graph.block, here, bind, Except.bind, Block.isSwitch, bare]
  rfl

/-- The first cause in order is the one that is named. -/
theorem Sound.fitted_of_misfit (sound : g.Sound) (misfit : g.Misfit b table violation) :
    g.fitted b table = .error (.illegal violation) := by
  cases misfit with
  | stranger outside =>
      have absent : g.blocks[b]? = none := Array.getElem?_eq_none outside
      simp only [fitted, Graph.block, absent]
      rfl
  | switched found =>
      obtain ⟨block, here, switch⟩ := table_eq_ok.mp found
      simp only [fitted, Graph.block, here, bind, Except.bind, Block.isSwitch, switch]
      rfl
  | stray plain first => rw [fitted_of_plain plain, sound.stray?_eq, first]
  | owned plain inside taken =>
      rw [fitted_of_plain plain, sound.stray?_eq_none.mpr inside]
      simp only [JumpTable.attach, taken]

/-- A table that no cause speaks against is given to the block. -/
theorem Sound.fitted_of_no_misfit (sound : g.Sound) (fits : ∀ v, ¬ g.Misfit b table v) :
    g.fitted b table = .ok { table with owner := some b } := by
  rcases g.table_cases b with outside | ⟨current, found⟩ | plain
  · exact absurd (.stranger outside) (fits _)
  · exact absurd (.switched found) (fits _)
  · cases first : table.targets.find? (g.size ≤ ·) with
    | some stray => exact absurd (.stray plain first) (fits _)
    | none =>
        have inside : ∀ t ∈ table.targets, t < g.size := by simpa using first
        cases taken : table.owner with
        | some owner => exact absurd (.owned plain inside taken) (fits _)
        | none =>
            have targetsWired (t : Label) (present : t ∈ table.targets) :=
              (sound.wired t).mpr (inside t present)
            exact fitted_iff.mpr ⟨plain, targetsWired, taken, rfl⟩

/-- Once a table fits, no count refuses any of its targets. -/
theorem Sound.attaches (sound : g.Sound) (fits : ∀ v, ¬ g.Misfit b table v) :
    ∃ h, attachSwitch b table g = .ok () h ∧ g.Attaches b table h := by
  have fitted := sound.fitted_of_no_misfit fits
  obtain ⟨r, attached, sameWired, counted⟩ := sound.attachSwitch_of_fitted fitted
  have inside := (fitted_eq_ok fitted).1
  have later : (g.put b ⟨{ table with owner := some b }, r⟩).Sound := by
    have kept := sound.keeps_attachSwitch b table
    rw [Step.after_of_ok attached] at kept
    exact kept.sound
  refine ⟨_, attached, {
    labels := ?_
    switched := table_put_self inside _
    others := fun p other => table_put_ne g _ other
    sameWired := sameWired
    counted := fun target p => ?_ }⟩
  · rw [later.labels_eq, sound.labels_eq, size_put]
  · rw [predecessors_put, counted]
    simp only [eq_comm]

/-- A table that does not fit leaves the graph as it was. -/
theorem Sound.attachSwitch_of_misfit (sound : g.Sound) (misfit : g.Misfit b table violation) :
    attachSwitch b table g = .error (.illegal violation) g :=
  attachSwitch_of_error (sound.fitted_of_misfit misfit)

/-- A refusal names the first cause and changes nothing, and without a cause there is no refusal.
This holds however far tables and counts are apart. -/
theorem Disturbed.attached_or_untouched (reached : g.Disturbed) (b : Label) (table : JumpTable) :
    (∀ v, g.Misfit b table v → attachSwitch b table g = .error (.illegal v) g) ∧
      ((∀ v, ¬ g.Misfit b table v) →
        ∃ h, attachSwitch b table g = .ok () h ∧ g.Attaches b table h) :=
  ⟨fun _ => reached.sound.attachSwitch_of_misfit, reached.sound.attaches⟩

/-- A switch has one edge counted too few. The same table is refused three times for three reasons,
and one that names its own block twice is attached. -/
theorem attachments_to_drifted_graph :
    let g := Step.after (onPredecessors (Predecessors.observer ⟨0, some 1, none⟩))
      (Request.after (.attachSwitch 0 (.ofList [1, 1])) (ofSize 3))
    let owned (targets : List Label) : JumpTable := { JumpTable.ofList targets with owner := some 0 }
    g.predecessors.multiplicity 1 0 = 1 ∧
      attachSwitch 3 (owned [1, 9]) g = .error (.illegal (.notWired 3)) g ∧
      attachSwitch 0 (owned [1, 9]) g = .error (.illegal (.alreadyAttached 0)) g ∧
      attachSwitch 1 (owned [1, 9]) g = .error (.illegal (.notWired 9)) g ∧
      attachSwitch 1 (owned [1, 2]) g = .error (.illegal (.alreadyAttached 0)) g ∧
      ∃ h, attachSwitch 1 (.ofList [1, 2, 1]) g = .ok () h ∧
        g.Attaches 1 (.ofList [1, 2, 1]) h := by
  intro g owned
  have reached : g.Disturbed := .report _ (.request _ (.initial (.ofSize 3)))
  have plain : g.table 1 = .error (.illegal (.notSwitch 1)) := rfl
  refine ⟨by decide, ?_, ?_, ?_, ?_, ?_⟩
  · exact (reached.attached_or_untouched 3 (owned [1, 9])).1 _ (.stranger (by decide))
  · exact (reached.attached_or_untouched 0 (owned [1, 9])).1 _ (.switched rfl)
  · exact (reached.attached_or_untouched 1 (owned [1, 9])).1 _ (.stray plain (by decide))
  · exact (reached.attached_or_untouched 1 (owned [1, 2])).1 _ (.owned plain (by decide) rfl)
  · apply (reached.attached_or_untouched 1 (.ofList [1, 2, 1])).2
    intro v misfit
    cases misfit with
    | stranger outside => exact absurd outside (by decide)
    | switched found => cases plain.symm.trans found
    | stray _ first => cases first
    | owned _ _ taken => cases taken

/-- A switch at the new block is all that the grown graph lacks. -/
theorem Attaches.opens (attached : g.grow.Attaches g.size table h) : g.Opens table h where
  labels := attached.labels.trans g.labels_grow
  switched := attached.switched
  others p other := (attached.others p other).trans (table_grow other)
  wired p := by rw [attached.sameWired, grow, Predecessors.isWired_wire]
  counted target p := by rw [attached.counted, grow, Predecessors.multiplicity_wire]

/-- The new block is plain, so only a stray target can be in the way of a table without owner. -/
theorem misfit_grow_iff (free : table.owner = none) :
    g.grow.Misfit g.size table violation ↔
      ∃ stray, table.targets.find? (g.size < ·) = some stray ∧ violation = .notWired stray := by
  have plain := g.table_grow_self
  have beyond : (fun t => decide (g.grow.size ≤ t)) = fun t => decide (g.size < t) := by
    funext t
    rw [size_grow, decide_eq_decide, Nat.succ_le_iff]
  rw [← beyond]
  constructor
  · intro misfit
    cases misfit with
    | stranger outside => exact absurd (lt_size_of_plain plain) (Nat.not_lt.mpr outside)
    | switched found => cases plain.symm.trans found
    | stray _ first => exact ⟨_, first, rfl⟩
    | owned _ _ taken => cases free.symm.trans taken
  · rintro ⟨stray, first, rfl⟩
    exact .stray plain first

/-- A table without owner goes to the new block, which is there whether it fits or not. -/
theorem addSwitch_of_free (free : table.owner = none) (g : Graph) :
    addSwitch table g =
      match attachSwitch g.size table g.grow with
      | .ok () h => .ok g.size h
      | .error fault h => .error fault h := by
  simp only [addSwitch, free, addBlock, bind, EStateM.bind]
  cases attachSwitch g.size table g.grow <;> rfl

/-- A switch is added together with its block. A table with an owner is refused and leaves the graph
as it was, but a table with a stray target leaves the plain block behind. -/
theorem Disturbed.added_or_grown (reached : g.Disturbed) (table : JumpTable) :
    match table.owner, table.targets.find? (g.size < ·) with
    | some owner, _ => addSwitch table g = .error (.illegal (.alreadyAttached owner)) g
    | none, some stray => addSwitch table g = .error (.illegal (.notWired stray)) g.grow
    | none, none => ∃ h, addSwitch table g = .ok g.size h ∧ g.Opens table h := by
  have grown := reached.sound.keeps_grow.sound
  cases free : table.owner with
  | some owner =>
      simp only [addSwitch, free]
      rfl
  | none =>
      rw [addSwitch_of_free free]
      cases first : table.targets.find? (g.size < ·) with
      | some stray =>
          have misfit : g.grow.Misfit g.size table (.notWired stray) :=
            (misfit_grow_iff free).mpr ⟨stray, first, rfl⟩
          simp only [grown.attachSwitch_of_misfit misfit]
      | none =>
          have fits (v : Violation) : ¬ g.grow.Misfit g.size table v := by
            intro misfit
            obtain ⟨stray, found, _⟩ := (misfit_grow_iff free).mp misfit
            cases first.symm.trans found
          obtain ⟨h, attached, effect⟩ := grown.attaches fits
          exact ⟨h, by simp only [attached], effect.opens⟩

/-- A graph with a loop takes a switch that leads to its own block, and it refuses two others. -/
theorem additions_to_looping_graph :
    let g := Request.after (.attachSwitch 0 (.ofList [0, 1])) (ofSize 2)
    let owned : JumpTable := { JumpTable.ofList [7] with owner := some 0 }
    addSwitch owned g = .error (.illegal (.alreadyAttached 0)) g ∧
      addSwitch (.ofList [0, 7]) g = .error (.illegal (.notWired 7)) g.grow ∧
      ∃ h, addSwitch (.ofList [2, 0, 2]) g = .ok 2 h ∧ g.Opens (.ofList [2, 0, 2]) h := by
  intro g owned
  have reached : g.Disturbed := .request _ (.initial (.ofSize 2))
  exact ⟨reached.added_or_grown owned, reached.added_or_grown (.ofList [0, 7]),
    reached.added_or_grown (.ofList [2, 0, 2])⟩

/-- A refused switch leaves its block behind, so the graph is not what it was. -/
theorem refused_switch_leaves_block :
    ¬ ∀ (g h : Graph) (table : JumpTable) (fault : Fault), g.Reachable →
      addSwitch table g = .error fault h → h.size = g.size := by
  intro kept
  have reached : (ofSize 2).Reachable := .initial (.ofSize 2)
  have refused : addSwitch (.ofList [0, 7]) (ofSize 2) =
      .error (.illegal (.notWired 7)) (ofSize 2).grow := rfl
  have same := kept _ _ _ _ reached refused
  rw [size_grow] at same
  exact Nat.succ_ne_self _ same

end Switchyard.Graph
