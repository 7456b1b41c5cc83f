import Switchyard.Proofs.Predecessors.Conservation

namespace Switchyard

variable {owner : Label} {s : Observed Predecessors}

/-- The table belongs to a wired block, lists wired blocks, and its edges are counted as listed. -/
structure Observed.Even (owner : Label) (s : Observed Predecessors) : Prop where
  attached : s.table.owner = some owner
  ownerWired : s.heard.isWired owner = true
  targetsWired : ∀ t ∈ s.table.targets, s.heard.isWired t = true
  counted : ∀ t, s.heard.multiplicity t owner = s.table.targets.count t

/-- Counts that agree with a table go on to agree with it. -/
theorem Observed.Even.of_conserves {t : Observed Predecessors} (even : s.Even owner)
    (conserved : Observed.Conserves owner s t) : t.Even owner where
  attached := conserved.sameOwner.trans even.attached
  ownerWired := (conserved.sameWired owner).trans even.ownerWired
  targetsWired target present := by
    rw [conserved.sameWired]
    rcases conserved.targetsKnown target present with listed | wired
    · exact even.targetsWired target listed
    · exact wired
  counted target := by
    have balance := conserved.balance target
    rw [even.counted] at balance
    omega

namespace Move

variable {move : Move} {moves : List Move}

/-- A move is refused for a stray target alone, for the edge that it takes away is counted. -/
theorem outcome_make_even (even : s.Even owner) (speaks : move.change.owner = owner)
    (exchanged : move.change.Exchanges s.table.targets (move.update s.table.targets)) :
    Step.outcome (move.make Predecessors.observer) s =
      match move.change.new.toList.find? (!s.heard.isWired ·) with
      | none => .ok ()
      | some stray => .error (.illegal (.notWired stray)) := by
  -- The owner and the old target are wired, so a stray block can only be the new one.
  have oldWired (t : Label) (old : move.change.old = some t) : s.heard.isWired t = true :=
    even.targetsWired t (exchanged.old_mem old)
  have blocks : move.change.blocks.find? (!s.heard.isWired ·) =
      move.change.new.toList.find? (!s.heard.isWired ·) := by
    simp only [Change.blocks, List.find?_cons, speaks, even.ownerWired, Bool.not_true,
      List.find?_append]
    cases old : move.change.old with
    | none => simp
    | some t => simp [oldWired t old]
  rw [outcome_make, Predecessors.outcome_observer, Change.verdict, blocks]
  cases move.change.new.toList.find? (!s.heard.isWired ·) with
  | some stray => rfl
  | none =>
      cases old : move.change.old with
      | none => rfl
      | some t =>
          have listed : 0 < s.table.targets.count t :=
            List.count_pos_iff.mpr (exchanged.old_mem old)
          have counted : s.heard.multiplicity t move.change.owner ≠ 0 := by
            rw [speaks, even.counted]
            exact Nat.ne_of_gt listed
          simp only [counted, ↓reduceIte]

/-- Moves that bring in no stray target are all accepted. -/
theorem walk_even (even : s.Even owner) (faithful : Faithful owner s.table.targets moves)
    (known : ∀ move ∈ moves, ∀ t, move.change.new = some t → s.heard.isWired t = true) :
    ∃ t, walk Predecessors.observer moves s = .ok () t ∧
      t.table.targets = result s.table.targets moves := by
  induction moves generalizing s with
  | nil => exact ⟨s, rfl, rfl⟩
  | cons move rest ih =>
      obtain ⟨⟨speaks, exchanged⟩, later⟩ := faithful
      -- The move is accepted, and the counts agree with the table again behind it.
      have newKnown : move.change.new.toList.find? (!s.heard.isWired ·) = none := by
        simpa using known move List.mem_cons_self
      have accepted := outcome_make_even even speaks exchanged
      have conserved := make_conserves speaks exchanged
      have moved := targets_after_make Predecessors.observer move s
      rw [newKnown] at accepted
      rw [accepted] at moved
      have made := Step.eq_ok_iff.mpr ⟨accepted, rfl⟩
      obtain ⟨t, walked, reached⟩ := ih (even.of_conserves conserved) (by rw [moved]; exact later)
        (fun other behind t new => by
          rw [conserved.sameWired]
          exact known other (List.mem_cons_of_mem _ behind) t new)
      refine ⟨t, ?_, ?_⟩
      · simp only [walk_cons, bind, EStateM.bind, made, walked]
      · rw [reached, moved]
        rfl

/-- A single move towards a stray target is refused, and nothing is left of it. -/
theorem walk_stray (even : s.Even owner) (faithful : Faithful owner s.table.targets [move])
    {stray : Label} (new : move.change.new = some stray)
    (unwired : s.heard.isWired stray = false) :
    ∃ t, walk Predecessors.observer [move] s = .error (.illegal (.notWired stray)) t ∧
      t.table.targets = s.table.targets := by
  obtain ⟨⟨speaks, exchanged⟩, _⟩ := faithful
  have refused := outcome_make_even even speaks exchanged
  have kept := targets_after_make Predecessors.observer move s
  simp only [new, Option.toList, List.find?_cons, unwired, Bool.not_false] at refused
  rw [refused] at kept
  have made := Step.eq_error_iff.mpr ⟨refused, rfl⟩
  refine ⟨_, ?_, kept⟩
  simp only [walk_cons, bind, EStateM.bind, made]

end Move

end Switchyard
