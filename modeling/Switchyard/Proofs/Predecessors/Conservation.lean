import Switchyard.Proofs.JumpTable.Exchange
import Switchyard.Proofs.Predecessors.Record

namespace Switchyard

/-- All that an update of one owner's table can do to the table and the counts. -/
structure Observed.Conserves (owner : Label) (s t : Observed Predecessors) : Prop where
  sameOwner : t.table.owner = s.table.owner
  sameWired : ∀ b, t.heard.isWired b = s.heard.isWired b
  /-- No other block's edges are touched. -/
  othersKept : ∀ target source, source ≠ owner →
    t.heard.multiplicity target source = s.heard.multiplicity target source
  /-- What is counted more is listed more. -/
  balance : ∀ target,
    t.heard.multiplicity target owner + s.table.targets.count target =
      s.heard.multiplicity target owner + t.table.targets.count target
  /-- A target that is new is a wired block. -/
  targetsKnown : ∀ target ∈ t.table.targets,
    target ∈ s.table.targets ∨ s.heard.isWired target = true

namespace Observed.Conserves

variable {owner : Label} {s t u : Observed Predecessors}

theorem refl (owner : Label) (s : Observed Predecessors) : Conserves owner s s where
  sameOwner := rfl
  sameWired _ := rfl
  othersKept _ _ _ := rfl
  balance _ := rfl
  targetsKnown _ present := Or.inl present

theorem trans (first : Conserves owner s t) (second : Conserves owner t u) :
    Conserves owner s u where
  sameOwner := second.sameOwner.trans first.sameOwner
  sameWired b := (second.sameWired b).trans (first.sameWired b)
  othersKept target source other :=
    (second.othersKept target source other).trans (first.othersKept target source other)
  balance target := by
    have before := first.balance target
    have later := second.balance target
    omega
  targetsKnown target present := by
    rcases second.targetsKnown target present with listed | wired
    · exact first.targetsKnown target listed
    · exact Or.inr ((first.sameWired target).symm.trans wired)

end Observed.Conserves

namespace Move

variable {owner : Label} {s t : Observed Predecessors}

/-- An accepted move is counted, and a refused one leaves targets and counts alone. -/
theorem make_cases (move : Move) (s : Observed Predecessors) :
    (∃ t, move.make Predecessors.observer s = .ok () t ∧
      Predecessors.observer move.change s.heard = .ok () t.heard ∧
      t.table.owner = s.table.owner ∧ t.table.targets = move.update s.table.targets) ∨
    (∃ fault t, move.make Predecessors.observer s = .error fault t ∧
      Predecessors.observer move.change s.heard = .error fault s.heard ∧ t.heard = s.heard ∧
      t.table.owner = s.table.owner ∧ t.table.targets = s.table.targets) := by
  simp only [make, JumpTable.report]
  rcases heard : Predecessors.observer move.change s.heard with ⟨_, r⟩ | ⟨fault, r⟩
  · left
    exact ⟨_, rfl, rfl, rfl, rfl⟩
  · right
    obtain rfl := Predecessors.observer_of_refused heard
    exact ⟨fault, _, rfl, rfl, rfl, rfl, rfl⟩

/-- A move that the counts accepted is counted as it is listed. -/
theorem conserves_of_accepted {move : Move} (speaks : move.change.owner = owner)
    (exchanged : move.change.Exchanges s.table.targets (move.update s.table.targets))
    (accepted : Predecessors.observer move.change s.heard = .ok () t.heard)
    (sameOwner : t.table.owner = s.table.owner)
    (moved : t.table.targets = move.update s.table.targets) : Observed.Conserves owner s t where
  sameOwner := sameOwner
  sameWired := Predecessors.isWired_observer accepted
  othersKept target source other := by
    have counted := Predecessors.multiplicity_observer accepted target source
    rw [speaks] at counted
    simpa [Ne.symm other] using counted
  balance target := by
    have counted := Predecessors.multiplicity_observer accepted target owner
    have listed := exchanged.count target
    rw [← moved] at listed
    simp only [speaks, ↓reduceIte] at counted
    omega
  targetsKnown target present := by
    rw [moved] at present
    rcases exchanged.mem_later present with listed | new
    · exact Or.inl listed
    · right
      apply (Predecessors.observer_cases accepted).1
      simp [Change.blocks, new]

/-- A move conserves, whatever the counts say. -/
theorem make_conserves {move : Move} (speaks : move.change.owner = owner)
    (exchanged : move.change.Exchanges s.table.targets (move.update s.table.targets)) :
    Observed.Conserves owner s (Step.after (move.make Predecessors.observer) s) := by
  rcases move.make_cases s with
    ⟨t, made, accepted, sameOwner, moved⟩ | ⟨fault, t, made, _, heard, sameOwner, targets⟩
  · rw [Step.after_of_ok made]
    exact conserves_of_accepted speaks exchanged accepted sameOwner moved
  · rw [Step.after_of_error made]
    -- A refusal shows neither in the counts nor in the targets.
    exact {
      sameOwner := sameOwner
      sameWired := fun _ => by rw [heard]
      othersKept := fun _ _ _ => by rw [heard]
      balance := fun _ => by rw [heard, targets]
      targetsKnown := fun _ present => Or.inl (targets ▸ present) }

/-- The induction is on the moves that are left, and each one starts where the last one ended. -/
theorem walk_conserves {moves : List Move} (faithful : Faithful owner s.table.targets moves) :
    Observed.Conserves owner s (Step.after (walk Predecessors.observer moves) s) := by
  induction moves generalizing s with
  | nil => exact Observed.Conserves.refl owner s
  | cons move rest ih =>
      obtain ⟨⟨speaks, exchanged⟩, later⟩ := faithful
      have first := make_conserves speaks exchanged
      rw [walk_cons, Step.after_bind]
      rcases move.make_cases s with ⟨t, made, _, _, moved⟩ | ⟨fault, t, made, _⟩
      · rw [Step.after_of_ok made] at first
        rw [Step.outcome_of_ok made, Step.after_of_ok made]
        exact first.trans (ih (moved ▸ later))
      · rw [Step.after_of_error made] at first
        rw [Step.outcome_of_error made, Step.after_of_error made]
        exact first

end Move

/-- An update of an attached table keeps the difference between what is counted and what is listed.
-/
theorem Plan.carryOut_conserves {α : Type} {plan : Plan α} {owner : Label}
    {s : Observed Predecessors} (faithful : plan.Faithful)
    (attached : s.table.owner = some owner) :
    Observed.Conserves owner s (Step.after (plan.carryOut Predecessors.observer) s) := by
  rw [after_carryOut]
  cases proposed : plan.propose s.table with
  | error fault => exact Observed.Conserves.refl owner s
  | ok found => exact Move.walk_conserves (faithful attached proposed)

end Switchyard
