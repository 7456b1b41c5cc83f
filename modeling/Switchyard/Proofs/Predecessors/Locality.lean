import Switchyard.Proofs.Predecessors.Conservation

namespace Switchyard

/-- The two differ at most in the counts of other blocks. -/
structure Observed.Alike (owner : Label) (s t : Observed Predecessors) : Prop where
  tables : s.table = t.table
  wired : ∀ b, s.heard.isWired b = t.heard.isWired b
  counts : ∀ target, s.heard.multiplicity target owner = t.heard.multiplicity target owner

namespace Predecessors

variable {p q r : Predecessors} {change : Change}

/-- Predecessor counts that agree about the owner come to the same verdict. -/
theorem verdict_congr (wired : ∀ b, p.isWired b = q.isWired b)
    (counts : ∀ t, p.multiplicity t change.owner = q.multiplicity t change.owner) :
    change.verdict p.isWired (p.multiplicity · change.owner) =
      change.verdict q.isWired (q.multiplicity · change.owner) := by
  have sameWired : p.isWired = q.isWired := funext wired
  have sameCounts : (p.multiplicity · change.owner) = (q.multiplicity · change.owner) :=
    funext counts
  rw [sameWired, sameCounts]

end Predecessors

namespace Move

variable {owner : Label} {s t : Observed Predecessors} {move : Move} {moves : List Move}

/-- A move is judged by the wired blocks and the owner's own counts. -/
theorem outcome_make_alike (speaks : move.change.owner = owner) (alike : s.Alike owner t) :
    Step.outcome (move.make Predecessors.observer) s =
      Step.outcome (move.make Predecessors.observer) t := by
  subst speaks
  rw [outcome_make, outcome_make, Predecessors.outcome_observer, Predecessors.outcome_observer]
  exact Predecessors.verdict_congr alike.wired alike.counts

/-- States that are alike for the owner stay so, whether the move is accepted or refused. -/
theorem after_make_alike (speaks : move.change.owner = owner) (alike : s.Alike owner t) :
    (Step.after (move.make Predecessors.observer) s).Alike owner
      (Step.after (move.make Predecessors.observer) t) := by
  subst speaks
  -- The verdict is the same on both sides, which leaves two of the four cases.
  have sameVerdict := Predecessors.verdict_congr alike.wired alike.counts
  rw [← Predecessors.outcome_observer, ← Predecessors.outcome_observer] at sameVerdict
  simp only [Step.after, make, JumpTable.report]
  rcases left : Predecessors.observer move.change s.heard with ⟨_, p⟩ | ⟨fault, p⟩
  · rw [Step.outcome_of_ok left] at sameVerdict
    rcases right : Predecessors.observer move.change t.heard with ⟨_, r⟩ | ⟨fault, r⟩
    · constructor
      · rw [alike.tables]
      · intro b
        rw [Predecessors.isWired_observer left, Predecessors.isWired_observer right, alike.wired]
      · intro target
        have fewer := Predecessors.multiplicity_observer left target move.change.owner
        have other := Predecessors.multiplicity_observer right target move.change.owner
        have same := alike.counts target
        dsimp only at same ⊢
        omega
    · rw [Step.outcome_of_error right] at sameVerdict
      cases sameVerdict
  · rw [Step.outcome_of_error left] at sameVerdict
    rcases right : Predecessors.observer move.change t.heard with ⟨_, r⟩ | ⟨fault, r⟩
    · rw [Step.outcome_of_ok right] at sameVerdict
      cases sameVerdict
    · obtain rfl := Predecessors.observer_of_refused left
      obtain rfl := Predecessors.observer_of_refused right
      exact ⟨by rw [alike.tables], alike.wired, alike.counts⟩

/-- The induction is on the moves that are left, and each one ends alike on both sides. -/
theorem walk_alike (speak : ∀ move ∈ moves, move.change.owner = owner) (alike : s.Alike owner t) :
    Step.outcome (walk Predecessors.observer moves) s =
        Step.outcome (walk Predecessors.observer moves) t ∧
      (Step.after (walk Predecessors.observer moves) s).Alike owner
        (Step.after (walk Predecessors.observer moves) t) := by
  induction moves generalizing s t with
  | nil => exact ⟨rfl, alike⟩
  | cons move rest ih =>
      have speaks := speak move List.mem_cons_self
      have sameOutcome := outcome_make_alike speaks alike
      have later := ih (fun other behind => speak other (List.mem_cons_of_mem _ behind))
        (after_make_alike speaks alike)
      rw [walk_cons, Step.outcome_bind, Step.outcome_bind, Step.after_bind, Step.after_bind,
        ← sameOutcome]
      cases Step.outcome (move.make Predecessors.observer) s with
      | ok _ => exact later
      | error fault => exact ⟨rfl, after_make_alike speaks alike⟩

end Move

/-- A plan sees the table alone, and its moves see the owner's share of the counts alone. -/
theorem Plan.carryOut_alike {α : Type} {plan : Plan α} {owner : Label}
    {s t : Observed Predecessors} (faithful : plan.Faithful) (attached : s.table.owner = some owner)
    (alike : s.Alike owner t) :
    Step.outcome (plan.carryOut Predecessors.observer) s =
        Step.outcome (plan.carryOut Predecessors.observer) t ∧
      (Step.after (plan.carryOut Predecessors.observer) s).Alike owner
        (Step.after (plan.carryOut Predecessors.observer) t) := by
  rw [outcome_carryOut, outcome_carryOut, after_carryOut, after_carryOut, ← alike.tables]
  cases proposed : plan.propose s.table with
  | error fault => exact ⟨rfl, alike⟩
  | ok found =>
      obtain ⟨answer, moves⟩ := found
      have speak := (faithful attached proposed).owner_eq
      obtain ⟨sameOutcome, later⟩ := Move.walk_alike speak alike
      exact ⟨congrArg (Except.map fun _ => answer) sameOutcome, later⟩

end Switchyard
