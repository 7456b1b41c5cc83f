import Switchyard.Proofs.JumpTable.Plan

namespace Switchyard

variable {σ α : Type}

/-- The observed table without its log. -/
def Observed.unlogged (s : Observed (σ × Array Change)) : Observed σ := ⟨s.table, s.heard.1⟩

namespace Move

/-- The changes that are accepted before the first refusal. -/
def accepted (observer : Observer σ) : List Move → Observed σ → List Change
  | [], _ => []
  | move :: rest, s =>
      match move.make observer s with
      | .ok _ t => move.change :: accepted observer rest t
      | .error _ _ => []

/-- An accepted move is logged, and a refused one is not. -/
theorem make_logging (observer : Observer σ) (move : Move) (s : Observed (σ × Array Change)) :
    move.make observer.logging s =
      match move.make observer s.unlogged with
      | .ok _ t => .ok () ⟨t.table, t.heard, s.heard.2.push move.change⟩
      | .error fault t => .error fault ⟨t.table, t.heard, s.heard.2⟩ := by
  simp only [make, JumpTable.report, Observer.logging, Observed.unlogged]
  cases observer move.change s.heard.1 <;> rfl

/-- A walk is not changed by its log, and the log holds what was accepted of it. -/
theorem walk_logging (observer : Observer σ) (moves : List Move)
    (s : Observed (σ × Array Change)) :
    walk observer.logging moves s =
      match walk observer moves s.unlogged with
      | .ok _ t => .ok () ⟨t.table, t.heard, s.heard.2 ++ accepted observer moves s.unlogged⟩
      | .error fault t =>
          .error fault ⟨t.table, t.heard, s.heard.2 ++ accepted observer moves s.unlogged⟩ := by
  induction moves generalizing s with
  | nil => simp [accepted, Observed.unlogged, pure, EStateM.pure]
  | cons move rest ih =>
      simp only [walk_cons, accepted, bind, EStateM.bind, make_logging]
      cases made : move.make observer s.unlogged with
      | error fault t => simp
      | ok _ t =>
          simp only [ih, Observed.unlogged]
          cases walk observer rest ⟨t.table, t.heard⟩ <;> simp

/-- A walk to the end has every change accepted. -/
theorem accepted_of_walk {observer : Observer σ} {moves : List Move} {s t : Observed σ}
    (walked : walk observer moves s = .ok () t) :
    accepted observer moves s = moves.map Move.change := by
  induction moves generalizing s with
  | nil => rfl
  | cons move rest ih =>
      simp only [walk_cons, bind, EStateM.bind] at walked
      cases made : move.make observer s with
      | error fault u => simp [made] at walked
      | ok _ u =>
          simp only [made] at walked
          simp only [accepted, made, ih walked, List.map_cons]

end Move

namespace Plan

/-- The log of a plan that succeeds holds all its changes. -/
theorem logged_carryOut (plan : Plan α) (observer : Observer σ) :
    JumpTable.logged plan.carryOut observer =
      (plan.answering fun answer moves => (answer, moves.map Move.change)).carryOut observer := by
  funext s
  cases proposed : plan.propose s.table with
  | error fault =>
      rw [carryOut_of_error observer (propose_answering_error _ proposed)]
      simp only [JumpTable.logged,
        carryOut_of_error observer.logging (s := ⟨s.table, s.heard, #[]⟩) proposed]
  | ok found =>
      obtain ⟨answer, moves⟩ := found
      rw [carryOut_of_ok observer (propose_answering_ok _ proposed)]
      simp only [JumpTable.logged, bind, EStateM.bind, Move.walk_logging, Observed.unlogged,
        carryOut_of_ok observer.logging (s := ⟨s.table, s.heard, #[]⟩) proposed]
      cases walked : Move.walk observer moves s with
      | error fault t => rfl
      | ok _ t => simp [Move.accepted_of_walk walked, pure, EStateM.pure]

end Plan

end Switchyard
