import Switchyard.Proofs.Script.Grammar
import Switchyard.Proofs.Script.Run

namespace Switchyard.Script

variable {above below : String} {script : Script}

/-- The rows of both parts are read, and no row lies in both of them. -/
theorem read_append_eq_ok :
    read (above ++ "\n" ++ below) = .ok script ↔
      ∃ first second, read above = .ok first ∧ read below = .ok second ∧
        script = first ++ second := by
  simp only [read_eq_ok, Text.rows_append_lineFeed, Reading.forall₂_append_left_iff]

/-- The second script takes up the graph where the first one leaves it, unless the first one
fails. -/
theorem run_append (first second : Script) (g : Graph) :
    run (first ++ second) g =
      match run first g with
      | .error fault h => .error fault h
      | .ok told h =>
          match run second h with
          | .error fault k => .error fault k
          | .ok behind k => .ok (told ++ behind) k := by
  simp only [run, List.mapM_append, bind, EStateM.bind]
  rcases first.mapM runEdit g with ⟨told, h⟩ | ⟨fault, h⟩
  · simp only
    rcases second.mapM runEdit h with k | k <;> rfl
  · rfl

/-- A text is a script when both its parts are, and then it holds the edits of the first part in
front of those of the second. It runs as the parts run one after the other, to the same log and the
same graph. A part that fails leaves its own fault and its own graph behind. -/
theorem parts_run_in_turn (above below : String) (g : Graph) :
    (∀ script, read (above ++ "\n" ++ below) = .ok script ↔
      ∃ first second, read above = .ok first ∧ read below = .ok second ∧
        script = first ++ second) ∧
    ∀ first second : Script, run (first ++ second) g =
      match run first g with
      | .error fault h => .error fault h
      | .ok told h =>
          match run second h with
          | .error fault k => .error fault k
          | .ok behind k => .ok (told ++ behind) k :=
  ⟨fun _ => read_append_eq_ok, fun first second => run_append first second g⟩

end Switchyard.Script
