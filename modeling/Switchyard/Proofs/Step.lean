import Switchyard.Change

namespace Switchyard.Step

variable {ε σ α β : Type}

/-- The state that a step leaves, whether it succeeds or fails. -/
def after (step : EStateM ε σ α) (s : σ) : σ :=
  match step s with
  | .ok _ s | .error _ s => s

/-- The value or the fault that a step ends with. -/
def outcome (step : EStateM ε σ α) (s : σ) : Except ε α :=
  match step s with
  | .ok a _ => .ok a
  | .error fault _ => .error fault

theorem after_of_ok {step : EStateM ε σ α} {s t : σ} {a : α} (ended : step s = .ok a t) :
    after step s = t := by
  simp only [after, ended]

theorem after_of_error {step : EStateM ε σ α} {s t : σ} {fault : ε}
    (failed : step s = .error fault t) : after step s = t := by
  simp only [after, failed]

theorem outcome_of_ok {step : EStateM ε σ α} {s t : σ} {a : α} (ended : step s = .ok a t) :
    outcome step s = .ok a := by
  simp only [outcome, ended]

theorem outcome_of_error {step : EStateM ε σ α} {s t : σ} {fault : ε}
    (failed : step s = .error fault t) : outcome step s = .error fault := by
  simp only [outcome, failed]

/-- A step that follows another one starts from what the first one left. -/
theorem after_bind (step : EStateM ε σ α) (next : α → EStateM ε σ β) (s : σ) :
    after (step >>= next) s =
      match outcome step s with
      | .ok a => after (next a) (after step s)
      | .error _ => after step s := by
  simp only [after, outcome, bind, EStateM.bind]
  cases step s <;> rfl

/-- The first fault is the fault of the sequence. -/
theorem outcome_bind (step : EStateM ε σ α) (next : α → EStateM ε σ β) (s : σ) :
    outcome (step >>= next) s =
      match outcome step s with
      | .ok a => outcome (next a) (after step s)
      | .error fault => .error fault := by
  simp only [after, outcome, bind, EStateM.bind]
  cases step s <;> rfl

/-- Two sequences agree from a state when their first steps do and their later steps agree wherever
the first ones lead. -/
theorem bind_apply_congr {first second : EStateM ε σ α} {next other : α → EStateM ε σ β}
    {s : σ} (same : first s = second s) (later : ∀ a t, second s = .ok a t → next a t = other a t) :
    (first >>= next) s = (second >>= other) s := by
  simp only [bind, EStateM.bind, same]
  cases ended : second s with
  | ok a t => exact later a t ended
  | error fault t => rfl

/-- A success is known by its value and the state behind it. -/
theorem eq_ok_iff {step : EStateM ε σ α} {s t : σ} {a : α} :
    step s = .ok a t ↔ outcome step s = .ok a ∧ after step s = t := by
  simp only [outcome, after]
  cases step s <;> simp

/-- A failure is known by its fault and the state behind it. -/
theorem eq_error_iff {step : EStateM ε σ α} {s t : σ} {fault : ε} :
    step s = .error fault t ↔ outcome step s = .error fault ∧ after step s = t := by
  simp only [outcome, after]
  cases step s <;> simp

end Switchyard.Step
