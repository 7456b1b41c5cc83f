import Switchyard.Proofs.Step
import Switchyard.Script

namespace Switchyard.Script

variable {edit : Edit} {rest : Script} {g h : Graph}

/-- An edit that fails ends the run. -/
theorem run_cons_error {cause : Fault} (failed : edit.apply g = .error cause h) :
    run (edit :: rest) g = .error ⟨edit, cause⟩ h := by
  simp only [run, List.mapM_cons, runEdit, EStateM.adaptExcept, bind, EStateM.bind, failed]

/-- Behind an edit that succeeds the others run on what it left. -/
theorem run_cons_ok {changes : List Change} (applied : edit.apply g = .ok changes h) :
    run (edit :: rest) g =
      match run rest h with
      | .ok behind last => .ok (⟨edit, changes⟩ :: behind) last
      | .error fault last => .error fault last := by
  simp only [run, List.mapM_cons, runEdit, EStateM.adaptExcept, bind, EStateM.bind, applied, pure,
    EStateM.pure]
  cases List.mapM runEdit rest h <;> rfl

/-- A run succeeds when its first edit does and the others do behind it. -/
theorem run_cons_eq_ok {told : List Applied} :
    run (edit :: rest) g = .ok told h ↔
      ∃ changes k behind, edit.apply g = .ok changes k ∧ run rest k = .ok behind h ∧
        told = ⟨edit, changes⟩ :: behind := by
  constructor
  · intro ran
    cases applied : edit.apply g with
    | error cause k => simp [run_cons_error applied] at ran
    | ok changes k =>
        rw [run_cons_ok applied] at ran
        cases later : run rest k with
        | error fault last => simp [later] at ran
        | ok behind last =>
            simp only [later, EStateM.Result.ok.injEq] at ran
            obtain ⟨rfl, rfl⟩ := ran
            exact ⟨changes, k, behind, rfl, later, rfl⟩
  · rintro ⟨changes, k, behind, applied, later, rfl⟩
    rw [run_cons_ok applied, later]

/-- The edits before a failure count as much as those of a script that ends well. -/
theorem after_run_cons (edit : Edit) (rest : Script) (g : Graph) :
    Step.after (run (edit :: rest)) g =
      match edit.apply g with
      | .ok _ h => Step.after (run rest) h
      | .error _ h => h := by
  cases applied : edit.apply g with
  | error cause h => simp only [Step.after, run_cons_error applied]
  | ok changes h =>
      simp only [Step.after, run_cons_ok applied]
      cases run rest h <;> rfl

end Switchyard.Script
