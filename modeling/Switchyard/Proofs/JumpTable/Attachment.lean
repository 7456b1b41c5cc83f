import Switchyard.Proofs.JumpTable.Amendment

namespace Switchyard

variable {σ α : Type}

/-- The update names the missing owner as its fault, and all is as before. -/
def RefusedUnattached (update : Step (Observed σ) α) (s : Observed σ) : Prop :=
  update s = .error (.illegal .unattached) s

namespace Plan

variable {table : JumpTable} (unattached : table.owner = none)
include unattached

theorem ownerOf_unattached : ownerOf table = .error (.illegal .unattached) := by
  simp only [ownerOf, unattached]

/-- No amendment looks further than for the owner. -/
theorem propose_amendment_unattached (amendment : Amendment α) :
    amendment.plan.propose table = .error (.illegal .unattached) := by
  cases amendment <;>
    simp only [Amendment.plan, set, insert, removeAt, push, remove,
      ownerOf_unattached unattached] <;> rfl

/-- Even a table without targets has to have an owner before it is cleared. -/
theorem propose_clear_unattached : clear.propose table = .error (.illegal .unattached) := by
  simp only [clear, ownerOf_unattached unattached]
  rfl

/-- A first target asks for the owner. -/
theorem propose_extend_unattached {targets : List Label} (present : targets ≠ []) :
    (extend targets).propose table = .error (.illegal .unattached) := by
  simp only [extend, List.isEmpty_iff, present, ↓reduceIte, ownerOf_unattached unattached]
  rfl

end Plan

namespace JumpTable

/-- Without an owner every update is refused, whatever its arguments are. Only an extension by
nothing is not. As this holds of every observer, none of them is asked. -/
theorem refused_without_owner (observer : Observer σ) {table : JumpTable}
    (unattached : table.owner = none) (heard : σ) :
    (∀ {α : Type} (amendment : Amendment α),
        RefusedUnattached (amendment.perform observer) ⟨table, heard⟩) ∧
      RefusedUnattached (clear observer) ⟨table, heard⟩ ∧
      (∀ targets, targets ≠ [] → RefusedUnattached (extend observer targets) ⟨table, heard⟩) ∧
      extend observer [] ⟨table, heard⟩ = .ok () ⟨table, heard⟩ := by
  refine ⟨fun amendment => ?_, ?_, fun targets present => ?_, rfl⟩
  · rw [RefusedUnattached, amendment.perform_eq]
    exact Plan.carryOut_of_error observer (Plan.propose_amendment_unattached unattached amendment)
  · rw [RefusedUnattached, Plan.clear_eq]
    exact Plan.carryOut_of_error observer (Plan.propose_clear_unattached unattached)
  · rw [RefusedUnattached, Plan.extend_eq]
    exact Plan.carryOut_of_error observer (Plan.propose_extend_unattached unattached present)

/-- Neither an index out of range, nor an absent target, nor an empty table comes first, and nobody
is asked about them. -/
theorem refused_before_all_else :
    let start (targets : List Label) : Observed (Nat × List Change) := ⟨ofList targets, 1, []⟩
    let observer := Observer.limited.attentive
    (ofList [1, 2]).owner = none ∧
      RefusedUnattached (set observer 9 3) (start [1, 2]) ∧
      RefusedUnattached (remove observer 4) (start [1, 2]) ∧
      RefusedUnattached (extend observer [3]) (start [1, 2]) ∧
      RefusedUnattached (clear observer) (start []) := by
  intro start observer
  have unattached (targets : List Label) : (ofList targets).owner = none := rfl
  have filled := refused_without_owner observer (unattached [1, 2]) (1, [])
  have bare := refused_without_owner observer (unattached []) (1, [])
  exact ⟨rfl, filled.1 (.set 9 3), filled.1 (.remove 4), filled.2.2.1 [3] (by decide), bare.2.1⟩

/-- An extension by nothing ends well without an owner. -/
theorem extension_by_nothing_not_refused :
    ¬ ∀ (observer : Observer Unit) (table : JumpTable) (targets : List Label),
      table.owner = none → RefusedUnattached (extend observer targets) ⟨table, ()⟩ := by
  intro refused
  have silent := refused Observer.accepting (ofList [1, 2]) [] rfl
  cases silent

end JumpTable

end Switchyard
