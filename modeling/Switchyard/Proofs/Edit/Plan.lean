import Switchyard.Proofs.JumpTable.Log

namespace Switchyard

variable {σ : Type}

/-- The plan of the update that the action asks for. -/
def Action.plan : Action → Plan Unit
  | .push target => Plan.push target
  | .insert index target => Plan.insert index target
  | .set index target => (Plan.set index target).answering fun _ _ => ()
  | .removeAt index => (Plan.removeAt index).answering fun _ _ => ()
  | .remove target => (Plan.remove target).answering fun _ _ => ()
  | .clear => Plan.clear

/-- An action is its plan. -/
theorem Action.perform_eq (action : Action) (observer : Observer σ) :
    action.perform observer = action.plan.carryOut observer := by
  cases action with
  | push target => exact Plan.push_eq observer target
  | insert index target => exact Plan.insert_eq observer index target
  | set index target => rw [perform, plan, Plan.set_eq, ← Plan.carryOut_map]; rfl
  | removeAt index => rw [perform, plan, Plan.removeAt_eq, ← Plan.carryOut_map]; rfl
  | remove target => rw [perform, plan, Plan.remove_eq, ← Plan.carryOut_map]; rfl
  | clear => exact Plan.clear_eq observer

/-- An edit answers with its changes. -/
def Edit.plan (edit : Edit) : Plan (List Change) :=
  edit.action.plan.answering fun _ moves => moves.map Move.change

/-- An edit carries out its plan on the table of its owner. -/
theorem Edit.apply_eq (edit : Edit) :
    edit.apply = Graph.onTable edit.owner (edit.plan.carryOut Predecessors.observer) := by
  have performed : (edit.action.perform : Observer (Predecessors × Array Change) → _) =
      edit.action.plan.carryOut := funext edit.action.perform_eq
  have answered := Plan.carryOut_map
    (edit.action.plan.answering fun answer moves => (answer, moves.map Move.change))
    Prod.snd Predecessors.observer
  rw [Plan.answering_answering] at answered
  rw [apply, performed, Plan.logged_carryOut, plan, ← answered]

/-- What can be asked of the table of a switch. -/
inductive Demand where
  | act (action : Action)
  | extend (targets : List Label)
deriving DecidableEq, Repr

namespace Demand

/-- A demand as the update of a table that it stands for. -/
def perform (demand : Demand) (observer : Observer σ) : Step (Observed σ) Unit :=
  match demand with
  | .act action => action.perform observer
  | .extend targets => JumpTable.extend observer targets

/-- The plan of that update. -/
def plan : Demand → Plan Unit
  | .act action => action.plan
  | .extend targets => Plan.extend targets

/-- A demand is its plan. -/
theorem perform_eq (demand : Demand) (observer : Observer σ) :
    demand.perform observer = demand.plan.carryOut observer := by
  cases demand with
  | act action => exact action.perform_eq observer
  | extend targets => exact Plan.extend_eq observer targets

end Demand

end Switchyard
