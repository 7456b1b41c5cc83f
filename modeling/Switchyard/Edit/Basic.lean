import Switchyard.Graph.Update

namespace Switchyard

/-- What is done to a table. -/
inductive Action where
  | push (target : Label)
  | insert (index : Nat) (target : Label)
  | set (index : Nat) (target : Label)
  | removeAt (index : Nat)
  /-- The first occurrence goes, if there is one. -/
  | remove (target : Label)
  | clear
deriving DecidableEq, Repr

/-- The answer of an update does not matter here, only its changes. -/
def Action.perform {σ : Type} (action : Action) (observer : Observer σ) :
    Step (Observed σ) Unit :=
  match action with
  | .push target => JumpTable.push observer target
  | .insert index target => JumpTable.insert observer index target
  | .set index target => discard (JumpTable.set observer index target)
  | .removeAt index => discard (JumpTable.removeAt observer index)
  | .remove target => discard (JumpTable.remove observer target)
  | .clear => JumpTable.clear observer

/-- An edit names a block and what is done to the jump table of its switch. -/
structure Edit where
  owner : Label
  action : Action
deriving DecidableEq, Repr

/-- The changes that the edit made are returned in order. -/
def Edit.apply (edit : Edit) : Step Graph (List Change) :=
  Graph.onTable edit.owner do
    let (_, changes) ← JumpTable.logged edit.action.perform Predecessors.observer
    return changes

end Switchyard
