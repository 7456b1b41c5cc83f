import Switchyard.Fault

namespace Switchyard

/-- The owner loses an edge to `old` and gains one to `new`. -/
structure Change where
  owner : Label
  old : Option Label
  new : Option Label
deriving DecidableEq, Repr

namespace Change

/-- A change concerns its owner first, then the target it leaves, then the one it reaches. -/
def blocks (c : Change) : List Label := c.owner :: (c.old.toList ++ c.new.toList)

/-- A side that is absent has a word of its own. -/
def render (c : Change) : String :=
  toString c.owner ++ ": (" ++ Label.orNone c.old ++ ", " ++ Label.orNone c.new ++ ")"

/-- Diagnostics name each side of a change. -/
def debug (c : Change) : String :=
  "Notification \x7b owner: " ++ Label.tag c.owner ++ ", old: " ++ Label.tagOption c.old ++
    ", new: " ++ Label.tagOption c.new ++ " \x7d"

end Change

/-- A step ends with a value or a fault, and it leaves a state in either case. -/
abbrev Step (σ : Type) := EStateM Fault σ

/-- A fault found by reading alone does not move the state. -/
def Step.ofExcept {σ α : Type} : Except Fault α → Step σ α
  | .ok a => pure a
  | .error fault => throw fault

/-- An observer hears of each change and may refuse it. Its state may move either way. -/
abbrev Observer (σ : Type) := Change → Step σ Unit

/-- The log keeps each change that was accepted, and no other. -/
def Observer.logging {σ : Type} (observer : Observer σ) : Observer (σ × Array Change) :=
  fun change (state, log) =>
    match observer change state with
    | .ok _ state => .ok () (state, log.push change)
    | .error fault state => .error fault (state, log)

/-- The changes that are accepted are counted. -/
def Observer.counting {σ : Type} (observer : Observer σ) : Observer (σ × Nat) :=
  fun change (state, count) =>
    match observer change state with
    | .ok _ state => .ok () (state, count + 1)
    | .error fault state => .error fault (state, count)

/-- This observer accepts a number of changes and then none. -/
def Observer.limited : Observer Nat := fun change left =>
  match left with
  | 0 => .error (.illegal (.notWired change.owner)) 0
  | left + 1 => .ok () left

/-- This observer accepts every change. -/
def Observer.accepting : Observer Unit := fun _ _ => .ok () ()

end Switchyard
